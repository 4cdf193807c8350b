import Aspis.Pool.Spend
import Aspis.Wallet.ScanImage

/-! The durable wallet. Beside the scan cursor it stores the sealed notes with
their spent markers and the prepared plans, the latter as a base and a list of
plan events that is replayed over it. Every call works on copies, writes one
image and only then changes the state in memory. -/

namespace Aspis.Wallet

open Lib Statement Pool

/-! ### Records -/

inductive SealedNoteAccessV1
  | viewOnly
  | spendable
  deriving DecidableEq, Repr

structure SealedRecoveredNoteV1 where
  eventId : DepositEventIdV1
  access : SealedNoteAccessV1
  sealedNote : Bytes
  deriving DecidableEq

structure SpentNoteMarkerV1 where
  transitionOutputId : DepositEventIdV1
  nullifier : Bytes32
  deriving DecidableEq

structure StoredSealedNoteV1 where
  eventId : DepositEventIdV1
  access : SealedNoteAccessV1
  sealedNote : Bytes
  spent : Option SpentNoteMarkerV1
  deriving DecidableEq

structure AuthenticatedSpentNoteUpdateV1 where
  inputEventId : DepositEventIdV1
  transitionOutputId : DepositEventIdV1
  nullifier : Bytes32

structure AuthenticatedPreparedSettlementV1 where
  id : DepositEventIdV1
  transitionKind : PoolV1TransitionKind
  sourceRootSequence : UInt64
  notBeforeSlot : UInt64
  expiresAtSlot : UInt64
  planAuthority : Bytes32
  authorizationReceipt : Bytes32
  verifierRegistry : Bytes32
  verifierEntry : Bytes32
  verifierProfile : Bytes32
  verifierRelease : Bytes32
  corePlan : Bytes32
  rolloverPage : Option Bytes32
  rolloverShard : Option Bytes32
  deriving DecidableEq

structure AuthenticatedPreparedSettlementPlanIdentityV1 where
  planAuthority : Bytes32
  corePlan : Bytes32
  rolloverShard : Option Bytes32
  deriving DecidableEq

structure AuthenticatedCancelledSettlementV1 where
  id : DepositEventIdV1
  planAuthority : Bytes32
  corePlan : Bytes32
  rolloverShard : Option Bytes32
  deriving DecidableEq

inductive FinalizedPreparedSettlementLifecycleV1
  | prepared (plan : AuthenticatedPreparedSettlementV1)
  | settled (id : DepositEventIdV1) (plan : AuthenticatedPreparedSettlementPlanIdentityV1)
  | cancelled (cancelled : AuthenticatedCancelledSettlementV1)
  deriving DecidableEq

structure FinalizedTransitionEvidenceV1 where
  receipt : TransitionReceiptV1
  outputIds : List DepositEventIdV1
  settledPlan : Option AuthenticatedPreparedSettlementPlanIdentityV1

structure HistoricalRootEvidenceV1 where
  eventId : DepositEventIdV1
  rootSequence : ℕ
  root : Bytes32

/-- What the ingestion of one finalized block reports. -/
structure FinalizedBlockIngestResultV1 (WalletError : Type) where
  advance : FinalizedBlockAdvanceV1
  rollback : Option RollbackSummaryV1
  depositEventIds : List DepositEventIdV1
  depositOutcomes : List (DepositScanOutcomeV1 WalletError)
  transitionOutcomes : List PublicOutputScanOutcomeV1
  transitionEvidence : List FinalizedTransitionEvidenceV1
  appendEvidence : List FinalizedAppendEvidenceV1
  preparedSettlements : List AuthenticatedPreparedSettlementV1
  cancelledSettlements : List AuthenticatedCancelledSettlementV1
  planLifecycle : List FinalizedPreparedSettlementLifecycleV1
  rootEvidence : List HistoricalRootEvidenceV1

/-- The errors of the wallet's half of the durable store. -/
inductive DurableStateErrorV1
  | invalidPath
  | unsafePath
  | insecurePermissions
  | io
  | imageTooLarge
  | truncated
  | countOverflow
  | duplicateRecord
  | cipherMismatch
  | cipherRotationMismatch
  | invalidCipherId
  | invalidSealedNote
  | missingRecoveredNote
  | unexpectedRecoveredNote
  | recoveredAccessMismatch
  | candidateStateMismatch
  | invalidRollback
  | invalidSpendUpdate
  | invalidPlanLifecycle
  | spendNotAuthorized
  | alreadySpentDifferently
  | scanState (error : ScanStateErrorV1)
  deriving DecidableEq, Repr

inductive RelayerEnqueueOutcomeV1
  | inserted
  | alreadyPresent
  deriving DecidableEq, Repr

structure DurableWalletStateV1 where
  scanState : ScanStateV1
  noteCipherId : Bytes32
  notes : List StoredSealedNoteV1
  basePreparedPlans : List AuthenticatedPreparedSettlementV1
  preparedPlanLifecycle : List FinalizedPreparedSettlementLifecycleV1
  activePreparedPlans : List AuthenticatedPreparedSettlementV1
  deriving DecidableEq

def MAX_DURABLE_IMAGE_BYTES : ℕ := 64 * 1024 * 1024

def MAX_SEALED_NOTE_BYTES : ℕ := 1024 * 1024

def MAX_NOTE_RECORDS : ℕ := 1000000

def MAX_PLAN_LIFECYCLE_RECORDS : ℕ := 1000000

def WALLET_HEADER_BYTES : ℕ := 88

def PLAN_LIFECYCLE_HEADER_BYTES : ℕ := 16

def PLAN_LIFECYCLE_RECORD_BYTES : ℕ := 428

def CHECKSUM_OFFSET : ℕ := 56

instance (s : ScanStateV1) (point : FinalizedChainPointV1) : Decidable (s.retainsChainPointV1 point) :=
  inferInstanceAs (Decidable (_ ∨ ∃ c ∈ s.blocks, c.block.point = point))

/-! ### Prepared plans -/

def planLifecycleEventIdV1 : FinalizedPreparedSettlementLifecycleV1 → DepositEventIdV1
  | .prepared plan => plan.id
  | .settled id _ => id
  | .cancelled cancelled => cancelled.id

def preparedPlanIdentityV1 (plan : AuthenticatedPreparedSettlementV1) : AuthenticatedPreparedSettlementPlanIdentityV1 :=
  ⟨plan.planAuthority, plan.corePlan, plan.rolloverShard⟩

/-- Closing a plan that was never seen is accepted: the wallet may have begun to scan after it was opened. -/
def closePreparedPlanV1 (active : List AuthenticatedPreparedSettlementV1)
    (identity : AuthenticatedPreparedSettlementPlanIdentityV1) :
    Except DurableStateErrorV1 (List AuthenticatedPreparedSettlementV1) := do
  require (identity.planAuthority ≠ Bytes32.zero ∧ identity.corePlan ≠ Bytes32.zero) .invalidPlanLifecycle
  match active.find? (·.corePlan = identity.corePlan) with
  | none => return active
  | some plan =>
    require (preparedPlanIdentityV1 plan = identity) .invalidPlanLifecycle
    return active.eraseP (·.corePlan = identity.corePlan)

def applyPreparedPlanLifecycleEventV1 (active : List AuthenticatedPreparedSettlementV1) :
    FinalizedPreparedSettlementLifecycleV1 → Except DurableStateErrorV1 (List AuthenticatedPreparedSettlementV1)
  | .prepared plan => do
    require (¬ (plan.planAuthority = Bytes32.zero ∨ plan.authorizationReceipt = Bytes32.zero ∨
      plan.verifierRegistry = Bytes32.zero ∨ plan.verifierEntry = Bytes32.zero ∨ plan.corePlan = Bytes32.zero ∨
      plan.expiresAtSlot < plan.notBeforeSlot ∨ plan.rolloverPage.isSome ≠ plan.rolloverShard.isSome))
      .invalidPlanLifecycle
    require (¬ ∃ existing ∈ active, existing.corePlan = plan.corePlan) .invalidPlanLifecycle
    return active ++ [plan]
  | .settled _ plan => closePreparedPlanV1 active plan
  | .cancelled cancelled =>
    closePreparedPlanV1 active ⟨cancelled.planAuthority, cancelled.corePlan, cancelled.rolloverShard⟩

/-- The plans in the order of their core accounts. -/
def sortByCorePlan (plans : List AuthenticatedPreparedSettlementV1) : List AuthenticatedPreparedSettlementV1 :=
  plans.mergeSort fun a b => !decide (b.corePlan.bytes < a.corePlan.bytes)

/-- One event over the plans so far and the identities already seen. -/
def replayEvent (acc : List AuthenticatedPreparedSettlementV1 × List DepositEventIdV1)
    (event : FinalizedPreparedSettlementLifecycleV1) :
    Except DurableStateErrorV1 (List AuthenticatedPreparedSettlementV1 × List DepositEventIdV1) := do
  require (planLifecycleEventIdV1 event ∉ acc.2) .duplicateRecord
  let active ← applyPreparedPlanLifecycleEventV1 acc.1 event
  return (active, planLifecycleEventIdV1 event :: acc.2)

/-- The answer is sorted, the base is not. -/
def replayPreparedPlanLifecycleV1 (base : List AuthenticatedPreparedSettlementV1)
    (lifecycle : List FinalizedPreparedSettlementLifecycleV1) :
    Except DurableStateErrorV1 (List AuthenticatedPreparedSettlementV1) := do
  require ((base.map (·.corePlan)).Nodup) .duplicateRecord
  let replayed ← lifecycle.foldlM replayEvent (base, [])
  return sortByCorePlan replayed.1

namespace FinalizedPreparedSettlementLifecycleV1

def prepared? : FinalizedPreparedSettlementLifecycleV1 → Option AuthenticatedPreparedSettlementV1
  | .prepared plan => some plan
  | _ => none

def settled? : FinalizedPreparedSettlementLifecycleV1 →
    Option (DepositEventIdV1 × AuthenticatedPreparedSettlementPlanIdentityV1)
  | .settled id plan => some (id, plan)
  | _ => none

def cancelled? : FinalizedPreparedSettlementLifecycleV1 → Option AuthenticatedCancelledSettlementV1
  | .cancelled closed => some closed
  | _ => none

end FinalizedPreparedSettlementLifecycleV1

/-- The settlement that a transition stands for, named by its first output. -/
def expectedSettlement (evidence : FinalizedTransitionEvidenceV1) :
    Except DurableStateErrorV1 (Option (DepositEventIdV1 × AuthenticatedPreparedSettlementPlanIdentityV1)) :=
  match evidence.settledPlan with
  | none => .ok none
  | some plan => do
    let id ← okOr evidence.outputIds.head? .invalidPlanLifecycle
    return some (id, plan)

section
variable {WalletError : Type}

/-- The plan events of a report, its separate lists and its settling transitions say the same. -/
def validateReportedPlanLifecycleV1 (result : FinalizedBlockIngestResultV1 WalletError) :
    Except DurableStateErrorV1 Unit := do
  let settlements ← result.transitionEvidence.mapM expectedSettlement
  require (result.planLifecycle.filterMap (·.prepared?) = result.preparedSettlements ∧
    result.planLifecycle.filterMap (·.cancelled?) = result.cancelledSettlements ∧
    result.planLifecycle.filterMap (·.settled?) = settlements.reduceOption) .invalidPlanLifecycle
  require ((result.planLifecycle.map planLifecycleEventIdV1).Nodup) .invalidPlanLifecycle

/-! ### The candidate cursor -/

/-- The output identities of the reported transitions, in order. -/
def FinalizedBlockIngestResultV1.transitionIds (result : FinalizedBlockIngestResultV1 WalletError) :
    List DepositEventIdV1 := result.transitionEvidence.flatMap (·.outputIds)

/-- The events that the candidate has beyond the block it builds on. -/
def expectedEventIds (previous candidate : ScanStateV1) (result : FinalizedBlockIngestResultV1 WalletError) :
    Except DurableStateErrorV1 (List DepositEventIdV1) :=
  match result.advance, result.rollback with
  | .alreadyCurrent, none => do
    require (candidate = previous) .candidateStateMismatch
    return previous.retainedEventIdsInBlockV1 previous.head
  | .advanced, none => do
    require (candidate.blocks.length = previous.blocks.length + 1) .candidateStateMismatch
    let (reduced, added) ← mapErr (fun _ => .candidateStateMismatch) (planRollback previous.head candidate)
    require (reduced = previous) .candidateStateMismatch
    return added.removedEvents
  | .advanced, some rollback => do
    let (previousBase, expectedRollback) ← mapErr (fun _ => .invalidRollback) (planRollback rollback.head previous)
    require (expectedRollback = rollback ∧ candidate.blocks.length = previousBase.blocks.length + 1) .invalidRollback
    let (candidateBase, added) ← mapErr (fun _ => .candidateStateMismatch) (planRollback rollback.head candidate)
    require (candidateBase = previousBase) .candidateStateMismatch
    return added.removedEvents
  | .alreadyCurrent, some _ => .error .invalidRollback

/-- The checks of a report that do not look at the cursor: every list names the same events, each once. -/
def validateReportedIds (result : FinalizedBlockIngestResultV1 WalletError) :
    Except DurableStateErrorV1 (List DepositEventIdV1) := do
  require (result.depositEventIds.length = result.depositOutcomes.length) .candidateStateMismatch
  require (result.transitionIds.length = result.transitionOutcomes.length) .candidateStateMismatch
  let reported := result.depositEventIds ++ result.transitionIds
  require (reported.Nodup) .candidateStateMismatch
  let rootIds := result.rootEvidence.map (·.eventId)
  require (rootIds.Nodup ∧ rootIds.toFinset = reported.toFinset) .candidateStateMismatch
  let appendIds := result.appendEvidence.map (·.eventId)
  require (appendIds.Nodup ∧ appendIds.toFinset = reported.toFinset ∧ ∀ append ∈ result.appendEvidence,
    ∃ root ∈ result.rootEvidence, root.eventId = append.eventId ∧ root.rootSequence = append.rootSequence ∧
      root.root = append.root) .candidateStateMismatch
  return reported

def validateCandidateTransitionV1 (previous candidate : ScanStateV1) (result : FinalizedBlockIngestResultV1 WalletError) :
    Except DurableStateErrorV1 Unit := do
  require (candidate.identity = previous.identity) .candidateStateMismatch
  let reported ← validateReportedIds result
  let expected ← expectedEventIds previous candidate result
  require (expected.Nodup ∧ expected.toFinset = reported.toFinset) .candidateStateMismatch
  require (result.appendEvidence.map (·.eventId) = expected) .candidateStateMismatch

/-! ### Notes -/

/-- Take back the marker that a removed transition left on a note. -/
def clearRemovedSpend (removed : List DepositEventIdV1) (note : StoredSealedNoteV1) : StoredSealedNoteV1 :=
  if ∃ spent ∈ note.spent, spent.transitionOutputId ∈ removed then { note with spent := none } else note

/-- Drop the notes of removed events, then clear the markers of removed transitions. -/
def rollbackNotes (removed : List DepositEventIdV1) (notes : List StoredSealedNoteV1) : List StoredSealedNoteV1 :=
  (notes.filter (·.eventId ∉ removed)).map (clearRemovedSpend removed)

def validateSealedNoteV1 (note : SealedRecoveredNoteV1) : Except DurableStateErrorV1 Unit :=
  require (note.sealedNote ≠ [] ∧ note.sealedNote.length ≤ MAX_SEALED_NOTE_BYTES) .invalidSealedNote

/-- The same note again changes nothing; another note under its event is refused. -/
def insertSealedNoteV1 (notes : List StoredSealedNoteV1) (recovered : SealedRecoveredNoteV1) :
    Except DurableStateErrorV1 (List StoredSealedNoteV1) :=
  match notes.find? (·.eventId = recovered.eventId) with
  | some existing =>
    if existing.access = recovered.access ∧ existing.sealedNote = recovered.sealedNote then .ok notes
    else .error .duplicateRecord
  | none =>
    if notes.length ≥ MAX_NOTE_RECORDS then .error .countOverflow
    else .ok (notes ++ [⟨recovered.eventId, recovered.access, recovered.sealedNote, none⟩])

/-- The access that a deposit of the wallet gives; other deposits need no note. -/
def requiredAccess : DepositEventIdV1 × DepositScanOutcomeV1 WalletError → Option (DepositEventIdV1 × SealedNoteAccessV1)
  | (id, .viewOnly _) => some (id, .viewOnly)
  | (id, .spendable _) => some (id, .spendable)
  | _ => none

/-- The deposits of a report whose note has to be delivered with it. -/
def requiredDeposits (candidate : ScanStateV1) (result : FinalizedBlockIngestResultV1 WalletError) :
    Except DurableStateErrorV1 (List (DepositEventIdV1 × SealedNoteAccessV1)) := do
  let deposits := result.depositEventIds.zip result.depositOutcomes
  require (∀ deposit ∈ deposits, deposit.1 ∈ candidate.retainedEventIdsInBlockV1 deposit.1.point) .candidateStateMismatch
  return deposits.filterMap requiredAccess

/-- The outputs that transitions of the report added to the cursor. -/
def advancedTransitionIds (result : FinalizedBlockIngestResultV1 WalletError) : List DepositEventIdV1 :=
  (result.transitionIds.zip result.transitionOutcomes).filterMap fun (id, outcome) =>
    if outcome = .advanced then some id else none

/-- A delivered note belongs to a required deposit, with its access, or to a new output. -/
def checkRecoveredAccess (required : List (DepositEventIdV1 × SealedNoteAccessV1)) (advanced : List DepositEventIdV1)
    (recovered : SealedRecoveredNoteV1) : Except DurableStateErrorV1 Unit :=
  match required.find? (·.1 = recovered.eventId) with
  | some (_, access) => require (access = recovered.access) .recoveredAccessMismatch
  | none => require (recovered.eventId ∈ advanced) .unexpectedRecoveredNote

/-- One delivered note over the notes so far and the events already supplied. -/
def storeRecoveredNote (required : List (DepositEventIdV1 × SealedNoteAccessV1)) (advanced : List DepositEventIdV1)
    (acc : List StoredSealedNoteV1 × List DepositEventIdV1) (recovered : SealedRecoveredNoteV1) :
    Except DurableStateErrorV1 (List StoredSealedNoteV1 × List DepositEventIdV1) := do
  validateSealedNoteV1 recovered
  require (recovered.eventId ∉ acc.2) .duplicateRecord
  checkRecoveredAccess required advanced recovered
  let notes ← insertSealedNoteV1 acc.1 recovered
  return (notes, recovered.eventId :: acc.2)

def storeRecoveredNotes (required : List (DepositEventIdV1 × SealedNoteAccessV1)) (advanced : List DepositEventIdV1)
    (notes : List StoredSealedNoteV1) (recoveredNotes : List SealedRecoveredNoteV1) :
    Except DurableStateErrorV1 (List StoredSealedNoteV1) := do
  let stored ← recoveredNotes.foldlM (storeRecoveredNote required advanced) (notes, [])
  require (∀ r ∈ required, r.1 ∈ stored.2) .missingRecoveredNote
  return stored.1

/-- Set the marker of the first note of an event. -/
def setSpent (eventId : DepositEventIdV1) (marker : SpentNoteMarkerV1) :
    List StoredSealedNoteV1 → List StoredSealedNoteV1
  | [] => []
  | note :: rest =>
    if note.eventId = eventId then { note with spent := some marker } :: rest else note :: setSpent eventId marker rest

/-- Answers whether a public nullifier belongs to a sealed note. -/
abbrev LocalSpendAuthenticatorV1 := DepositEventIdV1 → Bytes → Bytes32 → Bool

def applySpentUpdate (authenticatesSpendV1 : LocalSpendAuthenticatorV1) (result : FinalizedBlockIngestResultV1 WalletError)
    (notes : List StoredSealedNoteV1) (update : AuthenticatedSpentNoteUpdateV1) :
    Except DurableStateErrorV1 (List StoredSealedNoteV1) := do
  let evidence ← okOr (result.transitionEvidence.find? (update.transitionOutputId ∈ ·.outputIds)) .invalidSpendUpdate
  require (encodeDigest32 evidence.receipt.nullifier = update.nullifier) .invalidSpendUpdate
  let note ← okOr (notes.find? (·.eventId = update.inputEventId)) .invalidSpendUpdate
  require (note.access = .spendable) .invalidSpendUpdate
  require (authenticatesSpendV1 note.eventId note.sealedNote update.nullifier = true) .spendNotAuthorized
  match note.spent with
  | none => return setSpent update.inputEventId ⟨update.transitionOutputId, update.nullifier⟩ notes
  | some existing =>
    require (existing = ⟨update.transitionOutputId, update.nullifier⟩) .alreadySpentDifferently
    return notes

end

/-! ### The stored image -/

def encodeEventIdV1 (id : DepositEventIdV1) : Bytes :=
  encodePoint id.point ++ (id.transactionSignature ++ (leBytes 2 id.instructionIndex ++ leBytes 2 id.eventIndex))

/-- An optional address, or zeros. -/
def optionalAddress : Option Bytes32 → Bytes
  | some address => address.bytes
  | none => zeros 32

def boolBit (b : Bool) : UInt8 := if b then 1 else 0

/-- A closure keeps only the identity of its plan. -/
def encodeClosureRecord (id : DepositEventIdV1) (code : UInt8) (plan : AuthenticatedPreparedSettlementPlanIdentityV1) :
    Bytes :=
  encodeEventIdV1 id ++ ([code, 0, boolBit plan.rolloverShard.isSome * 2] ++ (zeros 29 ++ (plan.planAuthority.bytes ++
    (zeros 96 ++ (plan.corePlan.bytes ++ (zeros 32 ++ (optionalAddress plan.rolloverShard ++ zeros 64)))))))

def encodePlanLifecycleRecordV1 : FinalizedPreparedSettlementLifecycleV1 → Bytes
  | .prepared plan =>
    encodeEventIdV1 plan.id ++ ([1, plan.transitionKind.code,
      boolBit plan.rolloverPage.isSome + boolBit plan.rolloverShard.isSome * 2] ++ (zeros 5 ++
      (u64Bytes plan.sourceRootSequence ++ (u64Bytes plan.notBeforeSlot ++ (u64Bytes plan.expiresAtSlot ++
      (plan.planAuthority.bytes ++ (plan.authorizationReceipt.bytes ++ (plan.verifierRegistry.bytes ++
      (plan.verifierEntry.bytes ++ (plan.corePlan.bytes ++ (optionalAddress plan.rolloverPage ++
      (optionalAddress plan.rolloverShard ++ (plan.verifierProfile.bytes ++ plan.verifierRelease.bytes)))))))))))))
  | .settled id plan => encodeClosureRecord id 2 plan
  | .cancelled closed => encodeClosureRecord closed.id 3 ⟨closed.planAuthority, closed.corePlan, closed.rolloverShard⟩

def accessCode : SealedNoteAccessV1 → UInt8
  | .viewOnly => 0
  | .spendable => 1

def encodeSpentMarker : Option SpentNoteMarkerV1 → Bytes
  | some spent => encodeEventIdV1 spent.transitionOutputId ++ spent.nullifier.bytes
  | none => zeros 140

def encodeNoteRecord (note : StoredSealedNoteV1) : Bytes :=
  encodeEventIdV1 note.eventId ++ ([accessCode note.access, boolBit note.spent.isSome] ++ (zeros 2 ++
    (leBytes 4 note.sealedNote.length ++ (encodeSpentMarker note.spent ++ note.sealedNote))))

/-- One note record after the image so far, as long as the image stays small enough. -/
def appendNoteRecord (output : Bytes) (note : StoredSealedNoteV1) : Except DurableStateErrorV1 Bytes := do
  require (note.sealedNote ≠ [] ∧ note.sealedNote.length ≤ MAX_SEALED_NOTE_BYTES) .invalidSealedNote
  let longer := output ++ encodeNoteRecord note
  require (longer.length ≤ MAX_DURABLE_IMAGE_BYTES) .imageTooLarge
  return longer

def planLifecycleBytes (base : List AuthenticatedPreparedSettlementV1)
    (lifecycle : List FinalizedPreparedSettlementLifecycleV1) : ℕ :=
  PLAN_LIFECYCLE_HEADER_BYTES + (base.length + lifecycle.length) * PLAN_LIFECYCLE_RECORD_BYTES

/-- The plan section, led by the ASCII bytes `ASPL`; without plans there is none. -/
def encodePlanSection (base : List AuthenticatedPreparedSettlementV1)
    (lifecycle : List FinalizedPreparedSettlementLifecycleV1) : Bytes :=
  [65, 83, 80, 76, 1, 0, 0, 0] ++ (leBytes 4 base.length ++ (leBytes 4 lifecycle.length ++
    ((sortByCorePlan base).map FinalizedPreparedSettlementLifecycleV1.prepared ++ lifecycle).flatMap
      encodePlanLifecycleRecordV1))

def WALLET_CHECKSUM_DOMAIN : Bytes := "aspis:pool-v1:durable-wallet-state:sha256:v1".toUTF8.toList

section
variable (sha256 : Bytes → Bytes32)

/-- The header starts with the ASCII bytes `ASDW`; notes stand in the order of their encoded events. -/
def encodeWalletImageV1 (scanState : ScanStateV1) (noteCipherId : Bytes32) (notes : List StoredSealedNoteV1)
    (base : List AuthenticatedPreparedSettlementV1) (lifecycle : List FinalizedPreparedSettlementLifecycleV1) :
    Except DurableStateErrorV1 Bytes := do
  require (noteCipherId ≠ Bytes32.zero) .invalidCipherId
  require (notes.length ≤ MAX_NOTE_RECORDS) .countOverflow
  require (base.length + lifecycle.length ≤ MAX_PLAN_LIFECYCLE_RECORDS) .countOverflow
  let _ ← replayPreparedPlanLifecycleV1 base lifecycle
  let scan ← mapErr .scanState (encodeScanStateV1 sha256 scanState)
  require (scan.length < 2 ^ 64) .countOverflow
  let planBytes := if base = [] ∧ lifecycle = [] then 0 else planLifecycleBytes base lifecycle
  let header := [65, 83, 68, 87, 1, 0, 0, 0] ++ (noteCipherId.bytes ++ (leBytes 8 scan.length ++
    (leBytes 4 notes.length ++ (leBytes 4 planBytes ++ zeros 32))))
  let ordered := notes.mergeSort fun a b => !decide (encodeEventIdV1 b.eventId < encodeEventIdV1 a.eventId)
  let output ← ordered.foldlM appendNoteRecord (header ++ scan)
  require (planBytes < 2 ^ 32) .countOverflow
  let image := if base = [] ∧ lifecycle = [] then output else output ++ encodePlanSection base lifecycle
  return patch CHECKSUM_OFFSET (sha256 (WALLET_CHECKSUM_DOMAIN ++ maskedImage CHECKSUM_OFFSET image)).bytes image

/-- Write the image. `replaced` is how the file system answers; the state in memory is the new one only if it is fine. -/
def replaceImage (replaced : Except DurableStateErrorV1 Unit) (w : DurableWalletStateV1) :
    Except DurableStateErrorV1 DurableWalletStateV1 := do
  let bytes ← encodeWalletImageV1 sha256 w.scanState w.noteCipherId w.notes w.basePreparedPlans w.preparedPlanLifecycle
  require (bytes.length ≤ MAX_DURABLE_IMAGE_BYTES) .imageTooLarge
  replaced
  return w

end

/-! ### Calls -/

namespace DurableWalletStateV1

/-- Roll the notes back, if the report says so; the point it goes back to must be retained. -/
def notesAfterRollback (w : DurableWalletStateV1) (candidate : ScanStateV1) :
    Option RollbackSummaryV1 → Except DurableStateErrorV1 (List StoredSealedNoteV1)
  | none => .ok w.notes
  | some rollback => do
    require (¬ (rollback.head ≠ candidate.anchor ∧ ¬ candidate.retainsChainPointV1 rollback.head)) .invalidRollback
    return rollbackNotes rollback.removedEvents w.notes

/-- The plan events that stay: all of them, or after a rollback those at points that the candidate retains. -/
def lifecycleAfterRollback (w : DurableWalletStateV1) (candidate : ScanStateV1) (rollback : Option RollbackSummaryV1) :
    List FinalizedPreparedSettlementLifecycleV1 :=
  if rollback.isSome then
    w.preparedPlanLifecycle.filter fun event => candidate.retainsChainPointV1 (planLifecycleEventIdV1 event).point
  else w.preparedPlanLifecycle

/-- One reported plan event; an event that is already recorded must be the same. -/
def recordPlanEvent (candidate : ScanStateV1) (lifecycle : List FinalizedPreparedSettlementLifecycleV1)
    (event : FinalizedPreparedSettlementLifecycleV1) :
    Except DurableStateErrorV1 (List FinalizedPreparedSettlementLifecycleV1) := do
  require (candidate.retainsChainPointV1 (planLifecycleEventIdV1 event).point) .candidateStateMismatch
  match lifecycle.find? (planLifecycleEventIdV1 · = planLifecycleEventIdV1 event) with
  | some existing =>
    require (existing = event) .invalidPlanLifecycle
    return lifecycle
  | none => return lifecycle ++ [event]

section
variable {WalletError : Type}

/-- The notes of a report: those delivered with it, then the markers of its spends. -/
def ingestNotes (candidate : ScanStateV1) (result : FinalizedBlockIngestResultV1 WalletError)
    (recoveredNotes : List SealedRecoveredNoteV1) (spentUpdates : List AuthenticatedSpentNoteUpdateV1)
    (spendAuthenticator : LocalSpendAuthenticatorV1) (kept : List StoredSealedNoteV1) :
    Except DurableStateErrorV1 (List StoredSealedNoteV1) := do
  let required ← requiredDeposits candidate result
  let stored ← storeRecoveredNotes required (advancedTransitionIds result) kept recoveredNotes
  spentUpdates.foldlM (applySpentUpdate spendAuthenticator result) stored

/-- The plan events after a report, and the plans that are then active. -/
def ingestPlans (candidate : ScanStateV1) (result : FinalizedBlockIngestResultV1 WalletError)
    (base : List AuthenticatedPreparedSettlementV1) (kept : List FinalizedPreparedSettlementLifecycleV1) :
    Except DurableStateErrorV1 (List FinalizedPreparedSettlementLifecycleV1 × List AuthenticatedPreparedSettlementV1) := do
  validateReportedPlanLifecycleV1 result
  let lifecycle ← result.planLifecycle.foldlM (recordPlanEvent candidate) kept
  require (lifecycle.length ≤ MAX_PLAN_LIFECYCLE_RECORDS) .countOverflow
  let active ← replayPreparedPlanLifecycleV1 base lifecycle
  return (lifecycle, active)

/-- What a commit works out before it writes. -/
def planFinalizedIngest (candidate : ScanStateV1) (result : FinalizedBlockIngestResultV1 WalletError)
    (recoveredNotes : List SealedRecoveredNoteV1) (spentUpdates : List AuthenticatedSpentNoteUpdateV1)
    (spendAuthenticator : LocalSpendAuthenticatorV1) (w : DurableWalletStateV1) :
    Except DurableStateErrorV1 DurableWalletStateV1 := do
  validateCandidateTransitionV1 w.scanState candidate result
  let kept ← w.notesAfterRollback candidate result.rollback
  let notes ← ingestNotes candidate result recoveredNotes spentUpdates spendAuthenticator kept
  let (lifecycle, active) ← ingestPlans candidate result w.basePreparedPlans
    (w.lifecycleAfterRollback candidate result.rollback)
  return { w with
    scanState := candidate
    notes := notes
    preparedPlanLifecycle := lifecycle
    activePreparedPlans := active }

/-- The events at points that a pruned cursor no longer retains go into the base. -/
def pruneEvent (pruned : ScanStateV1)
    (acc : List AuthenticatedPreparedSettlementV1 × List FinalizedPreparedSettlementLifecycleV1)
    (event : FinalizedPreparedSettlementLifecycleV1) :
    Except DurableStateErrorV1 (List AuthenticatedPreparedSettlementV1 × List FinalizedPreparedSettlementLifecycleV1) :=
  if pruned.retainsChainPointV1 (planLifecycleEventIdV1 event).point then .ok (acc.1, acc.2 ++ [event])
  else do
    let base ← applyPreparedPlanLifecycleEventV1 acc.1 event
    return (base, acc.2)

/-- The cursor after a prune, and its answer. -/
def prunedCursor (ancestor : FinalizedChainPointV1) (s : ScanStateV1) :
    Except DurableStateErrorV1 (ScanStateV1 × PruneSummaryV1) :=
  match Wallet.pruneFinalizedHistoryThroughV1 ancestor s with
  | .ok summary pruned => .ok (pruned, summary)
  | .error e _ => .error (.scanState e)

/-- What a prune works out before it writes. -/
def planPruneHistory (ancestor : FinalizedChainPointV1) (w : DurableWalletStateV1) :
    Except DurableStateErrorV1 (DurableWalletStateV1 × PruneSummaryV1) := do
  let (pruned, summary) ← prunedCursor ancestor w.scanState
  let (base, lifecycle) ← w.preparedPlanLifecycle.foldlM (pruneEvent pruned) (w.basePreparedPlans, [])
  let active ← replayPreparedPlanLifecycleV1 base lifecycle
  return ({ w with
    scanState := pruned
    basePreparedPlans := base
    preparedPlanLifecycle := lifecycle
    activePreparedPlans := active }, summary)

variable (sha256 : Bytes → Bytes32) (replaced : Except DurableStateErrorV1 Unit)

def commitFinalizedIngestV1 (candidate : ScanStateV1) (result : FinalizedBlockIngestResultV1 WalletError)
    (recoveredNotes : List SealedRecoveredNoteV1) (spentUpdates : List AuthenticatedSpentNoteUpdateV1)
    (spendAuthenticator : LocalSpendAuthenticatorV1) (w : DurableWalletStateV1) :
    Except DurableStateErrorV1 DurableWalletStateV1 := do
  let next ← w.planFinalizedIngest candidate result recoveredNotes spentUpdates spendAuthenticator
  replaceImage sha256 replaced next

def pruneFinalizedHistoryThroughV1 (ancestor : FinalizedChainPointV1) (w : DurableWalletStateV1) :
    Except DurableStateErrorV1 (DurableWalletStateV1 × PruneSummaryV1) := do
  let (next, summary) ← w.planPruneHistory ancestor
  let next ← replaceImage sha256 replaced next
  return (next, summary)

/-- A note delivered apart from its block. If it is there already nothing is written. -/
def storeAuthenticatedDeliveryV1 (recovered : SealedRecoveredNoteV1) (w : DurableWalletStateV1) :
    Except DurableStateErrorV1 (DurableWalletStateV1 × RelayerEnqueueOutcomeV1) := do
  validateSealedNoteV1 recovered
  require (recovered.eventId ∈ w.scanState.retainedEventIdsInBlockV1 recovered.eventId.point) .unexpectedRecoveredNote
  let notes ← insertSealedNoteV1 w.notes recovered
  if ∃ existing ∈ w.notes, existing.eventId = recovered.eventId then return (w, .alreadyPresent)
  else do
    let next ← replaceImage sha256 replaced { w with notes := notes }
    return (next, .inserted)

/-- Replace the ciphertext of the first note of an event. -/
def setSealedNote (recovered : SealedRecoveredNoteV1) : List StoredSealedNoteV1 → List StoredSealedNoteV1
  | [] => []
  | note :: rest =>
    if note.eventId = recovered.eventId then { note with sealedNote := recovered.sealedNote } :: rest
    else note :: setSealedNote recovered rest

/-- One replacement over the notes so far and the events already supplied. -/
def resealNote (acc : List StoredSealedNoteV1 × List DepositEventIdV1) (replacement : SealedRecoveredNoteV1) :
    Except DurableStateErrorV1 (List StoredSealedNoteV1 × List DepositEventIdV1) := do
  validateSealedNoteV1 replacement
  require (replacement.eventId ∉ acc.2) .cipherRotationMismatch
  let note ← okOr (acc.1.find? (·.eventId = replacement.eventId)) .cipherRotationMismatch
  require (note.access = replacement.access) .cipherRotationMismatch
  return (setSealedNote replacement acc.1, replacement.eventId :: acc.2)

/-- Replace every ciphertext and the identifier of the cipher. -/
def replaceNoteCipherV1 (expectedOldCipherId newCipherId : Bytes32) (replacements : List SealedRecoveredNoteV1)
    (w : DurableWalletStateV1) : Except DurableStateErrorV1 DurableWalletStateV1 := do
  require (w.noteCipherId = expectedOldCipherId) .cipherMismatch
  require (newCipherId ≠ Bytes32.zero ∧ newCipherId ≠ expectedOldCipherId) .invalidCipherId
  require (replacements.length = w.notes.length) .cipherRotationMismatch
  let resealed ← replacements.foldlM resealNote (w.notes, [])
  replaceImage sha256 replaced { w with noteCipherId := newCipherId, notes := resealed.1 }

/-- The wallet that a first opening writes. -/
def createV1 (initialScanState : ScanStateV1) (noteCipherId : Bytes32) :
    Except DurableStateErrorV1 DurableWalletStateV1 := do
  require (noteCipherId ≠ Bytes32.zero) .invalidCipherId
  replaceImage sha256 replaced ⟨initialScanState, noteCipherId, [], [], [], []⟩

end

end DurableWalletStateV1

end Aspis.Wallet
