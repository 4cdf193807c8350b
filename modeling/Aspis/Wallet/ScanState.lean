import Aspis.Lib.Exec
import Aspis.Pool.Deposit
import Aspis.Wallet.ChainPoint

/-! The wallet's scan cursor. It follows the finalized chain block by block,
takes each deposit and each other output of the pool in append order, and keeps
for every retained block the cursor before it, so that it can be rolled back.
Hashing and note decryption are services of other crates and are parameters. -/

namespace Aspis.Wallet

open Lib Statement Pool

/-! ### Deposit records -/

inductive PoolV1DepositFormatError
  | wrongLength
  | wrongMagic
  | wrongVersion
  | nonZeroReserved
  | invalidIdentity
  | invalidAmount
  | invalidPayloadLength
  | nonCanonicalDigest
  | invalidSequence
  deriving DecidableEq, Repr

inductive DepositEventRecordErrorV1
  | wrongLength
  | depositFormat (error : PoolV1DepositFormatError)
  deriving DecidableEq, Repr

def POOL_V1_DEPOSIT_RECEIPT_BYTES : ℕ := 224

def POOL_V1_ENCRYPTED_NOTE_PAYLOAD_MAX_BYTES : ℕ := 512

def POOL_V1_DEPOSIT_RETURN_MAX_BYTES : ℕ := POOL_V1_DEPOSIT_RECEIPT_BYTES + POOL_V1_ENCRYPTED_NOTE_PAYLOAD_MAX_BYTES

/-- The ASCII bytes `ASPD`. -/
def depositReceiptMagic : Bytes := [65, 83, 80, 68]

/-- The receipt checks of the shared format, with its own errors. -/
def checkDepositReceiptV1 (r : DepositReceiptV1) : Except PoolV1DepositFormatError Unit := do
  require (r.pool ≠ Bytes32.zero ∧ r.assetMint ≠ Bytes32.zero ∧ r.sourceTokenAccount ≠ Bytes32.zero ∧
    r.vaultTokenAccount ≠ Bytes32.zero ∧ r.sourceTokenAccount ≠ r.vaultTokenAccount) .invalidIdentity
  require (r.amount ≠ 0 ∧ r.amount < VALUE_LIMIT) .invalidAmount
  require (r.encryptedNotePayloadBytes ≤ POOL_V1_ENCRYPTED_NOTE_PAYLOAD_MAX_BYTES) .invalidPayloadLength
  require (DigestIsCanonical r.noteCommitment ∧ DigestIsCanonical r.root) .nonCanonicalDigest
  require (r.leafIndex + 1 = r.rootSequence) .invalidSequence

def decodeDepositReceiptV1 (bytes : Bytes) : Except PoolV1DepositFormatError DepositReceiptV1 := do
  require (bytes.length = POOL_V1_DEPOSIT_RECEIPT_BYTES) .wrongLength
  require (slice 0 4 bytes = depositReceiptMagic) .wrongMagic
  require (byteAt 4 bytes = 1) .wrongVersion
  require (slice 5 3 bytes = zeros 3 ∧ slice 142 2 bytes = zeros 2) .nonZeroReserved
  let noteCommitment ← okOr (decodeDigestCanonical (slice 144 32 bytes)) .nonCanonicalDigest
  let root ← okOr (decodeDigestCanonical (slice 192 32 bytes)) .nonCanonicalDigest
  let receipt : DepositReceiptV1 := ⟨Bytes32.read 8 bytes, Bytes32.read 40 bytes, Bytes32.read 72 bytes,
    Bytes32.read 104 bytes, leNat (slice 136 4 bytes), leNat (slice 140 2 bytes), noteCommitment,
    leNat (slice 176 8 bytes), leNat (slice 184 8 bytes), root⟩
  checkDepositReceiptV1 receipt
  return receipt

/-- A receipt and the encrypted payload that follows it. -/
structure DepositEventV1 where
  receipt : DepositReceiptV1
  encryptedNotePayload : Bytes

def validateDepositEventV1 (event : DepositEventV1) : Except PoolV1DepositFormatError Unit := do
  checkDepositReceiptV1 event.receipt
  require (event.encryptedNotePayload.length = event.receipt.encryptedNotePayloadBytes) .invalidPayloadLength

def decodeDepositEventRecordV1 (bytes : Bytes) : Except DepositEventRecordErrorV1 DepositEventV1 := do
  require (POOL_V1_DEPOSIT_RECEIPT_BYTES ≤ bytes.length ∧ bytes.length ≤ POOL_V1_DEPOSIT_RETURN_MAX_BYTES) .wrongLength
  let receipt ← mapErr .depositFormat (decodeDepositReceiptV1 (slice 0 POOL_V1_DEPOSIT_RECEIPT_BYTES bytes))
  let event : DepositEventV1 := ⟨receipt, bytes.drop POOL_V1_DEPOSIT_RECEIPT_BYTES⟩
  mapErr .depositFormat (validateDepositEventV1 event)
  return event

/-! ### The cursor -/

/-- The bytes are a canonical digest. -/
def isCanonicalDigest (b : Bytes32) : Bool := (decodeDigestCanonical b.bytes).isSome

def encodeDigest32 (d : Digest) : Bytes32 := ⟨encodeDigestCanonical d, length_encodeDigestCanonical d⟩

theorem isCanonicalDigest_encode {d : Digest} (h : DigestIsCanonical d) : isCanonicalDigest (encodeDigest32 d) = true := by
  rw [isCanonicalDigest, encodeDigest32, decode_encodeDigestCanonical h]
  rfl

/-- The public identity of the scanned pool. -/
@[ext] structure DepositScanIdentityV1 where
  pool : Bytes32
  deploymentDomain : Bytes32
  assetMint : Bytes32
  vaultTokenAccount : Bytes32
  assetId : ℕ
  pool_ne : pool ≠ Bytes32.zero
  domain_ne : deploymentDomain ≠ Bytes32.zero
  mint_ne : assetMint ≠ Bytes32.zero
  vault_ne : vaultTokenAccount ≠ Bytes32.zero
  assetId_lt : assetId < P

instance decidableEqScanIdentity : DecidableEq DepositScanIdentityV1 :=
  fun _ _ => decidable_of_iff _ DepositScanIdentityV1.ext_iff.symm

/-- What is known of a retained block: the cursor before its first event. -/
structure BlockCheckpointV1 where
  block : FinalizedBlockV1
  nextLeafIndexBefore : ℕ
  rootBefore : Bytes32
  processedEventCountBefore : ℕ
  deriving DecidableEq

structure ProcessedDepositEventV1 where
  id : DepositEventIdV1
  leafIndex : ℕ
  fingerprint : Bytes32
  noteCommitment : Bytes32
  root : Bytes32
  deriving DecidableEq

@[ext]
structure ScanStateV1 where
  identity : DepositScanIdentityV1
  anchor : FinalizedChainPointV1
  anchorNextLeafIndex : ℕ
  anchorRoot : Bytes32
  nextLeafIndex : ℕ
  root : Bytes32
  blocks : List BlockCheckpointV1
  processedEvents : List ProcessedDepositEventV1
  deriving DecidableEq

inductive ScanStateErrorV1
  | invalidIdentity
  | invalidChainPoint
  | invalidEventIdentity
  | invalidAnchor
  | wrongStateLength
  | wrongStateMagic
  | wrongStateVersion
  | nonZeroReserved
  | nonCanonicalDigest
  | countOverflow
  | checksumMismatch
  | stateInvariant
  | chainDiscontinuity
  | reorgDetected
  | noRetainedAncestor
  | noAdvancedFinalizedBlock
  | eventOutsideCurrentBlock
  | eventIdentityConflict
  | depositRecord (error : DepositEventRecordErrorV1)
  | poolMismatch
  | assetMintMismatch
  | vaultMismatch
  | unexpectedLeafIndex
  | treeFull
  | invalidNoteContext
  | invalidPublicOutput
  deriving DecidableEq, Repr

inductive FinalizedBlockAdvanceV1
  | advanced
  | alreadyCurrent
  deriving DecidableEq, Repr

structure RollbackSummaryV1 where
  removedEvents : List DepositEventIdV1
  nextLeafIndex : ℕ
  root : Bytes32
  head : FinalizedChainPointV1
  deriving DecidableEq

structure PruneSummaryV1 where
  prunedBlockCount : ℕ
  prunedEvents : List DepositEventIdV1
  anchor : FinalizedChainPointV1
  nextLeafIndex : ℕ
  root : Bytes32
  deriving DecidableEq

/-- A finalized deposit as the indexer reports it. -/
structure FinalizedDepositRecordV1 where
  id : DepositEventIdV1
  recordBytes : Bytes

/-- Another output of the pool as the indexer reports it. -/
structure FinalizedPublicOutputRecordV1 where
  id : DepositEventIdV1
  pool : Bytes32
  leafIndex : ℕ
  rootSequence : ℕ
  noteCommitment : Bytes32
  root : Bytes32
  authenticatedTransport : Bytes

inductive PublicOutputScanOutcomeV1
  | duplicate
  | advanced
  deriving DecidableEq, Repr

/-- What the scan reads of a decrypted note. -/
structure NoteOpeningV1 where
  ownerKey : Bytes32
  value : ℕ
  assetId : ℕ
  deriving DecidableEq

structure NoteContextV1 where
  pool : Bytes32
  deploymentDomain : Bytes32
  leafIndex : ℕ
  noteCommitment : Bytes32

inductive RecoveredNoteConsistencyErrorV1
  | amountMismatch
  | assetIdMismatch
  deriving DecidableEq, Repr

inductive DepositScanOutcomeV1 (WalletError : Type)
  | duplicate
  | notForViewingKey
  | invalidEncryptedPayload (error : WalletError)
  | inconsistentRecoveredNote (error : RecoveredNoteConsistencyErrorV1)
  | viewOnly (note : NoteOpeningV1)
  | spendable (note : NoteOpeningV1)

/-- The hash, the note scan of a viewing secret and the lookup in a local key store. -/
structure ScanServicesV1 (ViewingSecret KeyStore WalletError : Type) where
  sha256 : Bytes → Bytes32
  scanNote : ViewingSecret → NoteContextV1 → Bytes → Except WalletError (Option NoteOpeningV1)
  containsOwnerKey : KeyStore → Bytes32 → Bool

namespace ScanStateV1

/-- A cursor after all events through its anchor. -/
def new (identity : DepositScanIdentityV1) (anchor : FinalizedChainPointV1) (nextLeafIndex : ℕ) (root : Bytes32) :
    Except ScanStateErrorV1 ScanStateV1 := do
  require (nextLeafIndex ≤ POOL_V1_LEAF_CAPACITY ∧ isCanonicalDigest root = true) .invalidAnchor
  return ⟨identity, anchor, nextLeafIndex, root, nextLeafIndex, root, [], []⟩

def head (s : ScanStateV1) : FinalizedChainPointV1 := (s.blocks.getLast?.map (·.block.point)).getD s.anchor

/-- The point is still inside the rollback window. -/
def retainsChainPointV1 (s : ScanStateV1) (point : FinalizedChainPointV1) : Prop :=
  point = s.anchor ∨ ∃ c ∈ s.blocks, c.block.point = point

def retainedEventIdsInBlockV1 (s : ScanStateV1) (point : FinalizedChainPointV1) : List DepositEventIdV1 :=
  (s.processedEvents.filter (·.id.point = point)).map (·.id)

end ScanStateV1

/-! ### The image invariants -/

/-- Check the events of one block: point, leaf order, capacity, digests and fresh identities. -/
def validateEventsV1 (point : FinalizedChainPointV1) :
    ℕ → Bytes32 → List DepositEventIdV1 → List ProcessedDepositEventV1 → Option (ℕ × Bytes32 × List DepositEventIdV1)
  | next, root, identities, [] => some (next, root, identities)
  | next, _, identities, e :: es =>
    if e.id.point ≠ point ∨ e.leafIndex ≠ next ∨ next ≥ POOL_V1_LEAF_CAPACITY ∨
        isCanonicalDigest e.noteCommitment = false ∨ isCanonicalDigest e.root = false ∨ e.id ∈ identities then none
    else validateEventsV1 point (next + 1) e.root (e.id :: identities) es

/-- The walk over the retained blocks; each block's events end where the next block's begin. -/
def validateBlocksV1 (events : List ProcessedDepositEventV1) : FinalizedChainPointV1 → ℕ → Bytes32 → ℕ →
    List DepositEventIdV1 → List BlockCheckpointV1 → Option (ℕ × Bytes32 × ℕ)
  | _, next, root, offset, _, [] => some (next, root, offset)
  | point, next, root, offset, identities, c :: rest =>
    if c.block.parent ≠ point ∨ c.block.point.slot ≤ c.block.parent.slot ∨ c.nextLeafIndexBefore ≠ next ∨
        c.rootBefore ≠ root ∨ c.processedEventCountBefore ≠ offset ∨ isCanonicalDigest c.rootBefore = false then none
    else
      let nextOffset := (rest.head?.map (·.processedEventCountBefore)).getD events.length
      if nextOffset < offset ∨ nextOffset > events.length then none
      else match validateEventsV1 c.block.point next root identities ((events.drop offset).take (nextOffset - offset)) with
        | none => none
        | some (next', root', identities') =>
          validateBlocksV1 events c.block.point next' root' nextOffset identities' rest

def validateStateInvariantsV1 (s : ScanStateV1) : Except ScanStateErrorV1 Unit := do
  require (s.anchorNextLeafIndex ≤ POOL_V1_LEAF_CAPACITY ∧ isCanonicalDigest s.anchorRoot = true ∧
    s.nextLeafIndex ≤ POOL_V1_LEAF_CAPACITY ∧ isCanonicalDigest s.root = true) .stateInvariant
  require (¬ (s.blocks = [] ∧ s.processedEvents ≠ [])) .stateInvariant
  let (next, root, offset) ← okOr (validateBlocksV1 s.processedEvents s.anchor s.anchorNextLeafIndex s.anchorRoot 0 []
    s.blocks) .stateInvariant
  require (offset = s.processedEvents.length ∧ next = s.nextLeafIndex ∧ root = s.root) .stateInvariant

/-! ### Operations -/

section
variable {α : Type}

/-- Work out the next state and the answer first, then write. -/
def commitPlan (plan : ScanStateV1 → Except ScanStateErrorV1 (ScanStateV1 × α)) : Exec ScanStateErrorV1 ScanStateV1 α := do
  let (next, answer) ← Exec.query plan
  Exec.update fun _ => next
  return answer

theorem commitPlan_ok {plan : ScanStateV1 → Except ScanStateErrorV1 (ScanStateV1 × α)} {s s' : ScanStateV1} {a : α} :
    commitPlan plan s = .ok a s' ↔ plan s = .ok (s', a) := by
  simp only [commitPlan, Exec.bind_ok, Exec.query_ok, Exec.update_ok, Exec.pure_ok]
  constructor
  · rintro ⟨⟨next, answer⟩, _, ⟨hplan, rfl⟩, _, _, rfl, rfl, rfl⟩
    exact hplan
  · intro hplan
    exact ⟨(s', a), s, ⟨hplan, rfl⟩, (), s', rfl, rfl, rfl⟩

end

def U32_LIMIT : ℕ := 2 ^ 32

def planAdvance (block : FinalizedBlockV1) (s : ScanStateV1) :
    Except ScanStateErrorV1 (ScanStateV1 × FinalizedBlockAdvanceV1) :=
  if block.point = s.head then
    if s.blocks.getLast?.map (·.block.parent) = some block.parent then .ok (s, .alreadyCurrent)
    else .error .reorgDetected
  else if block.point.slot ≤ s.head.slot then .error .reorgDetected
  else if block.parent ≠ s.head then .error .chainDiscontinuity
  else if s.processedEvents.length ≥ U32_LIMIT then .error .countOverflow
  else .ok ({ s with blocks := s.blocks ++ [⟨block, s.nextLeafIndex, s.root, s.processedEvents.length⟩] }, .advanced)

def advanceFinalizedBlockV1 (block : FinalizedBlockV1) : Exec ScanStateErrorV1 ScanStateV1 FinalizedBlockAdvanceV1 :=
  commitPlan (planAdvance block)

/-- How many retained blocks stand up to the ancestor. -/
def ScanStateV1.blocksThrough (s : ScanStateV1) (ancestor : FinalizedChainPointV1) : Option ℕ :=
  if ancestor = s.anchor then some 0 else (s.blocks.findIdx? (·.block.point = ancestor)).map (· + 1)

/-- Drop the blocks from `first` on: the cursor is the one before it. -/
def ScanStateV1.truncate (s : ScanStateV1) (keep : ℕ) (first : BlockCheckpointV1) : ScanStateV1 :=
  { s with
    processedEvents := s.processedEvents.take first.processedEventCountBefore
    nextLeafIndex := first.nextLeafIndexBefore
    root := first.rootBefore
    blocks := s.blocks.take keep }

def planRollback (ancestor : FinalizedChainPointV1) (s : ScanStateV1) :
    Except ScanStateErrorV1 (ScanStateV1 × RollbackSummaryV1) := do
  let keep ← okOr (s.blocksThrough ancestor) .noRetainedAncestor
  match s.blocks[keep]? with
  | none => return (s, ⟨[], s.nextLeafIndex, s.root, s.head⟩)
  | some first =>
    require (first.processedEventCountBefore ≤ s.processedEvents.length) .stateInvariant
    let s' := s.truncate keep first
    return (s', ⟨(s.processedEvents.drop first.processedEventCountBefore).map (·.id), s'.nextLeafIndex, s'.root, s'.head⟩)

def rollbackToV1 (ancestor : FinalizedChainPointV1) : Exec ScanStateErrorV1 ScanStateV1 RollbackSummaryV1 :=
  commitPlan (planRollback ancestor)

/-- The cursor after the first `retainedStart` blocks, and how many events they hold. -/
def ScanStateV1.cursorAt (s : ScanStateV1) (retainedStart : ℕ) : ℕ × Bytes32 × ℕ :=
  match s.blocks[retainedStart]? with
  | some c => (c.nextLeafIndexBefore, c.rootBefore, c.processedEventCountBefore)
  | none => (s.nextLeafIndex, s.root, s.processedEvents.length)

/-- Move the anchor past the first `retainedStart` blocks and shift the event offsets of the rest. -/
def ScanStateV1.dropThrough (s : ScanStateV1) (ancestor : FinalizedChainPointV1) (retainedStart : ℕ) : ScanStateV1 :=
  let (next, root, count) := s.cursorAt retainedStart
  { s with
    anchor := ancestor
    anchorNextLeafIndex := next
    anchorRoot := root
    blocks := (s.blocks.drop retainedStart).map fun c =>
      { c with processedEventCountBefore := c.processedEventCountBefore - count }
    processedEvents := s.processedEvents.drop count }

/-- The checks of a prune up to its first write. -/
def planPrune (ancestor : FinalizedChainPointV1) (s : ScanStateV1) :
    Except ScanStateErrorV1 (ScanStateV1 × PruneSummaryV1) := do
  let index ← okOr (s.blocks.findIdx? (·.block.point = ancestor)) .noRetainedAncestor
  let (next, root, count) := s.cursorAt (index + 1)
  require (count ≤ s.processedEvents.length) .stateInvariant
  require (count < U32_LIMIT) .stateInvariant
  require ((s.blocks.drop (index + 1)).all (fun c => count ≤ c.processedEventCountBefore) = true) .stateInvariant
  return (s.dropThrough ancestor (index + 1),
    ⟨index + 1, (s.processedEvents.take count).map (·.id), ancestor, next, root⟩)

/-- The image invariants are checked last, after the writes. -/
def pruneFinalizedHistoryThroughV1 (ancestor : FinalizedChainPointV1) :
    Exec ScanStateErrorV1 ScanStateV1 PruneSummaryV1 := fun s =>
  if ancestor = s.anchor then .ok ⟨0, [], s.anchor, s.anchorNextLeafIndex, s.anchorRoot⟩ s
  else (do
    let summary ← commitPlan (planPrune ancestor)
    Exec.query validateStateInvariantsV1
    return summary : Exec ScanStateErrorV1 ScanStateV1 PruneSummaryV1) s

section
variable {ViewingSecret KeyStore WalletError : Type} (services : ScanServicesV1 ViewingSecret KeyStore WalletError)

/-- The ASCII bytes `aspis:pool-v1:wallet:deposit-event-record-fingerprint:sha256:v1`. -/
def POOL_V1_DEPOSIT_EVENT_FINGERPRINT_DOMAIN : Bytes :=
  "aspis:pool-v1:wallet:deposit-event-record-fingerprint:sha256:v1".toUTF8.toList

def POOL_V1_PUBLIC_OUTPUT_FINGERPRINT_DOMAIN : Bytes :=
  "aspis:pool-v1:wallet:authenticated-public-output-fingerprint:sha256:v1".toUTF8.toList

def depositEventFingerprintV1 (bytes : Bytes) : Except ScanStateErrorV1 Bytes32 := do
  require (POOL_V1_DEPOSIT_RECEIPT_BYTES ≤ bytes.length ∧ bytes.length ≤ POOL_V1_DEPOSIT_RETURN_MAX_BYTES)
    (.depositRecord .wrongLength)
  return services.sha256 (POOL_V1_DEPOSIT_EVENT_FINGERPRINT_DOMAIN ++ (leBytes 4 bytes.length ++ bytes))

def publicOutputFingerprintV1 (eventIndex : ℕ) (bytes : Bytes) : Except ScanStateErrorV1 Bytes32 := do
  require (bytes.length < U32_LIMIT) .countOverflow
  return services.sha256 (POOL_V1_PUBLIC_OUTPUT_FINGERPRINT_DOMAIN ++ (leBytes 2 eventIndex ++
    (leBytes 4 bytes.length ++ bytes)))

/-- Whether the event is already known; a known identity with other contents is a conflict. -/
def ScanStateV1.knownEvent (s : ScanStateV1) (id : DepositEventIdV1) (fingerprint : Bytes32) :
    Except ScanStateErrorV1 Bool :=
  match s.processedEvents.find? (·.id = id) with
  | none => .ok false
  | some previous => if previous.fingerprint = fingerprint then .ok true else .error .eventIdentityConflict

/-- The event must stand in the block the cursor is at. -/
def ScanStateV1.requireCurrentBlock (s : ScanStateV1) (id : DepositEventIdV1) : Except ScanStateErrorV1 Unit := do
  let current ← okOr s.blocks.getLast? .noAdvancedFinalizedBlock
  require (id.point = current.block.point) .eventOutsideCurrentBlock

def ScanStateV1.validateReceiptForCursor (s : ScanStateV1) (receipt : DepositReceiptV1) : Except ScanStateErrorV1 Unit := do
  require (receipt.pool = s.identity.pool) .poolMismatch
  require (receipt.assetMint = s.identity.assetMint) .assetMintMismatch
  require (receipt.vaultTokenAccount = s.identity.vaultTokenAccount) .vaultMismatch
  require (s.nextLeafIndex < POOL_V1_LEAF_CAPACITY) .treeFull
  require (receipt.leafIndex = s.nextLeafIndex ∧ receipt.rootSequence = s.nextLeafIndex + 1) .unexpectedLeafIndex

def NoteContextV1.new (pool deploymentDomain : Bytes32) (leafIndex : ℕ) (noteCommitment : Bytes32) :
    Except ScanStateErrorV1 NoteContextV1 := do
  require (pool ≠ Bytes32.zero ∧ deploymentDomain ≠ Bytes32.zero ∧ leafIndex < POOL_V1_LEAF_CAPACITY ∧
    isCanonicalDigest noteCommitment = true) .invalidNoteContext
  return ⟨pool, deploymentDomain, leafIndex, noteCommitment⟩

/-- Whose note a deposit is; it does not touch the cursor. -/
def classifyDeposit (viewingSecret : ViewingSecret) (localKeys : KeyStore) (identity : DepositScanIdentityV1)
    (context : NoteContextV1) (event : DepositEventV1) : DepositScanOutcomeV1 WalletError :=
  match services.scanNote viewingSecret context event.encryptedNotePayload with
  | .error e => .invalidEncryptedPayload e
  | .ok none => .notForViewingKey
  | .ok (some note) =>
    if note.value ≠ event.receipt.amount then .inconsistentRecoveredNote .amountMismatch
    else if note.assetId ≠ identity.assetId then .inconsistentRecoveredNote .assetIdMismatch
    else if services.containsOwnerKey localKeys note.ownerKey then .spendable note
    else .viewOnly note

/-- The cursor past one more event. -/
def ScanStateV1.push (s : ScanStateV1) (e : ProcessedDepositEventV1) : ScanStateV1 :=
  { s with processedEvents := s.processedEvents ++ [e], nextLeafIndex := s.nextLeafIndex + 1, root := e.root }

/-- A deposit that is not known yet. -/
def planNewDeposit (observation : FinalizedDepositRecordV1) (viewingSecret : ViewingSecret) (localKeys : KeyStore)
    (fingerprint : Bytes32) (s : ScanStateV1) : Except ScanStateErrorV1 (ScanStateV1 × DepositScanOutcomeV1 WalletError) := do
  s.requireCurrentBlock observation.id
  let event ← mapErr .depositRecord (decodeDepositEventRecordV1 observation.recordBytes)
  s.validateReceiptForCursor event.receipt
  let noteCommitment := encodeDigest32 event.receipt.noteCommitment
  let context ← NoteContextV1.new s.identity.pool s.identity.deploymentDomain event.receipt.leafIndex noteCommitment
  return (s.push ⟨observation.id, event.receipt.leafIndex, fingerprint, noteCommitment,
    encodeDigest32 event.receipt.root⟩, classifyDeposit services viewingSecret localKeys s.identity context event)

def planDeposit (observation : FinalizedDepositRecordV1) (viewingSecret : ViewingSecret) (localKeys : KeyStore)
    (s : ScanStateV1) : Except ScanStateErrorV1 (ScanStateV1 × DepositScanOutcomeV1 WalletError) := do
  let fingerprint ← depositEventFingerprintV1 services observation.recordBytes
  let known ← s.knownEvent observation.id fingerprint
  if known then return (s, .duplicate)
  else planNewDeposit services observation viewingSecret localKeys fingerprint s

def ingestFinalizedDepositV1 (observation : FinalizedDepositRecordV1) (viewingSecret : ViewingSecret)
    (localKeys : KeyStore) : Exec ScanStateErrorV1 ScanStateV1 (DepositScanOutcomeV1 WalletError) :=
  commitPlan (planDeposit services observation viewingSecret localKeys)

/-- Another output that is not known yet. -/
def planNewOutput (observation : FinalizedPublicOutputRecordV1) (fingerprint : Bytes32) (s : ScanStateV1) :
    Except ScanStateErrorV1 (ScanStateV1 × PublicOutputScanOutcomeV1) := do
  s.requireCurrentBlock observation.id
  require (observation.pool = s.identity.pool) .poolMismatch
  require (s.nextLeafIndex < POOL_V1_LEAF_CAPACITY) .treeFull
  require (observation.leafIndex = s.nextLeafIndex ∧
    observation.rootSequence = min (observation.leafIndex + 1) (U64_LIMIT - 1)) .unexpectedLeafIndex
  require (observation.authenticatedTransport ≠ [] ∧ isCanonicalDigest observation.noteCommitment = true ∧
    isCanonicalDigest observation.root = true) .invalidPublicOutput
  return (s.push ⟨observation.id, observation.leafIndex, fingerprint, observation.noteCommitment, observation.root⟩,
    .advanced)

def planOutput (observation : FinalizedPublicOutputRecordV1) (s : ScanStateV1) :
    Except ScanStateErrorV1 (ScanStateV1 × PublicOutputScanOutcomeV1) := do
  let fingerprint ← publicOutputFingerprintV1 services observation.id.eventIndex observation.authenticatedTransport
  let known ← s.knownEvent observation.id fingerprint
  if known then return (s, .duplicate) else planNewOutput observation fingerprint s

def ingestFinalizedPublicOutputV1 (observation : FinalizedPublicOutputRecordV1) :
    Exec ScanStateErrorV1 ScanStateV1 PublicOutputScanOutcomeV1 := commitPlan (planOutput services observation)

end

end Aspis.Wallet
