import Aspis.Pool.Transition
import Aspis.Pool.Vault

/-! Direct spends: private transfers and withdrawals. Both authenticate a
retained anchor root, plan the nullifier marker, run the verifier and then
append their outputs; the marker is written before the pool bytes. -/

namespace Aspis.Pool

open Lib Chain Statement

/-! ### Statements -/

/-- What a spend does with its outputs. -/
inductive SpendActionV1
  | privateTransfer (recipientCommitment changeCommitment : Digest)
  | withdrawal (amount : ℕ) (destinationTokenAccount : Pubkey) (changeCommitment : Digest)
  deriving DecidableEq

/-- The public statement of a spend, with the fields both kinds share. -/
structure CanonicalSettlementStatementV1 where
  pool : Pubkey
  deploymentDomain : Bytes32
  anchorSequence : ℕ
  anchorRoot : Digest
  nullifier : Digest
  assetId : M31
  action : SpendActionV1
  deriving DecidableEq

namespace CanonicalSettlementStatementV1

def transitionKind (s : CanonicalSettlementStatementV1) : PoolV1TransitionKind :=
  match s.action with
  | .privateTransfer _ _ => .privateTransfer
  | .withdrawal _ _ _ => .withdrawal

def request (s : CanonicalSettlementStatementV1) : AuthorizedAppendV1 :=
  match s.action with
  | .privateTransfer recipient change => .two recipient change
  | .withdrawal _ _ change => .one change

def orderedCommitments (s : CanonicalSettlementStatementV1) : Digest × Option Digest :=
  match s.action with
  | .privateTransfer recipient change => (recipient, some change)
  | .withdrawal _ _ change => (change, none)

def withdrawalAmountAndDestination (s : CanonicalSettlementStatementV1) : Option (ℕ × Pubkey) :=
  match s.action with
  | .privateTransfer _ _ => none
  | .withdrawal amount destination _ => some (amount, destination)

end CanonicalSettlementStatementV1

/-- The decoder of a spend instruction accepts an envelope only with the
statement it belongs to. -/
def requireEnvelopeStatementMatch (e : HistoricalAnchorEnvelopeV1) (s : CanonicalSettlementStatementV1) :
    Except ProgramError Unit :=
  require (e.transitionKind = s.transitionKind ∧ e.pool = s.pool ∧ e.deploymentDomain = s.deploymentDomain ∧
    e.anchorSequence = s.anchorSequence ∧ e.anchorRoot = s.anchorRoot ∧ e.nullifier = s.nullifier)
    .invalidInstructionData

def validateHistoricalAnchorEnvelopeV1 (e : HistoricalAnchorEnvelopeV1) : Except ProgramError Unit :=
  require (e.pool ≠ Bytes32.zero ∧ e.deploymentDomain ≠ Bytes32.zero ∧ e.verifierProfile ≠ Bytes32.zero ∧
    e.verifierRelease ≠ Bytes32.zero ∧ e.anchorSequence ≤ POOL_V1_LEAF_CAPACITY ∧
    DigestIsCanonical e.anchorRoot ∧ DigestIsCanonical e.nullifier) (.custom .invalidHistoricalAnchorEnvelope)

structure TransitionReceiptV1 where
  transitionKind : PoolV1TransitionKind
  pool : Pubkey
  nullifier : Digest
  firstOutput : Digest
  secondOutputOrDestination : Bytes
  withdrawalAmount : ℕ
  firstLeafIndex : ℕ
  secondLeafIndex : ℕ
  rootSequence : ℕ
  root : Digest
  deriving DecidableEq

/-- The checks made when a transition receipt is encoded. -/
def validateTransitionReceiptV1 (r : TransitionReceiptV1) : Except ProgramError Unit := do
  require (DigestIsCanonical r.nullifier ∧ DigestIsCanonical r.firstOutput ∧ DigestIsCanonical r.root)
    .invalidInstructionData
  match r.transitionKind with
  | .privateTransfer => require ((decodeDigestCanonical r.secondOutputOrDestination).isSome = true ∧
      r.withdrawalAmount = 0 ∧ r.secondLeafIndex = r.firstLeafIndex + 1) .invalidInstructionData
  | .withdrawal => require (r.withdrawalAmount ≠ 0 ∧ r.withdrawalAmount < VALUE_LIMIT ∧
      r.secondOutputOrDestination ≠ zeros 32 ∧ r.secondLeafIndex = 0) .invalidInstructionData

/-! ### Anchors -/

structure HistoricalAnchorAuthorizationV1 where
  transitionKind : PoolV1TransitionKind
  verifierProfile : Bytes32
  verifierRelease : Bytes32
  deriving DecidableEq

/-- An envelope whose anchor root was found in a validated page. -/
structure PrevalidatedHistoricalAnchorV1 where
  authenticated : HistoricalAnchorEnvelopeV1
  historyPage : Pubkey
  header : RootPageHeaderV1
  deriving DecidableEq

def bindEnvelopeToStateAndSelection (pool : AccountInfo) (s : PoolStateV1) (e : HistoricalAnchorEnvelopeV1)
    (expected : HistoricalAnchorAuthorizationV1) : Except ProgramError Unit := do
  require (e.pool = pool.key ∧ e.pool = s.identity.pool ∧ e.deploymentDomain = s.identity.deploymentDomain)
    (.custom .historicalAnchorIdentityMismatch)
  require (e.transitionKind = expected.transitionKind ∧ e.verifierProfile = expected.verifierProfile ∧
    e.verifierRelease = expected.verifierRelease) (.custom .historicalAnchorSelectionMismatch)
  require (e.anchorSequence ≤ s.currentRootSequence) (.custom .historicalAnchorInFuture)

section
variable (env : Environment)

def authenticateHistoricalAnchorAgainstStateV1 (pool history : AccountInfo) (e : HistoricalAnchorEnvelopeV1)
    (expected : HistoricalAnchorAuthorizationV1) (s : PoolStateV1) (l : Ledger) :
    Except ProgramError PrevalidatedHistoricalAnchorV1 := do
  validateHistoricalAnchorEnvelopeV1 e
  bindEnvelopeToStateAndSelection pool s e expected
  let location := rootHistoryLocation e.anchorSequence
  let currentLocation := rootHistoryLocation s.currentRootSequence
  requireProgramOwned env.programId history l
  require (history.isSigner = false ∧
    ¬ (location.pageNumber ≠ currentLocation.pageNumber ∧ history.isWritable = true))
    (.custom .invalidHistoricalAnchorPage)
  requireRootPageAddress env pool.key location.pageNumber history
  let header ← mapErr (fun _ => .custom .invalidHistoricalAnchorPage)
    (validateRootPageBytes (history.data l) pool.key location.pageNumber)
  let retained ← mapErr (fun _ => .custom .invalidHistoricalAnchorPage)
    (readRetainedRoot (history.data l) header e.anchorSequence)
  require (retained = e.anchorRoot) (.custom .historicalAnchorRootMismatch)
  return ⟨e, history.key, header⟩

def authenticateHistoricalAnchorAfterPrevalidatedStateV1 (pool history : AccountInfo)
    (e : HistoricalAnchorEnvelopeV1) (expected : HistoricalAnchorAuthorizationV1) (c : CanonicalPoolStateV1)
    (l : Ledger) : Except ProgramError PrevalidatedHistoricalAnchorV1 := do
  c.requireSameWritableAccount env pool l
  authenticateHistoricalAnchorAgainstStateV1 env pool history e expected c.state l

/-- The standalone form decodes the pool itself. -/
def authenticateHistoricalAnchorV1 (pool history : AccountInfo) (e : HistoricalAnchorEnvelopeV1)
    (expected : HistoricalAnchorAuthorizationV1) (l : Ledger) : Except ProgramError Unit := do
  requireProgramOwned env.programId pool l
  require (pool.isSigner = false) .invalidAccountData
  let s ← PoolStateV1.decodeWithValidatedTree env (pool.data l) pool.key
  require (pool.key = (poolV1StateAddress env s.identity.assetMint).1) (.custom .invalidPoolStateAddress)
  let _ ← authenticateHistoricalAnchorAgainstStateV1 env pool history e expected s l
  return ()

/-- The anchor page is the current page: its header is used again. -/
def reuseAnchorHeader (pool history : AccountInfo) (s : PoolStateV1) (anchor : PrevalidatedHistoricalAnchorV1)
    (l : Ledger) : Except ProgramError RootPageHeaderV1 := do
  let location := rootHistoryLocation s.currentRootSequence
  requireProgramOwned env.programId history l
  requireRootPageAddress env pool.key location.pageNumber history
  require (anchor.header.pool = pool.key ∧ anchor.header.filled = location.slot + 1) (.custom .stateHistoryMismatch)
  requireCurrentRoot env s (history.data l) anchor.header
  return anchor.header

def currentHeaderAfterAnchor (pool history : AccountInfo) (s : PoolStateV1) (anchor : PrevalidatedHistoricalAnchorV1)
    (l : Ledger) : Except ProgramError RootPageHeaderV1 :=
  if anchor.historyPage = history.key ∧
      anchor.header.pageNumber = (rootHistoryLocation s.currentRootSequence).pageNumber then
    reuseAnchorHeader env pool history s anchor l
  else validateCurrentHistory env pool history s l

/-- The current page, validated once: the anchor's validation is reused when
both roots live in the same page. -/
def validateCurrentHistoryAfterPrevalidatedAnchorV1 (pool history : AccountInfo) (c : CanonicalPoolStateV1)
    (anchor : PrevalidatedHistoricalAnchorV1) (l : Ledger) :
    Except ProgramError PrevalidatedCurrentHistoryV1 := do
  c.requireSameWritableAccount env pool l
  require (anchor.authenticated.pool = pool.key ∧ anchor.authenticated.pool = c.state.identity.pool ∧
    anchor.authenticated.anchorSequence ≤ c.state.currentRootSequence) (.custom .stateHistoryMismatch)
  let header ← currentHeaderAfterAnchor env pool history c.state anchor l
  return ⟨pool.key, history.key, c.state.currentRootSequence, c.state.tree.root, header⟩

/-! ### Page layout of a spend -/

/-- The history pages a spend names, and the accounts after them. -/
structure SpendPageLayoutV1 where
  anchor : AccountInfo
  current : AccountInfo
  next : Option (AccountInfo × ℕ)
  suffix : List AccountInfo
  deriving DecidableEq

def takeAccount : List AccountInfo → Except ProgramError (AccountInfo × List AccountInfo)
  | [] => .error .notEnoughAccountKeys
  | account :: rest => .ok (account, rest)

def requireSpendCapacity (s : PoolStateV1) (count : ℕ) : Except ProgramError Unit := do
  require (s.currentRootSequence + count < U64_LIMIT) (.custom .arithmeticOverflow)
  require (s.currentRootSequence < POOL_V1_LEAF_CAPACITY) (.custom .treeFull)
  require (s.currentRootSequence + count ≤ POOL_V1_LEAF_CAPACITY) (.custom .insufficientTreeCapacity)

/-- The current page account follows the anchor page unless both are one page. -/
def takeCurrentPage (anchor : AccountInfo) (anchorKey currentKey : Pubkey) (rest : List AccountInfo) :
    Except ProgramError (AccountInfo × List AccountInfo) :=
  if anchorKey = currentKey then .ok (anchor, rest) else do
    let (current, rest) ← takeAccount rest
    require (current.key = currentKey) (.custom .invalidRootPageAddress)
    return (current, rest)

/-- A fresh page follows when the last new root belongs to it. -/
def takeNextPage (pool : Pubkey) (currentNumber lastNumber : ℕ) (rest : List AccountInfo) :
    Except ProgramError (Option (AccountInfo × ℕ) × List AccountInfo) :=
  if lastNumber > currentNumber then do
    let (next, rest) ← takeAccount rest
    require (next.key = (poolV1RootPageAddress env pool lastNumber).1) (.custom .invalidRootPageAddress)
    return (some (next, lastNumber), rest)
  else .ok (none, rest)

/-- An anchor page other than the current one is read-only. -/
def requireSeparateAnchorPage (anchor : AccountInfo) (isCurrent : Bool) (l : Ledger) : Except ProgramError Unit :=
  if isCurrent then .ok () else do
    requireProgramAccount env.programId anchor l false
    require (anchor.isSigner = false) .invalidAccountData

def planSpendPageLayoutV1 (accounts : List AccountInfo) (s : PoolStateV1) (anchorSequence count : ℕ) (l : Ledger) :
    Except ProgramError SpendPageLayoutV1 := do
  requireSpendCapacity s count
  let (pool, rest) ← takeAccount accounts
  let anchorNumber := (rootHistoryLocation anchorSequence).pageNumber
  let currentNumber := (rootHistoryLocation s.currentRootSequence).pageNumber
  let firstNumber := (rootHistoryLocation (s.currentRootSequence + 1)).pageNumber
  let lastNumber := (rootHistoryLocation (s.currentRootSequence + count)).pageNumber
  require (anchorNumber ≤ currentNumber ∧ currentNumber ≤ firstNumber ∧ lastNumber ≤ currentNumber + 1)
    (.custom .stateHistoryMismatch)
  let anchorKey := (poolV1RootPageAddress env pool.key anchorNumber).1
  let currentKey := (poolV1RootPageAddress env pool.key currentNumber).1
  let (anchor, rest) ← takeAccount rest
  require (anchor.key = anchorKey) (.custom .invalidRootPageAddress)
  let (current, rest) ← takeCurrentPage anchor anchorKey currentKey rest
  requireProgramAccount env.programId current l (decide (firstNumber = currentNumber))
  require (current.isSigner = false) .invalidAccountData
  requireSeparateAnchorPage env anchor (decide (anchorKey = currentKey)) l
  let (next, suffix) ← takeNextPage env pool.key currentNumber lastNumber rest
  return ⟨anchor, current, next, suffix⟩

def validateSpendBindingV1 (pool : AccountInfo) (s : PoolStateV1) (kind envelopeKind : PoolV1TransitionKind)
    (statement : CanonicalSettlementStatementV1) : Except ProgramError Unit :=
  require (envelopeKind = kind ∧ statement.pool = pool.key ∧
    statement.deploymentDomain = s.identity.deploymentDomain ∧ statement.assetId = s.identity.assetId)
    (.custom .verifierDispatchIdentityMismatch)

/-- A next page that the layout asks for is still fresh. -/
def planNextSpendPage (pool : AccountInfo) (next : Option (AccountInfo × ℕ)) (l : Ledger) :
    Except ProgramError (Option FreshPdaPreparationV1) :=
  match next with
  | none => .ok none
  | some (account, number) => do
    let preparation ← planFreshProgramPda env account (poolV1RootPageAddress env pool.key number).1
      POOL_V1_ROOT_HISTORY_PAGE_ACCOUNT_BYTES l
    return some preparation

def createNextRootPageIfNeeded (pool : AccountInfo) (next : Option (AccountInfo × ℕ)) (payer system : AccountInfo) :
    Handler Unit :=
  match next with
  | none => pure ()
  | some (account, number) => do
    let preparation ← Exec.query (planFreshProgramPda env account (poolV1RootPageAddress env pool.key number).1
      POOL_V1_ROOT_HISTORY_PAGE_ACCOUNT_BYTES)
    createProgramPdaIfNeeded env payer account system POOL_V1_ROOT_HISTORY_PAGE_ACCOUNT_BYTES preparation
    Exec.query (validateNewPageAccount env pool.key number account)

/-! ### Markers -/

def createMarkerAccountIfNeeded (marker payer system : AccountInfo) (planned : PlannedNullifierMarkerV1) :
    Handler Unit :=
  if planned.preparation = .createOrAllocateSystemOwned then
    createOrAllocatePda env payer marker system POOL_V1_NULLIFIER_MARKER_ACCOUNT_BYTES env.programId
  else pure ()

/-- The account is now zeroed and owned by the program, and the image is the planned one. -/
def requireReadyMarker (marker : AccountInfo) (planned : PlannedNullifierMarkerV1) (l : Ledger) :
    Except ProgramError PlannedNullifierMarkerV1 := do
  let ready ← planNullifierMarkerConsumptionV1 env marker planned.marker l
  require (ready.preparation = .populateProgramOwnedZeroed ∧ ready.encodedMarker = planned.encodedMarker)
    (.custom .invalidNullifierMarkerAccount)
  return ready

def createAndWriteMarkerV1 (marker payer system : AccountInfo) (planned : PlannedNullifierMarkerV1) :
    Handler Unit := do
  createMarkerAccountIfNeeded env marker payer system planned
  let _ ← Exec.query (requireReadyMarker env marker planned)
  Exec.update (setData marker.key planned.encodedMarker)

def planMarkerFromEnvelopeV1 (marker : AccountInfo) (e : HistoricalAnchorEnvelopeV1) (l : Ledger) :
    Except ProgramError PlannedNullifierMarkerV1 :=
  planNullifierMarkerConsumptionV1 env marker (.fromHistoricalAnchor e) l

/-- The marker plan has not changed since it was made. -/
def requireUnchangedMarkerPlan (marker : AccountInfo) (e : HistoricalAnchorEnvelopeV1)
    (planned : PlannedNullifierMarkerV1) (l : Ledger) : Except ProgramError Unit := do
  let replanned ← planMarkerFromEnvelopeV1 env marker e l
  require (replanned = planned) (.custom .invalidNullifierMarkerAccount)

/-! ### The two spend instructions -/

/-- A decoded spend instruction. -/
structure SpendInstructionV1 where
  envelope : HistoricalAnchorEnvelopeV1
  statement : CanonicalSettlementStatementV1
  currentSlot : ℕ
  deriving DecidableEq

/-- The verifier call: it reads accounts and accepts or fails. -/
abbrev SpendVerifier := SpendInstructionV1 → PoolStateV1 → List AccountInfo → Ledger → Except ProgramError Unit

/-- Everything a direct transfer has checked before its first effect. -/
structure TransferPlanV1 where
  canonical : CanonicalPoolStateV1
  layout : SpendPageLayoutV1
  history : PrevalidatedCurrentHistoryV1
  marker : PlannedNullifierMarkerV1
  deriving DecidableEq

def planPrivateTransfer (verify : SpendVerifier) (pool : AccountInfo) (accounts : List AccountInfo)
    (i : SpendInstructionV1) (l : Ledger) : Except ProgramError (TransferPlanV1 × AccountInfo × AccountInfo × AccountInfo) := do
  requireEnvelopeStatementMatch i.envelope i.statement
  let c ← CanonicalPoolStateV1.decodeAccount env pool l
  validateSpendBindingV1 pool c.state .privateTransfer i.envelope.transitionKind i.statement
  let layout ← planSpendPageLayoutV1 env accounts c.state i.envelope.anchorSequence 2 l
  match layout.suffix with
  | [marker, payer, system, registry, entry, verifierProgram, proof] => do
    requireUniqueAccounts accounts
    requirePayerAndSystemProgram payer system l
    validateHistoricalAnchorEnvelopeV1 i.envelope
    let anchor ← authenticateHistoricalAnchorAfterPrevalidatedStateV1 env pool layout.anchor i.envelope
      ⟨.privateTransfer, i.envelope.verifierProfile, i.envelope.verifierRelease⟩ c l
    let history ← validateCurrentHistoryAfterPrevalidatedAnchorV1 env pool layout.current c anchor l
    let planned ← planMarkerFromEnvelopeV1 env marker i.envelope l
    let _ ← planNextSpendPage env pool layout.next l
    verify i c.state [registry, entry, verifierProgram, proof] l
    return (⟨c, layout, history, planned⟩, marker, payer, system)
  | _ => .error (if layout.suffix.length < 7 then .notEnoughAccountKeys else .invalidArgument)

/-- The receipt of a transfer, from the two leaves it appended. -/
def privateTransferReceipt (pool : Pubkey) (nullifier recipient change : Digest) (append : AuthorizedAppendReceiptV1) :
    Except ProgramError TransitionReceiptV1 := do
  let second ← okOr append.second .invalidAccountData
  let receipt : TransitionReceiptV1 :=
    ⟨.privateTransfer, pool, nullifier, recipient, encodeDigestCanonical change, 0, append.first.leafIndex,
      second.leafIndex, second.leafIndex + 1, second.root⟩
  validateTransitionReceiptV1 receipt
  return receipt

def privateTransferFromPool (verify : SpendVerifier) (pool : AccountInfo) (accounts : List AccountInfo)
    (i : SpendInstructionV1) (recipient change : Digest) : Handler TransitionReceiptV1 := do
  let (plan, marker, payer, system) ← Exec.query (planPrivateTransfer env verify pool accounts i)
  createNextRootPageIfNeeded env pool plan.layout.next payer system
  let append ← applyAuthorizedAppendAfterPrevalidatedHistoryV1 env pool plan.layout.current
    (plan.layout.next.map (·.1)) plan.canonical plan.history (.two recipient change) do
      Exec.query (requireUnchangedMarkerPlan env marker i.envelope plan.marker)
      createAndWriteMarkerV1 env marker payer system plan.marker
  Exec.query fun _ => privateTransferReceipt pool.key i.statement.nullifier recipient change append

def processPrivateTransferV1 (verify : SpendVerifier) (accounts : List AccountInfo) (i : SpendInstructionV1) :
    Handler TransitionReceiptV1 :=
  match accounts with
  | [] => Exec.query fun _ => .error .notEnoughAccountKeys
  | pool :: _ => match i.statement.action with
    | .privateTransfer recipient change => privateTransferFromPool env verify pool accounts i recipient change
    | .withdrawal _ _ _ => Exec.query fun _ => .error .invalidInstructionData

/-- Everything a direct withdrawal has checked before its first effect. -/
structure WithdrawalPlanV1 where
  state : PoolStateV1
  layout : SpendPageLayoutV1
  marker : PlannedNullifierMarkerV1
  transfer : LegacyWithdrawalTransferPlanV1
  deriving DecidableEq

def planWithdrawal (verify : SpendVerifier) (pool : AccountInfo) (accounts : List AccountInfo)
    (i : SpendInstructionV1) (amount : ℕ) (destination : Pubkey) (l : Ledger) :
    Except ProgramError (WithdrawalPlanV1 × AccountInfo × AccountInfo × AccountInfo × List AccountInfo) := do
  requireEnvelopeStatementMatch i.envelope i.statement
  require (amount ≠ 0 ∧ amount < VALUE_LIMIT ∧ destination ≠ Bytes32.zero) .invalidInstructionData
  let c ← CanonicalPoolStateV1.decodeAccount env pool l
  validateSpendBindingV1 pool c.state .withdrawal i.envelope.transitionKind i.statement
  let layout ← planSpendPageLayoutV1 env accounts c.state i.envelope.anchorSequence 1 l
  match layout.suffix with
  | [marker, payer, system, registry, entry, verifierProgram, proof, mint, vault, destinationAccount,
      vaultAuthority, tokenProgram] => do
    let tokenAccounts := [mint, vault, destinationAccount, vaultAuthority, tokenProgram]
    requireUniqueAccounts accounts
    requirePayerAndSystemProgram payer system l
    requireTokenProgramAccount tokenProgram l
    validateHistoricalAnchorEnvelopeV1 i.envelope
    authenticateHistoricalAnchorV1 env pool layout.anchor i.envelope
      ⟨.withdrawal, i.envelope.verifierProfile, i.envelope.verifierRelease⟩ l
    let _ ← validateCurrentHistory env pool layout.current c.state l
    let planned ← planMarkerFromEnvelopeV1 env marker i.envelope l
    let _ ← planNextSpendPage env pool layout.next l
    let transfer ← planLegacyWithdrawalTransferFromIdentityV1 env pool.key c.state.identity tokenAccounts
      destination amount l
    verify i c.state [registry, entry, verifierProgram, proof] l
    return (⟨c.state, layout, planned, transfer⟩, marker, payer, system, tokenAccounts)
  | _ => .error (if layout.suffix.length < 12 then .notEnoughAccountKeys else .invalidArgument)

/-- Pay out of the vault and read both balances back. -/
def payWithdrawal (tokenAccounts : List AccountInfo) (transfer : LegacyWithdrawalTransferPlanV1) : Handler Unit := do
  Exec.call (env.transferChecked transfer.instruction)
  Exec.query (validateExactWithdrawalDeltaV1 tokenAccounts transfer)

def withdrawalFromPool (verify : SpendVerifier) (pool : AccountInfo) (accounts : List AccountInfo)
    (i : SpendInstructionV1) (amount : ℕ) (destination : Pubkey) (change : Digest) : Handler TransitionReceiptV1 := do
  let (plan, marker, payer, system, tokenAccounts) ← Exec.query
    (planWithdrawal env verify pool accounts i amount destination)
  createNextRootPageIfNeeded env pool plan.layout.next payer system
  let append ← applyAuthorizedAppendAfterV1 env pool plan.layout.current (plan.layout.next.map (·.1))
    (.one change) do
      Exec.query (requireUnchangedMarkerPlan env marker i.envelope plan.marker)
      createMarkerAccountIfNeeded env marker payer system plan.marker
      payWithdrawal env tokenAccounts plan.transfer
      let ready ← Exec.query (requireReadyMarker env marker plan.marker)
      Exec.update (setData marker.key ready.encodedMarker)
  let receipt : TransitionReceiptV1 :=
    ⟨.withdrawal, pool.key, i.statement.nullifier, change, destination.bytes, amount, append.first.leafIndex, 0,
      append.first.leafIndex + 1, append.first.root⟩
  Exec.query fun _ => validateTransitionReceiptV1 receipt
  return receipt

def processWithdrawalV1 (verify : SpendVerifier) (accounts : List AccountInfo) (i : SpendInstructionV1) :
    Handler TransitionReceiptV1 :=
  match accounts with
  | [] => Exec.query fun _ => .error .notEnoughAccountKeys
  | pool :: _ => match i.statement.action with
    | .withdrawal amount destination change =>
      withdrawalFromPool env verify pool accounts i amount destination change
    | .privateTransfer _ _ => Exec.query fun _ => .error .invalidInstructionData

/-! ### What a successful spend did -/

/-- The leaves a receipt reports as appended. -/
def TransitionReceiptV1.outputs (r : TransitionReceiptV1) : List Digest :=
  match r.transitionKind with
  | .privateTransfer => r.firstOutput :: (decodeDigestCanonical r.secondOutputOrDestination).toList
  | .withdrawal => [r.firstOutput]

variable {env : Environment}

/-- The token movement of a spend: none, or the planned payout read back. -/
def Paid (env : Environment) (tokens : List AccountInfo) (withdrawal : Option LegacyWithdrawalTransferPlanV1)
    (l l' : Ledger) : Prop :=
  match withdrawal with
  | none => l' = l
  | some t => env.transferChecked t.instruction l = .ok l' ∧ validateExactWithdrawalDeltaV1 tokens t l' = .ok ()

theorem Paid.outside {tokens : List AccountInfo} {withdrawal : Option LegacyWithdrawalTransferPlanV1} {l l' : Ledger}
    (h : Paid env tokens withdrawal l l') : Outside env.programId l l' := by
  cases withdrawal with
  | none =>
    obtain rfl : l' = l := h
    exact Outside.refl _ _
  | some t => exact env.transferChecked_outside _ _ _ h.1

/-- The planned payout of a spend is the one its statement asks for. -/
def PayoutPlanned (env : Environment) (pool : Pubkey) (tokens : List AccountInfo)
    (withdrawal : Option LegacyWithdrawalTransferPlanV1) (statement : CanonicalSettlementStatementV1)
    (receipt : TransitionReceiptV1) (l : Ledger) : Prop :=
  match withdrawal with
  | none => receipt.transitionKind = .privateTransfer ∧ statement.withdrawalAmountAndDestination = none
  | some t => receipt.transitionKind = .withdrawal ∧ ∃ identity destination,
      pool = (poolV1StateAddress env identity.assetMint).1 ∧
      statement.withdrawalAmountAndDestination = some (receipt.withdrawalAmount, destination) ∧
      planLegacyWithdrawalTransferFromIdentityV1 env pool identity tokens destination receipt.withdrawalAmount l = .ok t

/-- The steps of a successful direct spend: pages are created, the append is
planned, the marker account is created, the payout happens, and then marker,
pool and pages are written. -/
structure SpendRun (env : Environment) (i : SpendInstructionV1) (pool current marker : AccountInfo) (next : Option AccountInfo)
    (source : AuthorizedSourceStateV1) (prevalidated : Option PrevalidatedCurrentHistoryV1) (r : AuthorizedAppendV1)
    (plan : AppendPlanV1) (planned : PlannedNullifierMarkerV1) (tokens : List AccountInfo)
    (withdrawal : Option LegacyWithdrawalTransferPlanV1) (l created marked paid l' : Ledger)
    (receipt : TransitionReceiptV1) : Prop where
  pool_owner : (l pool.key).owner = env.programId
  decoded : PoolStateV1.decodeWithValidatedTree env (created pool.key).data pool.key = .ok source.asState
  created_call : SystemCall l created
  leaves_canonical : ∀ leaf ∈ r.leaves, DigestIsCanonical leaf
  append : planAuthorizedAppend env pool current next source prevalidated r created = .ok plan
  page_valid : validateRootPageBytes (created current.key).data pool.key
    (rootHistoryLocation source.asState.currentRootSequence).pageNumber = .ok plan.currentHeader
  marked_call : SystemCall created marked
  paid_step : Paid env tokens withdrawal marked paid
  payout : PayoutPlanned env pool.key tokens withdrawal i.statement receipt l
  marker_planned : PlannedMarkerSpec env marker planned.marker l planned
  marker_ne_next : ∀ account ∈ next, account.key ≠ marker.key
  marker_ready : FreshMarkerAccount env marker paid .populateProgramOwnedZeroed
  persisted : plan.persist pool.key current.key (setData marker.key planned.encodedMarker paid) = l'
  envelope_match : requireEnvelopeStatementMatch i.envelope i.statement = .ok ()
  marker_anchor : planned.marker = .fromHistoricalAnchor i.envelope
  request_eq : r = i.statement.request
  marker_pool : planned.marker.pool = pool.key
  marker_nullifier : planned.marker.nullifier = receipt.nullifier
  receipt_pool : receipt.pool = pool.key
  receipt_outputs : receipt.outputs = r.leaves

@[simp] theorem takeAccount_eq_ok {accounts rest : List AccountInfo} {a : AccountInfo} :
    takeAccount accounts = .ok (a, rest) ↔ accounts = a :: rest := by
  cases accounts <;> simp [takeAccount]

theorem takeCurrentPage_ok {anchor current : AccountInfo} {anchorKey currentKey : Pubkey}
    {accounts rest : List AccountInfo} (h : takeCurrentPage anchor anchorKey currentKey accounts = .ok (current, rest)) :
    ∃ skipped, accounts = skipped ++ rest := by
  unfold takeCurrentPage at h
  split_ifs at h
  · cases h
    exact ⟨[], rfl⟩
  · simp only [except_bind_eq_ok, except_pure_eq_ok, Prod.mk.injEq, Prod.exists, takeAccount_eq_ok] at h
    obtain ⟨a, rest', rfl, _, -, rfl, rfl⟩ := h
    exact ⟨[a], rfl⟩

theorem takeNextPage_ok {pool : Pubkey} {currentNumber lastNumber : ℕ} {next : Option (AccountInfo × ℕ)}
    {accounts rest : List AccountInfo} (h : takeNextPage env pool currentNumber lastNumber accounts = .ok (next, rest)) :
    accounts = (next.map (·.1)).toList ++ rest := by
  unfold takeNextPage at h
  split_ifs at h
  · simp only [except_bind_eq_ok, except_pure_eq_ok, Prod.mk.injEq, Prod.exists, takeAccount_eq_ok] at h
    obtain ⟨a, rest', rfl, _, -, rfl, rfl⟩ := h
    rfl
  · cases h
    rfl

/-- The next page stands before the suffix of the account list. -/
theorem planSpendPageLayoutV1_split {accounts : List AccountInfo} {s : PoolStateV1} {anchorSequence count : ℕ}
    {l : Ledger} {layout : SpendPageLayoutV1}
    (h : planSpendPageLayoutV1 env accounts s anchorSequence count l = .ok layout) :
    ∃ skipped, accounts = skipped ++ (layout.next.map (·.1)).toList ++ layout.suffix := by
  simp only [planSpendPageLayoutV1, except_bind_eq_ok, except_pure_eq_ok, Prod.exists, takeAccount_eq_ok] at h
  obtain ⟨_, -, pool, rest, rfl, _, -, anchor, rest', rfl, _, -, current, rest'', hcurrent, _, -, _, -, _, -, next,
    suffix, hnext, rfl⟩ := h
  obtain ⟨skipped, rfl⟩ := takeCurrentPage_ok hcurrent
  rw [takeNextPage_ok hnext]
  exact ⟨pool :: anchor :: skipped, by simp⟩

/-- An account of the suffix is not the next page when all keys differ. -/
theorem ne_next_of_unique {accounts skipped suffix : List AccountInfo} {next : Option AccountInfo}
    {account : AccountInfo} {u : Unit} (hunique : requireUniqueAccounts accounts = .ok u)
    (hsplit : accounts = skipped ++ next.toList ++ suffix) (hmem : account ∈ suffix) :
    ∀ n ∈ next, n.key ≠ account.key := by
  intro n hn heq
  obtain rfl := Option.mem_def.mp hn
  rw [requireUniqueAccounts, require_eq_ok, hsplit, List.map_append] at hunique
  refine List.disjoint_of_nodup_append hunique (a := n.key) ?_ ?_
  · simp
  · rw [heq]
    exact List.mem_map_of_mem hmem

theorem decodeAccountWith_ok {decode : Bytes → Pubkey → Except ProgramError PoolStateV1}
    {evidence : CanonicalTreeEvidenceV1} {account : AccountInfo} {l : Ledger} {c : CanonicalPoolStateV1}
    (h : decodeAccountWith env decode evidence account l = .ok c) :
    (l account.key).owner = env.programId ∧ decode (l account.key).data account.key = .ok c.state ∧
      c.treeEvidence = evidence ∧ account.key = (poolV1StateAddress env c.state.identity.assetMint).1 := by
  simp only [decodeAccountWith, except_bind_eq_ok, require_eq_ok, except_pure_eq_ok] at h
  obtain ⟨_, howner, _, -, state, hdecode, _, haddress, rfl⟩ := h
  exact ⟨requireProgramAccount_ok howner, hdecode, rfl, haddress⟩

theorem createMarkerAccountIfNeeded_call {marker payer system : AccountInfo} {planned : PlannedNullifierMarkerV1}
    {l l' : Ledger} {u : Unit} (h : createMarkerAccountIfNeeded env marker payer system planned l = .ok u l') :
    SystemCall l l' := by
  unfold createMarkerAccountIfNeeded at h
  split_ifs at h
  · exact createOrAllocatePda_call h
  · obtain ⟨-, rfl⟩ := Exec.pure_ok.mp h
    exact SystemCall.refl l

theorem createMarkerAccountIfNeeded_lamports {marker payer system : AccountInfo} {planned : PlannedNullifierMarkerV1}
    {l l' : Ledger} {u : Unit} (h : createMarkerAccountIfNeeded env marker payer system planned l = .ok u l') :
    LamportsKept l l' := by
  unfold createMarkerAccountIfNeeded at h
  split_ifs at h
  · exact createOrAllocatePda_lamports h
  · obtain ⟨-, rfl⟩ := Exec.pure_ok.mp h
    exact fun _ _ => rfl

theorem createNextRootPageIfNeeded_call {pool payer system : AccountInfo} {next : Option (AccountInfo × ℕ)}
    {l l' : Ledger} {u : Unit} (h : createNextRootPageIfNeeded env pool next payer system l = .ok u l') :
    SystemCall l l' := by
  cases next with
  | none =>
    obtain ⟨-, rfl⟩ := Exec.pure_ok.mp h
    exact SystemCall.refl l
  | some next =>
    simp only [createNextRootPageIfNeeded, Exec.bind_ok, Exec.query_ok] at h
    obtain ⟨preparation, _, ⟨-, rfl⟩, _, m, hcreate, -, rfl⟩ := h
    exact createProgramPdaIfNeeded_call hcreate

theorem requireReadyMarker_ok {marker : AccountInfo} {planned ready : PlannedNullifierMarkerV1} {l : Ledger}
    (h : requireReadyMarker env marker planned l = .ok ready) :
    FreshMarkerAccount env marker l .populateProgramOwnedZeroed ∧ ready.encodedMarker = planned.encodedMarker := by
  simp only [requireReadyMarker, except_bind_eq_ok, require_eq_ok, except_pure_eq_ok] at h
  obtain ⟨ready', hplan, _, ⟨hprep, hencoded⟩, rfl⟩ := h
  exact ⟨hprep ▸ (planNullifierMarkerConsumptionV1_spec env hplan).fresh, hencoded⟩

/-- The header carried into the append was read from the current page. -/
theorem validateCurrentHistoryAfterPrevalidatedAnchorV1_ok {pool anchorPage current : AccountInfo}
    {e : HistoricalAnchorEnvelopeV1} {expected : HistoricalAnchorAuthorizationV1} {c : CanonicalPoolStateV1}
    {anchor : PrevalidatedHistoricalAnchorV1} {history : PrevalidatedCurrentHistoryV1} {l : Ledger}
    (hanchor : authenticateHistoricalAnchorAfterPrevalidatedStateV1 env pool anchorPage e expected c l = .ok anchor)
    (h : validateCurrentHistoryAfterPrevalidatedAnchorV1 env pool current c anchor l = .ok history) :
    (l current.key).owner = env.programId ∧ validateRootPageBytes (l current.key).data pool.key
      (rootHistoryLocation c.state.currentRootSequence).pageNumber = .ok history.header := by
  simp only [validateCurrentHistoryAfterPrevalidatedAnchorV1, currentHeaderAfterAnchor, except_bind_eq_ok,
    require_eq_ok, except_pure_eq_ok] at h
  obtain ⟨_, -, _, -, header, hheader, rfl⟩ := h
  split_ifs at hheader with hsame
  · simp only [reuseAnchorHeader, except_bind_eq_ok, require_eq_ok, except_pure_eq_ok] at hheader
    obtain ⟨_, howner, _, -, _, -, _, -, rfl⟩ := hheader
    simp only [authenticateHistoricalAnchorAfterPrevalidatedStateV1, authenticateHistoricalAnchorAgainstStateV1,
      except_bind_eq_ok, mapErr_eq_ok, except_pure_eq_ok] at hanchor
    obtain ⟨_, -, _, -, _, -, _, -, _, -, _, -, header, hbytes, _, -, _, -, rfl⟩ := hanchor
    obtain ⟨hkey, hpage⟩ := hsame
    obtain ⟨-, -, hnumber⟩ := validateRootPageBytes_ok hbytes
    refine ⟨requireProgramOwned_ok howner, ?_⟩
    rw [← hpage, hnumber, ← show anchorPage.key = current.key from hkey]
    exact hbytes
  · obtain ⟨hpage, hbytes⟩ := validateCurrentHistory_ok hheader
    exact ⟨hpage.owner_eq, hbytes⟩

/-- What a planned transfer has checked. -/
structure TransferPlanned (env : Environment) (pool : AccountInfo) (i : SpendInstructionV1) (plan : TransferPlanV1)
    (marker : AccountInfo) (l : Ledger) : Prop where
  decoded : CanonicalPoolStateV1.decodeAccount env pool l = .ok plan.canonical
  page_owner : (l plan.layout.current.key).owner = env.programId
  page_valid : validateRootPageBytes (l plan.layout.current.key).data pool.key
    (rootHistoryLocation plan.canonical.state.currentRootSequence).pageNumber = .ok plan.history.header
  planned : planMarkerFromEnvelopeV1 env marker i.envelope l = .ok plan.marker
  marker_ne_next : ∀ account ∈ plan.layout.next.map (·.1), account.key ≠ marker.key
  envelope_match : requireEnvelopeStatementMatch i.envelope i.statement = .ok ()
  envelope_pool : i.envelope.pool = pool.key
  envelope_nullifier : i.envelope.nullifier = i.statement.nullifier

theorem planPrivateTransfer_ok {verify : SpendVerifier} {pool : AccountInfo} {accounts : List AccountInfo}
    {i : SpendInstructionV1} {l : Ledger} {plan : TransferPlanV1} {marker payer system : AccountInfo}
    (h : planPrivateTransfer env verify pool accounts i l = .ok (plan, marker, payer, system)) :
    TransferPlanned env pool i plan marker l := by
  simp only [planPrivateTransfer, validateSpendBindingV1, except_bind_eq_ok, require_eq_ok] at h
  obtain ⟨_, hmatch, c, hdecoded, _, ⟨-, hstatement, -⟩, layout, hlayout, h⟩ := h
  obtain ⟨-, hpool, -, -, -, hnullifier⟩ := require_eq_ok.mp hmatch
  obtain ⟨skipped, hsplit⟩ := planSpendPageLayoutV1_split hlayout
  split at h
  · rename_i hsuffix
    simp only [except_bind_eq_ok, except_pure_eq_ok] at h
    obtain ⟨_, hunique, _, -, _, -, anchor, hanchor, history, hhistory, planned, hplanned, _, -, _, -, heq⟩ := h
    cases heq
    obtain ⟨howner, hvalid⟩ := validateCurrentHistoryAfterPrevalidatedAnchorV1_ok hanchor hhistory
    exact ⟨hdecoded, howner, hvalid, hplanned, ne_next_of_unique hunique hsplit (by simp [hsuffix]), hmatch,
      hpool.trans hstatement, hnullifier⟩
  · cases h

theorem planMarkerFromEnvelopeV1_ok {marker : AccountInfo} {e : HistoricalAnchorEnvelopeV1} {l : Ledger}
    {planned : PlannedNullifierMarkerV1} (h : planMarkerFromEnvelopeV1 env marker e l = .ok planned) :
    PlannedMarkerSpec env marker planned.marker l planned ∧ planned.marker = .fromHistoricalAnchor e ∧
      planned.marker.pool = e.pool ∧ planned.marker.nullifier = e.nullifier := by
  have hspec := planNullifierMarkerConsumptionV1_spec env h
  have hmarker := hspec.marker_eq
  rw [← hmarker] at hspec
  rw [hmarker]
  exact ⟨hmarker ▸ hspec, rfl, rfl, rfl⟩

theorem processPrivateTransferV1_run {verify : SpendVerifier} {accounts : List AccountInfo} {i : SpendInstructionV1}
    {l l' : Ledger} {receipt : TransitionReceiptV1}
    (h : processPrivateTransferV1 env verify accounts i l = .ok receipt l') :
    ∃ pool current marker next source prevalidated r plan planned tokens withdrawal created marked paid,
      accounts.head? = some pool ∧ SpendRun env i pool current marker next source prevalidated r plan planned tokens
        withdrawal l created marked paid l' receipt := by
  cases accounts with
  | nil => simp [processPrivateTransferV1, Exec.query_ok] at h
  | cons pool rest =>
    cases haction : i.statement.action with
    | withdrawal amount destination change => simp [processPrivateTransferV1, haction, Exec.query_ok] at h
    | privateTransfer recipient change =>
      simp only [processPrivateTransferV1, haction, privateTransferFromPool,
        applyAuthorizedAppendAfterPrevalidatedHistoryV1, AuthorizedAppendV1.validateLeaves, createAndWriteMarkerV1,
        applyAuthorizedAppendAfterCheckedStateV1_ok, Exec.bind_ok, Exec.query_ok, Exec.update_ok,
        require_eq_ok] at h
      obtain ⟨⟨plan, marker, payer, system⟩, _, ⟨hplan, rfl⟩, _, created, hcreated, append, _,
        ⟨_, _, ⟨-, rfl⟩, _, _, ⟨hcanon, rfl⟩, appendPlan, m, happend, ⟨_, _, ⟨-, rfl⟩, _, marked, hmarked, ready, _,
          ⟨hready, rfl⟩, rfl⟩, hpersist, rfl⟩, hreceipt, rfl⟩ := h
      have hp := planPrivateTransfer_ok hplan
      obtain ⟨hmarker, hmarkerAnchor, hmarkerPool, hmarkerNullifier⟩ := planMarkerFromEnvelopeV1_ok hp.planned
      obtain ⟨howner, hdecode, -, -⟩ := decodeAccountWith_ok hp.decoded
      have hcall := createNextRootPageIfNeeded_call hcreated
      have hout := hcall.outside env.programId_ne_system
      have hspec := planAuthorizedAppend_spec happend
      simp only [privateTransferReceipt, except_bind_eq_ok, okOr_eq_ok, except_pure_eq_ok] at hreceipt
      obtain ⟨second, -, _, -, rfl⟩ := hreceipt
      refine ⟨pool, plan.layout.current, marker, plan.layout.next.map (·.1), .canonical plan.canonical,
        some plan.history, .two recipient change, appendPlan, plan.marker, [], none, created, marked, marked, rfl, ?_⟩
      exact {
        pool_owner := howner
        decoded := by rw [(hout.kept _ howner).2]; exact hdecode
        created_call := hcall
        leaves_canonical := hcanon
        append := happend
        page_valid := by
          rw [(hout.kept _ hp.page_owner).2, hspec.reused plan.history rfl]
          exact hp.page_valid
        marked_call := createMarkerAccountIfNeeded_call hmarked
        paid_step := rfl
        payout := ⟨rfl, by simp [CanonicalSettlementStatementV1.withdrawalAmountAndDestination, haction]⟩
        marker_planned := hmarker
        marker_ne_next := hp.marker_ne_next
        marker_ready := (requireReadyMarker_ok hready).1
        persisted := hpersist
        envelope_match := hp.envelope_match
        marker_anchor := hmarkerAnchor
        request_eq := by simp [CanonicalSettlementStatementV1.request, haction]
        marker_pool := hmarkerPool.trans hp.envelope_pool
        marker_nullifier := hmarkerNullifier.trans hp.envelope_nullifier
        receipt_pool := rfl
        receipt_outputs := by
          have hchange : DigestIsCanonical change := hcanon change (by simp [AuthorizedAppendV1.leaves])
          simp [TransitionReceiptV1.outputs, AuthorizedAppendV1.leaves, decode_encodeDigestCanonical hchange] }

/-- What a planned withdrawal has checked. -/
structure WithdrawalPlanned (env : Environment) (pool : AccountInfo) (i : SpendInstructionV1) (amount : ℕ)
    (destination : Pubkey) (plan : WithdrawalPlanV1) (marker : AccountInfo) (tokens : List AccountInfo) (l : Ledger) :
    Prop where
  pool_owner : (l pool.key).owner = env.programId
  pool_address : pool.key = (poolV1StateAddress env plan.state.identity.assetMint).1
  planned : planMarkerFromEnvelopeV1 env marker i.envelope l = .ok plan.marker
  transfer : planLegacyWithdrawalTransferFromIdentityV1 env pool.key plan.state.identity tokens destination amount l =
    .ok plan.transfer
  marker_ne_next : ∀ account ∈ plan.layout.next.map (·.1), account.key ≠ marker.key
  envelope_match : requireEnvelopeStatementMatch i.envelope i.statement = .ok ()
  envelope_pool : i.envelope.pool = pool.key
  envelope_nullifier : i.envelope.nullifier = i.statement.nullifier

theorem planWithdrawal_ok {verify : SpendVerifier} {pool : AccountInfo} {accounts : List AccountInfo}
    {i : SpendInstructionV1} {amount : ℕ} {destination : Pubkey} {l : Ledger} {plan : WithdrawalPlanV1}
    {marker payer system : AccountInfo} {tokens : List AccountInfo}
    (h : planWithdrawal env verify pool accounts i amount destination l = .ok (plan, marker, payer, system, tokens)) :
    WithdrawalPlanned env pool i amount destination plan marker tokens l := by
  simp only [planWithdrawal, validateSpendBindingV1, except_bind_eq_ok, require_eq_ok] at h
  obtain ⟨_, hmatch, _, -, c, hdecoded, _, ⟨-, hstatement, -⟩, layout, hlayout, h⟩ := h
  obtain ⟨-, hpool, -, -, -, hnullifier⟩ := require_eq_ok.mp hmatch
  obtain ⟨skipped, hsplit⟩ := planSpendPageLayoutV1_split hlayout
  split at h
  · rename_i hsuffix
    simp only [except_bind_eq_ok, except_pure_eq_ok] at h
    obtain ⟨_, hunique, _, -, _, -, _, -, _, -, _, -, planned, hplanned, _, -, transfer, htransfer, _, -, heq⟩ := h
    cases heq
    exact ⟨(decodeAccountWith_ok hdecoded).1, (decodeAccountWith_ok hdecoded).2.2.2, hplanned, htransfer,
      ne_next_of_unique hunique hsplit (by simp [hsuffix]), hmatch, hpool.trans hstatement, hnullifier⟩
  · cases h

theorem processWithdrawalV1_run {verify : SpendVerifier} {accounts : List AccountInfo} {i : SpendInstructionV1}
    {l l' : Ledger} {receipt : TransitionReceiptV1} (h : processWithdrawalV1 env verify accounts i l = .ok receipt l') :
    ∃ pool current marker next source prevalidated r plan planned tokens withdrawal created marked paid,
      accounts.head? = some pool ∧ SpendRun env i pool current marker next source prevalidated r plan planned tokens
        withdrawal l created marked paid l' receipt := by
  cases accounts with
  | nil => simp [processWithdrawalV1, Exec.query_ok] at h
  | cons pool rest =>
    cases haction : i.statement.action with
    | privateTransfer recipient change => simp [processWithdrawalV1, haction, Exec.query_ok] at h
    | withdrawal amount destination change =>
      simp only [processWithdrawalV1, haction, withdrawalFromPool, applyAuthorizedAppendAfterV1,
        AuthorizedAppendV1.validateLeaves, payWithdrawal, applyAuthorizedAppendAfterCheckedStateV1_ok, Exec.bind_ok,
        Exec.query_ok, Exec.update_ok, Exec.call_ok, Exec.pure_ok, except_bind_eq_ok, except_pure_eq_ok,
        require_eq_ok] at h
      obtain ⟨⟨plan, marker, payer, system, tokens⟩, _, ⟨hplan, rfl⟩, _, created, hcreated, append, _,
        ⟨_, _, ⟨⟨_, -, _, hcanon, state, hdecode, _, -, rfl⟩, rfl⟩, appendPlan, m, happend,
          ⟨_, _, ⟨-, rfl⟩, _, marked, hmarked, _, _, ⟨_, paid, hpaid, hdelta, rfl⟩, ready, _, ⟨hready, rfl⟩, rfl⟩,
          hpersist, rfl⟩, _, _, ⟨-, rfl⟩, rfl, rfl⟩ := h
      have hp := planWithdrawal_ok hplan
      obtain ⟨hmarker, hmarkerAnchor, hmarkerPool, hmarkerNullifier⟩ := planMarkerFromEnvelopeV1_ok hp.planned
      obtain ⟨hfresh, hencoded⟩ := requireReadyMarker_ok hready
      have hspec := planAuthorizedAppend_spec happend
      refine ⟨pool, plan.layout.current, marker, plan.layout.next.map (·.1), .standalone state, none, .one change,
        appendPlan, plan.marker, tokens, some plan.transfer, created, marked, paid, rfl, ?_⟩
      exact {
        pool_owner := hp.pool_owner
        decoded := hdecode
        created_call := createNextRootPageIfNeeded_call hcreated
        leaves_canonical := hcanon
        append := happend
        page_valid := hspec.validated rfl
        marked_call := createMarkerAccountIfNeeded_call hmarked
        paid_step := ⟨hpaid, hdelta⟩
        payout := ⟨rfl, plan.state.identity, destination, hp.pool_address,
          by simp [CanonicalSettlementStatementV1.withdrawalAmountAndDestination, haction], hp.transfer⟩
        marker_planned := hmarker
        marker_ne_next := hp.marker_ne_next
        marker_ready := hfresh
        persisted := by rw [← hencoded]; exact hpersist
        envelope_match := hp.envelope_match
        marker_anchor := hmarkerAnchor
        request_eq := by simp [CanonicalSettlementStatementV1.request, haction]
        marker_pool := hmarkerPool.trans hp.envelope_pool
        marker_nullifier := hmarkerNullifier.trans hp.envelope_nullifier
        receipt_pool := rfl
        receipt_outputs := rfl }

end

end Aspis.Pool
