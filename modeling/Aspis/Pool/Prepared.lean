import Aspis.Pool.PreparedFormat

/-! Prepared settlement. Preparation computes every hash and page image of a
spend against the current pool and stores them in plan accounts; settlement
authenticates those bytes against the live accounts and writes them without
hashing again; cancellation closes the plan accounts. Authorization receipts
and the verifier registry are read through services whose codecs live outside
the program. -/

namespace Aspis.Pool

open Lib Chain Statement

/-! ### Authorization receipts and the verifier registry -/

structure VerifierDispatchBindingV1 where
  statementVersion : UInt8
  transitionKind : PoolV1TransitionKind
  verifierProgram : Pubkey
  profileBinding : Bytes32
  releaseBinding : Bytes32
  pool : Pubkey
  deploymentDomain : Bytes32
  anchorSequence : ℕ
  anchorRoot : Digest
  nullifier : Digest
  statementDigest : Bytes32
  envelopeDigest : Bytes32
  proofAccount : Pubkey
  proofBodyDigest : Bytes32
  proofBodyLength : ℕ
  statementPayloadLength : ℕ
  deriving DecidableEq

structure PoolV1AuthorizationReceiptV1 where
  pdaBump : UInt8
  verifiedSlot : ℕ
  binding : VerifierDispatchBindingV1
  deriving DecidableEq

inductive PoolV1AuthorizationReceiptAccountStatusV1
  | pending
  | verified
  deriving DecidableEq, Repr

structure PoolV1AuthorizationReceiptAccountV1 where
  status : PoolV1AuthorizationReceiptAccountStatusV1
  pdaBump : UInt8
  verifiedSlot : ℕ
  verifierProgram : Pubkey
  proofAccount : Pubkey
  statementDigest : Bytes32
  bindingDigest : Bytes32
  requestDigest : Bytes32
  receipt : Option PoolV1AuthorizationReceiptV1
  deriving DecidableEq

structure PoolV1AuthorizationReceiptPdaInputsV1 where
  proofAccount : Pubkey
  statementDigest : Bytes32
  bindingDigest : Bytes32
  bump : UInt8
  deriving DecidableEq

structure VerifierSelectionV1 where
  verifierProgram : Pubkey
  profileBinding : Bytes32
  releaseBinding : Bytes32
  statementVersion : UInt8
  deriving DecidableEq

/-- Evidence that the registry accepts a selection for a pool at a slot. -/
structure AuthenticatedVerifierSelectionV1 where
  policy : VerifierPolicyV1
  pool : Pubkey
  selection : VerifierSelectionV1
  registryGeneration : ℕ
  expectedVerifierLoader : Option Pubkey
  authenticatedAtSlot : ℕ
  deriving DecidableEq

/-- The codecs of statements and receipts and the registry check, all read-only. -/
structure AuthorizationServices where
  decodeCanonicalStatement : PoolV1TransitionKind → Bytes → Option CanonicalSettlementStatementV1
  decodeReceiptAccount : Bytes → Option PoolV1AuthorizationReceiptAccountV1
  statementPayloadDigest : UInt8 → Bytes32 → Bytes32 → Bytes → Option Bytes32
  validateReceiptRequest : PoolV1AuthorizationReceiptAccountV1 → VerifierDispatchBindingV1 → Bytes → Bool
  receiptPdaInputs : VerifierDispatchBindingV1 → UInt8 → Option PoolV1AuthorizationReceiptPdaInputsV1
  validateReceiptPdaInputs : PoolV1AuthorizationReceiptAccountV1 → PoolV1AuthorizationReceiptPdaInputsV1 → Bool
  envelopeDigest : HistoricalAnchorEnvelopeV1 → Option Bytes32
  authenticateVerifierSelection : Pubkey → VerifierPolicyV1 → List AccountInfo → VerifierSelectionV1 → ℕ → Ledger →
    Except ProgramError AuthenticatedVerifierSelectionV1

def POOL_V1_PAYMENT_STATEMENT_BYTES : ℕ := 216

def POOL_V1_AUTHORIZATION_RECEIPT_ACCOUNT_BYTES : ℕ := 720

structure AuthenticatedSettlementStatementV1 where
  statement : CanonicalSettlementStatementV1
  statementDigest : Bytes32
  receipt : PoolV1AuthorizationReceiptV1
  envelope : HistoricalAnchorEnvelopeV1
  receiptImageDigest : Bytes32
  deriving DecidableEq

namespace AuthenticatedSettlementStatementV1

def verifierSelection (a : AuthenticatedSettlementStatementV1) : VerifierSelectionV1 :=
  ⟨a.receipt.binding.verifierProgram, a.receipt.binding.profileBinding, a.receipt.binding.releaseBinding,
    a.receipt.binding.statementVersion⟩

def selectionMatches (a : AuthenticatedSettlementStatementV1) (selected : AuthenticatedVerifierSelectionV1) : Bool :=
  selected.pool = a.statement.pool && selected.selection = a.verifierSelection

end AuthenticatedSettlementStatementV1

def envelopeOfStatement (s : CanonicalSettlementStatementV1) (kind : PoolV1TransitionKind)
    (binding : VerifierDispatchBindingV1) : HistoricalAnchorEnvelopeV1 where
  transitionKind := kind
  pool := s.pool
  deploymentDomain := s.deploymentDomain
  anchorSequence := s.anchorSequence
  anchorRoot := s.anchorRoot
  nullifier := s.nullifier
  verifierProfile := binding.profileBinding
  verifierRelease := binding.releaseBinding

section
variable (env : Environment) (services : AuthorizationServices)

/-- Seed text `aspis-verify-receipt-v1` and the receipt's inputs, under the verifier program. -/
def poolV1AuthorizationReceiptAccountAddress (verifierProgram : Pubkey)
    (inputs : PoolV1AuthorizationReceiptPdaInputsV1) : Pubkey × UInt8 :=
  env.findProgramAddress [[97, 115, 112, 105, 115, 45, 118, 101, 114, 105, 102, 121, 45, 114, 101, 99, 101, 105, 112,
    116, 45, 118, 49], inputs.proofAccount.bytes, inputs.statementDigest.bytes, inputs.bindingDigest.bytes]
    verifierProgram

/-- The receipt account belongs to the verifier, carries a verified receipt for
exactly this statement, and sits at its derived address. -/
def authenticateStatementAndReceiptV1 (kind : PoolV1TransitionKind) (payload : Bytes) (address owner : Pubkey)
    (image : Bytes) (slot : ℕ) : Except ProgramError AuthenticatedSettlementStatementV1 := do
  require (payload.length = POOL_V1_PAYMENT_STATEMENT_BYTES ∧
    image.length = POOL_V1_AUTHORIZATION_RECEIPT_ACCOUNT_BYTES) .invalidAccountData
  let statement ← okOr (services.decodeCanonicalStatement kind payload) .invalidInstructionData
  let account ← okOr (services.decodeReceiptAccount image) .invalidAccountData
  require (account.status = .verified) .invalidAccountData
  let receipt ← okOr account.receipt .invalidAccountData
  let binding := receipt.binding
  require (binding.transitionKind = kind ∧ binding.pool = statement.pool ∧
    binding.deploymentDomain = statement.deploymentDomain ∧ binding.anchorSequence = statement.anchorSequence ∧
    binding.anchorRoot = statement.anchorRoot ∧ binding.nullifier = statement.nullifier ∧
    binding.statementPayloadLength = payload.length) .invalidAccountData
  let statementDigest ← okOr (services.statementPayloadDigest binding.statementVersion binding.profileBinding
    binding.releaseBinding payload) .invalidAccountData
  require (statementDigest = binding.statementDigest) .invalidAccountData
  require (services.validateReceiptRequest account binding payload = true) .invalidAccountData
  let inputs ← okOr (services.receiptPdaInputs binding account.pdaBump) .invalidAccountData
  require (services.validateReceiptPdaInputs account inputs = true) .invalidAccountData
  require (receipt.verifiedSlot ≤ slot) .invalidAccountData
  let (expectedAddress, expectedBump) := poolV1AuthorizationReceiptAccountAddress env binding.verifierProgram inputs
  require (owner = binding.verifierProgram ∧ address = expectedAddress ∧ account.pdaBump = expectedBump)
    .invalidAccountData
  let envelope := envelopeOfStatement statement kind binding
  require (services.envelopeDigest envelope = some binding.envelopeDigest) .invalidAccountData
  return ⟨statement, statementDigest, receipt, envelope, exactImageDigestV1 env image⟩

structure PreparedSettlementReceiptClaimV1 where
  transitionKind : PoolV1TransitionKind
  statementDigest : Bytes32
  nullifier : Digest
  verifierSelection : VerifierSelectionV1
  marker : PoolV1NullifierMarkerV1
  deriving DecidableEq

def authenticatePreparedSettlementReceiptClaimV1 (kind : PoolV1TransitionKind) (payload : Bytes)
    (receipt : AccountInfo) (slot : ℕ) (l : Ledger) : Except ProgramError PreparedSettlementReceiptClaimV1 := do
  require (receipt.executable l = false ∧ receipt.isSigner = false ∧ receipt.isWritable = false) .invalidAccountData
  let a ← authenticateStatementAndReceiptV1 env services kind payload receipt.key (receipt.owner l) (receipt.data l) slot
  return ⟨kind, a.statementDigest, a.statement.nullifier, a.verifierSelection, .fromHistoricalAnchor a.envelope⟩

/-! ### Building a plan -/

/-- How many new roots go to the current page and how many to the next. -/
def checkedHistoryDistribution (sourceSequence : ℕ) (header : RootPageHeaderV1) (count : ℕ) :
    Except ProgramError (ℕ × ℕ) := do
  require (sourceSequence + 1 < U64_LIMIT ∧ sourceSequence + count < U64_LIMIT) (.custom .arithmeticOverflow)
  let firstPage := (rootHistoryLocation (sourceSequence + 1)).pageNumber
  let lastPage := (rootHistoryLocation (sourceSequence + count)).pageNumber
  require (header.pageNumber ≤ firstPage ∧ lastPage ≤ header.pageNumber + 1) (.custom .stateHistoryMismatch)
  let current := rootsInCurrent sourceSequence count header.pageNumber
  require (header.filled + current ≤ POOL_V1_ROOT_HISTORY_CAPACITY) (.custom .stateHistoryMismatch)
  return (current, count - current)

def AuthorizedAppendV1.transitionKind : AuthorizedAppendV1 → PoolV1TransitionKind
  | .one _ => .withdrawal
  | .two _ _ => .privateTransfer

def AuthorizedAppendV1.commitments : AuthorizedAppendV1 → Digest × Option Digest
  | .one first => (first, none)
  | .two first second => (first, some second)

/-- The two root slots of a receipt; a single root stands in both. -/
def appendRoots (r : AuthorizedAppendReceiptV1) : List Digest :=
  [r.first.root, (r.second.map (·.root)).getD r.first.root]

/-- The current page with the roots that still fit. -/
def nextCurrentImage (source : Bytes) (header : RootPageHeaderV1) (roots : List Digest) (inCurrent : ℕ) : Bytes :=
  if inCurrent ≠ 0 then appendRootsUnchecked source header (roots.take inCurrent) else source

/-- A history page account checked to be fresh earlier in this instruction. -/
structure PrevalidatedNewHistoryPageV1 where
  pool : Pubkey
  page : Pubkey
  pageNumber : ℕ
  deriving DecidableEq

def PrevalidatedNewHistoryPageV1.requireMatches (p : PrevalidatedNewHistoryPageV1) (pool : Pubkey) (pageNumber : ℕ)
    (page : AccountInfo) : Except ProgramError Unit :=
  require (p.pool = pool ∧ p.page = page.key ∧ p.pageNumber = pageNumber) (.custom .stateHistoryMismatch)

def requireFreshNextPage (pool : AccountInfo) (prevalidated : Option PrevalidatedNewHistoryPageV1) (number : ℕ)
    (next : AccountInfo) (l : Ledger) : Except ProgramError Unit :=
  match prevalidated with
  | some page => page.requireMatches pool.key number next
  | none => validateNewPageAccount env pool.key number next l

/-- The next page of a plan: address, source digest, page number, first sequence. -/
def planPreparedNextPage (pool current : AccountInfo) (supplied : Option AccountInfo)
    (prevalidated : Option PrevalidatedNewHistoryPageV1) (rootsInNext currentPageNumber : ℕ) (l : Ledger) :
    Except ProgramError (Option (Pubkey × Bytes32 × ℕ × ℕ)) :=
  if rootsInNext = 0 then do
    require (supplied = none ∧ prevalidated = none) (.custom .unexpectedRootPage)
    return none
  else do
    let next ← okOr supplied (.custom .unexpectedRootPage)
    let number := currentPageNumber + 1
    require (number < U64_LIMIT) (.custom .arithmeticOverflow)
    requireFreshNextPage env pool prevalidated number next l
    require (next.key ≠ pool.key ∧ next.key ≠ current.key) .invalidAccountData
    require ((next.data l).length = POOL_V1_ROOT_HISTORY_PAGE_ACCOUNT_BYTES) .invalidAccountData
    require (number * POOL_V1_ROOT_HISTORY_CAPACITY < U64_LIMIT) (.custom .arithmeticOverflow)
    return some (next.key, exactImageDigestV1 env (next.data l), number, number * POOL_V1_ROOT_HISTORY_CAPACITY)

/-- What the caller of a preparation supplies besides the accounts. -/
structure PreparationTermsV1 where
  planAuthority : Pubkey
  preparationSlot : ℕ
  notBeforeSlot : ℕ
  expiresAtSlot : ℕ
  deriving DecidableEq

def buildPreparedSettlementPlanV1 (pool anchorPage current : AccountInfo) (supplied : Option AccountInfo)
    (prevalidated : Option PrevalidatedNewHistoryPageV1) (c : CanonicalPoolStateV1) (r : AuthorizedAppendV1)
    (payload : Bytes) (receipt : AccountInfo) (registry : List AccountInfo) (terms : PreparationTermsV1) (l : Ledger) :
    Except ProgramError PreparedSettlementPlanImagesV1 := do
  c.requireSameWritableAccount env pool l
  require (receipt.executable l = false ∧ receipt.isSigner = false ∧ receipt.isWritable = false ∧
    receipt.key ≠ pool.key ∧ receipt.key ≠ anchorPage.key ∧ receipt.key ≠ current.key ∧
    ∀ next ∈ supplied, next.key ≠ receipt.key) .invalidAccountData
  let a ← authenticateStatementAndReceiptV1 env services r.transitionKind payload receipt.key (receipt.owner l)
    (receipt.data l) terms.preparationSlot
  let selected ← services.authenticateVerifierSelection pool.key c.state.verifierPolicy registry a.verifierSelection
    terms.preparationSlot l
  require (terms.planAuthority ≠ Bytes32.zero ∧ terms.notBeforeSlot ≤ terms.expiresAtSlot ∧
    terms.preparationSlot ≤ terms.expiresAtSlot ∧ a.receipt.verifiedSlot ≤ terms.notBeforeSlot ∧
    a.selectionMatches selected = true ∧ a.statement.pool = pool.key ∧ a.statement.pool = c.state.identity.pool ∧
    a.statement.deploymentDomain = c.state.identity.deploymentDomain ∧
    a.statement.assetId = c.state.identity.assetId ∧
    a.statement.anchorSequence ≤ c.state.currentRootSequence) .invalidAccountData
  require (r.commitments = a.statement.orderedCommitments) .invalidInstructionData
  mapErr (fun _ => .invalidAccountData) (validateHistoricalAnchorEnvelopeV1 a.envelope)
  let anchor ← authenticateHistoricalAnchorAfterPrevalidatedStateV1 env pool anchorPage a.envelope
    ⟨a.statement.transitionKind, a.receipt.binding.profileBinding, a.receipt.binding.releaseBinding⟩ c l
  let history ← validateCurrentHistoryAfterPrevalidatedAnchorV1 env pool current c anchor l
  let header ← history.requireMatches env pool current c.state l
  let prepared ← prepareAuthorizedAppendImagesV1 env c r
  let (inCurrent, inNext) ← checkedHistoryDistribution c.state.currentRootSequence header r.count
  require ((pool.data l).length = POOL_V1_STATE_ACCOUNT_BYTES ∧
    (current.data l).length = POOL_V1_ROOT_HISTORY_PAGE_ACCOUNT_BYTES) .invalidAccountData
  let roots := appendRoots prepared.receipt
  let next ← planPreparedNextPage env pool current supplied prevalidated inNext header.pageNumber l
  let (_, bump) := poolV1PreparedSettlementPlanAddress env env.programId pool.key a.statementDigest
    c.state.currentRootSequence terms.planAuthority
  let fields : PreparedSettlementPlanFieldsV1 := {
    pdaBump := bump, transitionKind := a.statement.transitionKind, programId := env.programId, pool := pool.key
    planAuthority := terms.planAuthority, sourceSequence := c.state.currentRootSequence
    sourceRoot := c.state.tree.root, sourcePoolImageDigest := exactImageDigestV1 env (pool.data l)
    currentPageAddress := current.key, sourceCurrentPageImageDigest := exactImageDigestV1 env (current.data l)
    nextPageAddress := next.map (·.1), sourceNextPageImageDigest := next.map (·.2.1)
    statementDigest := a.statementDigest, nullifier := a.statement.nullifier
    authorizationReceiptAddress := receipt.key, authorizationReceiptImageDigest := a.receiptImageDigest
    notBeforeSlot := terms.notBeforeSlot, expiresAtSlot := terms.expiresAtSlot
    firstCommitment := a.statement.orderedCommitments.1, secondCommitment := a.statement.orderedCommitments.2
    firstReceipt := prepared.receipt.first, secondReceipt := prepared.receipt.second
    nextPoolImage := prepared.nextStateImage }
  let (number, first) := (next.map fun n => (n.2.2.1, n.2.2.2)).getD (0, 0)
  -- the shard closure runs only when a next page exists
  mapErr (fun _ => .invalidAccountData) (encodePreparedSettlementPlanV1 env fields
    (nextCurrentImage (current.data l) header roots inCurrent)
    (writeNewPageUnchecked pool.key number first (roots.drop inCurrent)))

/-! ### Applying a plan -/

/-- The live accounts a settlement applies a plan to. -/
structure PreparedSettlementApplyContextV1 where
  planAddress : Pubkey
  planOwner : Pubkey
  planAuthority : Pubkey
  planImage : Bytes
  rolloverShard : Option PreparedSettlementRolloverShardAccountV1
  pool : Pubkey
  sourcePoolImage : Bytes
  currentPage : Pubkey
  sourceCurrentPageImage : Bytes
  nextPage : Option (Pubkey × Bytes)
  payload : Bytes
  expectedKind : PoolV1TransitionKind
  expectedStatementDigest : Bytes32
  expectedNullifier : Digest
  receiptAddress : Pubkey
  receiptOwner : Pubkey
  receiptImage : Bytes
  receiptIsSigner : Bool
  receiptIsWritable : Bool
  receiptExecutable : Bool
  selection : AuthenticatedVerifierSelectionV1
  markerAddress : Pubkey
  markerPlan : PlannedNullifierMarkerV1
  settlementSlot : ℕ

structure PreparedSettlementApplyResultV1 where
  statement : CanonicalSettlementStatementV1
  receipt : AuthorizedAppendReceiptV1
  nextPoolImage : Bytes
  nextCurrentPageImage : Bytes
  nextRolloverPageImage : Option Bytes
  deriving DecidableEq

def PoolV1TransitionKind.appendCount : PoolV1TransitionKind → ℕ
  | .privateTransfer => 2
  | .withdrawal => 1

def validateReceiptProgression (f : PreparedSettlementPlanFieldsV1) :
    Except ProgramError AuthorizedAppendReceiptV1 := do
  require (f.sourceSequence + 1 < U64_LIMIT) (.custom .arithmeticOverflow)
  require (f.firstReceipt.leafIndex = f.sourceSequence ∧ f.firstReceipt.rootSequence = f.sourceSequence + 1)
    .invalidAccountData
  match f.transitionKind, f.secondReceipt with
  | .privateTransfer, some second => do
    require (second.leafIndex = f.sourceSequence + 1 ∧ second.rootSequence =
      if f.sourceSequence + 2 < U64_LIMIT then f.sourceSequence + 2 else U64_LIMIT - 1) .invalidAccountData
    return ⟨f.firstReceipt, some second⟩
  | .withdrawal, none => return ⟨f.firstReceipt, none⟩
  | _, _ => .error .invalidAccountData

/-- The source pool is the one the plan names and the result differs from it only
in cursor, root and frontier. -/
def sourceStateAndResultImageMatch (f : PreparedSettlementPlanFieldsV1) (source : Bytes) : Except ProgramError Unit := do
  require (leNat (slice 40 8 source) = f.sourceSequence ∧ leNat (slice 320 8 source) = f.sourceSequence ∧
    slice 328 32 source = encodeDigestCanonical f.sourceRoot) .invalidAccountData
  let finalSequence := f.sourceSequence + f.transitionKind.appendCount
  require (finalSequence < U64_LIMIT) (.custom .arithmeticOverflow)
  let finalRoot := (f.secondReceipt.getD f.firstReceipt).root
  let result := f.nextPoolImage
  let location := rootHistoryLocation finalSequence
  require (slice 0 40 result = slice 0 40 source ∧ slice 58 254 result = slice 58 254 source ∧
    slice 312 8 result = slice 312 8 source ∧ slice 40 8 result = leBytes 8 finalSequence ∧
    slice 48 8 result = leBytes 8 location.pageNumber ∧ slice 56 2 result = leBytes 2 location.slot ∧
    slice 320 8 result = leBytes 8 finalSequence ∧ slice 328 32 result = encodeDigestCanonical finalRoot ∧
    slice 72 32 result = f.pool.bytes) .invalidAccountData

/-- Recompute the page images from the plan's receipts and compare. -/
def historyResultImagesMatch (pool : Pubkey) (v : PreparedSettlementPlanViewV1) (sourceCurrent : Bytes)
    (sourceNext : Option Bytes) : Except ProgramError Unit := do
  let f := v.fields
  let location := rootHistoryLocation f.sourceSequence
  let header ← validateRootPageBytes sourceCurrent pool location.pageNumber
  require (header.filled = location.slot + 1 ∧
    f.currentPageAddress = (poolV1RootPageAddress env pool location.pageNumber).1) .invalidAccountData
  let (inCurrent, inNext) ← checkedHistoryDistribution f.sourceSequence header f.transitionKind.appendCount
  let roots := appendRoots ⟨f.firstReceipt, f.secondReceipt⟩
  require (nextCurrentImage sourceCurrent header roots inCurrent = v.nextCurrentPageImage) .invalidAccountData
  match f.nextPageAddress, sourceNext, v.nextRolloverPageImage with
  | none, none, none => require (inNext = 0) .invalidAccountData
  | some address, some source, some result => do
    require (inNext ≠ 0) .invalidAccountData
    let number := location.pageNumber + 1
    require (number < U64_LIMIT) (.custom .arithmeticOverflow)
    require (address = (poolV1RootPageAddress env pool number).1 ∧ allZero source = true) .invalidAccountData
    require (number * POOL_V1_ROOT_HISTORY_CAPACITY < U64_LIMIT) (.custom .arithmeticOverflow)
    require (writeNewPageUnchecked pool number (number * POOL_V1_ROOT_HISTORY_CAPACITY) (roots.drop inCurrent) =
      result) .invalidAccountData
  | _, _, _ => .error .invalidAccountData

def nullifierMarkerMatches (address : Pubkey) (plan : PlannedNullifierMarkerV1)
    (a : AuthenticatedSettlementStatementV1) : Except ProgramError Unit := do
  let s := a.statement
  let m := plan.marker
  let (expectedAddress, expectedBump) := poolV1NullifierMarkerAddress env s.pool s.nullifier
  require (address = expectedAddress ∧ plan.addressBump = expectedBump ∧ m.transitionKind = s.transitionKind ∧
    m.pool = s.pool ∧ m.deploymentDomain = s.deploymentDomain ∧ m.nullifier = s.nullifier ∧
    m.retainedAnchorSequence = s.anchorSequence ∧ m.retainedAnchorRoot = s.anchorRoot ∧
    m.verifierProfile = a.receipt.binding.profileBinding ∧ m.verifierRelease = a.receipt.binding.releaseBinding)
    .invalidAccountData

/-- The source image of the next page, when plan and accounts agree about it. -/
def sourceNextImage (f : PreparedSettlementPlanFieldsV1) (nextPage : Option (Pubkey × Bytes)) :
    Except ProgramError (Option Bytes) :=
  match f.nextPageAddress, nextPage with
  | none, none => .ok none
  | some expected, some (address, image) => do
    require (expected = address ∧ image.length = POOL_V1_ROOT_HISTORY_PAGE_ACCOUNT_BYTES ∧
      some (exactImageDigestV1 env image) = f.sourceNextPageImageDigest) .invalidAccountData
    return some image
  | _, _ => .error .invalidAccountData

def applyPreparedSettlementPlanV1 (x : PreparedSettlementApplyContextV1) :
    Except ProgramError PreparedSettlementApplyResultV1 := do
  require (x.planOwner = env.programId ∧ x.sourcePoolImage.length = POOL_V1_STATE_ACCOUNT_BYTES ∧
    x.sourceCurrentPageImage.length = POOL_V1_ROOT_HISTORY_PAGE_ACCOUNT_BYTES ∧ x.receiptIsSigner = false ∧
    x.receiptIsWritable = false ∧ x.receiptExecutable = false) .invalidAccountData
  let v ← mapErr (fun _ => .invalidAccountData)
    (decodePreparedSettlementPlanV1 env x.planAddress x.planImage x.rolloverShard)
  let f := v.fields
  let (expectedAddress, expectedBump) := poolV1PreparedSettlementPlanAddress env env.programId x.pool
    x.expectedStatementDigest f.sourceSequence x.planAuthority
  require (x.planAddress = expectedAddress ∧ f.pdaBump = expectedBump ∧ f.programId = env.programId ∧
    f.pool = x.pool ∧ f.planAuthority = x.planAuthority ∧ f.transitionKind = x.expectedKind ∧
    f.statementDigest = x.expectedStatementDigest ∧ f.nullifier = x.expectedNullifier ∧
    f.currentPageAddress = x.currentPage ∧ f.notBeforeSlot ≤ x.settlementSlot ∧
    x.settlementSlot ≤ f.expiresAtSlot ∧ exactImageDigestV1 env x.sourcePoolImage = f.sourcePoolImageDigest ∧
    exactImageDigestV1 env x.sourceCurrentPageImage = f.sourceCurrentPageImageDigest) .invalidAccountData
  let policy ← mapErr (fun _ => .invalidAccountData) (decodeVerifierPolicyV1 (slice 208 104 x.sourcePoolImage))
  require (x.selection.policy = policy) .invalidAccountData
  let sourceNext ← sourceNextImage env f x.nextPage
  let a ← authenticateStatementAndReceiptV1 env services x.expectedKind x.payload x.receiptAddress x.receiptOwner
    x.receiptImage x.settlementSlot
  require (x.selection.authenticatedAtSlot = x.settlementSlot ∧ a.selectionMatches x.selection = true ∧
    a.statementDigest = x.expectedStatementDigest ∧ a.statement.nullifier = x.expectedNullifier ∧
    a.statement.pool = x.pool ∧ a.receiptImageDigest = f.authorizationReceiptImageDigest ∧
    x.receiptAddress = f.authorizationReceiptAddress ∧
    a.statement.orderedCommitments = (f.firstCommitment, f.secondCommitment)) .invalidAccountData
  nullifierMarkerMatches env x.markerAddress x.markerPlan a
  let receipt ← validateReceiptProgression f
  sourceStateAndResultImageMatch f x.sourcePoolImage
  historyResultImagesMatch env x.pool v x.sourceCurrentPageImage sourceNext
  return ⟨a.statement, receipt, f.nextPoolImage, v.nextCurrentPageImage, v.nextRolloverPageImage⟩

/-- Only the authority inside the plan may close it. -/
def authorizePreparedSettlementPlanCloseV1 (planAddress planOwner : Pubkey) (planImage : Bytes)
    (shard : Option PreparedSettlementRolloverShardAccountV1) (refundAuthority : Pubkey) (isSigner : Bool) :
    Except ProgramError Unit := do
  require (planOwner = env.programId ∧ isSigner = true) .invalidAccountData
  let v ← mapErr (fun _ => .invalidAccountData) (decodePreparedSettlementPlanV1 env planAddress planImage shard)
  let f := v.fields
  let (expectedAddress, expectedBump) := poolV1PreparedSettlementPlanAddress env env.programId f.pool
    f.statementDigest f.sourceSequence f.planAuthority
  require (f.planAuthority = refundAuthority ∧ expectedAddress = planAddress ∧ expectedBump = f.pdaBump ∧
    f.programId = env.programId) .invalidAccountData

/-- On the current page a plan stores what a direct append stores. -/
theorem take_appendRoots {receipt : AuthorizedAppendReceiptV1} {inCurrent : ℕ} (h : inCurrent ≤ receipt.roots.length) :
    (appendRoots receipt).take inCurrent = receipt.roots.take inCurrent := by
  obtain ⟨first, second⟩ := receipt
  cases second with
  | none =>
    rcases Nat.le_one_iff_eq_zero_or_eq_one.mp h with rfl | rfl <;> simp [appendRoots, AuthorizedAppendReceiptV1.roots]
  | some second => simp [appendRoots, AuthorizedAppendReceiptV1.roots]

/-- On a new page it does so too, unless it stores a single root there twice. -/
theorem drop_appendRoots {receipt : AuthorizedAppendReceiptV1} {inCurrent : ℕ}
    (h : receipt.second = none → inCurrent ≠ 0) (hneeded : receipt.roots.length - inCurrent ≠ 0) :
    (appendRoots receipt).drop inCurrent = receipt.roots.drop inCurrent := by
  obtain ⟨first, second⟩ := receipt
  cases second with
  | none =>
    have hne := h rfl
    simp only [AuthorizedAppendReceiptV1.roots, Option.map_none, Option.toList_none, List.length_singleton] at hneeded
    omega
  | some second => simp [appendRoots, AuthorizedAppendReceiptV1.roots]

/-! ### What a built plan and an applied plan carry -/

variable {env : Environment} {services : AuthorizationServices}

/-- A built plan encodes the append of the request to the decoded pool. -/
structure BuiltPlan (env : Environment) (pool : Pubkey) (c : CanonicalPoolStateV1) (r : AuthorizedAppendV1)
    (images : PreparedSettlementPlanImagesV1) (f : PreparedSettlementPlanFieldsV1)
    (prepared : PreparedAuthorizedAppendImagesV1) : Prop where
  encoded : ∃ current rollover, encodePreparedSettlementPlanV1 env f current rollover = .ok images
  prepared_eq : prepareAuthorizedAppendImagesV1 env c r = .ok prepared
  pool_eq : f.pool = pool
  sequence_eq : f.sourceSequence = c.state.currentRootSequence
  kind_eq : f.transitionKind = r.transitionKind
  commitments_eq : (f.firstCommitment, f.secondCommitment) = r.commitments
  first_eq : f.firstReceipt = prepared.receipt.first
  second_eq : f.secondReceipt = prepared.receipt.second
  image_eq : f.nextPoolImage = prepared.nextStateImage

/-- A statement with the request's commitments has the request's kind. -/
theorem transitionKind_of_commitments {r : AuthorizedAppendV1} {s : CanonicalSettlementStatementV1}
    (h : r.commitments = s.orderedCommitments) : s.transitionKind = r.transitionKind := by
  cases r <;> cases haction : s.action <;>
    simp_all [CanonicalSettlementStatementV1.orderedCommitments, CanonicalSettlementStatementV1.transitionKind,
      AuthorizedAppendV1.commitments, AuthorizedAppendV1.transitionKind]

theorem buildPreparedSettlementPlanV1_built {pool anchorPage current : AccountInfo} {supplied : Option AccountInfo}
    {prevalidated : Option PrevalidatedNewHistoryPageV1} {c : CanonicalPoolStateV1} {r : AuthorizedAppendV1}
    {payload : Bytes} {receipt : AccountInfo} {registry : List AccountInfo} {terms : PreparationTermsV1} {l : Ledger}
    {images : PreparedSettlementPlanImagesV1}
    (h : buildPreparedSettlementPlanV1 env services pool anchorPage current supplied prevalidated c r payload receipt
      registry terms l = .ok images) :
    ∃ f prepared, BuiltPlan env pool.key c r images f prepared ∧ f.planAuthority = terms.planAuthority := by
  simp only [buildPreparedSettlementPlanV1, except_bind_eq_ok, require_eq_ok, mapErr_eq_ok] at h
  obtain ⟨_, -, _, -, a, -, _, -, _, -, _, hcommitments, _, -, _, -, _, -, _, -, prepared, hprepared, _, -, _, -, next,
    -, hencode⟩ := h
  exact ⟨_, prepared, ⟨⟨_, _, hencode⟩, hprepared, rfl, rfl, transitionKind_of_commitments hcommitments,
    hcommitments.symm, rfl, rfl, rfl⟩, rfl⟩

theorem authenticateStatementAndReceiptV1_ok {kind : PoolV1TransitionKind} {payload : Bytes} {address owner : Pubkey}
    {image : Bytes} {slot : ℕ} {a : AuthenticatedSettlementStatementV1}
    (h : authenticateStatementAndReceiptV1 env services kind payload address owner image slot = .ok a) :
    services.decodeCanonicalStatement kind payload = some a.statement ∧
      ∃ account, services.decodeReceiptAccount image = some account ∧ account.receipt = some a.receipt := by
  simp only [authenticateStatementAndReceiptV1, except_bind_eq_ok, require_eq_ok, okOr_eq_ok, except_pure_eq_ok] at h
  obtain ⟨_, -, statement, hstatement, account, haccount, _, -, receipt, hreceipt, _, -, _, -, _, -, _, -, _, -, _, -, _,
    -, _, -, _, -, rfl⟩ := h
  exact ⟨hstatement, account, haccount, hreceipt⟩

/-- Everything an applied plan has checked that the settlement's effects rest on. -/
structure AppliedPlan (env : Environment) (services : AuthorizationServices) (x : PreparedSettlementApplyContextV1) (v : PreparedSettlementPlanViewV1)
    (a : AuthenticatedSettlementStatementV1) (sourceNext : Option Bytes) (result : PreparedSettlementApplyResultV1) :
    Prop where
  decoded : decodePreparedSettlementPlanV1 env x.planAddress x.planImage x.rolloverShard = .ok v
  pool_eq : v.fields.pool = x.pool
  authority_eq : v.fields.planAuthority = x.planAuthority
  kind_eq : v.fields.transitionKind = x.expectedKind
  current_eq : v.fields.currentPageAddress = x.currentPage
  statement_decoded : services.decodeCanonicalStatement x.expectedKind x.payload = some a.statement
  receipt_decoded : ∃ account, services.decodeReceiptAccount x.receiptImage = some account ∧
    account.receipt = some a.receipt
  nullifier_eq : a.statement.nullifier = x.expectedNullifier
  statement_pool : a.statement.pool = x.pool
  marker_match : nullifierMarkerMatches env x.markerAddress x.markerPlan a = .ok ()
  commitments_eq : a.statement.orderedCommitments = (v.fields.firstCommitment, v.fields.secondCommitment)
  next_eq : sourceNextImage env v.fields x.nextPage = .ok sourceNext
  progression : validateReceiptProgression v.fields = .ok result.receipt
  state_match : sourceStateAndResultImageMatch v.fields x.sourcePoolImage = .ok ()
  history_match : historyResultImagesMatch env x.pool v x.sourceCurrentPageImage sourceNext = .ok ()
  statement_eq : result.statement = a.statement
  image_eq : result.nextPoolImage = v.fields.nextPoolImage
  current_image_eq : result.nextCurrentPageImage = v.nextCurrentPageImage
  next_image_eq : result.nextRolloverPageImage = v.nextRolloverPageImage

theorem applyPreparedSettlementPlanV1_applied {x : PreparedSettlementApplyContextV1}
    {result : PreparedSettlementApplyResultV1} (h : applyPreparedSettlementPlanV1 env services x = .ok result) :
    ∃ v a sourceNext, AppliedPlan env services x v a sourceNext result := by
  simp only [applyPreparedSettlementPlanV1, except_bind_eq_ok, require_eq_ok, mapErr_eq_ok, except_pure_eq_ok] at h
  obtain ⟨_, -, v, hv, _, ⟨-, -, -, hpool, hauthority, hkind, -, -, hcurrent, -⟩, _, -, _, -, sourceNext, hnext, a, ha, _,
    ⟨-, -, -, hnullifier, hstatement, -, -, hcommitments⟩, _, hmarker, receipt, hprogression, _, hstate, _, hhistory,
    rfl⟩ := h
  obtain ⟨hdecoded, hreceipt⟩ := authenticateStatementAndReceiptV1_ok ha
  exact ⟨v, a, sourceNext, hv, hpool, hauthority, hkind, hcurrent, hdecoded, hreceipt, hnullifier, hstatement, hmarker,
    hcommitments, hnext, hprogression, hstate, hhistory, rfl, rfl, rfl, rfl⟩

/-- The marker a settlement writes is the one of the statement's pool and nullifier. -/
theorem AppliedPlan.marker_eq {x : PreparedSettlementApplyContextV1} {v : PreparedSettlementPlanViewV1}
    {a : AuthenticatedSettlementStatementV1} {sourceNext : Option Bytes} {result : PreparedSettlementApplyResultV1}
    (h : AppliedPlan env services x v a sourceNext result) :
    x.markerPlan.marker.pool = x.pool ∧ x.markerPlan.marker.nullifier = x.expectedNullifier := by
  have hmarker := h.marker_match
  simp only [nullifierMarkerMatches, require_eq_ok] at hmarker
  obtain ⟨-, -, -, hpool, -, hnullifier, -⟩ := hmarker
  exact ⟨hpool.trans h.statement_pool, hnullifier.trans h.nullifier_eq⟩

/-- What the page images of an applied plan are made of. -/
structure HistoryMatch (env : Environment) (pool : Pubkey) (v : PreparedSettlementPlanViewV1) (sourceCurrent : Bytes)
    (sourceNext : Option Bytes) (header : RootPageHeaderV1) (inCurrent : ℕ) : Prop where
  page_valid : validateRootPageBytes sourceCurrent pool (rootHistoryLocation v.fields.sourceSequence).pageNumber =
    .ok header
  filled_eq : header.filled = (rootHistoryLocation v.fields.sourceSequence).slot + 1
  inCurrent_eq : inCurrent = rootsInCurrent v.fields.sourceSequence v.fields.transitionKind.appendCount
    (rootHistoryLocation v.fields.sourceSequence).pageNumber
  current_eq : v.nextCurrentPageImage = nextCurrentImage sourceCurrent header
    (appendRoots ⟨v.fields.firstReceipt, v.fields.secondReceipt⟩) inCurrent
  next_none : sourceNext = none →
    v.fields.transitionKind.appendCount - inCurrent = 0 ∧ v.nextRolloverPageImage = none
  next_some : ∀ source ∈ sourceNext, allZero source = true ∧ v.fields.transitionKind.appendCount - inCurrent ≠ 0 ∧
    v.fields.nextPageAddress =
      some (poolV1RootPageAddress env pool ((rootHistoryLocation v.fields.sourceSequence).pageNumber + 1)).1 ∧
    v.nextRolloverPageImage = some (writeNewPageUnchecked pool
      ((rootHistoryLocation v.fields.sourceSequence).pageNumber + 1)
      (((rootHistoryLocation v.fields.sourceSequence).pageNumber + 1) * POOL_V1_ROOT_HISTORY_CAPACITY)
      ((appendRoots ⟨v.fields.firstReceipt, v.fields.secondReceipt⟩).drop inCurrent))

theorem historyResultImagesMatch_ok {pool : Pubkey} {v : PreparedSettlementPlanViewV1} {sourceCurrent : Bytes}
    {sourceNext : Option Bytes} {u : Unit}
    (h : historyResultImagesMatch env pool v sourceCurrent sourceNext = .ok u) :
    ∃ header inCurrent, HistoryMatch env pool v sourceCurrent sourceNext header inCurrent := by
  simp only [historyResultImagesMatch, checkedHistoryDistribution, except_bind_eq_ok, require_eq_ok,
    except_pure_eq_ok] at h
  obtain ⟨header, hheader, _, ⟨hfilled, -⟩, ⟨inCurrent, inNext⟩, ⟨_, -, _, -, _, -, heq⟩, _, hcurrent, h⟩ := h
  obtain ⟨-, -, hnumber⟩ := validateRootPageBytes_ok hheader
  cases heq
  refine ⟨header, _, hheader, hfilled, by rw [hnumber], hcurrent.symm, ?_, ?_⟩
  · rintro rfl
    split at h
    · rename_i himage
      exact ⟨require_eq_ok.mp h, himage⟩
    · rename_i hnone _
      cases hnone
    · cases h
  · intro source hsource
    obtain rfl := Option.mem_def.mp hsource
    split at h
    · rename_i hsome _
      cases hsome
    · rename_i address source' result haddress hsome hresult
      obtain rfl := Option.some_inj.mp hsome
      simp only [except_bind_eq_ok, require_eq_ok] at h
      obtain ⟨_, hneeded, _, -, _, ⟨haddressEq, hzero⟩, _, -, himage⟩ := h
      exact ⟨hzero, hneeded, haddress.trans (congrArg some haddressEq), hresult.trans (congrArg some himage.symm)⟩
    · cases h

end

end Aspis.Pool
