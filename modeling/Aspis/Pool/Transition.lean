import Aspis.Pool.Accounts

/-! Authorized appends: one or two leaves are appended to the pool tree and the
new roots are retained in the current history page, in a fresh next page, or
split over both. All checks and the whole plan come first; the backing action
runs next; the writes that follow cannot fail. -/

namespace Aspis.Pool

open Lib Chain Statement

inductive AuthorizedAppendV1
  | one (leaf : Digest)
  | two (first second : Digest)
  deriving DecidableEq

namespace AuthorizedAppendV1

def leaves : AuthorizedAppendV1 → List Digest
  | one leaf => [leaf]
  | two first second => [first, second]

def count : AuthorizedAppendV1 → ℕ
  | one _ => 1
  | two _ _ => 2

def validateLeaves (r : AuthorizedAppendV1) : Except ProgramError Unit :=
  require (∀ leaf ∈ r.leaves, DigestIsCanonical leaf) (.custom .nonCanonicalLeaf)

@[simp] theorem length_leaves (r : AuthorizedAppendV1) : r.leaves.length = r.count := by
  cases r <;> rfl

end AuthorizedAppendV1

structure AuthorizedAppendReceiptV1 where
  first : AppendOneV1 Digest
  second : Option (AppendOneV1 Digest)
  deriving DecidableEq

/-- The roots of a receipt in append order. -/
def AuthorizedAppendReceiptV1.roots (r : AuthorizedAppendReceiptV1) : List Digest :=
  r.first.root :: (r.second.map (·.root)).toList

structure PreparedAuthorizedAppendV1 where
  nextState : PoolStateV1
  receipt : AuthorizedAppendReceiptV1
  deriving DecidableEq

/-- Where an append takes its source state from. -/
inductive AuthorizedSourceStateV1
  | canonical (s : CanonicalPoolStateV1)
  | standalone (s : PoolStateV1)
  deriving DecidableEq

def AuthorizedSourceStateV1.asState : AuthorizedSourceStateV1 → PoolStateV1
  | canonical s => s.state
  | standalone s => s

def mapTreeError : PoolV1TreeError → ProgramError
  | .treeFull => .custom .treeFull
  | .insufficientCapacity => .custom .insufficientTreeCapacity
  | _ => .invalidAccountData

section
variable (env : Environment)

/-! ### The next state -/

/-- Append to a source whose root relation is carried by the program's invariant. -/
def appendOneFromProgramInvariant (t : PoolTree) (leaf : Digest) :
    Except ProgramError (PoolTree × AppendOneV1 Digest) := do
  require (t.nextLeafIndex ≠ POOL_V1_LEAF_CAPACITY) (.custom .treeFull)
  require (t.nextLeafIndex + 1 < U64_LIMIT) (.custom .arithmeticOverflow)
  return carryAppend env.treeParent env.emptyRoots t leaf

def prepareCheckedAppend (s : PoolStateV1) : AuthorizedAppendV1 → Except ProgramError PreparedAuthorizedAppendV1
  | .one leaf => do
    let (tree, receipt) ← mapErr mapTreeError
      (appendOneWithEmptyRoots env.treeParent env.emptyRoots s.tree leaf)
    return ⟨{ s with tree := tree }, ⟨receipt, none⟩⟩
  | .two first second => do
    let (tree, receipts) ← mapErr mapTreeError
      (appendTwoWithEmptyRoots env.treeParent env.emptyRoots s.tree first second)
    return ⟨{ s with tree := tree }, ⟨receipts.first, some receipts.second⟩⟩

def prepareAppendFromCanonicalState (c : CanonicalPoolStateV1) (r : AuthorizedAppendV1) :
    Except ProgramError PreparedAuthorizedAppendV1 :=
  match c.treeEvidence, r with
  | .reconstructed, .one leaf => do
    let (tree, receipt) ← mapErr mapTreeError
      (appendOneValidated env.treeParent env.emptyRoots c.state.tree leaf)
    return ⟨{ c.state with tree := tree }, ⟨receipt, none⟩⟩
  | .reconstructed, .two first second => do
    let (tree, receipts) ← mapErr mapTreeError
      (appendTwoValidated env.treeParent env.emptyRoots c.state.tree first second)
    return ⟨{ c.state with tree := tree }, ⟨receipts.first, some receipts.second⟩⟩
  | .programInvariant, .one leaf => do
    let (tree, receipt) ← appendOneFromProgramInvariant env c.state.tree leaf
    return ⟨{ c.state with tree := tree }, ⟨receipt, none⟩⟩
  | .programInvariant, .two first second => do
    let (afterFirst, firstReceipt) ← appendOneFromProgramInvariant env c.state.tree first
    let (afterSecond, secondReceipt) ← appendOneFromProgramInvariant env afterFirst second
    return ⟨{ c.state with tree := afterSecond }, ⟨firstReceipt, some secondReceipt⟩⟩

/-- The receipts name the leaf positions and roots the request must produce. -/
def receiptShapeIsExact (source : PoolStateV1) (r : AuthorizedAppendV1) (p : PreparedAuthorizedAppendV1) : Bool :=
  p.receipt.first.leafIndex = source.currentRootSequence &&
    p.receipt.first.rootSequence = source.currentRootSequence + 1 &&
    match r, p.receipt.second with
    | .one _, none => p.receipt.first.root = p.nextState.tree.root
    | .two _ _, some second => second.leafIndex = source.currentRootSequence + 1 &&
        second.rootSequence = source.currentRootSequence + r.count && second.root = p.nextState.tree.root
    | _, _ => false

def PreparedAuthorizedAppendV1.validateInheritedStateAndCursor (p : PreparedAuthorizedAppendV1)
    (source : PoolStateV1) (r : AuthorizedAppendV1) : Except ProgramError Unit := do
  require (source.currentRootSequence + r.count < U64_LIMIT) (.custom .arithmeticOverflow)
  require (p.nextState.identity = source.identity ∧ p.nextState.verifierPolicy = source.verifierPolicy ∧
    p.nextState.currentRootSequence = source.currentRootSequence + r.count ∧
    receiptShapeIsExact source r p = true) .invalidAccountData

/-- A standalone source is validated with its result; a canonical one carries its evidence. -/
def AuthorizedSourceStateV1.prepareNext (source : AuthorizedSourceStateV1) (r : AuthorizedAppendV1) :
    Except ProgramError PreparedAuthorizedAppendV1 :=
  match source with
  | .canonical c => prepareAppendFromCanonicalState env c r
  | .standalone s => do
    let prepared ← prepareCheckedAppend env s r
    prepared.nextState.validateEncoding env
    return prepared

def AuthorizedSourceStateV1.prepare (source : AuthorizedSourceStateV1) (r : AuthorizedAppendV1) :
    Except ProgramError PreparedAuthorizedAppendV1 := do
  let prepared ← source.prepareNext env r
  prepared.validateInheritedStateAndCursor source.asState r
  return prepared

structure PreparedAuthorizedAppendImagesV1 where
  nextStateImage : Bytes
  receipt : AuthorizedAppendReceiptV1
  deriving DecidableEq

def prepareAuthorizedAppendImagesV1 (c : CanonicalPoolStateV1) (r : AuthorizedAppendV1) :
    Except ProgramError PreparedAuthorizedAppendImagesV1 := do
  r.validateLeaves
  let prepared ← (AuthorizedSourceStateV1.canonical c).prepare env r
  return ⟨prepared.nextState.writeEncodingPrevalidated, prepared.receipt⟩

/-! ### History pages -/

/-- Seed text `aspis-pool-root-page-v1`, the pool and the page number. -/
def poolV1RootPageAddress (pool : Pubkey) (pageNumber : ℕ) : Pubkey × UInt8 :=
  env.programAddress [[97, 115, 112, 105, 115, 45, 112, 111, 111, 108, 45, 114, 111, 111, 116, 45, 112, 97, 103,
    101, 45, 118, 49], pool.bytes, leBytes 8 pageNumber]

def requireRootPageAddress (pool : Pubkey) (pageNumber : ℕ) (account : AccountInfo) : Except ProgramError Unit :=
  require (account.key = (poolV1RootPageAddress env pool pageNumber).1) (.custom .invalidRootPageAddress)

def validateNewPageAccount (pool : Pubkey) (pageNumber : ℕ) (account : AccountInfo) (l : Ledger) :
    Except ProgramError Unit := do
  requireProgramAccount env.programId account l true
  requireRootPageAddress env pool pageNumber account
  require ((account.data l).length = POOL_V1_ROOT_HISTORY_PAGE_ACCOUNT_BYTES ∧ allZero (account.data l) = true)
    .invalidAccountData

def validateTerminalRootAgainstHistory (t : PoolTree) (retained : Digest) : Except ProgramError Unit :=
  mapErr mapTreeError do
    validateTree env t
    require (t.nextLeafIndex = POOL_V1_LEAF_CAPACITY) .indexOutOfRange
    require (t.root = retained) .rootMismatch

/-- The retained root of the current sequence is the state's root. -/
def requireCurrentRoot (s : PoolStateV1) (data : Bytes) (header : RootPageHeaderV1) : Except ProgramError Unit := do
  let retained ← readRetainedRoot data header s.currentRootSequence
  require (retained = s.tree.root) (.custom .stateHistoryMismatch)
  if s.currentRootSequence = POOL_V1_LEAF_CAPACITY then
    validateTerminalRootAgainstHistory env s.tree retained
  else pure ()

def validateCurrentHistory (pool history : AccountInfo) (s : PoolStateV1) (l : Ledger) :
    Except ProgramError RootPageHeaderV1 := do
  let location := rootHistoryLocation s.currentRootSequence
  requireProgramOwned env.programId history l
  requireRootPageAddress env pool.key location.pageNumber history
  let header ← validateRootPageBytes (history.data l) pool.key location.pageNumber
  require (header.filled = location.slot + 1) (.custom .stateHistoryMismatch)
  requireCurrentRoot env s (history.data l) header
  return header

/-- The current page validated together with the state it belongs to. -/
structure PrevalidatedCurrentHistoryV1 where
  pool : Pubkey
  historyPage : Pubkey
  sequence : ℕ
  root : Digest
  header : RootPageHeaderV1
  deriving DecidableEq

def PrevalidatedCurrentHistoryV1.requireMatches (h : PrevalidatedCurrentHistoryV1) (pool history : AccountInfo)
    (s : PoolStateV1) (l : Ledger) : Except ProgramError RootPageHeaderV1 := do
  let location := rootHistoryLocation s.currentRootSequence
  requireProgramOwned env.programId history l
  requireRootPageAddress env pool.key location.pageNumber history
  require (h.pool = pool.key ∧ h.historyPage = history.key ∧ h.sequence = s.currentRootSequence ∧
    h.root = s.tree.root ∧ h.header.pool = pool.key ∧ h.header.pageNumber = location.pageNumber ∧
    h.header.filled = location.slot + 1) (.custom .stateHistoryMismatch)
  return h.header

/-! ### Initialization -/

/-- The writes of a pool initialization; both accounts are zeroed before. -/
def initializePoolAccountsV1 (pool pageZero : AccountInfo) (init : PoolInitializationV1) : Handler Unit := do
  let state ← Exec.query fun l => do
    requireProgramAccount env.programId pool l true
    require (pool.key = (poolV1StateAddress env init.assetMint).1) (.custom .invalidPoolStateAddress)
    validateNewPageAccount env pool.key 0 pageZero l
    require (pool.key ≠ pageZero.key) .invalidAccountData
    require ((pool.data l).length = POOL_V1_STATE_ACCOUNT_BYTES ∧ allZero (pool.data l) = true) .invalidAccountData
    let state ← PoolStateV1.genesis env pool.key init
    state.validateEncoding env
    return state
  Exec.update (setData pool.key state.writeEncodingPrevalidated)
  Exec.update (setData pageZero.key (writeNewPageUnchecked pool.key 0 0 [env.emptyRoots POOL_V1_TREE_DEPTH]))

/-! ### The append -/

/-- How many of the new roots go to the current page. -/
def rootsInCurrent (sequence count currentPageNumber : ℕ) : ℕ :=
  if (rootHistoryLocation (sequence + 1)).pageNumber = currentPageNumber then
    if (rootHistoryLocation (sequence + count)).pageNumber = currentPageNumber then count else 1
  else 0

/-- A fully checked append that has not been written yet. -/
structure AppendPlanV1 where
  prepared : PreparedAuthorizedAppendV1
  currentHeader : RootPageHeaderV1
  inCurrent : ℕ
  next : Option (Pubkey × ℕ × ℕ)
  deriving DecidableEq

def planNextPage (pool current : AccountInfo) (supplied : Option AccountInfo) (needed : Bool)
    (currentPageNumber : ℕ) (l : Ledger) : Except ProgramError (Option (Pubkey × ℕ × ℕ)) :=
  match needed, supplied with
  | false, none => .ok none
  | true, some next => do
    let number := currentPageNumber + 1
    require (number < U64_LIMIT) (.custom .arithmeticOverflow)
    require (number * POOL_V1_ROOT_HISTORY_CAPACITY < U64_LIMIT) (.custom .arithmeticOverflow)
    validateNewPageAccount env pool.key number next l
    require (next.key ≠ pool.key ∧ next.key ≠ current.key) .invalidAccountData
    return some (next.key, number, number * POOL_V1_ROOT_HISTORY_CAPACITY)
  | _, _ => .error (.custom .unexpectedRootPage)

def currentHistoryHeader (pool current : AccountInfo) (s : PoolStateV1)
    (prevalidated : Option PrevalidatedCurrentHistoryV1) (l : Ledger) : Except ProgramError RootPageHeaderV1 :=
  match prevalidated with
  | some history => history.requireMatches env pool current s l
  | none => validateCurrentHistory env pool current s l

def planAuthorizedAppend (pool current : AccountInfo) (supplied : Option AccountInfo)
    (source : AuthorizedSourceStateV1) (prevalidated : Option PrevalidatedCurrentHistoryV1)
    (r : AuthorizedAppendV1) (l : Ledger) : Except ProgramError AppendPlanV1 := do
  let s := source.asState
  let header ← currentHistoryHeader env pool current s prevalidated l
  require (s.currentRootSequence ≤ POOL_V1_LEAF_CAPACITY) (.custom .stateHistoryMismatch)
  require (POOL_V1_LEAF_CAPACITY - s.currentRootSequence ≠ 0) (.custom .treeFull)
  require (r.count ≤ POOL_V1_LEAF_CAPACITY - s.currentRootSequence) (.custom .insufficientTreeCapacity)
  let firstPage := (rootHistoryLocation (s.currentRootSequence + 1)).pageNumber
  let lastPage := (rootHistoryLocation (s.currentRootSequence + r.count)).pageNumber
  require (header.pageNumber ≤ firstPage ∧ lastPage ≤ header.pageNumber + 1) (.custom .stateHistoryMismatch)
  let inCurrent := rootsInCurrent s.currentRootSequence r.count header.pageNumber
  require (current.isWritable = decide (inCurrent ≠ 0)) .invalidAccountData
  let next ← planNextPage env pool current supplied (decide (r.count - inCurrent ≠ 0)) header.pageNumber l
  require (pool.key ≠ current.key) .invalidAccountData
  let prepared ← source.prepare env r
  require (header.filled + inCurrent ≤ POOL_V1_ROOT_HISTORY_CAPACITY) (.custom .stateHistoryMismatch)
  require ((pool.data l).length = POOL_V1_STATE_ACCOUNT_BYTES) .invalidAccountData
  return ⟨prepared, header, inCurrent, next⟩

/-- The writes of a planned append. -/
def AppendPlanV1.persist (plan : AppendPlanV1) (pool current : Pubkey) (l : Ledger) : Ledger :=
  let written := setData pool plan.prepared.nextState.writeEncodingPrevalidated l
  let written := if plan.inCurrent ≠ 0 then
      setData current (appendRootsUnchecked (written current).data plan.currentHeader
        (plan.prepared.receipt.roots.take plan.inCurrent)) written
    else written
  match plan.next with
  | none => written
  | some (next, number, first) =>
    setData next (writeNewPageUnchecked pool number first (plan.prepared.receipt.roots.drop plan.inCurrent)) written

def applyAuthorizedAppendAfterCheckedStateV1 (pool current : AccountInfo) (supplied : Option AccountInfo)
    (source : AuthorizedSourceStateV1) (prevalidated : Option PrevalidatedCurrentHistoryV1)
    (r : AuthorizedAppendV1) (beforePersist : Handler Unit) : Handler AuthorizedAppendReceiptV1 := do
  let plan ← Exec.query (planAuthorizedAppend env pool current supplied source prevalidated r)
  beforePersist
  Exec.update (plan.persist pool.key current.key)
  return plan.prepared.receipt

def applyAuthorizedAppendAfterPrevalidatedV1 (pool current : AccountInfo) (supplied : Option AccountInfo)
    (c : CanonicalPoolStateV1) (r : AuthorizedAppendV1) (beforePersist : Handler Unit) :
    Handler AuthorizedAppendReceiptV1 := do
  Exec.query (c.requireSameWritableAccount env pool)
  Exec.query fun _ => r.validateLeaves
  applyAuthorizedAppendAfterCheckedStateV1 env pool current supplied (.canonical c) none r beforePersist

def applyAuthorizedAppendAfterPrevalidatedHistoryV1 (pool current : AccountInfo) (supplied : Option AccountInfo)
    (c : CanonicalPoolStateV1) (history : PrevalidatedCurrentHistoryV1) (r : AuthorizedAppendV1)
    (beforePersist : Handler Unit) : Handler AuthorizedAppendReceiptV1 := do
  Exec.query (c.requireSameWritableAccount env pool)
  Exec.query fun _ => r.validateLeaves
  applyAuthorizedAppendAfterCheckedStateV1 env pool current supplied (.canonical c) (some history) r beforePersist

/-- The standalone form decodes the pool itself. -/
def applyAuthorizedAppendAfterV1 (pool current : AccountInfo) (supplied : Option AccountInfo)
    (r : AuthorizedAppendV1) (beforePersist : Handler Unit) : Handler AuthorizedAppendReceiptV1 := do
  let state ← Exec.query fun l => do
    requireProgramAccount env.programId pool l true
    r.validateLeaves
    let state ← PoolStateV1.decodeWithValidatedTree env (pool.data l) pool.key
    require (pool.key = (poolV1StateAddress env state.identity.assetMint).1) (.custom .invalidPoolStateAddress)
    return state
  applyAuthorizedAppendAfterCheckedStateV1 env pool current supplied (.standalone state) none r beforePersist

variable {env : Environment}

/-! ### What an append computes, whatever its source evidence -/

/-- The next state and the receipts of appending to a state. -/
def appended (env : Environment) (s : PoolStateV1) : AuthorizedAppendV1 → PreparedAuthorizedAppendV1
  | .one leaf =>
    let x := carryAppend env.treeParent env.emptyRoots s.tree leaf
    ⟨{ s with tree := x.1 }, ⟨x.2, none⟩⟩
  | .two first second =>
    let x := carryAppend env.treeParent env.emptyRoots s.tree first
    let y := carryAppend env.treeParent env.emptyRoots x.1 second
    ⟨{ s with tree := y.1 }, ⟨x.2, some y.2⟩⟩

section Appended
variable {t : PoolTree} {leaf first second : Digest} {s : PoolStateV1} {r : AuthorizedAppendV1}
  {p : PreparedAuthorizedAppendV1}

theorem nextLeafIndex_carryAppend (t : PoolTree) (leaf : Digest) :
    (carryAppend env.treeParent env.emptyRoots t leaf).1.nextLeafIndex = t.nextLeafIndex + 1 := rfl

theorem appendOneValidated_carry {x : PoolTree × AppendOneV1 Digest}
    (h : appendOneValidated env.treeParent env.emptyRoots t leaf = .ok x) :
    x = carryAppend env.treeParent env.emptyRoots t leaf ∧ t.nextLeafIndex ≠ POOL_V1_LEAF_CAPACITY := by
  unfold appendOneValidated at h
  split_ifs at h with hfull
  exact ⟨(Except.ok.inj h).symm, hfull⟩

theorem appendOneFromProgramInvariant_carry {x : PoolTree × AppendOneV1 Digest}
    (h : appendOneFromProgramInvariant env t leaf = .ok x) :
    x = carryAppend env.treeParent env.emptyRoots t leaf ∧ t.nextLeafIndex ≠ POOL_V1_LEAF_CAPACITY := by
  simp only [appendOneFromProgramInvariant, except_bind_eq_ok, require_eq_ok, except_pure_eq_ok] at h
  obtain ⟨_, hfull, _, -, rfl⟩ := h
  exact ⟨rfl, hfull⟩

theorem appendTwoValidated_carry {x : PoolTree × AppendTwoV1 Digest}
    (h : appendTwoValidated env.treeParent env.emptyRoots t first second = .ok x) :
    ∃ y z, y = carryAppend env.treeParent env.emptyRoots t first ∧
      z = carryAppend env.treeParent env.emptyRoots y.1 second ∧ x = (z.1, ⟨y.2, z.2⟩) ∧
      t.nextLeafIndex ≠ POOL_V1_LEAF_CAPACITY ∧ y.1.nextLeafIndex ≠ POOL_V1_LEAF_CAPACITY := by
  unfold appendTwoValidated at h
  split_ifs at h
  simp only [except_bind_eq_ok, except_pure_eq_ok] at h
  obtain ⟨y, hy, z, hz, rfl⟩ := h
  obtain ⟨hy, hfull⟩ := appendOneValidated_carry hy
  obtain ⟨hz, hfull'⟩ := appendOneValidated_carry hz
  exact ⟨y, z, hy, hz, rfl, hfull, hfull'⟩

/-- A prepared append is the carry append, and it leaves no full tree behind it. -/
structure IsAppended (env : Environment) (s : PoolStateV1) (r : AuthorizedAppendV1) (p : PreparedAuthorizedAppendV1) :
    Prop where
  eq_appended : p = appended env s r
  room : s.tree.nextLeafIndex ≤ POOL_V1_LEAF_CAPACITY → s.tree.nextLeafIndex + r.count ≤ POOL_V1_LEAF_CAPACITY

theorem isAppended_one {x : PoolTree × AppendOneV1 Digest}
    (h : x = carryAppend env.treeParent env.emptyRoots s.tree leaf ∧ s.tree.nextLeafIndex ≠ POOL_V1_LEAF_CAPACITY) :
    IsAppended env s (.one leaf) ⟨{ s with tree := x.1 }, ⟨x.2, none⟩⟩ := by
  obtain ⟨rfl, hfull⟩ := h
  exact ⟨rfl, fun hle => lt_of_le_of_ne hle hfull⟩

theorem isAppended_two {y z : PoolTree × AppendOneV1 Digest}
    (hy : y = carryAppend env.treeParent env.emptyRoots s.tree first ∧ s.tree.nextLeafIndex ≠ POOL_V1_LEAF_CAPACITY)
    (hz : z = carryAppend env.treeParent env.emptyRoots y.1 second ∧ y.1.nextLeafIndex ≠ POOL_V1_LEAF_CAPACITY) :
    IsAppended env s (.two first second) ⟨{ s with tree := z.1 }, ⟨y.2, some z.2⟩⟩ := by
  obtain ⟨rfl, hfull⟩ := hy
  obtain ⟨rfl, hfull'⟩ := hz
  rw [nextLeafIndex_carryAppend] at hfull'
  refine ⟨rfl, fun hle => ?_⟩
  simp only [AuthorizedAppendV1.count]
  omega

theorem prepareAppendFromCanonicalState_appended {c : CanonicalPoolStateV1}
    (h : prepareAppendFromCanonicalState env c r = .ok p) : IsAppended env c.state r p := by
  unfold prepareAppendFromCanonicalState at h
  cases hevidence : c.treeEvidence <;> cases r <;>
    simp only [hevidence, except_bind_eq_ok, mapErr_eq_ok, except_pure_eq_ok] at h
  case reconstructed.one leaf =>
    obtain ⟨x, happend, rfl⟩ := h
    exact isAppended_one (appendOneValidated_carry happend)
  case reconstructed.two first second =>
    obtain ⟨x, happend, rfl⟩ := h
    obtain ⟨y, z, hy, hz, rfl, hfull, hfull'⟩ := appendTwoValidated_carry happend
    exact isAppended_two ⟨hy, hfull⟩ ⟨hz, hfull'⟩
  case programInvariant.one leaf =>
    obtain ⟨x, happend, rfl⟩ := h
    exact isAppended_one (appendOneFromProgramInvariant_carry happend)
  case programInvariant.two first second =>
    obtain ⟨y, hfirst, z, hsecond, rfl⟩ := h
    exact isAppended_two (appendOneFromProgramInvariant_carry hfirst) (appendOneFromProgramInvariant_carry hsecond)

theorem prepareCheckedAppend_appended (h : prepareCheckedAppend env s r = .ok p) : IsAppended env s r p := by
  cases r with
  | one leaf =>
    simp only [prepareCheckedAppend, appendOneWithEmptyRoots, except_bind_eq_ok, mapErr_eq_ok, except_pure_eq_ok] at h
    obtain ⟨x, ⟨_, -, happend⟩, rfl⟩ := h
    exact isAppended_one (appendOneValidated_carry happend)
  | two first second =>
    simp only [prepareCheckedAppend, appendTwoWithEmptyRoots, except_bind_eq_ok, mapErr_eq_ok, except_pure_eq_ok] at h
    obtain ⟨x, ⟨_, -, happend⟩, rfl⟩ := h
    obtain ⟨y, z, hy, hz, rfl, hfull, hfull'⟩ := appendTwoValidated_carry happend
    exact isAppended_two ⟨hy, hfull⟩ ⟨hz, hfull'⟩

/-- Whatever source a prepared append starts from, it is the carry append. -/
theorem prepare_appended {source : AuthorizedSourceStateV1} (h : source.prepare env r = .ok p) :
    IsAppended env source.asState r p := by
  simp only [AuthorizedSourceStateV1.prepare, except_bind_eq_ok, except_pure_eq_ok] at h
  obtain ⟨p', hp, _, -, rfl⟩ := h
  cases source with
  | canonical c => exact prepareAppendFromCanonicalState_appended hp
  | standalone s =>
    simp only [AuthorizedSourceStateV1.prepareNext, except_bind_eq_ok, except_pure_eq_ok] at hp
    obtain ⟨p'', hp, _, -, rfl⟩ := hp
    exact prepareCheckedAppend_appended hp

theorem prepare_cursor {source : AuthorizedSourceStateV1} (h : source.prepare env r = .ok p) :
    source.asState.currentRootSequence + r.count < U64_LIMIT ∧
      p.nextState.currentRootSequence = source.asState.currentRootSequence + r.count := by
  simp only [AuthorizedSourceStateV1.prepare, PreparedAuthorizedAppendV1.validateInheritedStateAndCursor,
    except_bind_eq_ok, require_eq_ok, except_pure_eq_ok] at h
  obtain ⟨p', -, _, ⟨_, hlt, -, -, hcursor, -⟩, rfl⟩ := h
  exact ⟨hlt, hcursor⟩

end Appended

/-! ### What a plan has checked -/

theorem requireProgramOwned_ok {programId : Pubkey} {account : AccountInfo} {l : Ledger} {u : Unit}
    (h : requireProgramOwned programId account l = .ok u) : account.owner l = programId := by
  unfold requireProgramOwned at h
  split_ifs at h with howner
  exact not_not.mp howner

theorem requireProgramAccount_ok {programId : Pubkey} {account : AccountInfo} {l : Ledger} {writable : Bool} {u : Unit}
    (h : requireProgramAccount programId account l writable = .ok u) : account.owner l = programId := by
  unfold requireProgramAccount at h
  split_ifs at h with howner
  exact not_not.mp howner

/-- A zeroed page account at its derived address. -/
structure NewPage (env : Environment) (pool : Pubkey) (pageNumber : ℕ) (key : Pubkey) (l : Ledger) : Prop where
  key_eq : key = (poolV1RootPageAddress env pool pageNumber).1
  owner_eq : (l key).owner = env.programId
  length_eq : (l key).data.length = POOL_V1_ROOT_HISTORY_PAGE_ACCOUNT_BYTES
  zeroed : allZero (l key).data = true

theorem validateNewPageAccount_ok {pool : Pubkey} {pageNumber : ℕ} {account : AccountInfo} {l : Ledger} {u : Unit}
    (h : validateNewPageAccount env pool pageNumber account l = .ok u) :
    NewPage env pool pageNumber account.key l := by
  simp only [validateNewPageAccount, requireRootPageAddress, except_bind_eq_ok, require_eq_ok] at h
  obtain ⟨_, howner, _, hkey, hlen, hzero⟩ := h
  exact ⟨hkey, requireProgramAccount_ok howner, hlen, hzero⟩

/-- The current page account of a state, with the header read from it. -/
structure CurrentPage (env : Environment) (pool : Pubkey) (sequence : ℕ) (key : Pubkey)
    (header : RootPageHeaderV1) (l : Ledger) : Prop where
  owner_eq : (l key).owner = env.programId
  key_eq : key = (poolV1RootPageAddress env pool (rootHistoryLocation sequence).pageNumber).1
  page_eq : header.pageNumber = (rootHistoryLocation sequence).pageNumber
  filled_eq : header.filled = (rootHistoryLocation sequence).slot + 1

theorem validateRootPageBytes_ok {data : Bytes} {pool : Pubkey} {pageNumber : ℕ} {header : RootPageHeaderV1}
    (h : validateRootPageBytes data pool pageNumber = .ok header) :
    slice 0 8 data = pagePreamble ∧ header.pool = pool ∧ header.pageNumber = pageNumber := by
  unfold validateRootPageBytes at h
  dsimp only at h
  split_ifs at h with hshape hover hid hcanon hzero
  cases h
  simp only [not_or, not_not] at hshape hid
  exact ⟨hshape.2.1, hid.1, hid.2.1⟩

theorem validateCurrentHistory_ok {pool history : AccountInfo} {s : PoolStateV1} {l : Ledger}
    {header : RootPageHeaderV1} (h : validateCurrentHistory env pool history s l = .ok header) :
    CurrentPage env pool.key s.currentRootSequence history.key header l ∧
      validateRootPageBytes (history.data l) pool.key (rootHistoryLocation s.currentRootSequence).pageNumber =
        .ok header := by
  simp only [validateCurrentHistory, requireRootPageAddress, except_bind_eq_ok, require_eq_ok,
    except_pure_eq_ok] at h
  obtain ⟨_, howner, _, hkey, _, hbytes, _, hfilled, _, -, rfl⟩ := h
  exact ⟨⟨requireProgramOwned_ok howner, hkey, (validateRootPageBytes_ok hbytes).2.2, hfilled⟩, hbytes⟩

theorem PrevalidatedCurrentHistoryV1.requireMatches_ok {history : PrevalidatedCurrentHistoryV1}
    {pool current : AccountInfo} {s : PoolStateV1} {l : Ledger} {header : RootPageHeaderV1}
    (h : history.requireMatches env pool current s l = .ok header) :
    CurrentPage env pool.key s.currentRootSequence current.key header l ∧ header = history.header := by
  simp only [PrevalidatedCurrentHistoryV1.requireMatches, requireRootPageAddress, except_bind_eq_ok, require_eq_ok,
    except_pure_eq_ok] at h
  obtain ⟨_, howner, _, hkey, _, ⟨-, -, -, -, -, hpage, hfilled⟩, rfl⟩ := h
  exact ⟨⟨requireProgramOwned_ok howner, hkey, hpage, hfilled⟩, rfl⟩

/-- Everything a planned append has checked. -/
structure AppendSpec (env : Environment) (pool current : AccountInfo) (supplied : Option AccountInfo)
    (source : AuthorizedSourceStateV1) (prevalidated : Option PrevalidatedCurrentHistoryV1) (r : AuthorizedAppendV1) (l : Ledger)
    (plan : AppendPlanV1) : Prop where
  page : CurrentPage env pool.key source.asState.currentRootSequence current.key plan.currentHeader l
  validated : prevalidated = none → validateRootPageBytes (current.data l) pool.key
    (rootHistoryLocation source.asState.currentRootSequence).pageNumber = .ok plan.currentHeader
  reused : ∀ history ∈ prevalidated, plan.currentHeader = history.header
  inCurrent_eq : plan.inCurrent = rootsInCurrent source.asState.currentRootSequence r.count
    (rootHistoryLocation source.asState.currentRootSequence).pageNumber
  pool_ne : pool.key ≠ current.key
  next_none : plan.next = none → r.count - plan.inCurrent = 0
  supplied_none : plan.next = none → supplied = none
  next_some : ∀ key number first, plan.next = some (key, number, first) →
    number = (rootHistoryLocation source.asState.currentRootSequence).pageNumber + 1 ∧
      first = number * POOL_V1_ROOT_HISTORY_CAPACITY ∧ NewPage env pool.key number key l ∧ key ≠ pool.key ∧
      key ≠ current.key ∧ r.count - plan.inCurrent ≠ 0 ∧ supplied.map (·.key) = some key
  prepared : source.prepare env r = .ok plan.prepared
  pool_length : (pool.data l).length = POOL_V1_STATE_ACCOUNT_BYTES

theorem planNextPage_ok {pool current : AccountInfo} {supplied : Option AccountInfo} {needed : Bool} {pageNumber : ℕ}
    {l : Ledger} {next : Option (Pubkey × ℕ × ℕ)}
    (h : planNextPage env pool current supplied needed pageNumber l = .ok next) :
    (next = none → needed = false ∧ supplied = none) ∧ ∀ key number first, next = some (key, number, first) →
      number = pageNumber + 1 ∧ first = number * POOL_V1_ROOT_HISTORY_CAPACITY ∧
        NewPage env pool.key number key l ∧ key ≠ pool.key ∧ key ≠ current.key ∧ needed = true ∧
        supplied.map (·.key) = some key := by
  cases needed <;> cases supplied <;> simp only [planNextPage, reduceCtorEq] at h
  case false.none =>
    cases h
    exact ⟨fun _ => ⟨rfl, rfl⟩, by simp⟩
  case true.some account =>
    simp only [except_bind_eq_ok, require_eq_ok, except_pure_eq_ok] at h
    obtain ⟨_, -, _, -, _, hpage, _, ⟨hpool, hcurrent⟩, rfl⟩ := h
    refine ⟨by simp, ?_⟩
    rintro key number first heq
    cases heq
    exact ⟨rfl, rfl, validateNewPageAccount_ok hpage, hpool, hcurrent, rfl, rfl⟩

theorem planAuthorizedAppend_spec {pool current : AccountInfo} {supplied : Option AccountInfo}
    {source : AuthorizedSourceStateV1} {prevalidated : Option PrevalidatedCurrentHistoryV1} {r : AuthorizedAppendV1}
    {l : Ledger} {plan : AppendPlanV1}
    (h : planAuthorizedAppend env pool current supplied source prevalidated r l = .ok plan) :
    AppendSpec env pool current supplied source prevalidated r l plan := by
  simp only [planAuthorizedAppend, except_bind_eq_ok, require_eq_ok, except_pure_eq_ok] at h
  obtain ⟨header, hheader, _, -, _, -, _, -, _, -, _, -, next, hnext, _, hne, prepared, hprepared, _, -, _, hlen,
    rfl⟩ := h
  obtain ⟨hnone, hsome⟩ := planNextPage_ok hnext
  have hpage : CurrentPage env pool.key source.asState.currentRootSequence current.key header l := by
    cases prevalidated with
    | none => exact (validateCurrentHistory_ok hheader).1
    | some history => exact (PrevalidatedCurrentHistoryV1.requireMatches_ok hheader).1
  refine ⟨hpage, ?_, ?_, ?_, hne, ?_, fun heq => (hnone heq).2, ?_, hprepared, hlen⟩
  · rintro rfl
    exact (validateCurrentHistory_ok hheader).2
  · intro history hmem
    obtain rfl := Option.mem_def.mp hmem
    exact (PrevalidatedCurrentHistoryV1.requireMatches_ok hheader).2
  · dsimp only
    rw [hpage.page_eq]
  · intro heq
    simpa using (hnone heq).1
  · intro key number first heq
    obtain ⟨hnumber, hfirst, hnew, hkp, hkc, hneeded, hsupplied⟩ := hsome key number first heq
    exact ⟨hpage.page_eq ▸ hnumber, hfirst, hnew, hkp, hkc, by simpa using hneeded, hsupplied⟩

section Persist
variable (plan : AppendPlanV1) {pool current : Pubkey} {l : Ledger}

theorem AppendPlanV1.persist_touches :
    Touches (pool :: current :: (plan.next.map (·.1)).toList) l (plan.persist pool current l) := by
  intro k hk
  simp only [List.mem_cons, not_or] at hk
  obtain ⟨hpool, hcurrent, hnext⟩ := hk
  unfold persist
  cases hplan : plan.next with
  | none => split_ifs <;> simp [setData_of_ne hpool, setData_of_ne hcurrent]
  | some next =>
    have hne : k ≠ next.1 := by simpa [hplan] using hnext
    dsimp only
    split_ifs <;> simp [setData_of_ne hpool, setData_of_ne hcurrent, setData_of_ne hne]

theorem AppendPlanV1.persist_owner (k : Pubkey) : (plan.persist pool current l k).owner = (l k).owner := by
  unfold persist
  cases plan.next <;> dsimp only <;> split_ifs <;> simp

/-- The three images a persisted append leaves behind. -/
theorem AppendPlanV1.persist_pool (hcurrent : pool ≠ current) (hnext : ∀ n ∈ plan.next, n.1 ≠ pool) :
    (plan.persist pool current l pool).data = plan.prepared.nextState.writeEncodingPrevalidated := by
  unfold persist
  cases hplan : plan.next with
  | none => split_ifs <;> simp [setData_of_ne hcurrent]
  | some next =>
    have hne := (hnext next hplan).symm
    dsimp only
    split_ifs <;> simp [setData_of_ne hcurrent, setData_of_ne hne]

theorem AppendPlanV1.persist_current (hcurrent : current ≠ pool) (hnext : ∀ n ∈ plan.next, n.1 ≠ current) :
    (plan.persist pool current l current).data = if plan.inCurrent ≠ 0 then appendRootsUnchecked (l current).data
      plan.currentHeader (plan.prepared.receipt.roots.take plan.inCurrent) else (l current).data := by
  unfold persist
  cases hplan : plan.next with
  | none => split_ifs <;> simp [setData_of_ne hcurrent]
  | some next =>
    have hne := (hnext next hplan).symm
    dsimp only
    split_ifs <;> simp [setData_of_ne hcurrent, setData_of_ne hne]

theorem AppendPlanV1.persist_next {key : Pubkey} {number first : ℕ} (hplan : plan.next = some (key, number, first)) :
    (plan.persist pool current l key).data =
      writeNewPageUnchecked pool number first (plan.prepared.receipt.roots.drop plan.inCurrent) := by
  unfold persist
  rw [hplan]
  dsimp only
  rw [setData_self]

end Persist

/-- An append is its plan, the backing action and the writes, in this order. -/
theorem applyAuthorizedAppendAfterCheckedStateV1_ok {pool current : AccountInfo} {supplied : Option AccountInfo}
    {source : AuthorizedSourceStateV1} {prevalidated : Option PrevalidatedCurrentHistoryV1} {r : AuthorizedAppendV1}
    {beforePersist : Handler Unit} {l l' : Ledger} {receipt : AuthorizedAppendReceiptV1} :
    applyAuthorizedAppendAfterCheckedStateV1 env pool current supplied source prevalidated r beforePersist l =
        .ok receipt l' ↔
      ∃ plan m, planAuthorizedAppend env pool current supplied source prevalidated r l = .ok plan ∧
        beforePersist l = .ok () m ∧ plan.persist pool.key current.key m = l' ∧
        plan.prepared.receipt = receipt := by
  simp only [applyAuthorizedAppendAfterCheckedStateV1, Exec.bind_ok, Exec.query_ok, Exec.update_ok, Exec.pure_ok]
  constructor
  · rintro ⟨plan, _, ⟨hplan, rfl⟩, _, m, hbefore, _, _, hpersist, hreceipt, rfl⟩
    exact ⟨plan, m, hplan, hbefore, hpersist, hreceipt⟩
  · rintro ⟨plan, m, hplan, hbefore, hpersist, hreceipt⟩
    exact ⟨plan, l, ⟨hplan, rfl⟩, (), m, hbefore, (), l', hpersist, hreceipt, rfl⟩

end

end Aspis.Pool
