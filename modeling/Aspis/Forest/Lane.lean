import Aspis.Forest.AccountsExact
import Aspis.Pool.Transition

/-! Lane and history accounts as the programs read and write them. The strict
readers recompute the root of a lane and rescan a page. The fast readers and the
fast lane encoder skip that work, and rely on the program having written the
bytes itself; on bytes that the strict readers accept both give the same value. -/

namespace Aspis.Forest

open Lib Chain Statement Pool

/-- The build switches that put a fast reader or writer in the place of a strict one. -/
structure ForestFeatures where
  sourceInvariant : Bool
  sourceResultInvariant : Bool
  depositInvariant : Bool
  historyPageInvariant : Bool
  directResult : Bool
  deriving DecidableEq, Repr

def requireExactAccountCount (accounts : List AccountInfo) (expected : ℕ) : Except ProgramError Unit :=
  if accounts.length ≠ expected then
    .error (if accounts.length < expected then .notEnoughAccountKeys else .invalidArgument)
  else .ok ()

/-- A lane number as the accounts store it. -/
def laneByte (lane : LaneIdV2) : UInt8 := UInt8.ofNat lane

section
variable (env : Environment)

/-! ### Reading masters and lanes -/

def decodeMasterAccount (account : AccountInfo) (writable : Bool) (l : Ledger) :
    Except ProgramError PoolV1PairForestMasterV1 := do
  requireProgramAccount env.programId account l writable
  require (account.isSigner = false) .invalidAccountData
  let master ← mapErr (fun _ => .custom .invalidAccountType) (decodePoolV1PairForestMasterV1 (account.data l))
  require (account.key = (poolV1PairForestMasterAddress env env.programId master.identity.assetMint).1 ∧
    master.identity.pool = account.key) (.custom .invalidPoolStateAddress)
  return master

/-- The account checks that come before the bytes of a lane are read. -/
def requireLaneAccount (master : Pubkey) (lane : LaneIdV2) (account : AccountInfo) (writable : Bool) (l : Ledger) :
    Except ProgramError Unit := do
  requireProgramAccount env.programId account l writable
  require (account.isSigner = false ∧ account.key = (poolV1PairForestLaneAddress env env.programId master lane).1)
    (.custom .invalidPoolStateAddress)

def decodeLaneAccount (master : Pubkey) (lane : LaneIdV2) (account : AccountInfo) (writable : Bool) (l : Ledger) :
    Except ProgramError PoolV1PairForestLaneStateV1 := do
  requireLaneAccount env master lane account writable l
  let state ← mapErr (fun _ => .custom .invalidAccountType) (decodePoolV1PairForestLaneStateV1 env (account.data l))
  require (state.master = master ∧ state.laneId = laneByte lane) (.custom .stateHistoryMismatch)
  return state

/-- One frontier slot of a tree image: canonical, and empty where the index has no bit. -/
def decodeFrontierSlot (format mismatch : ProgramError) (tree : Bytes) (level : Fin POOL_V1_TREE_DEPTH) :
    Except ProgramError Digest := do
  let node ← okOr (decodeDigestCanonical (slice (48 + 32 * level) 32 tree)) format
  require (¬ ((leNat (slice 8 8 tree)).testBit level = false ∧ node ≠ pairEmptyRoots env level)) mismatch
  return node

/-- The tree of a lane without the root walk. -/
def decodePairTreeFromInvariant (format mismatch : ProgramError) (tree : Bytes) : Except ProgramError PoolTree := do
  require (slice 0 4 tree = [65, 83, 80, 84] ∧ byteAt 4 tree = 1 ∧ byteAt 5 tree = 20 ∧ byteAt 6 tree = 3 ∧
    byteAt 7 tree = 1) format
  require (leNat (slice 8 8 tree) ≤ POOL_V1_PAIR_CAPACITY) format
  let root ← okOr (decodeDigestCanonical (slice 16 32 tree)) format
  let frontier ← collect (decodeFrontierSlot env format mismatch tree)
  require (¬ (leNat (slice 8 8 tree) = 0 ∧ root ≠ pairEmptyRoots env POOL_V1_TREE_DEPTH)) mismatch
  return ⟨leNat (slice 8 8 tree), root, frontier⟩

/-- Both programs read a lane image this way; they differ in their errors and in
what the caller demands of its master and lane number. -/
def decodeLaneFromInvariant (format mismatch : ProgramError) (expected : Pubkey → UInt8 → Bool) (data : Bytes) :
    Except ProgramError PoolV1PairForestLaneStateV1 := do
  require (data.length = POOL_V1_PAIR_FOREST_LANE_ACCOUNT_BYTES ∧ slice 0 4 data = [65, 83, 76, 56] ∧
    byteAt 4 data = 1 ∧ (byteAt 5 data).toNat < POOL_V1_PAIR_FOREST_LANE_COUNT ∧ byteAt 6 data = 8 ∧
    byteAt 7 data = 20 ∧ slice 8 32 data = POOL_V1_PAIR_FOREST_ACCOUNT_FORMAT_BINDING ∧
    allZero (slice 72 8 data) = true) format
  require (Bytes32.read 40 data ≠ Bytes32.zero ∧ expected (Bytes32.read 40 data) (byteAt 5 data) = true) mismatch
  let tree ← decodePairTreeFromInvariant env format mismatch (data.drop 80)
  return ⟨Bytes32.read 40 data, byteAt 5 data, tree⟩

/-- The pool program's reader. -/
def decodeLaneAccountFromProgramInvariantV1 (master : Pubkey) (lane : LaneIdV2) (account : AccountInfo)
    (writable : Bool) (l : Ledger) : Except ProgramError PoolV1PairForestLaneStateV1 := do
  requireLaneAccount env master lane account writable l
  decodeLaneFromInvariant env (.custom .invalidAccountType) (.custom .stateHistoryMismatch)
    (fun m laneId => decide (m = master ∧ laneId = laneByte lane)) (account.data l)

/-- The verifier program's strict reader. -/
def decodeLaneBox (data : Bytes) : Except ProgramError PoolV1PairForestLaneStateV1 :=
  mapErr (fun _ => .invalidAccountData) (decodePoolV1PairForestLaneStateV1 env data)

/-- The verifier program's fast reader; its caller checks account, master and lane. -/
def decodeLaneFromPoolReleaseInvariantBoxV1 (data : Bytes) : Except ProgramError PoolV1PairForestLaneStateV1 :=
  decodeLaneFromInvariant env .invalidAccountData .invalidAccountData (fun _ _ => true) data

/-! ### Writing lanes -/

/-- The encoder for a transition output that was authenticated already: everything but the root walk. -/
def encodeLaneFromAuthenticatedResultV1 (lane : PoolV1PairForestLaneStateV1) : Except ProgramError Bytes := do
  require (lane.laneId.toNat < POOL_V1_PAIR_FOREST_LANE_COUNT ∧ lane.master ≠ Bytes32.zero ∧
    lane.tree.nextLeafIndex ≤ POOL_V1_PAIR_CAPACITY) (.custom .stateHistoryMismatch)
  require (∀ level : Fin POOL_V1_TREE_DEPTH, ¬ (lane.tree.nextLeafIndex.testBit level = false ∧
    lane.tree.frontier level ≠ pairEmptyRoots env level)) (.custom .stateHistoryMismatch)
  require (¬ (lane.tree.nextLeafIndex = 0 ∧ lane.tree.root ≠ pairEmptyRoots env POOL_V1_TREE_DEPTH))
    (.custom .stateHistoryMismatch)
  return laneImage lane

/-- Append a pair leaf to a tree whose root is not recomputed. -/
def appendPairLeafFromProgramInvariantV1 (t : PoolTree) (leaf : Digest) :
    Except ProgramError (PoolTree × AppendOneV1 Digest) := do
  require (t.nextLeafIndex < POOL_V1_PAIR_CAPACITY) (.custom .treeFull)
  require (DigestIsCanonical leaf) (.custom .nonCanonicalLeaf)
  return carryAppend env.treeParent (pairEmptyRoots env) t leaf

/-! ### Reading history pages -/

/-- The fast page reader: the header only. -/
def validateRootPageBytesFromProgramInvariant (data : Bytes) (expectedPool : Pubkey) (expectedPageNumber : ℕ) :
    Except ProgramError RootPageHeaderV1 := do
  require (data.length = POOL_V1_ROOT_HISTORY_PAGE_ACCOUNT_BYTES ∧ slice 0 8 data = pagePreamble ∧
    slice 58 6 data = zeros 6) (.custom .invalidAccountType)
  require (leNat (slice 40 8 data) * POOL_V1_ROOT_HISTORY_CAPACITY < U64_LIMIT) (.custom .arithmeticOverflow)
  require (Bytes32.read 8 data = expectedPool ∧ leNat (slice 40 8 data) = expectedPageNumber ∧
    leNat (slice 48 8 data) = leNat (slice 40 8 data) * POOL_V1_ROOT_HISTORY_CAPACITY ∧
    leNat (slice 56 2 data) ≤ POOL_V1_ROOT_HISTORY_CAPACITY) (.custom .stateHistoryMismatch)
  return ⟨Bytes32.read 8 data, leNat (slice 40 8 data), leNat (slice 48 8 data), leNat (slice 56 2 data)⟩

def validateLanePage (features : ForestFeatures) (data : Bytes) (lane : Pubkey) (pageNumber : ℕ) :
    Except ProgramError RootPageHeaderV1 :=
  if features.historyPageInvariant then validateRootPageBytesFromProgramInvariant data lane pageNumber
  else validateRootPageBytes data lane pageNumber

def validateLaneCurrentPage (features : ForestFeatures) (laneAccount page : AccountInfo)
    (lane : PoolV1PairForestLaneStateV1) (writable : Bool) (l : Ledger) : Except ProgramError RootPageHeaderV1 := do
  let location := rootHistoryLocation lane.tree.nextLeafIndex
  requireProgramAccount env.programId page l writable
  require (page.isSigner = false) .invalidAccountData
  require (page.key = (poolV1RootPageAddress env laneAccount.key location.pageNumber).1)
    (.custom .invalidRootPageAddress)
  let header ← validateLanePage features (page.data l) laneAccount.key location.pageNumber
  require (header.filled = location.slot + 1) (.custom .stateHistoryMismatch)
  let retained ← readRetainedRoot (page.data l) header lane.tree.nextLeafIndex
  require (retained = lane.tree.root) (.custom .stateHistoryMismatch)
  return header

end

/-! ### The fast readers agree with the strict ones -/

section
variable {env : Environment}

theorem decodePairTreeFromInvariant_eq {format mismatch : ProgramError} {bytes : Bytes} {t : PoolTree}
    (h : decodePairTree env bytes = .ok t) : decodePairTreeFromInvariant env format mismatch bytes = .ok t := by
  simp only [decodePairTree, decodeTreeImageUnvalidated, except_bind_eq_ok, require_eq_ok, okOr_eq_ok,
    except_pure_eq_ok] at h
  obtain ⟨_, ⟨-, hlen, -, hmagic, -, hversion, -, hdepth, -, hhash, -, hencoding, root, hroot, frontier, hfrontier, rfl⟩,
    _, hvalid, rfl⟩ := h
  obtain ⟨hindex, hinactive, hempty⟩ := validateWithEmptyRoots_ok hvalid
  have hslots : ∀ level : Fin POOL_V1_TREE_DEPTH,
      decodeDigestCanonical (slice (48 + 32 * level) 32 bytes) = some (frontier level) := by
    intro level
    unfold decodeFrontier at hfrontier
    split_ifs at hfrontier
    obtain rfl := Option.some.inj hfrontier
    exact (Option.some_get _).symm
  simp only [decodePairTreeFromInvariant, except_bind_eq_ok, require_eq_ok, okOr_eq_ok, except_pure_eq_ok]
  refine ⟨(), ⟨hmagic, byteAt_of_slice_one hversion, byteAt_of_slice_one hdepth, byteAt_of_slice_one hhash,
    byteAt_of_slice_one hencoding⟩, (), hindex, root, hroot, frontier, ?_, (), ?_, rfl⟩
  · rw [collect_eq_ok]
    intro level
    simp only [decodeFrontierSlot, except_bind_eq_ok, require_eq_ok, okOr_eq_ok, except_pure_eq_ok]
    exact ⟨frontier level, hslots level, (), fun hdead => hdead.2 (hinactive level hdead.1), rfl⟩
  · exact fun hzero => hzero.2 (hempty hzero.1)

/-- A lane image that the strict codec accepts is read the same by the fast reader, if it names what the caller
expects. -/
theorem decodeLaneFromInvariant_eq {format mismatch : ProgramError} {expected : Pubkey → UInt8 → Bool} {data : Bytes}
    {lane : PoolV1PairForestLaneStateV1} (h : decodePoolV1PairForestLaneStateV1 env data = .ok lane)
    (hexpected : expected lane.master lane.laneId = true) :
    decodeLaneFromInvariant env format mismatch expected data = .ok lane := by
  simp only [decodePoolV1PairForestLaneStateV1, except_bind_eq_ok, require_eq_ok, mapErr_eq_ok, except_pure_eq_ok] at h
  obtain ⟨-, hlen, -, hmagic, -, hversion, -, hlane, -, hcount, -, hdepth, -, hbinding, -, hmaster, -, hreserved, tree,
    htree, -, -, rfl⟩ := h
  simp only [decodeLaneFromInvariant, except_bind_eq_ok, require_eq_ok, except_pure_eq_ok]
  exact ⟨(), ⟨hlen, hmagic, hversion, hlane, hcount, hdepth, hbinding, hreserved⟩, (), ⟨hmaster, hexpected⟩, tree,
    decodePairTreeFromInvariant_eq htree, rfl⟩

theorem decodeLaneFromInvariant_mismatch {format mismatch : ProgramError} {expected : Pubkey → UInt8 → Bool}
    {data : Bytes} {lane : PoolV1PairForestLaneStateV1} (h : decodePoolV1PairForestLaneStateV1 env data = .ok lane)
    (hexpected : expected lane.master lane.laneId = false) :
    decodeLaneFromInvariant env format mismatch expected data = .error mismatch := by
  simp only [decodePoolV1PairForestLaneStateV1, except_bind_eq_ok, require_eq_ok, mapErr_eq_ok, except_pure_eq_ok] at h
  obtain ⟨-, hlen, -, hmagic, -, hversion, -, hlane, -, hcount, -, hdepth, -, hbinding, -, hmaster, -, hreserved, tree,
    htree, -, -, rfl⟩ := h
  rw [decodeLaneFromInvariant, require_of _ ⟨hlen, hmagic, hversion, hlane, hcount, hdepth, hbinding, hreserved⟩,
    except_ok_bind]
  have hnot : ¬ (Bytes32.read 40 data ≠ Bytes32.zero ∧ expected (Bytes32.read 40 data) (byteAt 5 data) = true) := by
    simp [show expected (Bytes32.read 40 data) (byteAt 5 data) = false from hexpected]
  rw [require, if_neg hnot]
  rfl

/-- On an account whose bytes the strict codec accepts, both account readers of the pool program do the same, also
when they refuse the account for its address, its master or its lane number. -/
theorem decodeLaneAccountFromProgramInvariantV1_eq {master : Pubkey} {lane : LaneIdV2} {account : AccountInfo}
    {writable : Bool} {l : Ledger} {state : PoolV1PairForestLaneStateV1}
    (h : decodePoolV1PairForestLaneStateV1 env (account.data l) = .ok state) :
    decodeLaneAccountFromProgramInvariantV1 env master lane account writable l =
      decodeLaneAccount env master lane account writable l := by
  unfold decodeLaneAccountFromProgramInvariantV1 decodeLaneAccount
  cases requireLaneAccount env master lane account writable l with
  | error e => rfl
  | ok u =>
    rw [except_ok_bind, except_ok_bind, h]
    by_cases hnames : state.master = master ∧ state.laneId = laneByte lane
    · rw [decodeLaneFromInvariant_eq h (by simpa using hnames)]
      simp only [mapErr, except_ok_bind, require, if_pos hnames]
      rfl
    · rw [decodeLaneFromInvariant_mismatch h (by simpa using hnames)]
      simp only [mapErr, except_ok_bind, require, if_neg hnames]
      rfl

end

end Aspis.Forest
