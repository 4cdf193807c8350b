import Aspis.Forest.Instructions
import Aspis.Pool.Content
import Aspis.Statement.PairLeaf

/-! Vault-backed deposits into the pair forest. The note commitment picks the
lane; the pair leaf holds the commitment in its first place and nothing in its
second. The root goes to the current history page, to a first page that is made
with it, or to the next page. Lane and page are written only after the exact
token balances have been read back. -/

namespace Aspis.Forest

open Lib Chain Statement Pool

/-! ### Writing an append -/

/-- Where the root of an append goes: a first page, the current one, or a new one. -/
inductive LanePageV1
  | genesis
  | samePage (header : RootPageHeaderV1)
  | rollover (pageNumber : ℕ)
  deriving DecidableEq

/-- The bytes of the page that takes the new root. A first page also gets the root of the empty lane. -/
def lanePageBytes (lane : Pubkey) (oldRoot newRoot : Digest) (sequence : ℕ) (data : Bytes) : LanePageV1 → Bytes
  | .genesis => writeNewPageUnchecked lane 0 0 [oldRoot, newRoot]
  | .samePage header => appendRootsUnchecked data header [newRoot]
  | .rollover pageNumber => writeNewPageUnchecked lane pageNumber sequence [newRoot]

/-- Lane first, then page. -/
def writeLaneAppend (lane page : Pubkey) (laneBytes : Bytes) (pageBytes : Bytes → Bytes) (l : Ledger) : Ledger :=
  setData page (pageBytes (l page).data) (setData lane laneBytes l)

section
variable (env : Environment) (features : ForestFeatures)

/-! ### Steps shared by deposits and spends -/

def decodeWritableLane (fast : Bool) (master : Pubkey) (lane : LaneIdV2) (account : AccountInfo) (l : Ledger) :
    Except ProgramError PoolV1PairForestLaneStateV1 :=
  if fast then decodeLaneAccountFromProgramInvariantV1 env master lane account true l
  else decodeLaneAccount env master lane account true l

def encodeNextLane (fast : Bool) (lane : PoolV1PairForestLaneStateV1) : Except ProgramError Bytes :=
  if fast then encodeLaneFromAuthenticatedResultV1 env lane
  else mapErr (fun _ => .custom .stateHistoryMismatch) (encodePoolV1PairForestLaneStateV1 env lane)

/-- The lane of a commitment or a nullifier. -/
def routeLane (d : Digest) : Except ProgramError LaneIdV2 := do
  require (DigestIsCanonical d) (.custom .nonCanonicalLeaf)
  return routedLane d

def laneInitialized (master : PoolV1PairForestMasterV1) (lane : LaneIdV2) : Prop :=
  master.initializedLaneMask &&& (1 <<< laneByte lane) ≠ 0

instance (master : PoolV1PairForestMasterV1) (lane : LaneIdV2) : Decidable (laneInitialized master lane) :=
  inferInstanceAs (Decidable (_ ≠ _))

def accountIsZeroedProgramPage (account : AccountInfo) (l : Ledger) : Bool :=
  decide (account.owner l = env.programId ∧
    (account.data l).length = POOL_V1_ROOT_HISTORY_PAGE_ACCOUNT_BYTES) && allZero (account.data l)

def requireProgramOwnedZeroed (account : AccountInfo) (exactBytes : ℕ) (l : Ledger) : Except ProgramError Unit := do
  requireProgramAccount env.programId account l true
  require ((account.data l).length = exactBytes ∧ allZero (account.data l) = true ∧
    env.minimumBalance exactBytes ≤ account.lamports l) (.custom .invalidFreshAccount)

/-- Create the account when it was planned so, and find it zeroed and rent exempt. -/
def prepareZeroedAccount (payer account system : AccountInfo) (exactBytes : ℕ)
    (preparation : FreshPdaPreparationV1) : Handler Unit := do
  createProgramPdaIfNeeded env payer account system exactBytes preparation
  Exec.query (requireProgramOwnedZeroed env account exactBytes)

/-! ### The plan of a deposit -/

inductive PairForestDepositPageModeV1
  | freshGenesis (preparation : FreshPdaPreparationV1)
  | existingSamePage (header : RootPageHeaderV1)
  | freshRollover (preparation : FreshPdaPreparationV1) (nextPageNumber : ℕ)
  deriving DecidableEq

/-- What the mode writes. -/
def PairForestDepositPageModeV1.page : PairForestDepositPageModeV1 → LanePageV1
  | freshGenesis _ => .genesis
  | existingSamePage header => .samePage header
  | freshRollover _ nextPageNumber => .rollover nextPageNumber

structure PlannedForestDepositV1 where
  master : Pubkey
  laneAccount : AccountInfo
  currentPage : AccountInfo
  laneId : LaneIdV2
  lane : PoolV1PairForestLaneStateV1
  pairLeaf : Digest
  append : AppendOneV1 Digest
  nextLaneImage : Bytes
  mode : PairForestDepositPageModeV1
  tokenAccounts : List AccountInfo
  transfer : LegacyDepositTransferPlanV1

def appendDepositLeaf (t : PoolTree) (leaf : Digest) : Except ProgramError (PoolTree × AppendOneV1 Digest) :=
  if features.depositInvariant then appendPairLeafFromProgramInvariantV1 env t leaf
  else mapErr (fun _ => .custom .stateHistoryMismatch) (appendPairLeaf env t leaf)

def prepareDepositAppendV1 (lane : PoolV1PairForestLaneStateV1) (laneId : LaneIdV2) (pairLeaf : Digest) :
    Except ProgramError (AppendOneV1 Digest × Bytes) := do
  let (nextTree, append) ← appendDepositLeaf env features lane.tree pairLeaf
  let image ← encodeNextLane env features.depositInvariant ⟨lane.master, laneByte laneId, nextTree⟩
  return (append, image)

/-- The mode of the page, where the token accounts start and how many accounts there must be. -/
def planDepositPage (accounts : List AccountInfo) (laneAccount currentPage : AccountInfo)
    (lane : PoolV1PairForestLaneStateV1) (rootSequence : ℕ) (l : Ledger) :
    Except ProgramError (PairForestDepositPageModeV1 × ℕ × ℕ) :=
  let next := (rootHistoryLocation rootSequence).pageNumber
  if lane.tree.nextLeafIndex = 0 ∧ ((currentPage.owner l = systemProgram ∧ currentPage.data l = []) ∨
      accountIsZeroedProgramPage env currentPage l = true) then do
    let preparation ← planFreshProgramPda env currentPage (poolV1RootPageAddress env laneAccount.key 0).1
      POOL_V1_ROOT_HISTORY_PAGE_ACCOUNT_BYTES l
    return (.freshGenesis preparation, 3, 10)
  else if next = (rootHistoryLocation lane.tree.nextLeafIndex).pageNumber then do
    let header ← validateLaneCurrentPage env features laneAccount currentPage lane true l
    return (.existingSamePage header, 3, 8)
  else do
    let header ← validateLaneCurrentPage env features laneAccount currentPage lane false l
    require (header.filled = POOL_V1_ROOT_HISTORY_CAPACITY) (.custom .stateHistoryMismatch)
    let nextPage ← okOr accounts[3]? .notEnoughAccountKeys
    let preparation ← planFreshProgramPda env nextPage (poolV1RootPageAddress env laneAccount.key next).1
      POOL_V1_ROOT_HISTORY_PAGE_ACCOUNT_BYTES l
    return (.freshRollover preparation next, 4, 11)

/-- The occupied commitment and the empty second place. -/
def depositPairLeaf (commitment : Digest) : Except PoolV1PairLeafErrorV1 Digest := do
  let witness ← PoolV1PairLeafWitnessV1.singleOutput commitment
  witness.leafDigest env.treeParent

/-- Every check that comes before the first account is created. -/
def planPairForestDeposit (accounts : List AccountInfo) (data : Bytes) (l : Ledger) :
    Except ProgramError PlannedForestDepositV1 := do
  let request ← mapErr (fun _ => .invalidInstructionData) (decodePairForestDepositInstructionV1 data)
  let masterAccount ← okOr accounts[0]? .notEnoughAccountKeys
  let laneAccount ← okOr accounts[1]? .notEnoughAccountKeys
  let currentPage ← okOr accounts[2]? .notEnoughAccountKeys
  let master ← decodeMasterAccount env masterAccount false l
  let commitment := env.noteCommitment request.ownerKey request.amount master.identity.assetId request.salt
  let laneId ← routeLane commitment
  require (laneInitialized master laneId) (.custom .stateHistoryMismatch)
  let lane ← decodeWritableLane env features.depositInvariant masterAccount.key laneId laneAccount l
  require (lane.tree.nextLeafIndex < POOL_V1_PAIR_CAPACITY) (.custom .treeFull)
  let pairLeaf ← mapErr (fun _ => .custom .nonCanonicalLeaf) (depositPairLeaf env commitment)
  let (append, nextLaneImage) ← prepareDepositAppendV1 env features lane laneId pairLeaf
  let (mode, tokenStart, expectedAccounts) ←
    planDepositPage env features accounts laneAccount currentPage lane append.rootSequence l
  requireExactAccountCount accounts expectedAccounts
  requireUniqueAccounts accounts
  let tokenAccounts := (accounts.drop tokenStart).take 5
  let tokenProgram ← okOr tokenAccounts[4]? .notEnoughAccountKeys
  requireTokenProgramAccount tokenProgram l
  let transfer ← planLegacyDepositTransferFromIdentityV1 env masterAccount.key master.identity tokenAccounts
    request.amount l
  return ⟨masterAccount.key, laneAccount, currentPage, laneId, lane, pairLeaf, append, nextLaneImage, mode,
    tokenAccounts, transfer⟩

/-- The page that is written; a fresh one is made first. -/
def prepareDepositPage (accounts : List AccountInfo) (currentPage : AccountInfo) :
    PairForestDepositPageModeV1 → Handler AccountInfo
  | .freshGenesis preparation => do
    let payer ← Exec.query fun _ => okOr accounts[8]? .notEnoughAccountKeys
    let system ← Exec.query fun _ => okOr accounts[9]? .notEnoughAccountKeys
    Exec.query (requirePayerAndSystemProgram payer system)
    prepareZeroedAccount env payer currentPage system POOL_V1_ROOT_HISTORY_PAGE_ACCOUNT_BYTES preparation
    return currentPage
  | .existingSamePage _ => return currentPage
  | .freshRollover preparation _ => do
    let nextPage ← Exec.query fun _ => okOr accounts[3]? .notEnoughAccountKeys
    let payer ← Exec.query fun _ => okOr accounts[9]? .notEnoughAccountKeys
    let system ← Exec.query fun _ => okOr accounts[10]? .notEnoughAccountKeys
    Exec.query (requirePayerAndSystemProgram payer system)
    prepareZeroedAccount env payer nextPage system POOL_V1_ROOT_HISTORY_PAGE_ACCOUNT_BYTES preparation
    return nextPage

def processPairForestDepositV1 (accounts : List AccountInfo) (data : Bytes) : Handler Unit := do
  let plan ← Exec.query (planPairForestDeposit env features accounts data)
  let page ← prepareDepositPage env accounts plan.currentPage plan.mode
  Exec.call (env.transferChecked plan.transfer.instruction)
  Exec.query (validateExactDepositDeltaV1 plan.tokenAccounts plan.transfer)
  Exec.update (writeLaneAppend plan.laneAccount.key page.key plan.nextLaneImage fun pageData =>
    lanePageBytes plan.laneAccount.key plan.lane.tree.root plan.append.root plan.append.rootSequence pageData
      plan.mode.page)

/-! ### What a successful append did -/

/-- What is known of the page an append writes: `l` is the ledger the plan was made on, `m` the one it is written on. -/
inductive PageReady (lane : PoolV1PairForestLaneStateV1) (laneAccount page : AccountInfo) (l m : Ledger) :
    LanePageV1 → Prop
  | genesis (first : lane.tree.nextLeafIndex = 0) (key_eq : page.key = (poolV1RootPageAddress env laneAccount.key 0).1)
      (zeroed : Zeroed env m page.key) : PageReady lane laneAccount page l m .genesis
  | samePage {header : RootPageHeaderV1}
      (same : (rootHistoryLocation (lane.tree.nextLeafIndex + 1)).pageNumber =
        (rootHistoryLocation lane.tree.nextLeafIndex).pageNumber)
      (validated : validateLaneCurrentPage env features laneAccount page lane true l = .ok header) :
      PageReady lane laneAccount page l m (.samePage header)
  | rollover {current : AccountInfo} {header : RootPageHeaderV1}
      (moved : (rootHistoryLocation (lane.tree.nextLeafIndex + 1)).pageNumber ≠
        (rootHistoryLocation lane.tree.nextLeafIndex).pageNumber)
      (validated : validateLaneCurrentPage env features laneAccount current lane false l = .ok header)
      (key_eq : page.key = (poolV1RootPageAddress env laneAccount.key
        (rootHistoryLocation (lane.tree.nextLeafIndex + 1)).pageNumber).1)
      (zeroed : Zeroed env m page.key) :
      PageReady lane laneAccount page l m (.rollover (rootHistoryLocation (lane.tree.nextLeafIndex + 1)).pageNumber)

/-- The steps of an append to one lane, by a deposit or a spend. -/
structure LaneAppendRun (fast : Bool) (master : Pubkey) (laneId : LaneIdV2) (laneAccount page : AccountInfo)
    (lane : PoolV1PairForestLaneStateV1) (kind : LanePageV1) (next : PoolTree) (l m l' : Ledger) : Prop where
  decoded : decodeWritableLane env fast master laneId laneAccount l = .ok lane
  room : lane.tree.nextLeafIndex < POOL_V1_PAIR_CAPACITY
  next_index : next.nextLeafIndex = lane.tree.nextLeafIndex + 1
  outside : Outside env.programId l m
  ready : PageReady env features lane laneAccount page l m kind
  page_ne : page.key ≠ laneAccount.key
  written : l' = writeLaneAppend laneAccount.key page.key (laneImage ⟨lane.master, laneByte laneId, next⟩)
    (fun data => lanePageBytes laneAccount.key lane.tree.root next.root next.nextLeafIndex data kind) m

variable {env features}

theorem appendDepositLeaf_ok {t : PoolTree} {leaf : Digest} {r : PoolTree × AppendOneV1 Digest}
    (h : appendDepositLeaf env features t leaf = .ok r) : r = carryAppend env.treeParent (pairEmptyRoots env) t leaf := by
  unfold appendDepositLeaf at h
  split_ifs at h
  · simp only [appendPairLeafFromProgramInvariantV1, except_bind_eq_ok, except_pure_eq_ok] at h
    obtain ⟨-, -, -, -, rfl⟩ := h
    rfl
  · simp only [appendPairLeaf, appendOneWithEmptyRoots, appendOneValidated, mapErr_eq_ok, except_bind_eq_ok] at h
    obtain ⟨-, -, h⟩ := h
    split_ifs at h
    exact (Except.ok.inj h).symm

theorem encodeNextLane_ok {fast : Bool} {lane : PoolV1PairForestLaneStateV1} {bytes : Bytes}
    (h : encodeNextLane env fast lane = .ok bytes) : bytes = laneImage lane := by
  unfold encodeNextLane at h
  split_ifs at h
  · simp only [encodeLaneFromAuthenticatedResultV1, except_bind_eq_ok, except_pure_eq_ok] at h
    obtain ⟨-, -, -, -, -, -, rfl⟩ := h
    rfl
  · simp only [encodePoolV1PairForestLaneStateV1, mapErr_eq_ok, except_bind_eq_ok, except_pure_eq_ok] at h
    obtain ⟨-, -, -, -, -, -, -, -, rfl⟩ := h
    rfl

/-- The receipt of an append names the next tree. -/
theorem carryAppend_receipt (parent : Digest → Digest → Digest) (empty : ℕ → Digest) (t : PoolTree) (leaf : Digest) :
    (carryAppend parent empty t leaf).1.nextLeafIndex = t.nextLeafIndex + 1 ∧
      (carryAppend parent empty t leaf).2.rootSequence = t.nextLeafIndex + 1 ∧
      (carryAppend parent empty t leaf).2.root = (carryAppend parent empty t leaf).1.root :=
  ⟨rfl, rfl, rfl⟩

theorem depositPairLeaf_ok {commitment leaf : Digest} (h : depositPairLeaf env commitment = .ok leaf) :
    leaf = env.treeParent commitment Digest.zero := by
  simp only [depositPairLeaf, PoolV1PairLeafWitnessV1.singleOutput, PoolV1PairLeafWitnessV1.leafDigest,
    except_bind_eq_ok, except_pure_eq_ok] at h
  obtain ⟨_, ⟨-, -, rfl⟩, -, -, rfl⟩ := h
  rfl

theorem planFreshProgramPda_key {account : AccountInfo} {expected : Pubkey} {exactBytes : ℕ} {l : Ledger}
    {preparation : FreshPdaPreparationV1} (h : planFreshProgramPda env account expected exactBytes l = .ok preparation) :
    account.key = expected := by
  simp only [planFreshProgramPda, except_bind_eq_ok, require_eq_ok] at h
  obtain ⟨-, ⟨hkey, -⟩, -⟩ := h
  exact hkey

theorem requireProgramOwnedZeroed_zeroed {account : AccountInfo} {exactBytes : ℕ} {l : Ledger} {u : Unit}
    (h : requireProgramOwnedZeroed env account exactBytes l = .ok u) : Zeroed env l account.key := by
  simp only [requireProgramOwnedZeroed, except_bind_eq_ok, require_eq_ok] at h
  obtain ⟨_, howner, -, hzero, -⟩ := h
  exact ⟨requireProgramAccount_ok howner, hzero⟩

theorem prepareZeroedAccount_ok {payer account system : AccountInfo} {exactBytes : ℕ}
    {preparation : FreshPdaPreparationV1} {l m : Ledger} {u : Unit}
    (h : prepareZeroedAccount env payer account system exactBytes preparation l = .ok u m) :
    SystemCall l m ∧ Zeroed env m account.key := by
  simp only [prepareZeroedAccount, Exec.bind_ok, Exec.query_ok] at h
  obtain ⟨_, _, hcreate, hzeroed, rfl⟩ := h
  exact ⟨createProgramPdaIfNeeded_call hcreate, requireProgramOwnedZeroed_zeroed hzeroed⟩

/-- What others do before the write does not matter for the page. -/
theorem PageReady.mono {lane : PoolV1PairForestLaneStateV1} {laneAccount page : AccountInfo} {l m n : Ledger}
    {kind : LanePageV1} (h : PageReady env features lane laneAccount page l m kind) (hout : Outside env.programId m n) :
    PageReady env features lane laneAccount page l n kind := by
  cases h with
  | genesis first key_eq zeroed => exact .genesis first key_eq (zeroed.outside hout)
  | samePage same validated => exact .samePage same validated
  | rollover moved validated key_eq zeroed => exact .rollover moved validated key_eq (zeroed.outside hout)

/-- The page of a deposit: made or found as it was planned, among the accounts after the lane. -/
theorem prepareDepositPage_ok {accounts : List AccountInfo} {laneAccount currentPage page : AccountInfo}
    {lane : PoolV1PairForestLaneStateV1} {mode : PairForestDepositPageModeV1} {start expected : ℕ} {l m : Ledger}
    (hcurrent : accounts[2]? = some currentPage)
    (hplan : planDepositPage env features accounts laneAccount currentPage lane (lane.tree.nextLeafIndex + 1) l =
      .ok (mode, start, expected))
    (h : prepareDepositPage env accounts currentPage mode l = .ok page m) :
    SystemCall l m ∧ PageReady env features lane laneAccount page l m mode.page ∧
      (accounts[2]? = some page ∨ accounts[3]? = some page) := by
  simp only [planDepositPage] at hplan
  split_ifs at hplan with hgenesis hsame
  · simp only [except_bind_eq_ok, except_pure_eq_ok, Prod.mk.injEq] at hplan
    obtain ⟨preparation, hfresh, rfl, -, -⟩ := hplan
    simp only [prepareDepositPage, Exec.bind_ok, Exec.query_ok, Exec.pure_ok] at h
    obtain ⟨payer, _, ⟨-, rfl⟩, system, _, ⟨-, rfl⟩, _, _, ⟨-, rfl⟩, _, _, hprepare, rfl, rfl⟩ := h
    obtain ⟨hcall, hzeroed⟩ := prepareZeroedAccount_ok hprepare
    exact ⟨hcall, .genesis hgenesis.1 (planFreshProgramPda_key hfresh) hzeroed, .inl hcurrent⟩
  · simp only [except_bind_eq_ok, except_pure_eq_ok, Prod.mk.injEq] at hplan
    obtain ⟨header, hvalid, rfl, -, -⟩ := hplan
    simp only [prepareDepositPage, Exec.pure_ok] at h
    obtain ⟨rfl, rfl⟩ := h
    exact ⟨SystemCall.refl l, .samePage hsame hvalid, .inl hcurrent⟩
  · simp only [except_bind_eq_ok, except_pure_eq_ok, okOr_eq_ok, Prod.mk.injEq] at hplan
    obtain ⟨header, hvalid, -, -, nextPage, hnext, preparation, hfresh, rfl, -, -⟩ := hplan
    simp only [prepareDepositPage, Exec.bind_ok, Exec.query_ok, Exec.pure_ok, okOr_eq_ok, hnext, Option.some.injEq] at h
    obtain ⟨_, _, ⟨rfl, rfl⟩, payer, _, ⟨-, rfl⟩, system, _, ⟨-, rfl⟩, _, _, ⟨-, rfl⟩, _, _, hprepare, rfl, rfl⟩ := h
    obtain ⟨hcall, hzeroed⟩ := prepareZeroedAccount_ok hprepare
    exact ⟨hcall, .rollover hsame hvalid (planFreshProgramPda_key hfresh) hzeroed, .inr hnext⟩

/-- Accounts at different places of a list of distinct accounts have different keys. -/
theorem key_ne_of_unique {accounts : List AccountInfo} {u : Unit} (h : requireUniqueAccounts accounts = .ok u)
    {i j : ℕ} {a b : AccountInfo} (hi : accounts[i]? = some a) (hj : accounts[j]? = some b) (hne : i ≠ j) :
    a.key ≠ b.key := by
  rw [requireUniqueAccounts, require_eq_ok] at h
  intro heq
  have hlt : i < (accounts.map (·.key)).length := by
    rw [List.length_map]
    exact (List.getElem?_eq_some_iff.mp hi).1
  refine hne ((List.getElem?_inj hlt h).mp ?_)
  rw [List.getElem?_map, List.getElem?_map, hi, hj, Option.map_some, Option.map_some, heq]

/-- What the plan of a deposit has checked. -/
structure DepositPlanSpec (env : Environment) (features : ForestFeatures) (accounts : List AccountInfo)
    (masterAccount : AccountInfo) (master : PoolV1PairForestMasterV1) (commitment : Digest)
    (plan : PlannedForestDepositV1) (l : Ledger) : Prop where
  named : accounts[0]? = some masterAccount
  master_eq : plan.master = masterAccount.key
  master_decoded : decodeMasterAccount env masterAccount false l = .ok master
  canonical : DigestIsCanonical commitment
  lane_eq : plan.laneId = routedLane commitment
  decoded : decodeWritableLane env features.depositInvariant plan.master plan.laneId plan.laneAccount l = .ok plan.lane
  room : plan.lane.tree.nextLeafIndex < POOL_V1_PAIR_CAPACITY
  leaf_eq : plan.pairLeaf = env.treeParent commitment Digest.zero
  append_eq : plan.append = (carryAppend env.treeParent (pairEmptyRoots env) plan.lane.tree plan.pairLeaf).2
  image_eq : plan.nextLaneImage = laneImage ⟨plan.lane.master, laneByte plan.laneId,
    (carryAppend env.treeParent (pairEmptyRoots env) plan.lane.tree plan.pairLeaf).1⟩
  lane_named : accounts[1]? = some plan.laneAccount
  page_named : accounts[2]? = some plan.currentPage
  page_planned : ∃ start expected, planDepositPage env features accounts plan.laneAccount plan.currentPage plan.lane
    (plan.lane.tree.nextLeafIndex + 1) l = .ok (plan.mode, start, expected)
  unique : requireUniqueAccounts accounts = .ok ()

theorem planPairForestDeposit_spec {accounts : List AccountInfo} {data : Bytes} {plan : PlannedForestDepositV1}
    {l : Ledger} (h : planPairForestDeposit env features accounts data l = .ok plan) :
    ∃ masterAccount master commitment, DepositPlanSpec env features accounts masterAccount master commitment plan l := by
  simp only [planPairForestDeposit, routeLane, prepareDepositAppendV1, except_bind_eq_ok, mapErr_eq_ok, okOr_eq_ok,
    require_eq_ok, except_pure_eq_ok] at h
  obtain ⟨request, -, masterAccount, hmaster, laneAccount, hlane, currentPage, hpage, master, hdecoded, laneId,
    ⟨-, hcanonical, rfl⟩, -, -, lane, hlaneState, -, hroom, pairLeaf, hleaf, ⟨append, image⟩,
    ⟨⟨next, receipt⟩, happend, bytes, hencode, hpair⟩, ⟨mode, start, expected⟩, hmode, -, -, _, hunique, tokenProgram, -,
    -, -, transfer, -, rfl⟩ := h
  obtain ⟨rfl, rfl⟩ := Prod.mk.injEq .. ▸ hpair
  have hcarry := appendDepositLeaf_ok happend
  have hnext : next = (carryAppend env.treeParent (pairEmptyRoots env) lane.tree pairLeaf).1 := congrArg Prod.fst hcarry
  have hreceipt : receipt = (carryAppend env.treeParent (pairEmptyRoots env) lane.tree pairLeaf).2 :=
    congrArg Prod.snd hcarry
  have hsequence : receipt.rootSequence = lane.tree.nextLeafIndex + 1 := by
    rw [hreceipt]
    exact (carryAppend_receipt _ _ _ _).2.1
  refine ⟨masterAccount, master, _, hmaster, rfl, hdecoded, hcanonical, rfl, hlaneState, hroom, depositPairLeaf_ok hleaf,
    hreceipt, ?_, hlane, hpage, ⟨start, expected, ?_⟩, hunique⟩
  · rw [← hnext]
    exact encodeNextLane_ok hencode
  · rw [← hsequence]
    exact hmode

/-- The steps of a successful deposit. -/
structure ForestDepositRun (env : Environment) (features : ForestFeatures) (accounts : List AccountInfo)
    (masterAccount : AccountInfo) (master : PoolV1PairForestMasterV1) (commitment : Digest)
    (plan : PlannedForestDepositV1) (page : AccountInfo) (l m l' : Ledger) : Prop where
  planned : DepositPlanSpec env features accounts masterAccount master commitment plan l
  append : LaneAppendRun env features features.depositInvariant plan.master plan.laneId plan.laneAccount page plan.lane
    plan.mode.page (carryAppend env.treeParent (pairEmptyRoots env) plan.lane.tree plan.pairLeaf).1 l m l'

theorem processPairForestDepositV1_run {accounts : List AccountInfo} {data : Bytes} {l l' : Ledger} {u : Unit}
    (h : processPairForestDepositV1 env features accounts data l = .ok u l') :
    ∃ masterAccount master commitment plan page m, planPairForestDeposit env features accounts data l = .ok plan ∧
      ForestDepositRun env features accounts masterAccount master commitment plan page l m l' := by
  simp only [processPairForestDepositV1, Exec.bind_ok, Exec.query_ok, Exec.call_ok, Exec.update_ok] at h
  obtain ⟨plan, _, ⟨hplan, rfl⟩, page, created, hpage, _, m, htransfer, _, _, ⟨-, rfl⟩, rfl⟩ := h
  obtain ⟨masterAccount, master, commitment, hspec⟩ := planPairForestDeposit_spec hplan
  obtain ⟨start, expected, hmode⟩ := hspec.page_planned
  obtain ⟨hcall, hready, hnamed⟩ := prepareDepositPage_ok hspec.page_named hmode hpage
  have hpaid := env.transferChecked_outside _ _ _ htransfer
  refine ⟨masterAccount, master, commitment, plan, page, m, hplan, hspec, hspec.decoded, hspec.room, rfl,
    (hcall.outside env.programId_ne_system).trans hpaid, ?_, ?_, ?_⟩
  · exact hready.mono hpaid
  · rcases hnamed with hnamed | hnamed
    · exact key_ne_of_unique hspec.unique hnamed hspec.lane_named (by decide)
    · exact key_ne_of_unique hspec.unique hnamed hspec.lane_named (by decide)
  · obtain ⟨hindex, hsequence, hroot⟩ :=
      carryAppend_receipt env.treeParent (pairEmptyRoots env) plan.lane.tree plan.pairLeaf
    rw [hspec.image_eq, hspec.append_eq, hroot, hsequence, hindex]

end

end Aspis.Forest
