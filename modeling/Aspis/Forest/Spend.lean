import Aspis.Forest.Deposit
import Aspis.Forest.Terminal
import Aspis.Pool.Settlement

/-! Terminal spends of the pair forest. The request names a retained checkpoint
as its anchor and a nullifier, which picks the lane of the outputs. The marker
of the nullifier is reserved before the verifier is called; the verifier returns
the afterstate of the lane, and the program writes it, the root's history slot
and the marker. -/

namespace Aspis.Forest

open Lib Chain Statement Pool Verifier

/-- A canonical result that the selected verifier returned, with its exact bytes. -/
structure AuthenticatedPairForestResultV1 where
  value : PoolV1PairForestTerminalResultV1
  exactBytes : Bytes
  decoded : decodePoolV1PairForestTerminalResultV1 exactBytes = .ok value

/-- The call of the selected verifier; it reads the ledger and writes nothing. -/
abbrev PairForestVerifier := (master checkpoint lane : AccountInfo) → Pool.VerifierPolicyV1 →
  (registry : List AccountInfo) → (verifier proof : AccountInfo) → PoolV1PairForestTerminalRequestV1 → (slot : ℕ) →
  Ledger → Except ProgramError AuthenticatedPairForestResultV1

inductive PairForestSpendPageV1
  | genesis
  | samePage (header : RootPageHeaderV1)
  | rollover (nextIndex pageNumber : ℕ)
  deriving DecidableEq

/-- What the page writes. -/
def PairForestSpendPageV1.page : PairForestSpendPageV1 → LanePageV1
  | genesis => .genesis
  | samePage header => .samePage header
  | rollover _ pageNumber => .rollover pageNumber

/-- Which account is written as the page. -/
def PairForestSpendPageV1.index : PairForestSpendPageV1 → ℕ
  | rollover nextIndex _ => nextIndex
  | _ => 3

structure PairForestSpendLayoutV1 where
  page : PairForestSpendPageV1
  markerIndex : ℕ
  payerIndex : ℕ
  systemProgramIndex : ℕ
  registryStart : ℕ
  verifierIndex : ℕ
  proofIndex : ℕ
  tokenStart : ℕ
  deriving DecidableEq

section
variable (env : Environment) (features : ForestFeatures)

/-! ### Reading and binding the accounts -/

def decodeRetainedPairForestCheckpointAccountV1 (expectedMaster : Pubkey) (account : AccountInfo) (l : Ledger) :
    Except ProgramError PoolV1PairForestCheckpointV1 := do
  requireProgramAccount env.programId account l false
  require (account.isSigner = false) .invalidAccountData
  let checkpoint ← mapErr (fun _ => .custom .invalidAccountType) (decodePoolV1PairForestCheckpointV1 (account.data l))
  require (checkpoint.master = expectedMaster ∧ account.key =
    (poolV1PairForestCheckpointAddress env env.programId expectedMaster checkpoint.checkpointSequence).1)
    (.custom .stateHistoryMismatch)
  return checkpoint

/-- The destination of a withdrawal; a transfer has none. -/
def terminalDestination : PoolV1PairForestTerminalPaymentV1 → Bytes32
  | .privateTransfer _ => Bytes32.zero
  | .withdrawal publicInput => publicInput.destinationTokenAccount

def validatePairForestRequestAccountsV1 (masterAccount checkpointAccount laneAccount : AccountInfo)
    (master : PoolV1PairForestMasterV1) (checkpoint : PoolV1PairForestCheckpointV1)
    (lane : PoolV1PairForestLaneStateV1) (request : PoolV1PairForestTerminalRequestV1) :
    Except ProgramError Unit := do
  require (request.poolProgram = env.programId) (.custom .verifierDispatchIdentityMismatch)
  let common := request.publicInput.common
  let outputLane ← routeLane common.nullifier
  require (common.pool = masterAccount.key ∧ master.identity.pool = common.pool ∧
    common.deploymentDomain = master.identity.deploymentDomain ∧ common.assetId = master.identity.assetId ∧
    checkpointAccount.key ≠ Bytes32.zero ∧ checkpoint.master = common.pool ∧
    checkpoint.deploymentDomain = common.deploymentDomain ∧
    checkpoint.checkpointSequence = common.anchorSequence.toNat ∧ checkpoint.globalRoot = common.anchorRoot ∧
    laneAccount.key = (poolV1PairForestLaneAddress env env.programId masterAccount.key outputLane).1 ∧
    lane.master = common.pool ∧ lane.laneId = laneByte outputLane ∧ laneInitialized master outputLane ∧
    ¬ (request.publicInput.transitionKind = .withdrawal ∧
      terminalDestination request.publicInput = Bytes32.zero)) (.custom .verifierDispatchIdentityMismatch)

/-! ### The layout of the accounts -/

/-- The page, and the index of the account after the pages. -/
def planSpendPage (accounts : List AccountInfo) (laneAccount current : AccountInfo)
    (lane : PoolV1PairForestLaneStateV1) (l : Ledger) : Except ProgramError (PairForestSpendPageV1 × ℕ) :=
  let next := (rootHistoryLocation (lane.tree.nextLeafIndex + 1)).pageNumber
  if lane.tree.nextLeafIndex = 0 ∧ accountIsZeroedProgramPage env current l = true then do
    require (current.key = (poolV1RootPageAddress env laneAccount.key 0).1) (.custom .invalidRootPageAddress)
    requireProgramAccount env.programId current l true
    return (.genesis, 4)
  else if (rootHistoryLocation lane.tree.nextLeafIndex).pageNumber = next then do
    let header ← validateLaneCurrentPage env features laneAccount current lane true l
    return (.samePage header, 4)
  else do
    let header ← validateLaneCurrentPage env features laneAccount current lane false l
    require (header.filled = POOL_V1_ROOT_HISTORY_CAPACITY) (.custom .stateHistoryMismatch)
    let nextPage ← okOr accounts[4]? .notEnoughAccountKeys
    require (nextPage.key = (poolV1RootPageAddress env laneAccount.key next).1) (.custom .invalidRootPageAddress)
    require (accountIsZeroedProgramPage env nextPage l = true ∧ nextPage.isWritable = true)
      (.custom .invalidFreshAccount)
    return (.rollover 4 next, 5)

def planPairForestSpendLayoutV1 (accounts : List AccountInfo) (lane : PoolV1PairForestLaneStateV1) (withdrawal : Bool)
    (l : Ledger) : Except ProgramError PairForestSpendLayoutV1 := do
  require (lane.tree.nextLeafIndex < POOL_V1_PAIR_CAPACITY) (.custom .treeFull)
  let laneAccount ← okOr accounts[2]? .notEnoughAccountKeys
  let current ← okOr accounts[3]? .notEnoughAccountKeys
  let (page, cursor) ← planSpendPage env features accounts laneAccount current lane l
  requireExactAccountCount accounts (cursor + 7 + if withdrawal then 5 else 0)
  requireUniqueAccounts accounts
  return ⟨page, cursor, cursor + 1, cursor + 2, cursor + 3, cursor + 5, cursor + 6, cursor + 7⟩

/-! ### The result of the verifier -/

def nextPairForestLaneV1 (lane : PoolV1PairForestLaneStateV1) (result : PoolV1PairForestTerminalResultV1) :
    Except ProgramError PoolV1PairForestLaneStateV1 := do
  let after := result.verifiedAfterstate
  require (lane.tree.nextLeafIndex + 1 = after.nextPairIndex.toNat) (.custom .stateHistoryMismatch)
  require (∀ level : Fin POOL_V1_TREE_DEPTH, ¬ (after.nextPairIndex.toNat.testBit level = false ∧
    after.nextFrontier level ≠ pairEmptyRoots env level)) (.custom .stateHistoryMismatch)
  return ⟨lane.master, lane.laneId, ⟨after.nextPairIndex.toNat, after.nextRoot, after.nextFrontier⟩⟩

def terminalCommonBoxV1 (masterAccount checkpointAccount laneAccount : Pubkey) (master : PoolV1PairForestMasterV1)
    (checkpoint : PoolV1PairForestCheckpointV1) (lane : PoolV1PairForestLaneStateV1) (outputLane : LaneIdV2)
    (result : PoolV1PairForestTerminalResultV1) : PoolV1PairForestTerminalCommonV1 where
  masterAccount
  checkpointAccount
  selectedLaneAccount := laneAccount
  outputLane := laneByte outputLane
  checkpointSequence := UInt64.ofNat checkpoint.checkpointSequence
  historicalGlobalAnchor := checkpoint.globalRoot
  laneTransition :=
    ⟨⟨masterAccount, master.identity.deploymentDomain, UInt64.ofNat lane.tree.nextLeafIndex,
      UInt64.ofNat lane.tree.nextLeafIndex, lane.tree.root, lane.tree.frontier⟩, result.verifiedAfterstate⟩

def validateAuthenticatedTerminalResultV1 (masterAccount checkpointAccount laneAccount : Pubkey)
    (master : PoolV1PairForestMasterV1) (checkpoint : PoolV1PairForestCheckpointV1)
    (lane : PoolV1PairForestLaneStateV1) (outputLane : LaneIdV2) (request : PoolV1PairForestTerminalRequestV1)
    (result : PoolV1PairForestTerminalResultV1) : Except ProgramError Unit :=
  let common := terminalCommonBoxV1 masterAccount checkpointAccount laneAccount master checkpoint lane outputLane result
  mapErr (fun _ => .custom .invalidVerifierReturnData)
    (validatePoolV1PairForestTerminalResultAgainstStatementV1
      (PoolV1PairForestTerminalStatementV1.ofPayment common request.publicInput) result)

/-- The same binding field by field, without a second statement. -/
def validatePairForestTerminalResultDirectV1 (request : PoolV1PairForestTerminalRequestV1)
    (masterAccount laneAccount : Pubkey) (outputLane : LaneIdV2) (lane : PoolV1PairForestLaneStateV1)
    (result : PoolV1PairForestTerminalResultV1) : Except ProgramError Unit :=
  require (result.transitionKind = request.publicInput.transitionKind ∧ result.masterAccount = masterAccount ∧
    result.selectedLaneAccount = laneAccount ∧ result.outputLane = laneByte outputLane ∧
    result.nullifier = request.publicInput.common.nullifier ∧
    lane.tree.nextLeafIndex + 1 = result.verifiedAfterstate.nextPairIndex.toNat) (.custom .invalidVerifierReturnData)

def validateTerminalResult (masterAccount checkpointAccount laneAccount : Pubkey) (master : PoolV1PairForestMasterV1)
    (checkpoint : PoolV1PairForestCheckpointV1) (lane : PoolV1PairForestLaneStateV1) (outputLane : LaneIdV2)
    (request : PoolV1PairForestTerminalRequestV1) (result : PoolV1PairForestTerminalResultV1) :
    Except ProgramError Unit :=
  if features.directResult then
    validatePairForestTerminalResultDirectV1 request masterAccount laneAccount outputLane lane result
  else validateAuthenticatedTerminalResultV1 masterAccount checkpointAccount laneAccount master checkpoint lane outputLane
    request result

def nextLaneImageBoxV1 (lane : PoolV1PairForestLaneStateV1) (result : PoolV1PairForestTerminalResultV1) :
    Except ProgramError Bytes := do
  let nextLane ← nextPairForestLaneV1 env lane result
  encodeNextLane env features.sourceResultInvariant nextLane

/-- The bytes returned to the caller: encoded again, or those of the verifier. -/
def terminalResultBytes (authenticated : AuthenticatedPairForestResultV1) : Except ProgramError Bytes :=
  if features.directResult then .ok authenticated.exactBytes
  else mapErr (fun _ => .custom .invalidVerifierReturnData)
    (encodePoolV1PairForestTerminalResultV1 authenticated.value)

/-! ### The handler -/

structure PlannedForestSpendV1 where
  request : PoolV1PairForestTerminalRequestV1
  masterAccount : AccountInfo
  checkpointAccount : AccountInfo
  laneAccount : AccountInfo
  master : PoolV1PairForestMasterV1
  checkpoint : PoolV1PairForestCheckpointV1
  outputLane : LaneIdV2
  lane : PoolV1PairForestLaneStateV1
  layout : PairForestSpendLayoutV1
  page : AccountInfo
  payer : AccountInfo
  system : AccountInfo
  marker : AccountInfo
  verifier : AccountInfo
  proof : AccountInfo
  registry : List AccountInfo
  tokenAccounts : List AccountInfo
  planned : PlannedNullifierMarkerV1
  withdrawal : Option LegacyWithdrawalTransferPlanV1

/-- The marker that a spend leaves behind. -/
def terminalMarker (request : PoolV1PairForestTerminalRequestV1) (masterAccount : Pubkey)
    (master : PoolV1PairForestMasterV1) (checkpoint : PoolV1PairForestCheckpointV1) : PoolV1NullifierMarkerV1 where
  transitionKind := request.publicInput.transitionKind
  pool := masterAccount
  deploymentDomain := master.identity.deploymentDomain
  nullifier := request.publicInput.common.nullifier
  retainedAnchorSequence := checkpoint.checkpointSequence
  retainedAnchorRoot := checkpoint.globalRoot
  verifierProfile := request.verifierProfile
  verifierRelease := request.verifierRelease

def planTerminalWithdrawal (masterAccount : Pubkey) (master : PoolV1PairForestMasterV1)
    (tokenAccounts : List AccountInfo) (publicInput : PoolV1PairForestTerminalPaymentV1) (l : Ledger) :
    Except ProgramError (Option LegacyWithdrawalTransferPlanV1) :=
  match publicInput with
  | .privateTransfer _ => .ok none
  | .withdrawal w => do
    let tokenProgram ← okOr tokenAccounts[4]? .notEnoughAccountKeys
    requireTokenProgramAccount tokenProgram l
    let plan ← planLegacyWithdrawalTransferFromIdentityV1 env masterAccount master.identity tokenAccounts
      w.destinationTokenAccount w.amount.toNat l
    return some plan

/-- Every check that comes before the marker is made. -/
def planPairForestTerminal (accounts : List AccountInfo) (data : Bytes) (l : Ledger) :
    Except ProgramError PlannedForestSpendV1 := do
  let request ← mapErr (fun _ => .invalidInstructionData) (decodePoolV1PairForestTerminalRequestV1 data)
  let masterAccount ← okOr accounts[0]? .notEnoughAccountKeys
  let checkpointAccount ← okOr accounts[1]? .notEnoughAccountKeys
  let laneAccount ← okOr accounts[2]? .notEnoughAccountKeys
  let master ← decodeMasterAccount env masterAccount false l
  let checkpoint ← decodeRetainedPairForestCheckpointAccountV1 env masterAccount.key checkpointAccount l
  let outputLane ← routeLane request.publicInput.common.nullifier
  let lane ← decodeWritableLane env features.sourceInvariant masterAccount.key outputLane laneAccount l
  validatePairForestRequestAccountsV1 env masterAccount checkpointAccount laneAccount master checkpoint lane request
  let layout ← planPairForestSpendLayoutV1 env features accounts lane
    (decide (request.publicInput.transitionKind = .withdrawal)) l
  let payer ← okOr accounts[layout.payerIndex]? .notEnoughAccountKeys
  let system ← okOr accounts[layout.systemProgramIndex]? .notEnoughAccountKeys
  requirePayerAndSystemProgram payer system l
  let marker ← okOr accounts[layout.markerIndex]? .notEnoughAccountKeys
  let planned ← planNullifierMarkerConsumptionV1 env marker
    (terminalMarker request masterAccount.key master checkpoint) l
  let tokenAccounts := (accounts.drop layout.tokenStart).take 5
  let withdrawal ← planTerminalWithdrawal env masterAccount.key master tokenAccounts request.publicInput l
  let verifier ← okOr accounts[layout.verifierIndex]? .notEnoughAccountKeys
  let proof ← okOr accounts[layout.proofIndex]? .notEnoughAccountKeys
  let page ← okOr accounts[layout.page.index]? .notEnoughAccountKeys
  return ⟨request, masterAccount, checkpointAccount, laneAccount, master, checkpoint, outputLane, lane, layout, page,
    payer, system, marker, verifier, proof, (accounts.drop layout.registryStart).take 2, tokenAccounts, planned,
    withdrawal⟩

/-- The verifier call and every check on what it returns. -/
def verifyTerminal (verify : PairForestVerifier) (plan : PlannedForestSpendV1) (slot : ℕ) (l : Ledger) :
    Except ProgramError (PoolV1PairForestTerminalResultV1 × Bytes × Bytes) := do
  let authenticated ← verify plan.masterAccount plan.checkpointAccount plan.laneAccount plan.master.verifierPolicy
    plan.registry plan.verifier plan.proof plan.request slot l
  validateTerminalResult features plan.masterAccount.key plan.checkpointAccount.key plan.laneAccount.key plan.master
    plan.checkpoint plan.lane plan.outputLane plan.request authenticated.value
  let image ← nextLaneImageBoxV1 env features plan.lane authenticated.value
  let resultBytes ← terminalResultBytes features authenticated
  return (authenticated.value, image, resultBytes)

/-- The handler; it returns the bytes that become the return data. -/
def processPairForestTerminalWithVerifierV1 (verify : PairForestVerifier) (accounts : List AccountInfo) (data : Bytes)
    (slot : ℕ) : Handler Bytes := do
  let plan ← Exec.query (planPairForestTerminal env features accounts data)
  let ready ← createNullifierMarkerIfNeededV1 env plan.marker plan.payer plan.system plan.planned
  let (result, image, resultBytes) ← Exec.query (verifyTerminal env features verify plan slot)
  paySettlement env plan.tokenAccounts plan.withdrawal
  Exec.update (writeLaneAppend plan.laneAccount.key plan.page.key image fun pageData =>
    lanePageBytes plan.laneAccount.key plan.lane.tree.root result.verifiedAfterstate.nextRoot
      result.verifiedAfterstate.nextPairIndex.toNat pageData plan.layout.page.page)
  Exec.update (setData plan.marker.key ready.encodedMarker)
  return resultBytes

/-! ### The full statement as instruction data -/

def V7_POOL_PAIR_FOREST_TAG73_PROFILE_BINDING : Bytes32 :=
  ⟨[0xa1, 0x79, 0xf8, 0xd7, 0xe3, 0x70, 0x24, 0xeb, 0x54, 0xe3, 0xdb, 0x17, 0xf3, 0x96, 0xb3, 0x98, 0xa1, 0xbe, 0xb2, 0xda,
    0x0c, 0x8b, 0xfa, 0xf6, 0x2b, 0x33, 0x5f, 0x2b, 0xa4, 0xea, 0x5c, 0x26], rfl⟩

def V7_POOL_PAIR_FOREST_TAG73_RELEASE_BINDING : Bytes32 :=
  ⟨[0xad, 0xd0, 0x96, 0x63, 0xc6, 0xa5, 0x48, 0x38, 0x0e, 0x1a, 0x7e, 0x53, 0x94, 0xc8, 0x42, 0x6e, 0x6e, 0x48, 0xba, 0xc2,
    0x4a, 0x8c, 0x53, 0x6a, 0x04, 0x5f, 0xbf, 0x9d, 0xbe, 0x9f, 0xba, 0x1c], rfl⟩

def compactRequestFromTerminalStatementBoxV1 (statement : PoolV1PairForestTerminalStatementV1) :
    Except ProgramError Bytes :=
  mapErr (fun _ => .invalidInstructionData) (encodePoolV1PairForestTerminalRequestV1
    ⟨V7_POOL_PAIR_FOREST_TAG73_PROFILE_BINDING, V7_POOL_PAIR_FOREST_TAG73_RELEASE_BINDING, env.programId,
      statement.payment⟩)

/-- The route that carries the whole statement; the verifier gets its bytes as well. -/
def processPairForestTerminalFullAsf8V1 (verify : Bytes → PairForestVerifier) (accounts : List AccountInfo)
    (data : Bytes) (slot : ℕ) : Handler Bytes := do
  let statement ← Exec.query fun _ =>
    mapErr (fun _ => .invalidInstructionData) (decodePoolV1PairForestTerminalStatementV1 data)
  let compact ← Exec.query fun _ => compactRequestFromTerminalStatementBoxV1 env statement
  processPairForestTerminalWithVerifierV1 env features (verify data) accounts compact slot

/-! ### What a successful spend did -/

/-- The lane tree that an afterstate describes. -/
def PoolV1PairVerifiedAfterstateV1.tree (a : PoolV1PairVerifiedAfterstateV1) : PoolTree :=
  ⟨a.nextPairIndex.toNat, a.nextRoot, a.nextFrontier⟩

/-- What the plan of a spend has checked. -/
structure TerminalPlanSpec (accounts : List AccountInfo) (plan : PlannedForestSpendV1) (l : Ledger) : Prop where
  named : accounts[0]? = some plan.masterAccount
  master_decoded : decodeMasterAccount env plan.masterAccount false l = .ok plan.master
  checkpoint_decoded : decodeRetainedPairForestCheckpointAccountV1 env plan.masterAccount.key plan.checkpointAccount l =
    .ok plan.checkpoint
  lane_eq : plan.outputLane = routedLane plan.request.publicInput.common.nullifier
  decoded : decodeWritableLane env features.sourceInvariant plan.masterAccount.key plan.outputLane plan.laneAccount l =
    .ok plan.lane
  request_bound : validatePairForestRequestAccountsV1 env plan.masterAccount plan.checkpointAccount plan.laneAccount
    plan.master plan.checkpoint plan.lane plan.request = .ok ()
  room : plan.lane.tree.nextLeafIndex < POOL_V1_PAIR_CAPACITY
  ready : PageReady env features plan.lane plan.laneAccount plan.page l l plan.layout.page.page
  page_ne : plan.page.key ≠ plan.laneAccount.key
  marker_planned : PlannedMarkerSpec env plan.marker
    (terminalMarker plan.request plan.masterAccount.key plan.master plan.checkpoint) l plan.planned
  marker_ne : plan.marker.key ≠ plan.laneAccount.key ∧ plan.marker.key ≠ plan.page.key

/-- The steps of a successful spend: the marker is made, the verifier called, the payout made, then lane, page and
marker are written. -/
structure ForestSpendRun (verify : PairForestVerifier) (accounts : List AccountInfo) (slot : ℕ)
    (plan : PlannedForestSpendV1) (authenticated : AuthenticatedPairForestResultV1) (l marked paid written l' : Ledger) :
    Prop where
  planned : TerminalPlanSpec env features accounts plan l
  marked_call : SystemCall l marked
  marker_zeroed : Zeroed env marked plan.marker.key
  verified : verify plan.masterAccount plan.checkpointAccount plan.laneAccount plan.master.verifierPolicy plan.registry
    plan.verifier plan.proof plan.request slot marked = .ok authenticated
  encoded : encodeNextLane env features.sourceResultInvariant ⟨plan.lane.master, laneByte plan.outputLane,
    authenticated.value.verifiedAfterstate.tree⟩ = .ok (laneImage ⟨plan.lane.master, laneByte plan.outputLane,
    authenticated.value.verifiedAfterstate.tree⟩)
  paid_step : Paid env plan.tokenAccounts plan.withdrawal marked paid
  append : LaneAppendRun env features features.sourceInvariant plan.masterAccount.key plan.outputLane plan.laneAccount
    plan.page plan.lane plan.layout.page.page authenticated.value.verifiedAfterstate.tree l paid written
  persisted : l' = setData plan.marker.key (markerBytes (terminalMarker plan.request plan.masterAccount.key plan.master
    plan.checkpoint)) written

variable {env features}

/-- Both readers of a lane return one that names its master and number. -/
theorem decodeWritableLane_ok {fast : Bool} {master : Pubkey} {lane : LaneIdV2} {account : AccountInfo} {l : Ledger}
    {state : PoolV1PairForestLaneStateV1} (h : decodeWritableLane env fast master lane account l = .ok state) :
    account.owner l = env.programId ∧ account.key = (poolV1PairForestLaneAddress env env.programId master lane).1 ∧
      slice 0 4 (account.data l) = [65, 83, 76, 56] ∧ state.master = master ∧ state.laneId = laneByte lane := by
  unfold decodeWritableLane at h
  split_ifs at h
  · simp only [decodeLaneAccountFromProgramInvariantV1, requireLaneAccount, decodeLaneFromInvariant, except_bind_eq_ok,
      require_eq_ok, except_pure_eq_ok, decide_eq_true_eq] at h
    obtain ⟨_, ⟨_, howner, -, hkey⟩, -, ⟨-, hmagic, -⟩, -, ⟨-, hmaster, hlane⟩, tree, -, rfl⟩ := h
    exact ⟨requireProgramAccount_ok howner, hkey, hmagic, hmaster, hlane⟩
  · simp only [decodeLaneAccount, requireLaneAccount, except_bind_eq_ok, require_eq_ok, mapErr_eq_ok,
      except_pure_eq_ok] at h
    obtain ⟨_, ⟨_, howner, -, hkey⟩, state', hdecode, -, ⟨hmaster, hlane⟩, rfl⟩ := h
    simp only [decodePoolV1PairForestLaneStateV1, except_bind_eq_ok, require_eq_ok] at hdecode
    obtain ⟨-, -, -, hmagic, -⟩ := hdecode
    exact ⟨requireProgramAccount_ok howner, hkey, hmagic, hmaster, hlane⟩

theorem accountIsZeroedProgramPage_zeroed {account : AccountInfo} {l : Ledger}
    (h : accountIsZeroedProgramPage env account l = true) : Zeroed env l account.key := by
  rw [accountIsZeroedProgramPage, Bool.and_eq_true, decide_eq_true_eq] at h
  exact ⟨h.1.1, h.2⟩

/-- The page of a spend, before anything is made. -/
theorem planSpendPage_ok {accounts : List AccountInfo} {laneAccount current page : AccountInfo}
    {lane : PoolV1PairForestLaneStateV1} {kind : PairForestSpendPageV1} {cursor : ℕ} {l : Ledger}
    (hcurrent : accounts[3]? = some current)
    (h : planSpendPage env features accounts laneAccount current lane l = .ok (kind, cursor))
    (hpage : accounts[kind.index]? = some page) :
    PageReady env features lane laneAccount page l l kind.page ∧ 3 ≤ kind.index ∧ kind.index < cursor := by
  simp only [planSpendPage] at h
  split_ifs at h with hgenesis hsame
  · simp only [except_bind_eq_ok, except_pure_eq_ok, require_eq_ok, Prod.mk.injEq] at h
    obtain ⟨-, hkey, -, -, rfl, rfl⟩ := h
    obtain rfl := Option.some.inj (hcurrent.symm.trans hpage)
    exact ⟨.genesis hgenesis.1 hkey (accountIsZeroedProgramPage_zeroed hgenesis.2), by decide⟩
  · simp only [except_bind_eq_ok, except_pure_eq_ok, Prod.mk.injEq] at h
    obtain ⟨header, hvalid, rfl, rfl⟩ := h
    obtain rfl := Option.some.inj (hcurrent.symm.trans hpage)
    exact ⟨.samePage hsame.symm hvalid, le_rfl, Nat.lt_succ_self 3⟩
  · simp only [except_bind_eq_ok, except_pure_eq_ok, require_eq_ok, okOr_eq_ok, Prod.mk.injEq] at h
    obtain ⟨header, hvalid, -, -, nextPage, hnext, -, hkey, -, ⟨hzero, -⟩, rfl, rfl⟩ := h
    obtain rfl := Option.some.inj (hnext.symm.trans hpage)
    exact ⟨.rollover (fun heq => hsame heq.symm) hvalid hkey (accountIsZeroedProgramPage_zeroed hzero), Nat.le_succ 3,
      Nat.lt_succ_self 4⟩

theorem planPairForestTerminal_spec {accounts : List AccountInfo} {data : Bytes} {plan : PlannedForestSpendV1}
    {l : Ledger} (h : planPairForestTerminal env features accounts data l = .ok plan) :
    TerminalPlanSpec env features accounts plan l := by
  simp only [planPairForestTerminal, planPairForestSpendLayoutV1, routeLane, except_bind_eq_ok, mapErr_eq_ok, okOr_eq_ok,
    require_eq_ok, except_pure_eq_ok] at h
  obtain ⟨request, -, masterAccount, hmaster, checkpointAccount, -, laneAccount, hlane, master, hmasterState, checkpoint,
    hcheckpoint, outputLane, ⟨-, -, rfl⟩, lane, hlaneState, _, hbound, layout,
    ⟨-, hroom, laneAccount', hlane', current, hcurrent, ⟨kind, cursor⟩, hpages, -, -, _, hunique, rfl⟩, payer, -, system, -,
    -, -, marker, hmarker, planned, hplanned, withdrawal, -, verifier, -, proof, -, page, hpage, rfl⟩ := h
  obtain rfl := Option.some.inj (hlane.symm.trans hlane')
  obtain ⟨hready, hlow, hhigh⟩ := planSpendPage_ok hcurrent hpages hpage
  exact {
    named := hmaster
    master_decoded := hmasterState
    checkpoint_decoded := hcheckpoint
    lane_eq := rfl
    decoded := hlaneState
    request_bound := hbound
    room := hroom
    ready := hready
    page_ne := key_ne_of_unique hunique hpage hlane (by dsimp only; omega)
    marker_planned := planNullifierMarkerConsumptionV1_spec env hplanned
    marker_ne := ⟨key_ne_of_unique hunique hmarker hlane (by dsimp only; omega),
      key_ne_of_unique hunique hmarker hpage (by dsimp only; omega)⟩ }

/-- What the verifier call and the checks on its result have established. -/
theorem verifyTerminal_ok {verify : PairForestVerifier} {plan : PlannedForestSpendV1} {slot : ℕ} {l : Ledger}
    {result : PoolV1PairForestTerminalResultV1} {image bytes : Bytes}
    (h : verifyTerminal env features verify plan slot l = .ok (result, image, bytes)) :
    ∃ authenticated, verify plan.masterAccount plan.checkpointAccount plan.laneAccount plan.master.verifierPolicy
        plan.registry plan.verifier plan.proof plan.request slot l = .ok authenticated ∧ result = authenticated.value ∧
      result.verifiedAfterstate.tree.nextLeafIndex = plan.lane.tree.nextLeafIndex + 1 ∧
      encodeNextLane env features.sourceResultInvariant ⟨plan.lane.master, plan.lane.laneId,
        result.verifiedAfterstate.tree⟩ = .ok image := by
  simp only [verifyTerminal, nextLaneImageBoxV1, nextPairForestLaneV1, except_bind_eq_ok, require_eq_ok,
    except_pure_eq_ok, Prod.mk.injEq] at h
  obtain ⟨authenticated, hverify, -, -, _, ⟨nextLane, ⟨-, hindex, -, -, rfl⟩, hencode⟩, _, -, rfl, rfl, rfl⟩ := h
  exact ⟨authenticated, hverify, rfl, hindex.symm, hencode⟩

theorem processPairForestTerminalWithVerifierV1_run {verify : PairForestVerifier} {accounts : List AccountInfo}
    {data : Bytes} {slot : ℕ} {l l' : Ledger} {bytes : Bytes}
    (h : processPairForestTerminalWithVerifierV1 env features verify accounts data slot l = .ok bytes l') :
    ∃ plan authenticated marked paid written, planPairForestTerminal env features accounts data l = .ok plan ∧
      ForestSpendRun env features verify accounts slot plan authenticated l marked paid written l' := by
  simp only [processPairForestTerminalWithVerifierV1, Exec.bind_ok, Exec.query_ok, Exec.update_ok, Exec.pure_ok] at h
  obtain ⟨plan, _, ⟨hplan, rfl⟩, ready, marked, hready, ⟨result, image, resultBytes⟩, _, ⟨hverify, rfl⟩, _, paid, hpay, _,
    written, hwritten, _, _, rfl, -, rfl⟩ := h
  have hspec := planPairForestTerminal_spec hplan
  obtain ⟨authenticated, hauthenticated, rfl, hindex, hencode⟩ := verifyTerminal_ok hverify
  obtain ⟨⟨hcall, -⟩, hfresh, hencoded⟩ := createNullifierMarkerIfNeededV1_ok hready
  obtain ⟨hfreshOwner, -, hfreshZero⟩ := hfresh.zeroed rfl
  have hpaid := paySettlement_paid hpay
  have hout := (hcall.outside env.programId_ne_system).trans hpaid.outside
  obtain ⟨-, -, -, -, hlaneId⟩ := decodeWritableLane_ok hspec.decoded
  obtain rfl := encodeNextLane_ok hencode
  rw [hlaneId] at hencode hwritten
  refine ⟨plan, authenticated, marked, paid, written, hplan, hspec, hcall, ⟨hfreshOwner, hfreshZero⟩, hauthenticated,
    hencode, hpaid, ?_, ?_⟩
  · exact ⟨hspec.decoded, hspec.room, hindex, hout, hspec.ready.mono hout, hspec.page_ne, hwritten.symm⟩
  · rw [hencoded, hspec.marker_planned.encoded_eq]

theorem processPairForestTerminalFullAsf8V1_run {verify : Bytes → PairForestVerifier} {accounts : List AccountInfo}
    {data : Bytes} {slot : ℕ} {l l' : Ledger} {bytes : Bytes}
    (h : processPairForestTerminalFullAsf8V1 env features verify accounts data slot l = .ok bytes l') :
    ∃ compact plan authenticated marked paid written, planPairForestTerminal env features accounts compact l = .ok plan ∧
      ForestSpendRun env features (verify data) accounts slot plan authenticated l marked paid written l' := by
  simp only [processPairForestTerminalFullAsf8V1, Exec.bind_ok, Exec.query_ok] at h
  obtain ⟨statement, _, ⟨-, rfl⟩, compact, _, ⟨-, rfl⟩, hrun⟩ := h
  exact ⟨compact, processPairForestTerminalWithVerifierV1_run hrun⟩

end

end Aspis.Forest
