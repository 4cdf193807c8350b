import Aspis.Lib.Run
import Aspis.Pool.Deposit
import Aspis.Pool.Settlement

/-! The pool program as a whole: one dispatcher over its instructions, and runs
of the program among other programs. An instruction that fails is rolled back;
between instructions others may do anything that leaves the program's own
accounts alone. -/

namespace Aspis.Pool

open Lib Chain Statement

/-- A decoded instruction with the accounts it names. -/
inductive Instruction
  | initializePool (accounts : List AccountInfo) (init : PoolInitializationV1)
  | deposit (accounts : List AccountInfo) (request : DepositRequestV1)
  | privateTransfer (accounts : List AccountInfo) (instruction : SpendInstructionV1)
  | withdrawal (accounts : List AccountInfo) (instruction : SpendInstructionV1)
  | prepareSettlement (accounts : List AccountInfo) (request : PrepareSettlementRequestV1) (slot : ℕ)
  | settlePrepared (accounts : List AccountInfo) (instruction : SettlePreparedInstructionV1) (slot : ℕ)
  | cancelPreparedSettlement (accounts : List AccountInfo) (hasShard : Bool)

/-- The spend of a direct instruction. -/
def Instruction.directSpend : Instruction → Option SpendInstructionV1
  | .privateTransfer _ instruction => some instruction
  | .withdrawal _ instruction => some instruction
  | _ => none

/-- What a successful instruction returns. -/
inductive Outcome
  | initialized (pool : Pubkey) (init : PoolInitializationV1)
  | deposited (receipt : DepositReceiptV1)
  | spent (receipt : TransitionReceiptV1)
  | prepared
  | cancelled

/-- The pool account an initialization names. -/
def poolOfInitialize (accounts : List AccountInfo) : Pubkey := (accounts[1]?.map (·.key)).getD Bytes32.zero

/-- The services the program is deployed with. -/
structure Deployment where
  env : Environment
  services : AuthorizationServices
  verify : SpendVerifier

namespace Deployment

variable (d : Deployment)

def processInstruction : Instruction → Handler Outcome
  | .initializePool accounts init => do
    processInitializeV1 d.env accounts init
    return .initialized (poolOfInitialize accounts) init
  | .deposit accounts request => do
    let receipt ← processDepositV1 d.env accounts request
    return .deposited receipt
  | .privateTransfer accounts instruction => do
    let receipt ← processPrivateTransferV1 d.env d.verify accounts instruction
    return .spent receipt
  | .withdrawal accounts instruction => do
    let receipt ← processWithdrawalV1 d.env d.verify accounts instruction
    return .spent receipt
  | .prepareSettlement accounts request slot => do
    processPrepareSettlementV1 d.env d.services accounts request slot
    return .prepared
  | .settlePrepared accounts instruction slot => do
    let receipt ← processSettlePreparedV1 d.env d.services accounts instruction slot
    return .spent receipt
  | .cancelPreparedSettlement accounts hasShard => do
    processCancelPreparedSettlementV1 d.env accounts hasShard
    return .cancelled

end Deployment

/-- What happens between two ledgers of a run. -/
inductive Event
  | outside
  | rejected (instruction : Instruction)
  | accepted (instruction : Instruction) (outcome : Outcome)

namespace Deployment

variable (d : Deployment)

/-- One step of the chain; a rejected instruction leaves no trace. -/
def Step (l : Ledger) : Event → Ledger → Prop
  | .outside, l' => Outside d.env.programId l l'
  | .rejected i, l' => (∃ e m, d.processInstruction i l = .error e m) ∧ l' = l
  | .accepted i o, l' => d.processInstruction i l = .ok o l'

/-- A run of the chain through a list of events. -/
abbrev Runs : Ledger → List Event → Ledger → Prop := Run d.Step

end Deployment

/-- The pool and nullifier a spend consumed. -/
def Event.consumed : Event → Option (Pubkey × Digest)
  | .accepted _ (.spent receipt) => some (receipt.pool, receipt.nullifier)
  | _ => none

/-- The outcome appended leaves to the pool. -/
def Outcome.AppendsTo (pool : Pubkey) : Outcome → Prop
  | .deposited receipt => receipt.pool = pool
  | .spent receipt => receipt.pool = pool
  | _ => False

/-- The event appended leaves to the pool. -/
def Event.AppendsTo (pool : Pubkey) : Event → Prop
  | .accepted _ outcome => outcome.AppendsTo pool
  | _ => False

/-- What an accepted instruction did, by its steps. -/
inductive Accepted (env : Environment) (services : AuthorizationServices) (l l' : Ledger) : Instruction → Outcome → Prop
  | initializePool {accounts : List AccountInfo} {pool pageZero : AccountInfo} {init : PoolInitializationV1}
      {state : PoolStateV1} {prepared : Ledger} (run : InitializeRun env pool pageZero init state l prepared l') :
      Accepted env services l l' (.initializePool accounts init) (.initialized pool.key init)
  | deposit {accounts : List AccountInfo} {pool current : AccountInfo} {next : Option AccountInfo}
      {tokenAccounts : List AccountInfo} {c : CanonicalPoolStateV1} {r : DepositRequestV1}
      {transfer : LegacyDepositTransferPlanV1} {plan : AppendPlanV1} {created paid : Ledger} {receipt : DepositReceiptV1}
      (run : DepositRun env pool current next tokenAccounts c r transfer plan l created paid l' receipt) :
      Accepted env services l l' (.deposit accounts r) (.deposited receipt)
  | spend {i : Instruction} {spend : SpendInstructionV1} {pool current marker : AccountInfo} {next : Option AccountInfo}
      {source : AuthorizedSourceStateV1} {prevalidated : Option PrevalidatedCurrentHistoryV1} {r : AuthorizedAppendV1}
      {plan : AppendPlanV1} {planned : PlannedNullifierMarkerV1} {tokens : List AccountInfo}
      {withdrawal : Option LegacyWithdrawalTransferPlanV1} {created marked paid : Ledger} {receipt : TransitionReceiptV1}
      (direct : i.directSpend = some spend)
      (run : SpendRun env spend pool current marker next source prevalidated r plan planned tokens withdrawal l created marked
        paid l' receipt) : Accepted env services l l' i (.spent receipt)
  | prepare {accounts : List AccountInfo} {request : PrepareSettlementRequestV1} {slot : ℕ} {pool core : AccountInfo}
      {c : CanonicalPoolStateV1} {images : PreparedSettlementPlanImagesV1} {f : PreparedSettlementPlanFieldsV1}
      {prepared : PreparedAuthorizedAppendImagesV1} {shard : Option PlannedShard} {created : Ledger}
      (named : accounts[1]? = some pool) (authority : accounts.head?.map (·.key) = some f.planAuthority)
      (run : PrepareRun env pool core c request.request images f prepared shard l created l') :
      Accepted env services l l' (.prepareSettlement accounts request slot) .prepared
  | settle {accounts : List AccountInfo} {i : SettlePreparedInstructionV1} {slot : ℕ} {pool : AccountInfo}
      {s : PoolStateV1} {layout : SettlePreparedLayoutV1} {x : PreparedSettlementApplyContextV1}
      {v : PreparedSettlementPlanViewV1} {a : AuthenticatedSettlementStatementV1} {sourceNext : Option Bytes}
      {applied : PreparedSettlementApplyResultV1} {planned : PlannedNullifierMarkerV1}
      {withdrawal : Option LegacyWithdrawalTransferPlanV1} {marked paid closing : Ledger} {receipt : TransitionReceiptV1}
      (named : accounts[1]? = some pool) (payload : x.payload = i.statementPayload)
      (run : SettleRun env services accounts pool i.transitionKind s layout x v a sourceNext applied planned withdrawal l marked paid
        closing l' receipt) : Accepted env services l l' (.settlePrepared accounts i slot) (.spent receipt)
  | cancel {accounts : List AccountInfo} {hasShard : Bool} {core : AccountInfo} {shard : Option AccountInfo}
      (named : accounts[1]? = some core) (run : CancelRun env core shard l l') : Accepted env services l l' (.cancelPreparedSettlement accounts hasShard) .cancelled

/-- Every accepted instruction went through the steps of its handler. -/
theorem Deployment.processInstruction_accepted {d : Deployment} {i : Instruction} {l l' : Ledger} {o : Outcome}
    (h : d.processInstruction i l = .ok o l') : Accepted d.env d.services l l' i o := by
  cases i with
  | initializePool accounts init =>
    simp only [processInstruction, Exec.bind_ok, Exec.pure_ok] at h
    obtain ⟨_, _, hrun, rfl, rfl⟩ := h
    obtain ⟨pool, pageZero, state, prepared, hpool, hrun⟩ := processInitializeV1_run hrun
    rw [poolOfInitialize, hpool]
    exact .initializePool hrun
  | deposit accounts request =>
    simp only [processInstruction, Exec.bind_ok, Exec.pure_ok] at h
    obtain ⟨receipt, _, hrun, rfl, rfl⟩ := h
    obtain ⟨pool, current, next, tokenAccounts, c, transfer, plan, created, paid, -, hrun⟩ := processDepositV1_run hrun
    exact .deposit hrun
  | privateTransfer accounts instruction =>
    simp only [processInstruction, Exec.bind_ok, Exec.pure_ok] at h
    obtain ⟨receipt, _, hrun, rfl, rfl⟩ := h
    obtain ⟨pool, current, marker, next, source, prevalidated, r, plan, planned, tokens, withdrawal, created, marked,
      paid, -, hrun⟩ := processPrivateTransferV1_run hrun
    exact .spend rfl hrun
  | withdrawal accounts instruction =>
    simp only [processInstruction, Exec.bind_ok, Exec.pure_ok] at h
    obtain ⟨receipt, _, hrun, rfl, rfl⟩ := h
    obtain ⟨pool, current, marker, next, source, prevalidated, r, plan, planned, tokens, withdrawal, created, marked,
      paid, -, hrun⟩ := processWithdrawalV1_run hrun
    exact .spend rfl hrun
  | prepareSettlement accounts request slot =>
    simp only [processInstruction, Exec.bind_ok, Exec.pure_ok] at h
    obtain ⟨_, _, hrun, rfl, rfl⟩ := h
    obtain ⟨pool, core, c, images, f, prepared, shard, created, hnamed, hauthority, hrun⟩ :=
      processPrepareSettlementV1_run hrun
    exact .prepare hnamed hauthority hrun
  | settlePrepared accounts instruction slot =>
    simp only [processInstruction, Exec.bind_ok, Exec.pure_ok] at h
    obtain ⟨receipt, _, hrun, rfl, rfl⟩ := h
    obtain ⟨pool, s, layout, x, v, a, sourceNext, applied, planned, withdrawal, marked, paid, closing, hnamed, hpayload,
      hrun⟩ := processSettlePreparedV1_run hrun
    exact .settle hnamed hpayload hrun
  | cancelPreparedSettlement accounts hasShard =>
    simp only [processInstruction, Exec.bind_ok, Exec.pure_ok] at h
    obtain ⟨_, _, hrun, rfl, rfl⟩ := h
    obtain ⟨core, shard, hnamed, hrun⟩ := processCancelPreparedSettlementV1_run hrun
    exact .cancel hnamed hrun

end Aspis.Pool
