import Aspis.Forest.Setup
import Aspis.Pool.Program

/-! Pool and pair forest as one program: the instructions of both run over the
same accounts, in any order, among other programs. -/

namespace Aspis.Forest

open Lib Chain Statement Pool

/-- A pair-forest instruction with the accounts it names and its bytes. -/
inductive ForestInstruction
  | initializeForest (accounts : List AccountInfo) (data : Bytes)
  | deposit (accounts : List AccountInfo) (data : Bytes)
  | terminal (accounts : List AccountInfo) (data : Bytes) (slot : ℕ)
  | terminalFullAsf8 (accounts : List AccountInfo) (data : Bytes) (slot : ℕ)
  | checkpoint (accounts : List AccountInfo) (data : Bytes)

/-- The leaf that the outputs of a payment make: a transfer has two, a withdrawal its change only. -/
def outputPairLeaf (env : Environment) : PoolV1PairForestTerminalPaymentV1 → Digest
  | .privateTransfer p => env.treeParent p.recipientCommitment p.changeCommitment
  | .withdrawal p => env.treeParent p.changeCommitment Digest.zero

/-- The relation of the selected verifier: what it returns is the lane it read with the output leaf appended. -/
def AppendsOutputs (env : Environment) (verify : PairForestVerifier) : Prop :=
  ∀ master checkpoint lane policy registry verifier proof request slot l authenticated state,
    verify master checkpoint lane policy registry verifier proof request slot l = .ok authenticated →
    decodePoolV1PairForestLaneStateV1 env (lane.data l) = .ok state →
    authenticated.value.verifiedAfterstate.tree =
      (carryAppend env.treeParent (pairEmptyRoots env) state.tree (outputPairLeaf env request.publicInput)).1

/-- Both programs and the services they are deployed with. -/
structure ForestDeployment where
  pool : Deployment
  features : ForestFeatures
  verify : PairForestVerifier
  verifyFullAsf8 : Bytes → PairForestVerifier
  verify_appends : AppendsOutputs pool.env verify
  verifyFullAsf8_appends : ∀ statement, AppendsOutputs pool.env (verifyFullAsf8 statement)

/-- What happens between two ledgers of a run of both. -/
inductive ForestEvent
  | pool (event : Event)
  | rejected (instruction : ForestInstruction)
  | accepted (instruction : ForestInstruction) (returned : Bytes)

namespace ForestDeployment

variable (d : ForestDeployment)

/-- The account model and hashes of the pool program. -/
abbrev env : Environment := d.pool.env

def processInstruction : ForestInstruction → Handler Bytes
  | .initializeForest accounts data => do
    processPairForestInitializeV1 d.env accounts data
    return []
  | .deposit accounts data => do
    processPairForestDepositV1 d.env d.features accounts data
    return []
  | .terminal accounts data slot =>
    processPairForestTerminalWithVerifierV1 d.env d.features d.verify accounts data slot
  | .terminalFullAsf8 accounts data slot =>
    processPairForestTerminalFullAsf8V1 d.env d.features d.verifyFullAsf8 accounts data slot
  | .checkpoint accounts data => do
    processPairForestCheckpointV1 d.env accounts data
    return []

/-- One step of the chain; a rejected instruction leaves no trace. -/
def Step (l : Ledger) : ForestEvent → Ledger → Prop
  | .pool e, l' => d.pool.Step l e l'
  | .rejected i, l' => (∃ e m, d.processInstruction i l = .error e m) ∧ l' = l
  | .accepted i returned, l' => d.processInstruction i l = .ok returned l'

abbrev Runs : Ledger → List ForestEvent → Ledger → Prop := Run d.Step

end ForestDeployment

/-- What an accepted pair-forest instruction did, by its steps. -/
inductive ForestAccepted (d : ForestDeployment) (l l' : Ledger) : ForestInstruction → Prop
  | initializeForest {accounts : List AccountInfo} {data : Bytes} {plan : PlannedForestInitializationV1}
      {prepared : Ledger} (planned : planForestInitialization d.env accounts data l = .ok plan)
      (run : ForestInitializeRun d.env plan l prepared l') : ForestAccepted d l l' (.initializeForest accounts data)
  | deposit {accounts : List AccountInfo} {data : Bytes} {masterAccount : AccountInfo}
      {master : PoolV1PairForestMasterV1} {commitment : Digest} {plan : PlannedForestDepositV1} {page : AccountInfo}
      {paid : Ledger} (planned : planPairForestDeposit d.env d.features accounts data l = .ok plan)
      (run : ForestDepositRun d.env d.features accounts masterAccount master commitment plan page l paid l') :
      ForestAccepted d l l' (.deposit accounts data)
  | terminal {accounts : List AccountInfo} {data : Bytes} {slot : ℕ} {plan : PlannedForestSpendV1}
      {authenticated : AuthenticatedPairForestResultV1} {marked paid written : Ledger}
      (planned : planPairForestTerminal d.env d.features accounts data l = .ok plan)
      (run : ForestSpendRun d.env d.features d.verify accounts slot plan authenticated l marked paid written l') :
      ForestAccepted d l l' (.terminal accounts data slot)
  | terminalFullAsf8 {accounts : List AccountInfo} {data compact : Bytes} {slot : ℕ} {plan : PlannedForestSpendV1}
      {authenticated : AuthenticatedPairForestResultV1} {marked paid written : Ledger}
      (planned : planPairForestTerminal d.env d.features accounts compact l = .ok plan)
      (run : ForestSpendRun d.env d.features (d.verifyFullAsf8 data) accounts slot plan authenticated l marked paid
        written l') : ForestAccepted d l l' (.terminalFullAsf8 accounts data slot)
  | checkpoint {accounts : List AccountInfo} {data : Bytes} {plan : PlannedForestCheckpointV1}
      {master : PoolV1PairForestMasterV1} {states : LaneIdV2 → PoolV1PairForestLaneStateV1}
      {bound : PoolV1PairForestCheckpointPlanV1} {prepared : Ledger}
      (planned : planForestCheckpoint d.env accounts data l = .ok plan)
      (run : ForestCheckpointRun d.env plan master states bound l prepared l') :
      ForestAccepted d l l' (.checkpoint accounts data)

/-- Every accepted instruction went through the steps of its handler. -/
theorem ForestDeployment.processInstruction_accepted {d : ForestDeployment} {i : ForestInstruction} {l l' : Ledger}
    {returned : Bytes} (h : d.processInstruction i l = .ok returned l') : ForestAccepted d l l' i := by
  cases i with
  | initializeForest accounts data =>
    simp only [processInstruction, Exec.bind_ok, Exec.pure_ok] at h
    obtain ⟨_, _, hrun, -, rfl⟩ := h
    obtain ⟨plan, prepared, hplan, hrun⟩ := processPairForestInitializeV1_run hrun
    exact .initializeForest hplan hrun
  | deposit accounts data =>
    simp only [processInstruction, Exec.bind_ok, Exec.pure_ok] at h
    obtain ⟨_, _, hrun, -, rfl⟩ := h
    obtain ⟨masterAccount, master, commitment, plan, page, paid, hplan, hrun⟩ := processPairForestDepositV1_run hrun
    exact .deposit hplan hrun
  | terminal accounts data slot =>
    obtain ⟨plan, authenticated, marked, paid, written, hplan, hrun⟩ :=
      processPairForestTerminalWithVerifierV1_run h
    exact .terminal hplan hrun
  | terminalFullAsf8 accounts data slot =>
    obtain ⟨compact, plan, authenticated, marked, paid, written, hplan, hrun⟩ :=
      processPairForestTerminalFullAsf8V1_run h
    exact .terminalFullAsf8 hplan hrun
  | checkpoint accounts data =>
    simp only [processInstruction, Exec.bind_ok, Exec.pure_ok] at h
    obtain ⟨_, _, hrun, -, rfl⟩ := h
    obtain ⟨plan, master, states, bound, prepared, hplan, hrun⟩ := processPairForestCheckpointV1_run hrun
    exact .checkpoint hplan hrun

end Aspis.Forest
