import Aspis.Forest.Spend
import Aspis.Pool.SampleDeployment

/-! The two checks of a verifier result in a terminal spend. The full check
builds the terminal statement again from the accounts and the result and
validates the result against it; the direct check compares six fields. What the
direct check leaves out was settled earlier: the request was decoded, so its
payment encodes; the accounts were bound to it, so the master, the domain and
the anchor agree; the lane was read, so its snapshot is canonical and has room;
the result was decoded, so its afterstate is valid. -/

namespace Aspis.Forest

open Lib Chain Statement Pool Verifier
open PoolV1PairForestTerminalStatementV1 (ofPayment)

/-! ### When a statement is valid -/

theorem encodeLate_isOk {s : PoolV1PairLatePublicStatementV1} :
    (∃ bytes, encodePoolV1PairLatePublicStatementV1 s = .ok bytes) ↔
      s.Advances ∧ validatePoolV1PairLiveSnapshotV1 s.liveSnapshot = .ok () ∧
        validateVerifiedAfterstate s.candidateAfterstate = .ok () := by
  simp only [encodePoolV1PairLatePublicStatementV1, encodePoolV1PairLiveSnapshotV1, encodePoolV1PairVerifiedAfterstateV1,
    except_bind_eq_ok, require_eq_ok, mapErr_eq_ok, except_pure_eq_ok]
  constructor
  · rintro ⟨_, _, hadvances, _, ⟨_, hlive, -⟩, _, ⟨_, hafter, -⟩, -⟩
    exact ⟨hadvances, hlive, hafter⟩
  · rintro ⟨hadvances, hlive, hafter⟩
    exact ⟨_, (), hadvances, _, ⟨(), hlive, rfl⟩, _, ⟨(), hafter, rfl⟩, rfl⟩

theorem validateSnapshot_eq_ok {s : PoolV1PairLiveSnapshotV1} {u : Unit} :
    validatePoolV1PairLiveSnapshotV1 s = .ok u ↔ (s.pool ≠ Bytes32.zero ∧ s.deploymentDomain ≠ Bytes32.zero) ∧
      s.sequence = s.nextPairIndex ∧ s.nextPairIndex.toNat < POOL_V1_PAIR_CAPACITY ∧
      DigestIsCanonical s.currentRoot ∧ ∀ level, DigestIsCanonical (s.frontier level) := by
  simp only [validatePoolV1PairLiveSnapshotV1, except_bind_eq_ok, require_eq_ok]
  constructor
  · rintro ⟨-, hbound, -, hsequence, -, hroom, hcanonical⟩
    exact ⟨hbound, hsequence, hroom, hcanonical⟩
  · rintro ⟨hbound, hsequence, hroom, hcanonical⟩
    exact ⟨(), hbound, (), hsequence, (), hroom, hcanonical⟩

/-- What a valid terminal statement satisfies. -/
structure ValidTerminalStatement (s : PoolV1PairForestTerminalStatementV1) : Prop where
  master_ne : s.common.masterAccount ≠ Bytes32.zero
  checkpoint_ne : s.common.checkpointAccount ≠ Bytes32.zero
  lane_ne : s.common.selectedLaneAccount ≠ Bytes32.zero
  lane_lt : s.common.outputLane.toNat < POOL_V1_PAIR_FOREST_LANE_COUNT
  payment_encodes : ∃ bytes, s.payment.encode = .ok bytes
  pool_eq : s.payment.common.pool = s.common.masterAccount
  domain_eq : s.payment.common.deploymentDomain = s.common.laneTransition.liveSnapshot.deploymentDomain
  snapshot_pool : s.common.laneTransition.liveSnapshot.pool = s.common.masterAccount
  sequence_eq : s.payment.common.anchorSequence = s.common.checkpointSequence
  anchor_eq : s.payment.common.anchorRoot = s.common.historicalGlobalAnchor
  lane_eq : poolV1PairForestOutputLaneV1 s.payment.common.nullifier = .ok s.common.outputLane
  advances : s.common.laneTransition.Advances
  snapshot_valid : validatePoolV1PairLiveSnapshotV1 s.common.laneTransition.liveSnapshot = .ok ()
  afterstate_valid : validateVerifiedAfterstate s.common.laneTransition.candidateAfterstate = .ok ()

theorem validateTerminalStatement_eq_ok {s : PoolV1PairForestTerminalStatementV1} {u : Unit} :
    validatePoolV1PairForestTerminalStatementV1 s = .ok u ↔ ValidTerminalStatement s := by
  simp only [validatePoolV1PairForestTerminalStatementV1, except_bind_eq_ok, require_eq_ok, mapErr_eq_ok]
  constructor
  · rintro ⟨-, ⟨hmaster, hcheckpoint, hlane⟩, -, hlt, payment, hpayment, -, hpool, -, hdomain, -, hsnapshot, -, hsequence,
      -, hanchor, lane, hroute, -, hsame, late, hlate, -⟩
    obtain ⟨hadvances, hlive, hafter⟩ := encodeLate_isOk.mp ⟨late, hlate⟩
    rw [hsame] at hroute
    exact ⟨hmaster, hcheckpoint, hlane, hlt, ⟨payment, hpayment⟩, hpool, hdomain, hsnapshot, hsequence, hanchor, hroute,
      hadvances, hlive, hafter⟩
  · intro h
    obtain ⟨payment, hpayment⟩ := h.payment_encodes
    obtain ⟨late, hlate⟩ := encodeLate_isOk.mpr ⟨h.advances, h.snapshot_valid, h.afterstate_valid⟩
    exact ⟨(), ⟨h.master_ne, h.checkpoint_ne, h.lane_ne⟩, (), h.lane_lt, payment, hpayment, (), h.pool_eq, (),
      h.domain_eq, (), h.snapshot_pool, (), h.sequence_eq, (), h.anchor_eq, _, h.lane_eq, (), rfl, late, hlate, rfl⟩

/-! ### What the plan of a spend guarantees -/

section
variable {env : Environment} {features : ForestFeatures}

/-- Both readers of a lane return a canonical root and frontier. -/
theorem decodeWritableLane_canonical {fast : Bool} {master : Pubkey} {lane : LaneIdV2} {account : AccountInfo}
    {l : Ledger} {state : PoolV1PairForestLaneStateV1}
    (h : decodeWritableLane env fast master lane account l = .ok state) :
    DigestIsCanonical state.tree.root ∧ ∀ level, DigestIsCanonical (state.tree.frontier level) := by
  unfold decodeWritableLane at h
  split_ifs at h
  · simp only [decodeLaneAccountFromProgramInvariantV1, decodeLaneFromInvariant, decodePairTreeFromInvariant,
      except_bind_eq_ok, require_eq_ok, okOr_eq_ok, except_pure_eq_ok] at h
    obtain ⟨-, -, -, -, -, -, tree, ⟨-, -, -, -, root, hroot, frontier, hfrontier, -, -, rfl⟩, rfl⟩ := h
    refine ⟨decodeDigestCanonical_canonical hroot, ?_⟩
    intro level
    have hslot := collect_eq_ok.mp hfrontier level
    simp only [decodeFrontierSlot, except_bind_eq_ok, require_eq_ok, okOr_eq_ok, except_pure_eq_ok] at hslot
    obtain ⟨node, hnode, -, -, rfl⟩ := hslot
    exact decodeDigestCanonical_canonical hnode
  · simp only [decodeLaneAccount, decodePoolV1PairForestLaneStateV1, decodePairTree, except_bind_eq_ok, require_eq_ok,
      mapErr_eq_ok, except_pure_eq_ok] at h
    obtain ⟨-, -, _, ⟨-, -, -, -, -, -, -, -, -, -, -, -, -, -, -, -, -, -, tree, ⟨_, himage, _, -, rfl⟩, -, -, rfl⟩, -, -,
      rfl⟩ := h
    exact (encodeTree_of_decode himage).2

/-- The payment of a decoded request encodes. -/
theorem decodedRequest_encodes {bytes : Bytes} {request : PoolV1PairForestTerminalRequestV1}
    (h : decodePoolV1PairForestTerminalRequestV1 bytes = .ok request) :
    ∃ payment, request.publicInput.encode = .ok payment := by
  have hencode := encode_decodeTerminalRequest h
  simp only [encodePoolV1PairForestTerminalRequestV1, except_bind_eq_ok, mapErr_eq_ok] at hencode
  obtain ⟨-, -, payment, hpayment, -⟩ := hencode
  exact ⟨payment, hpayment⟩

theorem planPairForestTerminal_decoded {accounts : List AccountInfo} {data : Bytes} {plan : PlannedForestSpendV1}
    {l : Ledger} (h : planPairForestTerminal env features accounts data l = .ok plan) :
    decodePoolV1PairForestTerminalRequestV1 data = .ok plan.request := by
  simp only [planPairForestTerminal, except_bind_eq_ok, mapErr_eq_ok, except_pure_eq_ok] at h
  obtain ⟨request, hrequest, _, -, _, -, _, -, _, -, _, -, _, -, _, -, _, -, _, -, _, -, _, -, _, -, _, -, _, -, _, -, _, -,
    _, -, _, -, rfl⟩ := h
  exact hrequest

/-- The domain of a decoded master is not zero. -/
theorem decodeMasterAccount_domain {account : AccountInfo} {writable : Bool} {l : Ledger}
    {master : PoolV1PairForestMasterV1} (h : decodeMasterAccount env account writable l = .ok master) :
    master.identity.deploymentDomain ≠ Bytes32.zero := by
  simp only [decodeMasterAccount, decodePoolV1PairForestMasterV1, validateMaster, except_bind_eq_ok, require_eq_ok,
    mapErr_eq_ok, except_pure_eq_ok] at h
  obtain ⟨-, -, -, -, _, ⟨-, -, -, -, -, -, -, -, -, -, -, -, -, -, _, -, _, -, _, -, _, ⟨-, ⟨-, -, -, hdomain⟩, -⟩, rfl⟩, -,
    -, rfl⟩ := h
  exact hdomain

/-! ### The two checks -/

/-- What a decoded result satisfies. -/
structure ValidTerminalResult (r : PoolV1PairForestTerminalResultV1) : Prop where
  master_ne : r.masterAccount ≠ Bytes32.zero
  lane_ne : r.selectedLaneAccount ≠ Bytes32.zero
  lane_eq : poolV1PairForestOutputLaneV1 r.nullifier = .ok r.outputLane
  afterstate_valid : validateVerifiedAfterstate r.verifiedAfterstate = .ok ()

theorem validateResult_eq_ok {r : PoolV1PairForestTerminalResultV1} {u : Unit} :
    validateResult r = .ok u ↔ ValidTerminalResult r := by
  simp only [validateResult, encodePoolV1PairVerifiedAfterstateV1, except_bind_eq_ok, require_eq_ok, mapErr_eq_ok,
    except_pure_eq_ok]
  constructor
  · rintro ⟨-, ⟨hmaster, hlane⟩, lane, hroute, -, hsame, _, ⟨_, hafter, -⟩, -⟩
    rw [← hsame] at hroute
    exact ⟨hmaster, hlane, hroute, hafter⟩
  · intro h
    exact ⟨(), ⟨h.master_ne, h.lane_ne⟩, _, h.lane_eq, (), rfl, _, ⟨(), h.afterstate_valid, rfl⟩, trivial⟩

theorem AuthenticatedPairForestResultV1.valid (authenticated : AuthenticatedPairForestResultV1) :
    ValidTerminalResult authenticated.value := by
  have h := authenticated.decoded
  simp only [decodePoolV1PairForestTerminalResultV1, except_bind_eq_ok, except_pure_eq_ok] at h
  obtain ⟨-, -, -, -, -, -, _, -, -, -, _, -, _, -, _, hvalid, heq⟩ := h
  rw [← heq]
  exact validateResult_eq_ok.mp hvalid

/-- The fields the direct check compares. -/
structure DirectBinding (plan : PlannedForestSpendV1) (r : PoolV1PairForestTerminalResultV1) : Prop where
  kind_eq : r.transitionKind = plan.request.publicInput.transitionKind
  master_eq : r.masterAccount = plan.masterAccount.key
  lane_eq : r.selectedLaneAccount = plan.laneAccount.key
  output_eq : r.outputLane = laneByte plan.outputLane
  nullifier_eq : r.nullifier = plan.request.publicInput.common.nullifier
  advances : plan.lane.tree.nextLeafIndex + 1 = r.verifiedAfterstate.nextPairIndex.toNat

theorem directCheck_eq_ok {plan : PlannedForestSpendV1} {r : PoolV1PairForestTerminalResultV1} {u : Unit} :
    validatePairForestTerminalResultDirectV1 plan.request plan.masterAccount.key plan.laneAccount.key plan.outputLane
      plan.lane r = .ok u ↔ DirectBinding plan r := by
  simp only [validatePairForestTerminalResultDirectV1, require_eq_ok]
  constructor
  · rintro ⟨hkind, hmaster, hlane, houtput, hnullifier, hadvances⟩
    exact ⟨hkind, hmaster, hlane, houtput, hnullifier, hadvances⟩
  · intro h
    exact ⟨h.kind_eq, h.master_eq, h.lane_eq, h.output_eq, h.nullifier_eq, h.advances⟩

/-- The statement that the full check builds. -/
def PlannedForestSpendV1.statement (plan : PlannedForestSpendV1) (r : PoolV1PairForestTerminalResultV1) :
    PoolV1PairForestTerminalStatementV1 :=
  ofPayment (terminalCommonBoxV1 plan.masterAccount.key plan.checkpointAccount.key plan.laneAccount.key plan.master
    plan.checkpoint plan.lane plan.outputLane r) plan.request.publicInput

theorem toNat_ofNat_index {i : ℕ} (h : i < POOL_V1_PAIR_CAPACITY) : (UInt64.ofNat i).toNat = i := by
  apply UInt64.toNat_ofNat_of_lt
  exact h.trans (by decide)

/-- The statement of a planned spend is valid as soon as the result is and the direct check accepts it: whatever else
it needs was checked before the verifier was called. -/
theorem statement_valid {accounts : List AccountInfo} {data : Bytes} {l : Ledger} {plan : PlannedForestSpendV1}
    {r : PoolV1PairForestTerminalResultV1} (hplan : planPairForestTerminal env features accounts data l = .ok plan)
    (hresult : ValidTerminalResult r) (hdirect : DirectBinding plan r) : ValidTerminalStatement (plan.statement r) := by
  have hspec := planPairForestTerminal_spec hplan
  obtain ⟨hroot, hfrontier⟩ := decodeWritableLane_canonical hspec.decoded
  have hindex := toNat_ofNat_index hspec.room
  have hbound := hspec.request_bound
  simp only [validatePairForestRequestAccountsV1, except_bind_eq_ok, require_eq_ok] at hbound
  obtain ⟨-, -, lane, -, hpool, -, hdomain, -, hcheckpoint, -, -, hsequence, hanchor, -⟩ := hbound
  have hmaster : plan.masterAccount.key ≠ Bytes32.zero := hdirect.master_eq ▸ hresult.master_ne
  have hroute := hresult.lane_eq
  rw [hdirect.nullifier_eq, hdirect.output_eq] at hroute
  constructor <;> simp only [PlannedForestSpendV1.statement, PoolV1PairForestTerminalStatementV1.common_ofPayment,
    PoolV1PairForestTerminalStatementV1.payment_ofPayment, terminalCommonBoxV1]
  case master_ne => exact hmaster
  case checkpoint_ne => exact hcheckpoint
  case lane_ne => exact hdirect.lane_eq ▸ hresult.lane_ne
  case lane_lt =>
    rw [laneByte, UInt8.toNat_ofNat_of_lt' (plan.outputLane.isLt.trans (by decide))]
    exact plan.outputLane.isLt
  case payment_encodes => exact decodedRequest_encodes (planPairForestTerminal_decoded hplan)
  case pool_eq => exact hpool
  case domain_eq => exact hdomain
  case sequence_eq => rw [hsequence, UInt64.ofNat_toNat]
  case anchor_eq => exact hanchor.symm
  case lane_eq => exact hroute
  case advances =>
    rw [PoolV1PairLatePublicStatementV1.Advances, hindex]
    exact hdirect.advances
  case snapshot_valid =>
    rw [validateSnapshot_eq_ok, hindex]
    exact ⟨⟨hmaster, decodeMasterAccount_domain hspec.master_decoded⟩, rfl, hspec.room, hroot, hfrontier⟩
  case afterstate_valid => exact hresult.afterstate_valid

/-- The full check accepts when the statement is valid and the result answers it. -/
theorem fullCheck_eq_ok {plan : PlannedForestSpendV1} {r : PoolV1PairForestTerminalResultV1} {u : Unit} :
    validateAuthenticatedTerminalResultV1 plan.masterAccount.key plan.checkpointAccount.key plan.laneAccount.key
      plan.master plan.checkpoint plan.lane plan.outputLane plan.request r = .ok u ↔
    ValidTerminalStatement (plan.statement r) ∧ ValidTerminalResult r ∧
      r.transitionKind = plan.request.publicInput.transitionKind ∧ r.masterAccount = plan.masterAccount.key ∧
      r.selectedLaneAccount = plan.laneAccount.key ∧ r.outputLane = laneByte plan.outputLane ∧
      r.nullifier = plan.request.publicInput.common.nullifier := by
  simp only [validateAuthenticatedTerminalResultV1, validatePoolV1PairForestTerminalResultAgainstStatementV1, mapErr_eq_ok,
    except_bind_eq_ok, require_eq_ok, validateTerminalStatement_eq_ok, validateResult_eq_ok,
    ← PoolV1PairForestTerminalStatementV1.transitionKind_payment, PoolV1PairForestTerminalStatementV1.common_ofPayment,
    PoolV1PairForestTerminalStatementV1.payment_ofPayment, terminalCommonBoxV1]
  constructor
  · rintro ⟨-, hstatement, -, hresult, hkind, hmaster, hlane, houtput, hnullifier, -⟩
    exact ⟨hstatement, hresult, hkind, hmaster, hlane, houtput, hnullifier⟩
  · rintro ⟨hstatement, hresult, hkind, hmaster, hlane, houtput, hnullifier⟩
    exact ⟨(), hstatement, (), hresult, hkind, hmaster, hlane, houtput, hnullifier, trivial⟩

/-- After the checks of the plan, the direct check and the full check accept the same canonical results. -/
theorem direct_check_iff_full_check {accounts : List AccountInfo} {data : Bytes} {l : Ledger}
    {plan : PlannedForestSpendV1} (hplan : planPairForestTerminal env features accounts data l = .ok plan)
    (authenticated : AuthenticatedPairForestResultV1) :
    validatePairForestTerminalResultDirectV1 plan.request plan.masterAccount.key plan.laneAccount.key plan.outputLane
        plan.lane authenticated.value = .ok () ↔
      validateAuthenticatedTerminalResultV1 plan.masterAccount.key plan.checkpointAccount.key plan.laneAccount.key
        plan.master plan.checkpoint plan.lane plan.outputLane plan.request authenticated.value = .ok () := by
  have hresult := authenticated.valid
  rw [directCheck_eq_ok, fullCheck_eq_ok]
  constructor
  · intro h
    exact ⟨statement_valid hplan hresult h, hresult, h.kind_eq, h.master_eq, h.lane_eq, h.output_eq, h.nullifier_eq⟩
  · rintro ⟨hstatement, -, hkind, hmaster, hlane, houtput, hnullifier⟩
    have hadvances := hstatement.advances
    simp only [PlannedForestSpendV1.statement, PoolV1PairForestTerminalStatementV1.common_ofPayment, terminalCommonBoxV1,
      PoolV1PairLatePublicStatementV1.Advances, toNat_ofNat_index (planPairForestTerminal_spec hplan).room] at hadvances
    exact ⟨hkind, hmaster, hlane, houtput, hnullifier, hadvances⟩

end

/-! ### A private transfer from an empty lane -/

namespace SampleSpend

open Pool.Sample (environment mint nullifier programId payer initialization)

def master : Pubkey := (poolV1PairForestMasterAddress environment programId mint).1

def masterState : PoolV1PairForestMasterV1 where
  identity := ⟨master, mint, LEGACY_SPL_TOKEN_PROGRAM_ID, ⟨3⟩, Bytes32.filled 33⟩
  verifierPolicy := initialization.verifierPolicy
  initializedLaneMask := 255
  hasCheckpoint := true
  nextCheckpointSequence := 1
  lastCheckpointLaneSequences := fun _ => 0

def checkpoint : Pubkey := (poolV1PairForestCheckpointAddress environment programId master 0).1

def checkpointState : PoolV1PairForestCheckpointV1 := ⟨master, Bytes32.filled 33, 0, Digest.zero, fun _ => 0⟩

def lane : Pubkey := (poolV1PairForestLaneAddress environment programId master (Fin.last 7)).1

def laneState : PoolV1PairForestLaneStateV1 := ⟨master, 7, ⟨0, Digest.zero, fun _ => Digest.zero⟩⟩

def page : Pubkey := (poolV1RootPageAddress environment lane 0).1

def marker : Pubkey := (poolV1NullifierMarkerAddress environment master nullifier).1

def request : PoolV1PairForestTerminalRequestV1 :=
  ⟨Bytes32.filled 41, Bytes32.filled 42, programId, .privateTransfer
    ⟨⟨master, Bytes32.filled 33, 0, Digest.zero, nullifier, ⟨3⟩⟩, fun _ => ⟨1⟩, fun _ => ⟨2⟩⟩⟩

def data : Bytes := (encodePoolV1PairForestTerminalRequestV1 request).toOption.getD []

def accounts : List AccountInfo :=
  [⟨master, false, false⟩, ⟨checkpoint, false, false⟩, ⟨lane, false, true⟩, ⟨page, false, true⟩,
    ⟨marker, false, true⟩, ⟨payer, true, true⟩, ⟨systemProgram, false, false⟩, ⟨Bytes32.filled 50, false, false⟩,
    ⟨Bytes32.filled 51, false, false⟩, ⟨Bytes32.filled 52, false, false⟩, ⟨Bytes32.filled 53, false, false⟩]

def ledger : Ledger := fun k =>
  if k = master then ⟨programId, 1, masterImage masterState, false⟩
  else if k = checkpoint then ⟨programId, 1, checkpointImage checkpointState, false⟩
  else if k = lane then ⟨programId, 1, laneImage laneState, false⟩
  else if k = page then ⟨programId, 1, zeros 8256, false⟩
  else if k = systemProgram then ⟨nativeLoader, 1, [], true⟩
  else ⟨systemProgram, 1, [], false⟩

def result : PoolV1PairForestTerminalResultV1 :=
  ⟨.privateTransfer, master, lane, 7, nullifier, ⟨1, Digest.zero, fun _ => Digest.zero⟩⟩

set_option maxRecDepth 100000 in
theorem result_encodes :
    encodePoolV1PairForestTerminalResultV1 result = .ok (resultHead result ++ afterstateImage result.verifiedAfterstate) := by
  have hvalid : validateResult result = .ok () := by decide +kernel
  have hafter : validateVerifiedAfterstate result.verifiedAfterstate = .ok () := by decide +kernel
  simp only [encodePoolV1PairForestTerminalResultV1, encodePoolV1PairVerifiedAfterstateV1, except_bind_eq_ok, mapErr_eq_ok,
    except_pure_eq_ok]
  exact ⟨(), hvalid, _, ⟨(), hafter, rfl⟩, rfl⟩

def authenticated : AuthenticatedPairForestResultV1 :=
  ⟨result, resultHead result ++ afterstateImage result.verifiedAfterstate, decode_encodeTerminalResult result_encodes⟩

/-- The sample spend with every audit reader off but the direct check. -/
def features : ForestFeatures := ⟨false, false, false, false, true⟩

set_option maxRecDepth 100000 in
theorem plan_accepts : ((planPairForestTerminal environment features accounts data ledger).toOption.any fun plan =>
    decide (validatePairForestTerminalResultDirectV1 plan.request plan.masterAccount.key plan.laneAccount.key
      plan.outputLane plan.lane authenticated.value = .ok ())) = true := by decide +kernel

end SampleSpend

open SampleSpend in
/-- The sample spend passes the plan, and both checks accept its result. -/
theorem direct_check_iff_full_check_sample :
    ∃ plan, planPairForestTerminal Pool.Sample.environment features accounts data ledger = .ok plan ∧
      validateAuthenticatedTerminalResultV1 plan.masterAccount.key plan.checkpointAccount.key plan.laneAccount.key
        plan.master plan.checkpoint plan.lane plan.outputLane plan.request result = .ok () := by
  have haccepts := plan_accepts
  cases hplan : planPairForestTerminal Pool.Sample.environment features accounts data ledger with
  | error e =>
    rw [hplan] at haccepts
    simp [Except.toOption] at haccepts
  | ok plan =>
    rw [hplan] at haccepts
    have hdirect := of_decide_eq_true (by simpa only [Except.toOption, Option.any_some] using haccepts)
    exact ⟨plan, rfl, (direct_check_iff_full_check hplan authenticated).mp hdirect⟩

end Aspis.Forest
