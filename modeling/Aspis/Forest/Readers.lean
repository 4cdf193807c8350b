import Aspis.Forest.Images
import Aspis.Forest.Program

/-! The fast readers of the program and of the verifier are right. On bytes that
the strict decoders accept they return the same; and every run of pool and
pair-forest instructions keeps every account sound, so that what a fast reader
meets is such bytes. -/

namespace Aspis.Forest

open Lib Chain Statement Pool

section
variable {env : Environment} {features : ForestFeatures} {l m l' : Ledger}

/-! ### Lanes of a sound ledger -/

theorem laneByte_inj {a b : LaneIdV2} (h : laneByte a = laneByte b) : a = b := by
  revert a b
  decide

/-- Whichever reader was used, it returned the lane of a log. -/
theorem SoundLedger.lane_log {fast : Bool} {master : Pubkey} {laneId : LaneIdV2} {account : AccountInfo}
    {lane : PoolV1PairForestLaneStateV1} (h : SoundLedger env l)
    (hdecode : decodeWritableLane env fast master laneId account l = .ok lane) :
    ∃ log : LaneLog, log.WellFormed ∧ log.lane = laneId ∧ lane = log.state env ∧
      account.data l = laneImage (log.state env) := by
  obtain ⟨howner, -, hmagic, -, hlane⟩ := decodeWritableLane_ok hdecode
  obtain ⟨log, hwell, hdata⟩ := (h account.key howner).lane_of_magic hmagic
  have hstrict : decodePoolV1PairForestLaneStateV1 env (account.data l) = .ok (log.state env) := by
    rw [AccountInfo.data, hdata]
    exact hwell.decoded
  have hread : decodeLaneAccount env master laneId account true l = .ok lane := by
    unfold decodeWritableLane at hdecode
    split_ifs at hdecode
    · rw [← decodeLaneAccountFromProgramInvariantV1_eq hstrict]
      exact hdecode
    · exact hdecode
  simp only [decodeLaneAccount, hstrict, mapErr, except_bind_eq_ok, except_pure_eq_ok, Except.ok.injEq] at hread
  obtain ⟨-, -, state, rfl, -, -, rfl⟩ := hread
  exact ⟨log, hwell, laneByte_inj hlane, rfl, hdata⟩

/-- What every reader of a current page has checked. -/
theorem validateLaneCurrentPage_ok {laneAccount page : AccountInfo} {lane : PoolV1PairForestLaneStateV1}
    {writable : Bool} {header : RootPageHeaderV1}
    (h : validateLaneCurrentPage env features laneAccount page lane writable l = .ok header) :
    (l page.key).owner = env.programId ∧ slice 0 4 (l page.key).data = AccountKind.page.magic ∧
      header.filled = leNat (slice 56 2 (l page.key).data) ∧
      header.filled = (rootHistoryLocation lane.tree.nextLeafIndex).slot + 1 := by
  simp only [validateLaneCurrentPage, except_bind_eq_ok, require_eq_ok, except_pure_eq_ok] at h
  obtain ⟨_, howner, -, -, -, -, _, hpage, -, hfilled, _, -, -, -, rfl⟩ := h
  have howned := requireProgramAccount_ok howner
  unfold validateLanePage at hpage
  split_ifs at hpage
  · simp only [validateRootPageBytesFromProgramInvariant, except_bind_eq_ok, require_eq_ok, except_pure_eq_ok] at hpage
    obtain ⟨-, ⟨-, hpreamble, -⟩, -, -, -, -, rfl⟩ := hpage
    exact ⟨howned, magic_of_preamble hpreamble, rfl, hfilled⟩
  · exact ⟨howned, (hasKind_page howned hpage).magic_eq, validateRootPageBytes_filled hpage, hfilled⟩

/-- The page that takes the root of an append. -/
theorem SoundLedger.lane_page {lane : PoolV1PairForestLaneStateV1} {laneAccount page : AccountInfo} {kind : LanePageV1}
    {newRoot : Digest} (h : SoundLedger env l) (hout : Outside env.programId l m)
    (hready : PageReady env features lane laneAccount page l m kind) (hold : DigestIsCanonical lane.tree.root)
    (hnew : DigestIsCanonical newRoot) (hroom : lane.tree.nextLeafIndex < POOL_V1_PAIR_CAPACITY) :
    SoundImage env page.key (lanePageBytes laneAccount.key lane.tree.root newRoot (lane.tree.nextLeafIndex + 1)
      (m page.key).data kind) := by
  have hboth : ∀ root ∈ [lane.tree.root, newRoot], DigestIsCanonical root := by
    intro root hroot
    simp only [List.mem_cons, List.not_mem_nil, or_false] at hroot
    rcases hroot with rfl | rfl
    · exact hold
    · exact hnew
  have hone : ∀ root ∈ [newRoot], DigestIsCanonical root := fun root hroot =>
    hboth root (List.mem_cons_of_mem _ hroot)
  cases hready with
  | genesis first key_eq zeroed =>
    exact .page laneAccount.key 0 _ (HoldsPage.fresh hboth (by simp [POOL_V1_ROOT_HISTORY_CAPACITY]) (by simp [U64_LIMIT]))
  | samePage same validated =>
    obtain ⟨howner, hmagic, hread, hfilled⟩ := validateLaneCurrentPage_ok validated
    obtain ⟨pool, p, roots, hpage⟩ := (h page.key howner).page_of_magic hmagic
    rw [(hout.kept _ howner).2]
    refine .page pool p _ (hpage.append hread hone ?_)
    rw [hfilled]
    simp only [rootHistoryLocation, POOL_V1_ROOT_HISTORY_CAPACITY, List.length_singleton] at same ⊢
    omega
  | rollover moved validated key_eq zeroed =>
    have hfirst : lane.tree.nextLeafIndex + 1 =
        (rootHistoryLocation (lane.tree.nextLeafIndex + 1)).pageNumber * POOL_V1_ROOT_HISTORY_CAPACITY := by
      simp only [rootHistoryLocation, POOL_V1_ROOT_HISTORY_CAPACITY] at moved ⊢
      omega
    rw [lanePageBytes]
    nth_rewrite 2 [hfirst]
    refine .page laneAccount.key _ _ (HoldsPage.fresh hone (by simp [POOL_V1_ROOT_HISTORY_CAPACITY]) ?_)
    rw [← hfirst]
    simp only [POOL_V1_PAIR_CAPACITY, POOL_V1_TREE_DEPTH, U64_LIMIT] at hroom ⊢
    omega

/-- The writes of an append of a canonical leaf. -/
theorem SoundLedger.lane_append {fast : Bool} {master : Pubkey} {laneId : LaneIdV2} {laneAccount page : AccountInfo}
    {lane : PoolV1PairForestLaneStateV1} {kind : LanePageV1} {next : PoolTree} {leaf : Digest} (h : SoundLedger env l)
    (run : LaneAppendRun env features fast master laneId laneAccount page lane kind next l m l')
    (hnext : next = (carryAppend env.treeParent (pairEmptyRoots env) lane.tree leaf).1)
    (hleaf : DigestIsCanonical leaf) : SoundLedger env l' := by
  obtain ⟨log, hwell, rfl, rfl, hdata⟩ := h.lane_log run.decoded
  have hroom : log.leaves.length < POOL_V1_PAIR_CAPACITY := run.room
  have htree : next = laneTree env (log.append leaf).leaves := hnext.trans (carryAppend_laneTree leaf hroom)
  have hgrown := hwell.append hleaf hroom
  have hpage := h.lane_page run.outside run.ready (laneTree_canonical hwell.leaves_canonical).root_canonical
    (@laneTree_canonical env _ hgrown.leaves_canonical).root_canonical run.room
  rw [run.written, writeLaneAppend, run.next_index, htree]
  exact ((h.outside run.outside).write (.lane (log.append leaf) hgrown rfl)).write hpage

/-! ### Instructions of the forest -/

theorem SoundLedger.forest_deposit {accounts : List AccountInfo} {masterAccount : AccountInfo}
    {master : PoolV1PairForestMasterV1} {commitment : Digest} {plan : PlannedForestDepositV1} {page : AccountInfo}
    (h : SoundLedger env l)
    (run : ForestDepositRun env features accounts masterAccount master commitment plan page l m l') :
    SoundLedger env l' := by
  refine h.lane_append run.append rfl ?_
  rw [run.planned.leaf_eq]
  exact env.treeParent_canonical _ _

/-- The verifier read the same lane bytes, so its result extends the log of the lane. -/
theorem ForestSpendRun.appends {verify : PairForestVerifier} {accounts : List AccountInfo} {slot : ℕ}
    {plan : PlannedForestSpendV1} {authenticated : AuthenticatedPairForestResultV1} {marked paid written : Ledger}
    (hverify : AppendsOutputs env verify) (h : SoundLedger env l)
    (run : ForestSpendRun env features verify accounts slot plan authenticated l marked paid written l') :
    authenticated.value.verifiedAfterstate.tree = (carryAppend env.treeParent (pairEmptyRoots env) plan.lane.tree
      (outputPairLeaf env plan.request.publicInput)).1 := by
  obtain ⟨log, hwell, -, hlane, hdata⟩ := h.lane_log run.append.decoded
  have howner := (decodeWritableLane_ok run.append.decoded).1
  refine hverify _ _ _ _ _ _ _ _ _ _ _ _ run.verified ?_
  rw [AccountInfo.data, ((run.marked_call.outside env.programId_ne_system).kept _ howner).2, hlane]
  rw [AccountInfo.data] at hdata
  rw [hdata]
  exact hwell.decoded

theorem outputPairLeaf_canonical (payment : PoolV1PairForestTerminalPaymentV1) :
    DigestIsCanonical (outputPairLeaf env payment) := by
  cases payment <;> exact env.treeParent_canonical _ _

theorem SoundLedger.forest_terminal {verify : PairForestVerifier} {accounts : List AccountInfo} {slot : ℕ}
    {plan : PlannedForestSpendV1} {authenticated : AuthenticatedPairForestResultV1} {marked paid written : Ledger}
    (hverify : AppendsOutputs env verify) (h : SoundLedger env l)
    (run : ForestSpendRun env features verify accounts slot plan authenticated l marked paid written l') :
    SoundLedger env l' := by
  rw [run.persisted]
  exact (h.lane_append run.append (ForestSpendRun.appends hverify h run) (outputPairLeaf_canonical _)).marker _

theorem masterImage_magic {master : PoolV1PairForestMasterV1} {image : Bytes}
    (h : encodePoolV1PairForestMasterV1 master = .ok image) : slice 0 4 image = [65, 83, 77, 56] := by
  simp only [encodePoolV1PairForestMasterV1, except_bind_eq_ok, except_pure_eq_ok] at h
  obtain ⟨-, -, rfl⟩ := h
  rw [masterImage, slice_append_left (by simp)]
  rfl

theorem checkpointImage_magic {checkpoint : PoolV1PairForestCheckpointV1} {image : Bytes}
    (h : encodePoolV1PairForestCheckpointV1 checkpoint = .ok image) : slice 0 4 image = [65, 83, 67, 56] := by
  simp only [encodePoolV1PairForestCheckpointV1, except_bind_eq_ok, except_pure_eq_ok] at h
  obtain ⟨-, -, -, -, -, -, rfl⟩ := h
  rw [checkpointImage, slice_append_left (by simp)]
  rfl

theorem SoundLedger.master {k : Pubkey} {master : PoolV1PairForestMasterV1} {image : Bytes} (h : SoundLedger env l)
    (hencode : encodePoolV1PairForestMasterV1 master = .ok image) : SoundLedger env (setData k image l) := by
  refine h.write (.record ?_)
  rw [masterImage_magic hencode]
  decide

/-- The log of a lane that was just initialized. -/
theorem genesisLane_log {master : Pubkey} {lane : LaneIdV2} {image : Bytes}
    (h : encodePoolV1PairForestLaneStateV1 env (genesisLaneState env master lane) = .ok image) :
    (⟨master, lane, []⟩ : LaneLog).WellFormed ∧ image = laneImage ((⟨master, lane, []⟩ : LaneLog).state env) := by
  simp only [encodePoolV1PairForestLaneStateV1, except_bind_eq_ok, require_eq_ok, except_pure_eq_ok] at h
  obtain ⟨-, -, -, hmaster, -, -, -, -, rfl⟩ := h
  refine ⟨⟨hmaster, by simp, by simp⟩, ?_⟩
  rw [LaneLog.state, laneTree_nil]
  rfl

theorem SoundLedger.writeLanes {master : Pubkey} {lanes : LaneIdV2 → AccountInfo} {images : LaneIdV2 → Bytes}
    (himages : ∀ lane, encodePoolV1PairForestLaneStateV1 env (genesisLaneState env master lane) = .ok (images lane))
    (order : List LaneIdV2) (h : SoundLedger env l) : SoundLedger env (writeLanes lanes images order l) := by
  induction order generalizing l with
  | nil => exact h
  | cons lane rest ih =>
    obtain ⟨hwell, hdata⟩ := genesisLane_log (himages lane)
    exact ih (h.write (.lane _ hwell hdata))

theorem SoundLedger.forest_initialize {plan : PlannedForestInitializationV1} {prepared : Ledger}
    (h : SoundLedger env l) (run : ForestInitializeRun env plan l prepared l') : SoundLedger env l' := by
  rw [run.written]
  exact ((h.outside run.vault.outside).master run.planned.master_encoded).writeLanes run.planned.lane_encoded _

theorem SoundLedger.forest_checkpoint {plan : PlannedForestCheckpointV1} {master : PoolV1PairForestMasterV1}
    {states : LaneIdV2 → PoolV1PairForestLaneStateV1} {bound : PoolV1PairForestCheckpointPlanV1} {prepared : Ledger}
    (h : SoundLedger env l) (run : ForestCheckpointRun env plan master states bound l prepared l') :
    SoundLedger env l' := by
  have hcheckpoint : SoundLedger env (setData plan.checkpoint.key plan.planned.checkpointImage prepared) := by
    refine (h.outside (run.prepared_call.outside env.programId_ne_system)).write (.record ?_)
    rw [checkpointImage_magic run.planned.checkpoint_encoded]
    decide
  rw [run.written]
  exact hcheckpoint.master run.planned.master_encoded

end

/-! ### Runs -/

section
variable {d : ForestDeployment} {l l' : Ledger}

theorem Genesis.sound (h : Genesis d.env l) : SoundLedger d.env l := fun k hk => .zeroed (h k hk)

theorem SoundLedger.step {e : ForestEvent} (h : SoundLedger d.env l) (hstep : d.Step l e l') : SoundLedger d.env l' := by
  cases e with
  | pool e =>
    cases e with
    | outside => exact h.outside hstep
    | rejected i =>
      obtain ⟨-, rfl⟩ := hstep
      exact h
    | accepted i o => exact h.accepted (Deployment.processInstruction_accepted hstep)
  | rejected i =>
    obtain ⟨-, rfl⟩ := hstep
    exact h
  | accepted i returned =>
    cases ForestDeployment.processInstruction_accepted hstep with
    | initializeForest _ run => exact h.forest_initialize run
    | deposit _ run => exact h.forest_deposit run
    | terminal _ run => exact h.forest_terminal d.verify_appends run
    | terminalFullAsf8 _ run => exact h.forest_terminal (d.verifyFullAsf8_appends _) run
    | checkpoint _ run => exact h.forest_checkpoint run

theorem SoundLedger.runs {events : List ForestEvent} (h : SoundLedger d.env l) (hruns : d.Runs l events l') :
    SoundLedger d.env l' := by
  induction hruns with
  | nil => exact h
  | cons hstep _ ih => exact ih (h.step hstep)

end

end Aspis.Forest
