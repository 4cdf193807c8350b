import Aspis.Pool.Invariant
import Aspis.Pool.SpendOnce

/-! Every instruction refines the log of its pool: deposits and spends extend it
by the leaves they report, initialization starts it, preparations and
cancellations leave it. One kind of settlement does not, and is set apart: a
prepared withdrawal whose root is the first of a new page. -/

namespace Aspis.Pool

open Lib Chain Statement

section
variable {env : Environment}

/-! ### How an append spreads over the pages -/

theorem AuthorizedAppendV1.count_le (r : AuthorizedAppendV1) : r.count = 1 ∨ r.count = 2 := by
  cases r <;> simp [AuthorizedAppendV1.count]

/-- The current page takes what still fits. -/
theorem rootsInCurrent_eq (n count : ℕ) (hcount : count = 1 ∨ count = 2) :
    rootsInCurrent n count (rootHistoryLocation n).pageNumber = min count (255 - (rootHistoryLocation n).slot) := by
  simp only [rootsInCurrent, rootHistoryLocation, POOL_V1_ROOT_HISTORY_CAPACITY]
  by_cases hfirst : (n + 1) / 256 = n / 256 <;> by_cases hlast : (n + count) / 256 = n / 256 <;>
    simp only [hfirst, hlast, if_true, if_false] <;> rcases hcount with rfl | rfl <;> omega

theorem pageNumber_grown (n count : ℕ) (hcount : count = 1 ∨ count = 2) :
    (rootHistoryLocation (n + count)).pageNumber =
      if count - rootsInCurrent n count (rootHistoryLocation n).pageNumber = 0 then (rootHistoryLocation n).pageNumber
      else (rootHistoryLocation n).pageNumber + 1 := by
  have hin := rootsInCurrent_eq n count hcount
  split_ifs with hfits <;> rw [hin] at hfits <;>
    simp only [rootHistoryLocation, POOL_V1_ROOT_HISTORY_CAPACITY] at hfits ⊢ <;> omega

section Pages
variable {pool : Pubkey} {leaves new : List Digest} {inCurrent : ℕ}

theorem take_newRoots (hin : inCurrent = min new.length (255 - (rootHistoryLocation leaves.length).slot)) :
    (newRoots env leaves new).take (255 - (rootHistoryLocation leaves.length).slot) =
      (newRoots env leaves new).take inCurrent := by
  rw [hin, min_comm, ← List.take_take, List.take_of_length_le (l := newRoots env leaves new) (i := new.length) (by simp)]

theorem drop_newRoots (hin : inCurrent = min new.length (255 - (rootHistoryLocation leaves.length).slot)) :
    (newRoots env leaves new).drop (255 - (rootHistoryLocation leaves.length).slot) =
      (newRoots env leaves new).drop inCurrent := by
  rcases le_total new.length (255 - (rootHistoryLocation leaves.length).slot) with hle | hle
  · rw [hin, min_eq_left hle, List.drop_of_length_le (by simpa using hle), List.drop_of_length_le (by simp)]
  · rw [hin, min_eq_right hle]

/-- Appending the roots that fit gives the grown current page. -/
theorem currentPage_grown {header : RootPageHeaderV1}
    (hin : inCurrent = min new.length (255 - (rootHistoryLocation leaves.length).slot))
    (hfilled : header.filled = (pageRoots env leaves (rootHistoryLocation leaves.length).pageNumber).length) :
    (if inCurrent ≠ 0 then appendRootsUnchecked (pageImage pool (rootHistoryLocation leaves.length).pageNumber
        (pageRoots env leaves (rootHistoryLocation leaves.length).pageNumber)) header
        ((newRoots env leaves new).take inCurrent)
      else pageImage pool (rootHistoryLocation leaves.length).pageNumber
        (pageRoots env leaves (rootHistoryLocation leaves.length).pageNumber)) =
      pageImage pool (rootHistoryLocation leaves.length).pageNumber
        (pageRoots env (leaves ++ new) (rootHistoryLocation leaves.length).pageNumber) := by
  rw [pageRoots_append_current, take_newRoots hin]
  split_ifs with hzero
  · refine appendRootsUnchecked_pageImage hfilled ?_
    rw [length_pageRoots_current, List.length_take, length_newRoots]
    simp only [rootHistoryLocation, POOL_V1_ROOT_HISTORY_CAPACITY] at hin ⊢
    omega
  · rw [not_not.mp hzero, List.take_zero, List.append_nil]

/-- The rest of the roots are the new page. -/
theorem nextPage_grown (hin : inCurrent = min new.length (255 - (rootHistoryLocation leaves.length).slot))
    (hnew : new.length ≤ POOL_V1_ROOT_HISTORY_CAPACITY) :
    writeNewPageUnchecked pool ((rootHistoryLocation leaves.length).pageNumber + 1)
        (((rootHistoryLocation leaves.length).pageNumber + 1) * POOL_V1_ROOT_HISTORY_CAPACITY)
        ((newRoots env leaves new).drop inCurrent) =
      pageImage pool ((rootHistoryLocation leaves.length).pageNumber + 1)
        (pageRoots env (leaves ++ new) ((rootHistoryLocation leaves.length).pageNumber + 1)) := by
  have hlen : ((newRoots env leaves new).drop inCurrent).length ≤ POOL_V1_ROOT_HISTORY_CAPACITY := by
    rw [List.length_drop, length_newRoots]
    omega
  rw [pageRoots_append_next, drop_newRoots hin, writeNewPageUnchecked_eq hlen]
  congr 1
  rw [page, Nat.mul_zero, List.drop_zero, List.take_of_length_le hlen]

end Pages

/-! ### Direct appends -/

section Direct
variable {pool current : AccountInfo} {supplied : Option AccountInfo} {source : AuthorizedSourceStateV1}
  {prevalidated : Option PrevalidatedCurrentHistoryV1} {r : AuthorizedAppendV1} {plan : AppendPlanV1} {log : PoolLog}
  {created m : Ledger}

theorem PoolLog.WellFormed.append {log : PoolLog} {new : List Digest} (h : log.WellFormed)
    (hnew : ∀ x ∈ new, DigestIsCanonical x) (hroom : log.leaves.length + new.length ≤ POOL_V1_LEAF_CAPACITY) :
    (log.append new).WellFormed where
  asset_canonical := h.asset_canonical
  policy_valid := h.policy_valid
  leaves_canonical x hx := by
    rcases List.mem_append.mp hx with hx | hx
    · exact h.leaves_canonical x hx
    · exact hnew x hx
  length_le := by simpa [PoolLog.append] using hroom

/-- The writes of a planned append extend the log it was planned on. -/
theorem AppendSpec.effect (hspec : AppendSpec env pool current supplied source prevalidated r created plan)
    (hsource : source.asState = log.state env)
    (hvalid : validateRootPageBytes (created current.key).data pool.key
      (rootHistoryLocation source.asState.currentRootSequence).pageNumber = .ok plan.currentHeader)
    (hcanon : ∀ leaf ∈ r.leaves, DigestIsCanonical leaf) (hcreated : PoolTracked env pool.key log created)
    (hm : PoolTracked env pool.key log m) (hzero : ∀ k ∈ plan.next.map (·.1), Zeroed env m k) :
    AppendEffect env pool.key log r.leaves (plan.next.map (·.1)) m (plan.persist pool.key current.key m) := by
  have hsequence : source.asState.currentRootSequence = log.leaves.length := by rw [hsource]; rfl
  have hkey := hspec.page.key_eq
  rw [hsequence] at hkey hvalid
  have hideal := prepare_ideal env (by rw [hsource]; rfl) hcreated.wellFormed.length_le hspec.prepared
  have hroots : plan.prepared.receipt.roots = newRoots env log.leaves r.leaves := by
    rw [hideal.receipt_eq, roots_idealReceipt]
  have hin := hspec.inCurrent_eq
  rw [hsequence] at hin
  have hmin : plan.inCurrent = min r.leaves.length (255 - (rootHistoryLocation log.leaves.length).slot) := by
    rw [hin, rootsInCurrent_eq _ _ r.count_le, r.length_leaves]
  have hfilled := hcreated.current_header (by rw [← hkey]; exact hvalid)
  have hnext : ∀ n ∈ plan.next, n.1 ≠ pool.key ∧ n.1 ≠ current.key := by
    rintro ⟨key, number, first⟩ hplan
    obtain ⟨-, -, -, hpool, hcurrent, -⟩ := hspec.next_some key number first hplan
    exact ⟨hpool, hcurrent⟩
  have hpageOwner := (hm.pages _ le_rfl).1
  refine ⟨?_, hzero, ?_, ?_, ?_, ?_, ?_⟩
  · rw [← hkey]
    exact plan.persist_touches
  · intro k hk
    obtain ⟨⟨key, number, first⟩, hplan, rfl⟩ := Option.map_eq_some_iff.mp hk
    obtain ⟨-, rfl, -⟩ := hspec.next_some key number first hplan
    have hlen : (plan.prepared.receipt.roots.drop plan.inCurrent).length ≤ POOL_V1_ROOT_HISTORY_CAPACITY := by
      rw [hroots, List.length_drop, length_newRoots, r.length_leaves]
      have := r.count_le
      simp only [POOL_V1_ROOT_HISTORY_CAPACITY]
      omega
    refine ⟨by rw [plan.persist_owner]; exact (hzero _ hk).owner_eq, ?_⟩
    rw [plan.persist_next hplan, writeNewPageUnchecked_eq hlen]
    exact pageImage_magic _ _ _
  · exact hcreated.wellFormed.append hcanon (by rw [r.length_leaves]; exact hideal.room)
  · rw [plan.persist_owner]
    exact hm.owner_eq
  · rw [plan.persist_pool hspec.pool_ne fun n hn => (hnext n hn).1, hideal.state_eq, hsource]
    rfl
  · intro p hlow hhigh
    rw [List.length_append, r.length_leaves, pageNumber_grown _ _ r.count_le, ← hin] at hhigh
    rcases hlow.eq_or_lt with rfl | hlt
    · refine ⟨by rw [plan.persist_owner]; exact hpageOwner, ?_⟩
      rw [← hkey, plan.persist_current hspec.pool_ne.symm fun n hn => (hnext n hn).2, hroots, hkey,
        (hm.pages _ le_rfl).2]
      exact currentPage_grown hmin hfilled
    · split_ifs at hhigh with hfits
      · omega
      · obtain rfl : p = (rootHistoryLocation log.leaves.length).pageNumber + 1 := by omega
        cases hplan : plan.next with
        | none => exact absurd (hspec.next_none hplan) hfits
        | some n =>
          obtain ⟨key, number, first⟩ := n
          obtain ⟨hnumber, rfl, hnew, -⟩ := hspec.next_some key number first hplan
          rw [hsequence] at hnumber
          subst hnumber
          have hkeyNext := hnew.key_eq
          subst hkeyNext
          refine ⟨by rw [plan.persist_owner]; exact (hzero _ (by simp [hplan])).owner_eq, ?_⟩
          rw [plan.persist_next hplan, hroots]
          refine nextPage_grown hmin ?_
          rw [r.length_leaves]
          have := r.count_le
          simp only [POOL_V1_ROOT_HISTORY_CAPACITY]
          omega

end Direct

/-! ### Instructions -/

section Instructions
variable {logs : Logs} {l l' : Ledger}

theorem Tracks.pool_of_kind {k : Pubkey} (h : Tracks env logs l) (hk : HasKind env .state l k) :
    ∃ log, logs k = some log ∧ PoolTracked env k log l := by
  obtain ⟨log, hlog⟩ := h.states k hk
  exact ⟨log, hlog, h.pools k log hlog⟩

theorem DepositRun.refines {pool current : AccountInfo} {next : Option AccountInfo} {tokenAccounts : List AccountInfo}
    {c : CanonicalPoolStateV1} {r : DepositRequestV1} {transfer : LegacyDepositTransferPlanV1} {plan : AppendPlanV1}
    {created paid : Ledger} {receipt : DepositReceiptV1} (htracks : Tracks env logs l)
    (h : DepositRun env pool current next tokenAccounts c r transfer plan l created paid l' receipt) :
    Tracks env (logs.append receipt.pool [receipt.noteCommitment]) l' := by
  obtain ⟨howner, hdecode, -, -⟩ := decodeAccountWith_ok h.decoded
  obtain ⟨-, -, hidentity⟩ := decodeStateWith_magic hdecode
  obtain ⟨log, hlog, htracked⟩ := htracks.pool_of_kind (hasKind_state howner hdecode)
  have hcreated := h.created_call.outside env.programId_ne_system
  have hpaid := env.transferChecked_outside _ _ _ h.transferred
  have hspec := planAuthorizedAppend_spec h.append
  have heffect := hspec.effect (htracked.decode_strict hdecode) (hspec.validated rfl)
    (by simpa [AuthorizedAppendV1.leaves] using h.canonical) (htracked.outside hcreated)
    ((htracked.outside hcreated).outside hpaid) h.targets.next_zeroed
  rw [h.persisted] at heffect
  rw [h.receipt_pool, hidentity]
  exact ((htracks.outside hcreated).outside hpaid).append hlog heffect

/-- A marker written over a zeroed account is not tracked. -/
theorem Tracks.write_marker {k : Pubkey} {marker : PoolV1NullifierMarkerV1} (h : Tracks env logs l)
    (hzero : Zeroed env l k) : Tracks env logs (setData k (markerBytes marker) l) := by
  have hkind : HasKind env .marker (setData k (markerBytes marker) l) k :=
    hasKind_marker (by rw [setData_owner]; exact hzero.owner_eq) setData_self
  refine h.scratch (Touches.setData k _ l) (fun k' hk' => ?_) (fun k' hk' => ?_)
  · obtain rfl := List.mem_singleton.mp hk'
    exact ⟨hzero.not_kind, hzero.not_kind⟩
  · obtain rfl := List.mem_singleton.mp hk'
    exact ⟨hkind.not_kind_of_ne (by decide), fun hcore => absurd hcore (hkind.not_kind_of_ne (by decide))⟩

theorem SpendRun.refines {i : SpendInstructionV1} {pool current marker : AccountInfo} {next : Option AccountInfo}
    {source : AuthorizedSourceStateV1} {prevalidated : Option PrevalidatedCurrentHistoryV1} {r : AuthorizedAppendV1}
    {plan : AppendPlanV1} {planned : PlannedNullifierMarkerV1} {tokens : List AccountInfo}
    {withdrawal : Option LegacyWithdrawalTransferPlanV1} {created marked paid : Ledger} {receipt : TransitionReceiptV1}
    (htracks : Tracks env logs l) (h : SpendRun env i pool current marker next source prevalidated r plan planned tokens
      withdrawal l created marked paid l' receipt) :
    Tracks env (logs.append receipt.pool receipt.outputs) l' := by
  have hcreated := htracks.outside (h.created_call.outside env.programId_ne_system)
  have howner := ((h.created_call.outside env.programId_ne_system).kept _ h.pool_owner).1
  obtain ⟨log, hlog, htracked⟩ := hcreated.pool_of_kind (hasKind_state howner h.decoded)
  have hmarked := @Tracks.write_marker _ _ _ _ planned.marker (hcreated.outside h.outside) h.marker_zeroed
  have hzero : ∀ k ∈ plan.next.map (·.1), Zeroed env (setData marker.key (markerBytes planned.marker) paid) k := by
    intro k hk
    have hne : k ≠ marker.key := fun heq => h.marker_not_target (by simp [← heq, Option.mem_toList.mpr hk])
    obtain ⟨howner, hdata⟩ := Touches.setData marker.key (markerBytes planned.marker) paid k (by simpa using hne)
    exact ⟨howner.trans (h.targets.next_zeroed k hk).owner_eq, by rw [hdata]; exact (h.targets.next_zeroed k hk).zero_eq⟩
  have heffect := (planAuthorizedAppend_spec h.append).effect (htracked.decode_strict h.decoded)
    h.page_valid h.leaves_canonical htracked (hmarked.pools pool.key log hlog) hzero
  rw [← h.marker_planned.encoded_eq, h.persisted] at heffect
  rw [h.receipt_pool, h.receipt_outputs]
  rw [← h.marker_planned.encoded_eq] at hmarked
  exact hmarked.append hlog heffect

theorem genesis_initial {pool : Pubkey} {init : PoolInitializationV1} {state : PoolStateV1}
    (h : PoolStateV1.genesis env pool init = .ok state) :
    state = (PoolLog.initial pool init).state env ∧ (PoolLog.initial pool init).WellFormed := by
  simp only [PoolStateV1.genesis, except_bind_eq_ok, require_eq_ok, mapErr_eq_ok, except_pure_eq_ok] at h
  obtain ⟨_, hasset, _, -, _, hpolicy, rfl⟩ := h
  refine ⟨?_, hasset, hpolicy, by simp [PoolLog.initial], by simp [PoolLog.initial]⟩
  simp only [PoolLog.state, PoolLog.initial, Environment.tree, treeOf, List.length_nil, MerkleTree.root_nil,
    PoolStateV1.mk.injEq, IncrementalMerkleTreeV1.mk.injEq, true_and]
  refine ⟨rfl, funext fun level => ?_⟩
  simp [MerkleTree.frontier, Environment.emptyRoots]

theorem pageZero_initial (pool : Pubkey) : writeNewPageUnchecked pool 0 0 [env.emptyRoots POOL_V1_TREE_DEPTH] =
    pageImage pool 0 (pageRoots env [] 0) := by
  have hroots : pageRoots env [] 0 = [env.emptyRoots POOL_V1_TREE_DEPTH] := by
    simp [pageRoots, page, historyRoots, Environment.tree, treeOf, Environment.emptyRoots,
      POOL_V1_ROOT_HISTORY_CAPACITY]
  rw [hroots]
  exact @writeNewPageUnchecked_eq _ 0 _ (by simp [POOL_V1_ROOT_HISTORY_CAPACITY])

theorem InitializeRun.tracked {pool pageZero : AccountInfo} {init : PoolInitializationV1} {state : PoolStateV1}
    {prepared : Ledger} (h : InitializeRun env pool pageZero init state l prepared l') :
    PoolTracked env pool.key (PoolLog.initial pool.key init) l' := by
  obtain ⟨rfl, hwell⟩ := genesis_initial h.genesis
  refine ⟨hwell, rfl, ?_, ?_, fun p hp => ?_⟩
  · rw [h.written, setData_owner, setData_owner]
    exact h.pool_owner
  · rw [h.written, setData_of_ne h.distinct, setData_self]
  · obtain rfl : p = 0 := by simpa [PoolLog.initial, rootHistoryLocation] using hp
    rw [h.written, ← h.page.key_eq, setData_owner, setData_owner, setData_self]
    exact ⟨h.page.owner_eq, pageZero_initial pool.key⟩

theorem InitializeRun.refines {pool pageZero : AccountInfo} {init : PoolInitializationV1} {state : PoolStateV1}
    {prepared : Ledger} (htracks : Tracks env logs l)
    (h : InitializeRun env pool pageZero init state l prepared l') :
    Tracks env (Function.update logs pool.key (some (PoolLog.initial pool.key init))) l' := by
  have hprepared := htracks.outside h.outside
  have htracked := h.tracked
  have hpool : Zeroed env prepared pool.key := ⟨h.pool_owner, h.pool_zeroed⟩
  have hpage : Zeroed env prepared pageZero.key := ⟨h.page.owner_eq, h.page.zeroed⟩
  have hpageKind : HasKind env .page l' pageZero.key := by
    rw [h.page.key_eq]
    exact htracked.page_kind (Nat.zero_le _)
  have ht : Touches [pool.key, pageZero.key] prepared l' := by
    rw [h.written]
    exact (Touches.setData pool.key _ prepared).trans (Touches.setData pageZero.key _ _)
  have hkept : ∀ {kind k}, HasKind env kind prepared k →
      (l' k).owner = (prepared k).owner ∧ (l' k).data = (prepared k).data := by
    intro kind k hk
    refine ht k fun hmem => ?_
    simp only [List.mem_cons, List.not_mem_nil, or_false] at hmem
    rcases hmem with rfl | rfl
    · exact hpool.not_kind hk
    · exact hpage.not_kind hk
  have hfresh : logs pool.key = none := by
    rw [Option.eq_none_iff_forall_ne_some]
    exact fun log hlog => hpool.not_kind (hprepared.pools pool.key log hlog).state_kind
  refine ⟨fun pool' log' hlog' => ?_, fun k hk => ?_, fun k hk => ?_⟩
  · by_cases hp : pool' = pool.key
    · subst hp
      simp only [Function.update_self, Option.some.injEq] at hlog'
      exact hlog' ▸ htracked
    · rw [Function.update_of_ne hp] at hlog'
      have hother := hprepared.pools pool' log' hlog'
      exact hother.kept (hkept hother.state_kind) fun p hpage => hkept (hother.page_kind hpage)
  · by_cases hp : k = pool.key
    · exact ⟨PoolLog.initial pool.key init, by simp [hp]⟩
    · have hk' : k ∉ [pool.key, pageZero.key] := by
        simp only [List.mem_cons, List.not_mem_nil, or_false, not_or]
        exact ⟨hp, hk.ne_of_kind hpageKind (by decide)⟩
      rw [Function.update_of_ne hp]
      exact hprepared.states k (hk.of_touches ht hk').1
  · have hk' : k ∉ [pool.key, pageZero.key] := by
      simp only [List.mem_cons, List.not_mem_nil, or_false, not_or]
      exact ⟨hk.ne_of_kind htracked.state_kind (by decide), hk.ne_of_kind hpageKind (by decide)⟩
    obtain ⟨hcore, hdata⟩ := hk.of_touches ht hk'
    rw [hdata]
    refine (hprepared.plans k hcore).mono fun p log hlog => ⟨[], ?_⟩
    have hp : p ≠ pool.key := by
      rintro rfl
      rw [hfresh] at hlog
      cases hlog
    rw [Function.update_of_ne hp, hlog]
    simp [PoolLog.append]

/-- The plan that a preparation writes describes appending to the log it was computed from. -/
theorem PrepareRun.planOf {pool core : AccountInfo} {c : CanonicalPoolStateV1} {r : AuthorizedAppendV1}
    {images : PreparedSettlementPlanImagesV1} {f : PreparedSettlementPlanFieldsV1}
    {prepared : PreparedAuthorizedAppendImagesV1} {shard : Option PlannedShard} {created : Ledger} {log : PoolLog}
    (h : PrepareRun env pool core c r images f prepared shard l created l') (hwell : log.WellFormed)
    (hstate : c.state = log.state env) : PlanOf env log r f := by
  have hprepared := h.built.prepared_eq
  simp only [prepareAuthorizedAppendImagesV1, AuthorizedAppendV1.validateLeaves, except_bind_eq_ok, require_eq_ok,
    except_pure_eq_ok] at hprepared
  obtain ⟨_, hcanon, p, hp, heq⟩ := hprepared
  have hideal := @prepare_ideal env _ log.leaves _ _ (by rw [AuthorizedSourceStateV1.asState, hstate]; rfl)
    hwell.length_le hp
  refine ⟨h.built.kind_eq, h.built.commitments_eq, ?_, ?_, by rw [h.built.sequence_eq, hstate]; rfl,
    hwell.append hcanon (by rw [r.length_leaves]; exact hideal.room)⟩
  · rw [h.built.first_eq, h.built.second_eq, ← heq]
    exact hideal.receipt_eq
  · rw [h.built.image_eq, ← heq, hideal.state_eq, AuthorizedSourceStateV1.asState, hstate]
    rfl

theorem PrepareRun.honest {pool core : AccountInfo} {c : CanonicalPoolStateV1} {r : AuthorizedAppendV1}
    {images : PreparedSettlementPlanImagesV1} {f : PreparedSettlementPlanFieldsV1}
    {prepared : PreparedAuthorizedAppendImagesV1} {shard : Option PlannedShard} {created : Ledger}
    (htracks : Tracks env logs l) (h : PrepareRun env pool core c r images f prepared shard l created l') :
    HonestPlan env logs images.coreImage := by
  obtain ⟨log, hlog, htracked⟩ := htracks.pool_of_kind (hasKind_state h.pool_owner h.decoded)
  have hplan := h.planOf htracked.wellFormed (htracked.decode_invariant h.decoded)
  have hupTo : log.upTo f.sourceSequence = log := by rw [PoolLog.upTo, hplan.sequence_eq, List.take_length]
  obtain ⟨current, rollover, hencoded⟩ := h.built.encoded
  refine ⟨f, current, rollover, images, log, r, hencoded, rfl, by rw [h.built.pool_eq, hlog], hplan.sequence_eq.le, ?_⟩
  rw [hupTo]
  exact hplan

theorem PrepareRun.refines {pool core : AccountInfo} {c : CanonicalPoolStateV1} {r : AuthorizedAppendV1}
    {images : PreparedSettlementPlanImagesV1} {f : PreparedSettlementPlanFieldsV1}
    {prepared : PreparedAuthorizedAppendImagesV1} {shard : Option PlannedShard} {created : Ledger}
    (htracks : Tracks env logs l) (h : PrepareRun env pool core c r images f prepared shard l created l') :
    Tracks env logs l' := by
  have hhonest := h.honest htracks
  obtain ⟨current, rollover, hencoded⟩ := h.built.encoded
  have hmagic := encodePreparedSettlementPlanV1_magic env hencoded
  have hcreated := htracks.outside (h.created_call.outside env.programId_ne_system)
  have hcore : Zeroed env created core.key := ⟨h.core_zeroed.1, h.core_zeroed.2⟩
  have hkind : HasKind env .core (setData core.key images.coreImage created) core.key :=
    ⟨by rw [setData_owner]; exact hcore.owner_eq, by rw [setData_self]; exact hmagic⟩
  -- the core first, then the shard over it
  have hwritten : Tracks env logs (setData core.key images.coreImage created) := by
    refine hcreated.scratch (Touches.setData core.key _ created) (fun k hk => ?_) (fun k hk => ?_)
    · obtain rfl := List.mem_singleton.mp hk
      exact ⟨hcore.not_kind, hcore.not_kind⟩
    · obtain rfl := List.mem_singleton.mp hk
      refine ⟨hkind.not_kind_of_ne (by decide), fun _ => ?_⟩
      rw [setData_self]
      exact hhonest
  rw [h.written]
  cases hshard : shard with
  | none => exact hwritten
  | some s =>
    obtain ⟨howner, hzero, himage⟩ := h.shard_zeroed s hshard
    have hshardKind : HasKind env .shard (setData s.1.key s.2.1.image (setData core.key images.coreImage created))
        s.1.key :=
      ⟨by rw [setData_owner, setData_owner]; exact howner, by rw [setData_self]; exact himage⟩
    have hbefore : ∀ kind, kind ≠ .core → ¬ HasKind env kind (setData core.key images.coreImage created) s.1.key := by
      intro kind hne hk
      by_cases heq : s.1.key = core.key
      · rw [heq] at hk
        exact hne (hk.unique hkind)
      · obtain ⟨hk', -⟩ := hk.of_touches (Touches.setData core.key images.coreImage created) (by simpa using heq)
        exact Zeroed.not_kind ⟨howner, hzero⟩ hk'
    refine hwritten.scratch (Touches.setData s.1.key _ _) (fun k hk => ?_) (fun k hk => ?_)
    · obtain rfl := List.mem_singleton.mp hk
      exact ⟨hbefore .state (by decide), hbefore .page (by decide)⟩
    · obtain rfl := List.mem_singleton.mp hk
      exact ⟨hshardKind.not_kind_of_ne (by decide), fun hk' => absurd hk' (hshardKind.not_kind_of_ne (by decide))⟩

/-- Closing plan accounts leaves the logs alone. -/
theorem Tracks.close_plan {core : AccountInfo} {shard : Option AccountInfo} (h : Tracks env logs l)
    (hclosed : PlanClosed env core shard l l')
    (hkinds : ∀ k ∈ (shard.map (·.key)).toList ++ [core.key], HasKind env .core l k ∨ HasKind env .shard l k) :
    Tracks env logs l' := by
  refine h.scratch hclosed.touches (fun k hk => ?_) (fun k hk => ?_)
  · rcases hkinds k hk with hkind | hkind <;>
      exact ⟨hkind.not_kind_of_ne (by decide), hkind.not_kind_of_ne (by decide)⟩
  · have hsystem := hclosed.disowned k hk
    have hnone : ∀ kind, ¬ HasKind env kind l' k := fun kind hkind =>
      env.programId_ne_system (hkind.owner_eq.symm.trans hsystem)
    exact ⟨hnone _, fun hcore => absurd hcore (hnone _)⟩

theorem CancelRun.refines {core : AccountInfo} {shard : Option AccountInfo} (htracks : Tracks env logs l)
    (h : CancelRun env core shard l l') : Tracks env logs l' := by
  obtain ⟨v, hv, -⟩ := h.decoded
  exact htracks.close_plan h.closed (plan_kinds h.core_owner h.shard_owner hv)

/-! ### Settlement -/

section Settlement
variable {base log : PoolLog} {r : AuthorizedAppendV1} {f : PreparedSettlementPlanFieldsV1}

theorem encodable_idealAppend {leaves : List Digest} {leaf : Digest}
    (hcanon : ∀ x ∈ leaves ++ [leaf], DigestIsCanonical x) (hlt : leaves.length < POOL_V1_LEAF_CAPACITY) :
    EncodableReceipt (idealAppend env leaves leaf) := by
  simp only [POOL_V1_LEAF_CAPACITY, POOL_V1_TREE_DEPTH] at hlt
  refine ⟨?_, rfl, rfl, env.tree_root_canonical hcanon⟩
  simp only [idealAppend, U64_LIMIT]
  omega

/-- A plan computed from a log survives its own encoding. -/
theorem PlanOf.encodable (h : PlanOf env base r f) : EncodablePlan f := by
  have hcanon : ∀ x ∈ base.leaves ++ r.leaves, DigestIsCanonical x := h.wellFormed.leaves_canonical
  have hlen : base.leaves.length + r.leaves.length ≤ POOL_V1_LEAF_CAPACITY := by
    simpa [PoolLog.append] using h.wellFormed.length_le
  have hreceipt := h.receipt_eq
  have hcommitments := h.commitments_eq
  have hlt : f.sourceSequence < U64_LIMIT := by
    rw [h.sequence_eq]
    simp only [POOL_V1_LEAF_CAPACITY, POOL_V1_TREE_DEPTH, U64_LIMIT] at hlen ⊢
    omega
  have himage : f.nextPoolImage.length = POOL_V1_STATE_ACCOUNT_BYTES := by
    rw [h.image_eq, length_writeEncodingPrevalidated]
  cases r with
  | one leaf =>
    simp only [idealReceipt, AuthorizedAppendReceiptV1.mk.injEq] at hreceipt
    simp only [AuthorizedAppendV1.commitments, Prod.mk.injEq] at hcommitments
    simp only [AuthorizedAppendV1.leaves, List.length_singleton] at hcanon hlen
    refine ⟨hlt, ?_, by simp [hreceipt.2], ?_, by simp [hcommitments.2], himage⟩
    · rw [hreceipt.1]
      exact encodable_idealAppend hcanon hlen
    · rw [hcommitments.1]
      exact hcanon leaf (by simp)
  | two first second =>
    simp only [idealReceipt, AuthorizedAppendReceiptV1.mk.injEq] at hreceipt
    simp only [AuthorizedAppendV1.commitments, Prod.mk.injEq] at hcommitments
    simp only [AuthorizedAppendV1.leaves, List.length_cons, List.length_nil] at hcanon hlen
    refine ⟨hlt, ?_, ?_, ?_, ?_, himage⟩
    · rw [hreceipt.1]
      refine encodable_idealAppend (fun x hx => hcanon x ?_) (by omega)
      rw [List.mem_append, List.mem_singleton] at hx
      rcases hx with hx | rfl <;> simp [*]
    · rw [hreceipt.2]
      rintro _ ⟨⟩
      refine encodable_idealAppend (fun x hx => hcanon x (by simpa using hx)) ?_
      rw [List.length_append, List.length_singleton]
      omega
    · rw [hcommitments.1]
      exact hcanon first (by simp)
    · rw [hcommitments.2]
      rintro _ ⟨⟩
      exact hcanon second (by simp)

/-- What a plan describes depends on the fields that are stored only. -/
theorem PlanOf.same {stored : PreparedSettlementPlanFieldsV1} (h : PlanOf env base r f) (hsame : SamePlan stored f) :
    PlanOf env base r stored where
  kind_eq := hsame.kind_eq.trans h.kind_eq
  commitments_eq := by rw [hsame.firstCommitment_eq, hsame.secondCommitment_eq, h.commitments_eq]
  receipt_eq := by rw [hsame.first_eq, hsame.second_eq, h.receipt_eq]
  image_eq := hsame.image_eq.trans h.image_eq
  sequence_eq := hsame.sequence_eq.trans h.sequence_eq
  wellFormed := h.wellFormed

theorem appendCount_transitionKind (r : AuthorizedAppendV1) : r.transitionKind.appendCount = r.count := by
  cases r <;> rfl

theorem leaves_of_commitments {r : AuthorizedAppendV1} {first : Digest} {second : Option Digest}
    (h : (first, second) = r.commitments) : first :: second.toList = r.leaves := by
  cases r <;> simp only [AuthorizedAppendV1.commitments, Prod.mk.injEq] at h <;> obtain ⟨rfl, rfl⟩ := h <;> rfl

variable {services : AuthorizationServices} {accounts : List AccountInfo} {pool : AccountInfo} {kind : PoolV1TransitionKind} {s : PoolStateV1}
  {layout : SettlePreparedLayoutV1}
  {x : PreparedSettlementApplyContextV1} {v : PreparedSettlementPlanViewV1} {a : AuthenticatedSettlementStatementV1}
  {sourceNext : Option Bytes} {applied : PreparedSettlementApplyResultV1} {planned : PlannedNullifierMarkerV1}
  {withdrawal : Option LegacyWithdrawalTransferPlanV1} {marked paid closing : Ledger} {receipt : TransitionReceiptV1}

/-- The plan a settlement applies was computed from the pool's whole log. -/
theorem SettleRun.plan (htracks : Tracks env logs l) (htracked : PoolTracked env pool.key log l)
    (hlog : logs pool.key = some log) (h : SettleRun env services accounts pool kind s layout x v a sourceNext applied planned withdrawal l
      marked paid closing l' receipt) : ∃ r, PlanOf env log r v.fields := by
  have hv := h.applied_plan.decoded
  rw [h.context_core.1, h.context_core.2] at hv
  obtain ⟨f, current, rollover, images, log', r, hencode, hdata, hlog', hle, hplan⟩ :=
    htracks.plans _ (hasKind_core h.core_owner hv)
  rw [hdata] at hv
  have hsame := decode_encodePreparedSettlementPlanV1 env hplan.encodable hencode hv
  have hpool : f.pool = pool.key := by rw [← hsame.pool_eq, h.applied_plan.pool_eq, h.context_pool]
  rw [hpool, hlog] at hlog'
  cases hlog'
  have hstate := h.applied_plan.state_match
  rw [h.context_source, htracked.data_eq] at hstate
  simp only [sourceStateAndResultImageMatch, except_bind_eq_ok, require_eq_ok] at hstate
  obtain ⟨_, ⟨hsequence, -⟩, -⟩ := hstate
  rw [PoolLog.sequence_image htracked.wellFormed.length_le, hsame.sequence_eq] at hsequence
  have hupTo : log.upTo f.sourceSequence = log := by rw [PoolLog.upTo, ← hsequence, List.take_length]
  rw [hupTo] at hplan
  exact ⟨r, hplan.same hsame⟩

/-- The writes of pool and pages extend the log, unless a single root starts a page. -/
theorem SettleRun.effect (h : SettleRun env services accounts pool kind s layout x v a sourceNext applied planned withdrawal l marked paid
      closing l' receipt) (htracked : PoolTracked env pool.key log l) (hplan : PlanOf env log r v.fields)
    (hsafe : ¬ (kind = .withdrawal ∧ (rootHistoryLocation log.leaves.length).slot = 255)) :
    AppendEffect env pool.key log r.leaves (layout.next.map (·.key)) paid
      (imagesWritten pool.key layout applied paid) := by
  obtain ⟨header, inCurrent, hmatch⟩ := h.history
  have hstate := htracked.decode_strict h.decoded
  have hkey : layout.current.key =
      (poolV1RootPageAddress env pool.key (rootHistoryLocation log.leaves.length).pageNumber).1 := by
    rw [h.pages.current_key, hstate]
    rfl
  have hseq := hplan.sequence_eq
  have hkind : v.fields.transitionKind.appendCount = r.count := by
    rw [hplan.kind_eq, appendCount_transitionKind]
  have hin := hmatch.inCurrent_eq
  rw [hseq, hkind] at hin
  have hmin : inCurrent = min r.leaves.length (255 - (rootHistoryLocation log.leaves.length).slot) := by
    rw [hin, rootsInCurrent_eq _ _ r.count_le, r.length_leaves]
  have hfilled : header.filled =
      (pageRoots env log.leaves (rootHistoryLocation log.leaves.length).pageNumber).length := by
    rw [hmatch.filled_eq, hseq, length_pageRoots_current]
  have hroots := hplan.receipt_eq
  have htargets := h.targets.outside h.outside
  have hpaid := htracked.outside h.outside
  have hpoolNe : pool.key ≠ layout.current.key := htargets.pool_kind.ne_of_kind htargets.current_kind (by decide)
  have hnextZero : ∀ n ∈ layout.next, Zeroed env paid n.key := fun n hn =>
    htargets.next_zeroed n.key (Option.map_eq_some_iff.mpr ⟨n, hn, rfl⟩)
  have hnextPool : ∀ n ∈ layout.next, n.key ≠ pool.key := fun n hn =>
    (hnextZero n hn).ne_of_kind htargets.pool_kind
  have hnextCurrent : ∀ n ∈ layout.next, n.key ≠ layout.current.key := fun n hn =>
    (hnextZero n hn).ne_of_kind htargets.current_kind
  have hnextImage : ∀ n ∈ layout.next, r.count - inCurrent ≠ 0 ∧
      n.key = (poolV1RootPageAddress env pool.key ((rootHistoryLocation log.leaves.length).pageNumber + 1)).1 ∧
      applied.nextRolloverPageImage = some (pageImage pool.key ((rootHistoryLocation log.leaves.length).pageNumber + 1)
        (pageRoots env (log.leaves ++ r.leaves) ((rootHistoryLocation log.leaves.length).pageNumber + 1))) := by
    intro n hn
    obtain ⟨-, hneeded, haddress, himage⟩ := hmatch.next_some (l n.key).data (by
      rw [h.next_source.1, Option.mem_def.mp hn]
      rfl)
    rw [hkind] at hneeded
    rw [hseq] at haddress himage
    have hdrop := @drop_appendRoots (idealReceipt env log.leaves r) inCurrent (by
      intro hone hzero
      refine hsafe ⟨?_, ?_⟩
      · rw [← h.context_kind, ← h.applied_plan.kind_eq, hplan.kind_eq]
        cases r with
        | one leaf => rfl
        | two first second => cases hone
      · have := r.count_le
        rw [hmin, r.length_leaves] at hzero
        simp only [rootHistoryLocation, POOL_V1_ROOT_HISTORY_CAPACITY] at hzero ⊢
        omega) (by rw [roots_idealReceipt, length_newRoots, r.length_leaves]; exact hneeded)
    rw [roots_idealReceipt] at hdrop
    refine ⟨hneeded, ?_, ?_⟩
    · exact Option.some_inj.mp ((h.next_source.2 n hn).symm.trans haddress)
    · rw [h.applied_plan.next_image_eq, himage, hroots, hdrop, nextPage_grown hmin]
      rw [r.length_leaves]
      have := r.count_le
      simp only [POOL_V1_ROOT_HISTORY_CAPACITY]
      omega
  refine ⟨?_, fun k hk => htargets.next_zeroed k hk, ?_, hplan.wellFormed, ?_, ?_, ?_⟩
  · rw [← hkey]
    exact imagesWritten_touches layout applied
  · intro k hk
    obtain ⟨n, hn, rfl⟩ := Option.map_eq_some_iff.mp hk
    refine ⟨by rw [imagesWritten_owner]; exact (hnextZero n hn).owner_eq, ?_⟩
    rw [imagesWritten_next layout applied hn (hnextImage n hn).2.2]
    exact pageImage_magic _ _ _
  · rw [imagesWritten_owner]
    exact hpaid.owner_eq
  · rw [imagesWritten_pool layout applied hpoolNe hnextPool, h.applied_plan.image_eq, hplan.image_eq]
  · intro p hlow hhigh
    rw [List.length_append, r.length_leaves, pageNumber_grown _ _ r.count_le, ← hin] at hhigh
    rcases hlow.eq_or_lt with rfl | hlt
    · refine ⟨by rw [imagesWritten_owner]; exact (hpaid.pages _ le_rfl).1, ?_⟩
      rw [← hkey, imagesWritten_current layout applied hpoolNe.symm hnextCurrent, h.applied_plan.current_image_eq,
        hmatch.current_eq, hkey, (hpaid.pages _ le_rfl).2, (htracked.pages _ le_rfl).2, hroots, nextCurrentImage,
        take_appendRoots (by rw [roots_idealReceipt, length_newRoots, hmin]; exact Nat.min_le_left _ _),
        roots_idealReceipt, currentPage_grown hmin hfilled]
      split_ifs with hwritable
      · rfl
      · -- a read-only current page is full, so no new root belongs to it
        have hfull : inCurrent = 0 := by
          rw [h.pages.writable_eq, hstate, decide_eq_true_eq] at hwritable
          simp only [PoolStateV1.currentRootSequence, PoolLog.state, Environment.tree, treeOf, rootHistoryLocation,
            POOL_V1_ROOT_HISTORY_CAPACITY] at hwritable hmin
          omega
        rw [pageRoots_append_current, take_newRoots hmin, hfull, List.take_zero, List.append_nil]
    · split_ifs at hhigh with hfits
      · omega
      · obtain rfl : p = (rootHistoryLocation log.leaves.length).pageNumber + 1 := by omega
        cases hn : layout.next with
        | none =>
          have hnone := (hmatch.next_none (by rw [h.next_source.1, hn]; rfl)).1
          rw [hkind] at hnone
          exact absurd hnone hfits
        | some n =>
          obtain ⟨-, hnkey, himage⟩ := hnextImage n hn
          rw [← hnkey]
          exact ⟨by rw [imagesWritten_owner]; exact (hnextZero n hn).owner_eq, imagesWritten_next layout applied hn himage⟩

theorem SettleRun.refines (htracks : Tracks env logs l) (h : SettleRun env services accounts pool kind s layout x v a sourceNext applied
      planned withdrawal l marked paid closing l' receipt)
    (hsafe : ¬ (kind = .withdrawal ∧ rootSequenceAt l pool.key % 256 = 255)) :
    Tracks env (logs.append receipt.pool receipt.outputs) l' := by
  obtain ⟨log, hlog, htracked⟩ := htracks.pool_of_kind (hasKind_state h.pool_owner h.decoded)
  rw [rootSequenceAt, htracked.data_eq, PoolLog.sequence_image htracked.wellFormed.length_le] at hsafe
  obtain ⟨r, hplan⟩ := h.plan htracks htracked hlog
  have heffect := h.effect htracked hplan hsafe
  have himages := (htracks.outside h.outside).append hlog heffect
  have hstate := htracked.decode_strict h.decoded
  have hmarker : Zeroed env (imagesWritten pool.key layout applied paid) layout.marker.key := by
    obtain ⟨howner, hdata⟩ := imagesWritten_touches layout applied (l := paid) _ h.marker_not_image
    exact ⟨howner.trans h.marker_zeroed.owner_eq, by rw [hdata]; exact h.marker_zeroed.zero_eq⟩
  have hclosing := @Tracks.write_marker _ _ _ _ planned.marker himages hmarker
  rw [← h.marker_planned.encoded_eq, ← h.written] at hclosing
  rw [h.receipt_pool, h.receipt_outputs, leaves_of_commitments hplan.commitments_eq]
  refine hclosing.close_plan h.closed fun k hk => ?_
  obtain ⟨howner, hdata⟩ := h.closing_touches k (h.plan_not_written k hk)
  exact (h.plan_kinds k hk).imp (fun hkind => ⟨howner.trans hkind.owner_eq, by rw [hdata]; exact hkind.magic_eq⟩)
    (fun hkind => ⟨howner.trans hkind.owner_eq, by rw [hdata]; exact hkind.magic_eq⟩)

end Settlement

end Instructions

end

/-! ### Runs -/

/-- The logs after one more event. -/
def Logs.record (logs : Logs) : Event → Logs
  | .accepted _ (.initialized pool init) => Function.update logs pool (some (PoolLog.initial pool init))
  | .accepted _ (.deposited receipt) => logs.append receipt.pool [receipt.noteCommitment]
  | .accepted _ (.spent receipt) => logs.append receipt.pool receipt.outputs
  | _ => logs

/-- The logs that a list of events leaves behind, from the receipts alone. -/
def logsOf (events : List Event) : Logs := events.foldl Logs.record fun _ => none

/-- A ledger on which the program has not written yet. -/
def Genesis (env : Environment) (l : Ledger) : Prop := ∀ k, (l k).owner = env.programId → allZero (l k).data = true

/-- The event settles no prepared withdrawal of a pool whose current page is full. -/
def Event.KeepsPages (l : Ledger) : Event → Prop
  | .accepted (.settlePrepared accounts i _) _ => i.transitionKind = .withdrawal →
      ∀ pool ∈ accounts[1]?, rootSequenceAt l pool.key % 256 ≠ 255
  | _ => True

/-- State and history of a pool are those of the log: the state account is the
tree of all leaves, each root sits in its slot, the rest of the current page is
zero and every page counts its roots. -/
structure HoldsLog (env : Environment) (pool : Pubkey) (log : PoolLog) (l : Ledger) : Prop where
  tree : (l pool).data = (log.state env).writeEncodingPrevalidated
  roots : ∀ q ≤ log.leaves.length, slice (64 + 32 * (q % 256)) 32 (l (poolV1RootPageAddress env pool (q / 256)).1).data =
    encodeDigestCanonical (env.tree (log.leaves.take q)).root
  unused : ∀ slot, log.leaves.length % 256 < slot → slot < 256 →
    slice (64 + 32 * slot) 32 (l (poolV1RootPageAddress env pool (log.leaves.length / 256)).1).data = zeros 32
  filled : ∀ p ≤ log.leaves.length / 256, leNat (slice 56 2 (l (poolV1RootPageAddress env pool p).1).data) =
    min 256 (log.leaves.length + 1 - 256 * p)

section
variable {env : Environment} {logs : Logs} {l l' : Ledger}

theorem PoolTracked.holdsLog {pool : Pubkey} {log : PoolLog} (h : PoolTracked env pool log l) :
    HoldsLog env pool log l where
  tree := h.data_eq
  roots q hq := by
    have hslot : (pageRoots env log.leaves (q / 256))[q % 256]? = some (env.tree (log.leaves.take q)).root := by
      rw [pageRoots, ← getElem?_historyRoots env hq]
      exact getElem?_page (by decide) _
    obtain ⟨hlt, hget⟩ := List.getElem?_eq_some_iff.mp hslot
    rw [(h.pages (q / 256) (Nat.div_le_div_right hq)).2, slice_pageImage_root hlt, hget]
  unused slot hlow hhigh := by
    rw [(h.pages (log.leaves.length / 256) le_rfl).2]
    refine slice_pageImage_unused ?_ hhigh
    have hlen := length_pageRoots_current env log.leaves
    simp only [rootHistoryLocation, POOL_V1_ROOT_HISTORY_CAPACITY] at hlen
    omega
  filled p hp := by
    rw [(h.pages p hp).2, slice_pageImage_header (by omega), slice_pageHeader_filled, leNat_leBytes_of_lt]
    · rw [pageRoots, length_page, length_historyRoots]
      rfl
    · have := length_pageRoots_le env log.leaves p
      simp only [POOL_V1_ROOT_HISTORY_CAPACITY] at this
      omega

theorem Genesis.tracks (h : Genesis env l) : Tracks env (fun _ => none) l where
  pools _ _ hlog := by cases hlog
  states k hk := absurd hk (Zeroed.not_kind ⟨hk.owner_eq, h k hk.owner_eq⟩)
  plans k hk := absurd hk (Zeroed.not_kind ⟨hk.owner_eq, h k hk.owner_eq⟩)

theorem Accepted.refines {services : AuthorizationServices} {i : Instruction} {o : Outcome} (htracks : Tracks env logs l) (h : Accepted env services l l' i o)
    (hsafe : Event.KeepsPages l (.accepted i o)) : Tracks env (logs.record (.accepted i o)) l' := by
  cases h with
  | initializePool run => exact run.refines htracks
  | deposit run => exact run.refines htracks
  | spend _ run => exact run.refines htracks
  | prepare _ _ run => exact run.refines htracks
  | settle named _ run => exact run.refines htracks fun hbad => hsafe hbad.1 _ named hbad.2
  | cancel _ run => exact run.refines htracks

theorem Deployment.Step.refines {d : Deployment} {e : Event} (htracks : Tracks d.env logs l) (h : d.Step l e l')
    (hsafe : e.KeepsPages l) : Tracks d.env (logs.record e) l' := by
  cases e with
  | outside => exact htracks.outside h
  | rejected i =>
    obtain ⟨-, rfl⟩ := h
    exact htracks
  | accepted i o => exact (processInstruction_accepted h).refines htracks hsafe

/-- In every run from genesis in which no prepared withdrawal is settled over a
full page, every pool holds exactly the log of its receipts. -/
theorem run_holds_log {d : Deployment} {events : List Event} (hgenesis : Genesis d.env l)
    (h : Run (fun l e l' => d.Step l e l' ∧ e.KeepsPages l) l events l') :
    ∀ pool log, logsOf events pool = some log → HoldsLog d.env pool log l' := by
  have htracks : Tracks d.env (logsOf ([] ++ events)) l' := by
    refine Run.traced (P := fun es l => Tracks d.env (logsOf es) l) ?_ hgenesis.tracks h
    intro es s e t hs hstep
    rw [logsOf, List.foldl_append]
    exact Deployment.Step.refines hs hstep.1 hstep.2
  exact fun pool log hlog => (htracks.pools pool log hlog).holdsLog

end

/-! ### A run over a full page -/

theorem Sample.genesis : Genesis Sample.environment Sample.start := Sample.start_zeroed

theorem logsOf_concat (events : List Event) (e : Event) : logsOf (events ++ [e]) = (logsOf events).record e := by
  rw [logsOf, List.foldl_concat, ← logsOf]

theorem Logs.append_self (logs : Logs) (pool : Pubkey) (new : List Digest) :
    logs.append pool new pool = (logs pool).map (·.append new) := Function.update_self _ _ _

theorem Sample.initial_eq : PoolLog.initial Sample.pool Sample.initialization = Sample.log 0 := by
  simp only [PoolLog.initial, Sample.initialization, Sample.log, List.replicate_zero]

theorem Sample.append_log (n : ℕ) (leaf : Digest) (h : leaf = Digest.zero) :
    (Sample.log n).append [leaf] = Sample.log (n + 1) := by
  rw [h]
  simp only [PoolLog.append, Sample.log, List.replicate_succ']

theorem Sample.events_succ (n : ℕ) : Sample.events (n + 1) = Sample.events n ++ [.accepted (.deposit
    Sample.depositAccounts Sample.depositRequest) (.deposited (Sample.depositReceipt n))] := by
  rw [Sample.events, List.range_succ, List.map_append, ← List.cons_append, ← Sample.events, List.map_singleton]

theorem Sample.logsOf_events (n : ℕ) : logsOf (Sample.events n) Sample.pool = some (Sample.log n) := by
  induction n with
  | zero =>
    have hevents : Sample.events 0 = [] ++ [.accepted (.initializePool Sample.initializeAccounts Sample.initialization)
        (.initialized Sample.pool Sample.initialization)] := rfl
    rw [hevents, logsOf_concat, Logs.record, Function.update_self, Sample.initial_eq]
  | succ n ih =>
    have hpool : (Sample.depositReceipt n).pool = Sample.pool := rfl
    rw [Sample.events_succ, logsOf_concat, Logs.record, hpool, Logs.append_self, ih, Option.map_some,
      Sample.append_log n (Sample.depositReceipt n).noteCommitment rfl]

theorem Sample.keepsPages {n : ℕ} (h : n ≤ 255) : Run (fun l e l' => Sample.deployment.Step l e l' ∧ e.KeepsPages l)
    Sample.start (Sample.events n) (Sample.ledger n) := by
  have hkeeps : ∀ l, ∀ e ∈ Sample.events n, e.KeepsPages l := by
    intro l e he
    rcases List.mem_cons.mp he with rfl | he
    · trivial
    · obtain ⟨i, -, rfl⟩ := List.mem_map.mp he
      trivial
  rw [← List.map_id' (Sample.events n)]
  exact Run.map (fun l l' e he hstep => ⟨hstep, hkeeps l e he⟩) (Sample.runs h)

/-- After deposits that fill the first page the pool holds the log of all its receipts. -/
theorem run_holds_log_deposits : ∃ log, logsOf (Sample.events 255) Sample.pool = some log ∧
    HoldsLog Sample.environment Sample.pool log (Sample.ledger 255) :=
  ⟨Sample.log 255, Sample.logsOf_events 255, run_holds_log Sample.genesis (Sample.keepsPages le_rfl) Sample.pool _ (Sample.logsOf_events 255)⟩

/-- A prepared withdrawal settled over the full page leaves a pool that does not hold its log: the new page counts
two roots after one append. -/
theorem prepared_withdrawal_over_full_page : ∃ events settled log, Genesis Sample.deployment.env Sample.start ∧
    Sample.deployment.Runs Sample.start events settled ∧ logsOf events Sample.pool = some log ∧
    ¬ HoldsLog Sample.deployment.env Sample.pool log settled := by
  obtain ⟨receipt, settled, hstep, -, hpool, -, hlength, hfilled⟩ := Sample.settle_ok
  have hrun := Sample.runs_prepared.append (.cons hstep (.nil settled))
  refine ⟨_, settled, (Sample.log 255).append receipt.outputs, Sample.genesis, hrun, ?_, ?_⟩
  · have hprepared : (logsOf (Sample.events 255)).record Sample.preparedEvent = logsOf (Sample.events 255) := rfl
    rw [logsOf_concat, logsOf_concat, hprepared, Sample.settledEvent, Logs.record, hpool, Logs.append_self,
      Sample.logsOf_events, Option.map_some]
  · intro hholds
    have hleaves : ((Sample.log 255).append receipt.outputs).leaves.length = 256 := by
      rw [PoolLog.append, List.length_append, hlength, Sample.log, List.length_replicate]
    have hcount := hholds.filled 1 (by rw [hleaves])
    rw [hleaves] at hcount
    exact absurd (hfilled.symm.trans hcount) (by decide)

end Aspis.Pool
