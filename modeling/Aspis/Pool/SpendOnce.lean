import Aspis.Pool.Content
import Aspis.Pool.SampleDeployment

/-! No nullifier is spent twice. A written marker account is a latch: every
instruction of the program, successful or not, keeps its bytes, and every spend,
direct or prepared, needs the account fresh and leaves it written. -/

namespace Aspis.Pool

open Lib Chain Statement

/-- Written markers keep their owner and their bytes. -/
def KeepsMarkers (env : Environment) (l l' : Ledger) : Prop :=
  ∀ k, HasKind env .marker l k → (l' k).owner = env.programId ∧ (l' k).data = (l k).data

/-- The marker account of a pool and nullifier holds the given bytes, and they
are a marker of that pool and nullifier. -/
structure MarkerHolds (env : Environment) (pool : Pubkey) (nullifier : Digest) (bytes : Bytes) (l : Ledger) : Prop where
  owner_eq : (l (poolV1NullifierMarkerAddress env pool nullifier).1).owner = env.programId
  data_eq : (l (poolV1NullifierMarkerAddress env pool nullifier).1).data = bytes
  is_marker : ∃ m : PoolV1NullifierMarkerV1, m.pool = pool ∧ m.nullifier = nullifier ∧ bytes = markerBytes m

section
variable {env : Environment} {l m l' : Ledger}

namespace KeepsMarkers

theorem refl (l : Ledger) : KeepsMarkers env l l := fun _ h => ⟨h.owner_eq, rfl⟩

theorem trans (h : KeepsMarkers env l m) (h' : KeepsMarkers env m l') : KeepsMarkers env l l' := by
  intro k hk
  obtain ⟨howner, hdata⟩ := h k hk
  obtain ⟨howner', hdata'⟩ := h' k ⟨howner, by rw [hdata]; exact hk.magic_eq⟩
  exact ⟨howner', hdata'.trans hdata⟩

theorem of_outside (h : Outside env.programId l l') : KeepsMarkers env l l' := fun k hk => h.kept k hk.owner_eq

/-- Writing accounts that hold no marker keeps the markers. -/
theorem of_touches {keys : List Pubkey} (h : Touches keys l l') (hkeys : ∀ k ∈ keys, ¬ HasKind env .marker l k) :
    KeepsMarkers env l l' := by
  intro k hk
  obtain ⟨howner, hdata⟩ := h k fun hmem => hkeys k hmem hk
  exact ⟨howner.trans hk.owner_eq, hdata⟩

end KeepsMarkers

theorem MarkerHolds.hasKind {pool : Pubkey} {nullifier : Digest} {bytes : Bytes}
    (h : MarkerHolds env pool nullifier bytes l) :
    HasKind env .marker l (poolV1NullifierMarkerAddress env pool nullifier).1 := by
  obtain ⟨marker, -, -, hbytes⟩ := h.is_marker
  exact hasKind_marker h.owner_eq (h.data_eq.trans hbytes)

theorem MarkerHolds.kept {pool : Pubkey} {nullifier : Digest} {bytes : Bytes}
    (h : MarkerHolds env pool nullifier bytes l) (hkeep : KeepsMarkers env l l') :
    MarkerHolds env pool nullifier bytes l' := by
  obtain ⟨howner, hdata⟩ := hkeep _ h.hasKind
  exact ⟨howner, hdata.trans h.data_eq, h.is_marker⟩

/-- A marker account that is still fresh holds no marker. -/
theorem FreshMarkerAccount.not_marker {account : AccountInfo} {preparation : NullifierMarkerPreparationV1}
    (h : FreshMarkerAccount env account l preparation) : ¬ HasKind env .marker l account.key := by
  intro hk
  cases preparation with
  | populateProgramOwnedZeroed =>
    obtain ⟨howner, -, hzero⟩ := h.zeroed rfl
    exact Zeroed.not_kind ⟨howner, hzero⟩ hk
  | createOrAllocateSystemOwned =>
    obtain ⟨howner, -⟩ := h.systemOwned rfl
    exact env.programId_ne_system (hk.owner_eq.symm.trans howner)

/-! ### What each instruction does to markers -/

/-- The accounts an append writes, seen just before it writes them. -/
structure AppendTargets (env : Environment) (pool current : Pubkey) (next : Option Pubkey) (l : Ledger) : Prop where
  pool_kind : HasKind env .state l pool
  current_kind : HasKind env .page l current
  next_zeroed : ∀ k ∈ next, Zeroed env l k

theorem AppendTargets.outside {pool current : Pubkey} {next : Option Pubkey}
    (h : AppendTargets env pool current next l) (hout : Outside env.programId l l') :
    AppendTargets env pool current next l' :=
  ⟨h.pool_kind.outside hout, h.current_kind.outside hout, fun k hk => (h.next_zeroed k hk).outside hout⟩

/-- No account of another kind is among them. -/
theorem AppendTargets.not_target {pool current k : Pubkey} {next : Option Pubkey} {kind : AccountKind}
    (h : AppendTargets env pool current next l) (hstate : kind ≠ .state) (hpage : kind ≠ .page)
    (hk : HasKind env kind l k) : k ∉ pool :: current :: next.toList := by
  simp only [List.mem_cons, Option.mem_toList, not_or]
  exact ⟨hk.ne_of_kind h.pool_kind hstate, hk.ne_of_kind h.current_kind hpage,
    fun hnext => (h.next_zeroed k hnext).not_kind hk⟩

theorem AppendTargets.not_state_target {pool current k : Pubkey} {next : Option Pubkey}
    (h : AppendTargets env pool current next l) (hk : HasKind env .state l k) (hne : k ≠ pool) :
    k ∉ pool :: current :: next.toList := by
  simp only [List.mem_cons, Option.mem_toList, not_or]
  exact ⟨hne, hk.ne_of_kind h.current_kind (by decide), fun hnext => (h.next_zeroed k hnext).not_kind hk⟩

theorem DepositRun.targets {pool current : AccountInfo} {next : Option AccountInfo} {tokenAccounts : List AccountInfo}
    {c : CanonicalPoolStateV1} {r : DepositRequestV1} {transfer : LegacyDepositTransferPlanV1} {plan : AppendPlanV1}
    {created paid : Ledger} {receipt : DepositReceiptV1}
    (h : DepositRun env pool current next tokenAccounts c r transfer plan l created paid l' receipt) :
    AppendTargets env pool.key current.key (plan.next.map (·.1)) paid := by
  obtain ⟨howner, hdecode, -, -⟩ := decodeAccountWith_ok h.decoded
  have hspec := planAuthorizedAppend_spec h.append
  have hcreated := h.created_call.outside env.programId_ne_system
  refine AppendTargets.outside ⟨(hasKind_state howner hdecode).outside hcreated,
    hasKind_page hspec.page.owner_eq (hspec.validated rfl), ?_⟩ (env.transferChecked_outside _ _ _ h.transferred)
  intro k hk
  obtain ⟨⟨key, number, first⟩, hplan, rfl⟩ := Option.map_eq_some_iff.mp hk
  obtain ⟨-, -, hnew, -⟩ := hspec.next_some key number first hplan
  exact ⟨hnew.owner_eq, hnew.zeroed⟩

theorem DepositRun.keepsMarkers {pool current : AccountInfo} {next : Option AccountInfo}
    {tokenAccounts : List AccountInfo} {c : CanonicalPoolStateV1} {r : DepositRequestV1}
    {transfer : LegacyDepositTransferPlanV1} {plan : AppendPlanV1} {created paid : Ledger} {receipt : DepositReceiptV1}
    (h : DepositRun env pool current next tokenAccounts c r transfer plan l created paid l' receipt) :
    KeepsMarkers env l l' := by
  have hbefore := (h.created_call.outside env.programId_ne_system).trans
    (env.transferChecked_outside _ _ _ h.transferred)
  refine (KeepsMarkers.of_outside hbefore).trans ?_
  rw [← h.persisted]
  exact KeepsMarkers.of_touches plan.persist_touches fun k hk hmarker =>
    h.targets.not_target (by decide) (by decide) hmarker hk

theorem InitializeRun.keepsMarkers {pool pageZero : AccountInfo} {init : PoolInitializationV1} {state : PoolStateV1}
    {prepared : Ledger} (h : InitializeRun env pool pageZero init state l prepared l') : KeepsMarkers env l l' := by
  refine (KeepsMarkers.of_outside h.outside).trans ?_
  rw [h.written]
  refine KeepsMarkers.of_touches ((Touches.setData pool.key _ prepared).trans (Touches.setData pageZero.key _ _)) ?_
  intro k hk
  simp only [List.cons_append, List.nil_append, List.mem_cons, List.not_mem_nil, or_false] at hk
  rcases hk with rfl | rfl
  · exact Zeroed.not_kind ⟨h.pool_owner, h.pool_zeroed⟩
  · exact Zeroed.not_kind ⟨h.page.owner_eq, h.page.zeroed⟩

theorem PrepareRun.keepsMarkers {pool core : AccountInfo} {c : CanonicalPoolStateV1} {r : AuthorizedAppendV1}
    {images : PreparedSettlementPlanImagesV1} {f : PreparedSettlementPlanFieldsV1}
    {prepared : PreparedAuthorizedAppendImagesV1} {shard : Option PlannedShard} {created : Ledger}
    (h : PrepareRun env pool core c r images f prepared shard l created l') : KeepsMarkers env l l' := by
  refine (KeepsMarkers.of_outside (h.created_call.outside env.programId_ne_system)).trans ?_
  have hcore : ¬ HasKind env .marker created core.key := Zeroed.not_kind ⟨h.core_zeroed.1, h.core_zeroed.2⟩
  rw [h.written]
  cases hshard : shard with
  | none => exact KeepsMarkers.of_touches (Touches.setData core.key _ created) (by simpa using hcore)
  | some s =>
    obtain ⟨howner, hzero, -⟩ := h.shard_zeroed s hshard
    have htouch := (Touches.setData core.key images.coreImage created).trans (Touches.setData s.1.key s.2.1.image _)
    refine KeepsMarkers.of_touches htouch ?_
    have hs : ¬ HasKind env .marker created s.1.key := Zeroed.not_kind ⟨howner, hzero⟩
    simp [hcore, hs]

theorem CancelRun.keepsMarkers {core : AccountInfo} {shard : Option AccountInfo} (h : CancelRun env core shard l l') :
    KeepsMarkers env l l' := by
  obtain ⟨v, hv, -⟩ := h.decoded
  refine KeepsMarkers.of_touches h.closed.touches fun k hk => ?_
  rcases plan_kinds h.core_owner h.shard_owner hv k hk with hkind | hkind <;>
    exact hkind.not_kind_of_ne (by decide)

/-- What a spend does to the marker of its nullifier. -/
structure ConsumesMarker (env : Environment) (pool : Pubkey) (nullifier : Digest) (l l' : Ledger) : Prop where
  fresh : ¬ HasKind env .marker l (poolV1NullifierMarkerAddress env pool nullifier).1
  written : ∃ bytes, MarkerHolds env pool nullifier bytes l'

section Spend
variable {i : SpendInstructionV1} {pool current marker : AccountInfo} {next : Option AccountInfo} {source : AuthorizedSourceStateV1}
  {prevalidated : Option PrevalidatedCurrentHistoryV1} {r : AuthorizedAppendV1} {plan : AppendPlanV1}
  {planned : PlannedNullifierMarkerV1} {tokens : List AccountInfo} {withdrawal : Option LegacyWithdrawalTransferPlanV1}
  {created marked paid : Ledger} {receipt : TransitionReceiptV1}

theorem SpendRun.outside (h : SpendRun env i pool current marker next source prevalidated r plan planned tokens withdrawal
    l created marked paid l' receipt) : Outside env.programId created paid :=
  (h.marked_call.outside env.programId_ne_system).trans h.paid_step.outside

theorem SpendRun.targets (h : SpendRun env i pool current marker next source prevalidated r plan planned tokens withdrawal
    l created marked paid l' receipt) : AppendTargets env pool.key current.key (plan.next.map (·.1)) paid := by
  have hspec := planAuthorizedAppend_spec h.append
  have hpool := ((h.created_call.outside env.programId_ne_system).kept _ h.pool_owner).1
  refine AppendTargets.outside ⟨hasKind_state hpool h.decoded, hasKind_page hspec.page.owner_eq h.page_valid, ?_⟩
    h.outside
  intro k hk
  obtain ⟨⟨key, number, first⟩, hplan, rfl⟩ := Option.map_eq_some_iff.mp hk
  obtain ⟨-, -, hnew, -⟩ := hspec.next_some key number first hplan
  exact ⟨hnew.owner_eq, hnew.zeroed⟩

theorem SpendRun.marker_zeroed (h : SpendRun env i pool current marker next source prevalidated r plan planned tokens
    withdrawal l created marked paid l' receipt) : Zeroed env paid marker.key :=
  ⟨(h.marker_ready.zeroed rfl).1, (h.marker_ready.zeroed rfl).2.2⟩

/-- The marker is none of the accounts the append writes. -/
theorem SpendRun.marker_not_target (h : SpendRun env i pool current marker next source prevalidated r plan planned tokens
    withdrawal l created marked paid l' receipt) :
    marker.key ∉ pool.key :: current.key :: (plan.next.map (·.1)).toList := by
  have hspec := planAuthorizedAppend_spec h.append
  simp only [List.mem_cons, Option.mem_toList, not_or]
  refine ⟨h.marker_pool ▸ h.marker_planned.key_ne_pool, h.marker_zeroed.ne_of_kind h.targets.current_kind, ?_⟩
  intro hk
  obtain ⟨⟨key, number, first⟩, hplan, hkey⟩ := Option.map_eq_some_iff.mp hk
  obtain ⟨-, -, -, -, -, -, hsupplied⟩ := hspec.next_some key number first hplan
  obtain ⟨account, haccount, rfl⟩ := Option.map_eq_some_iff.mp hsupplied
  exact h.marker_ne_next account haccount hkey

theorem SpendRun.keepsMarkers (h : SpendRun env i pool current marker next source prevalidated r plan planned tokens
    withdrawal l created marked paid l' receipt) : KeepsMarkers env l l' := by
  have hbefore := (h.created_call.outside env.programId_ne_system).trans h.outside
  refine (KeepsMarkers.of_outside hbefore).trans ?_
  rw [← h.persisted]
  refine KeepsMarkers.of_touches ((Touches.setData marker.key _ paid).trans plan.persist_touches) fun k hk => ?_
  rw [List.singleton_append, List.mem_cons] at hk
  rcases hk with rfl | hk
  · exact h.marker_zeroed.not_kind
  · exact fun hmarker => h.targets.not_target (by decide) (by decide) hmarker hk

/-- After a spend the marker account holds the planned marker. -/
theorem SpendRun.marker_written (h : SpendRun env i pool current marker next source prevalidated r plan planned tokens
    withdrawal l created marked paid l' receipt) :
    (l' marker.key).owner = env.programId ∧ (l' marker.key).data = markerBytes planned.marker := by
  obtain ⟨howner, hdata⟩ := plan.persist_touches (l := setData marker.key planned.encodedMarker paid) _
    h.marker_not_target
  rw [h.persisted, setData_owner] at howner
  rw [h.persisted, setData_self, h.marker_planned.encoded_eq] at hdata
  exact ⟨howner.trans h.marker_zeroed.owner_eq, hdata⟩

theorem SpendRun.marker_key (h : SpendRun env i pool current marker next source prevalidated r plan planned tokens
    withdrawal l created marked paid l' receipt) :
    marker.key = (poolV1NullifierMarkerAddress env receipt.pool receipt.nullifier).1 := by
  rw [h.marker_planned.key_eq, h.marker_pool, h.marker_nullifier, h.receipt_pool]

theorem SpendRun.consumes (h : SpendRun env i pool current marker next source prevalidated r plan planned tokens
    withdrawal l created marked paid l' receipt) :
    ConsumesMarker env receipt.pool receipt.nullifier l l' := by
  obtain ⟨howner, hdata⟩ := h.marker_written
  refine ⟨h.marker_key ▸ h.marker_planned.fresh.not_marker, markerBytes planned.marker, ?_⟩
  refine ⟨h.marker_key ▸ howner, h.marker_key ▸ hdata, planned.marker, ?_, h.marker_nullifier, rfl⟩
  rw [h.marker_pool, h.receipt_pool]

end Spend

section Settle
variable {services : AuthorizationServices} {accounts : List AccountInfo} {pool : AccountInfo} {kind : PoolV1TransitionKind} {s : PoolStateV1} {layout : SettlePreparedLayoutV1}
  {x : PreparedSettlementApplyContextV1} {v : PreparedSettlementPlanViewV1} {a : AuthenticatedSettlementStatementV1}
  {sourceNext : Option Bytes} {applied : PreparedSettlementApplyResultV1} {planned : PlannedNullifierMarkerV1}
  {withdrawal : Option LegacyWithdrawalTransferPlanV1} {marked paid closing : Ledger} {receipt : TransitionReceiptV1}

theorem SettleRun.outside (h : SettleRun env services accounts pool kind s layout x v a sourceNext applied planned withdrawal l marked
    paid closing l' receipt) : Outside env.programId l paid :=
  (h.marked_call.outside env.programId_ne_system).trans h.paid_step.outside

/-- The plan's next page is the one given, and its source image is what the account holds. -/
theorem SettleRun.next_source (h : SettleRun env services accounts pool kind s layout x v a sourceNext applied planned withdrawal l
    marked paid closing l' receipt) : sourceNext = (layout.next.map fun next => (l next.key).data) ∧
      ∀ n ∈ layout.next, v.fields.nextPageAddress = some n.key := by
  have hnext := h.applied_plan.next_eq
  rw [h.context_next] at hnext
  cases hlayout : layout.next <;> cases haddress : v.fields.nextPageAddress <;>
    simp only [sourceNextImage, hlayout, haddress, Option.map_none, Option.map_some, reduceCtorEq, except_bind_eq_ok,
      require_eq_ok, except_pure_eq_ok, Except.ok.injEq] at hnext
  · exact ⟨hnext.symm, by simp⟩
  · obtain ⟨_, ⟨rfl, -⟩, rfl⟩ := hnext
    exact ⟨rfl, by simp⟩

theorem SettleRun.history (h : SettleRun env services accounts pool kind s layout x v a sourceNext applied planned withdrawal l marked
    paid closing l' receipt) :
    ∃ header inCurrent, HistoryMatch env pool.key v (l layout.current.key).data sourceNext header inCurrent := by
  have hmatch := h.applied_plan.history_match
  rw [h.context_pool, h.context_current] at hmatch
  exact historyResultImagesMatch_ok hmatch

theorem SettleRun.targets (h : SettleRun env services accounts pool kind s layout x v a sourceNext applied planned withdrawal l marked
    paid closing l' receipt) : AppendTargets env pool.key layout.current.key (layout.next.map (·.key)) l := by
  obtain ⟨header, inCurrent, hmatch⟩ := h.history
  refine ⟨hasKind_state h.pool_owner h.decoded, hasKind_page h.pages.current_owner hmatch.page_valid, fun k hk => ?_⟩
  obtain ⟨next, hnext, rfl⟩ := Option.map_eq_some_iff.mp hk
  refine ⟨h.pages.next_owner next hnext, (hmatch.next_some (l next.key).data ?_).1⟩
  rw [h.next_source.1, hnext]
  rfl

theorem SettleRun.marker_zeroed (h : SettleRun env services accounts pool kind s layout x v a sourceNext applied planned withdrawal l
    marked paid closing l' receipt) : Zeroed env paid layout.marker.key :=
  Zeroed.outside ⟨(h.marker_ready.zeroed rfl).1, (h.marker_ready.zeroed rfl).2.2⟩ h.paid_step.outside

/-- The plan accounts as the writes find them. -/
theorem SettleRun.plan_kinds (h : SettleRun env services accounts pool kind s layout x v a sourceNext applied planned withdrawal l marked
    paid closing l' receipt) : ∀ k ∈ (layout.shard.map (·.key)).toList ++ [layout.core.key],
      HasKind env .core paid k ∨ HasKind env .shard paid k := by
  have hv := h.applied_plan.decoded
  rw [h.context_core.1, h.context_core.2, h.context_shard] at hv
  intro k hk
  exact (Pool.plan_kinds h.core_owner h.shard_owner hv k hk).imp (·.outside h.outside) (·.outside h.outside)

theorem SettleRun.closing_touches (h : SettleRun env services accounts pool kind s layout x v a sourceNext applied planned withdrawal l
    marked paid closing l' receipt) :
    Touches (pool.key :: layout.current.key :: (layout.next.map (·.key)).toList ++ [layout.marker.key]) paid closing := by
  rw [h.written]
  exact (imagesWritten_touches layout applied).trans (Touches.setData _ _ _)

theorem SettleRun.keepsMarkers (h : SettleRun env services accounts pool kind s layout x v a sourceNext applied planned withdrawal l
    marked paid closing l' receipt) : KeepsMarkers env l l' := by
  refine (KeepsMarkers.of_outside h.outside).trans ?_
  refine KeepsMarkers.of_touches (h.closing_touches.trans h.closed.touches) fun k hk => ?_
  rw [List.mem_append, List.mem_append, List.mem_singleton] at hk
  rcases hk with (hk | rfl) | hk
  · exact fun hmarker => (h.targets.outside h.outside).not_target (by decide) (by decide) hmarker hk
  · exact h.marker_zeroed.not_kind
  · rcases h.plan_kinds k hk with hkind | hkind <;> exact hkind.not_kind_of_ne (by decide)

/-- The marker is none of the images. -/
theorem SettleRun.marker_not_image (h : SettleRun env services accounts pool kind s layout x v a sourceNext applied
    planned withdrawal l marked paid closing l' receipt) :
    layout.marker.key ∉ pool.key :: layout.current.key :: (layout.next.map (·.key)).toList := by
  have htargets := h.targets.outside h.outside
  simp only [List.mem_cons, Option.mem_toList, not_or]
  refine ⟨h.marker_pool ▸ h.marker_planned.key_ne_pool, h.marker_zeroed.ne_of_kind htargets.current_kind, ?_⟩
  intro hk
  obtain ⟨n, hn, heq⟩ := Option.map_eq_some_iff.mp hk
  exact h.marker_ne_next n hn heq

/-- The plan accounts are neither images nor the marker. -/
theorem SettleRun.plan_not_written (h : SettleRun env services accounts pool kind s layout x v a sourceNext applied
    planned withdrawal l marked paid closing l' receipt) :
    ∀ k ∈ (layout.shard.map (·.key)).toList ++ [layout.core.key],
      k ∉ pool.key :: layout.current.key :: (layout.next.map (·.key)).toList ++ [layout.marker.key] := by
  intro k hk hmem
  have htargets := h.targets.outside h.outside
  rw [List.mem_append, List.mem_singleton] at hmem
  rcases h.plan_kinds k hk with hkind | hkind <;> rcases hmem with hmem | rfl
  · exact htargets.not_target (by decide) (by decide) hkind hmem
  · exact h.marker_zeroed.not_kind hkind
  · exact htargets.not_target (by decide) (by decide) hkind hmem
  · exact h.marker_zeroed.not_kind hkind

/-- The images stand at the end of the settlement as they were written. -/
theorem SettleRun.image_kept (h : SettleRun env services accounts pool kind s layout x v a sourceNext applied planned
    withdrawal l marked paid closing l' receipt) {k : Pubkey}
    (hk : k ∈ pool.key :: layout.current.key :: (layout.next.map (·.key)).toList) :
    (l' k).owner = (paid k).owner ∧ (l' k).data = (imagesWritten pool.key layout applied paid k).data := by
  have hne : k ≠ layout.marker.key := fun heq => h.marker_not_image (heq ▸ hk)
  have hnotPlan : k ∉ (layout.shard.map (·.key)).toList ++ [layout.core.key] := fun hmem =>
    h.plan_not_written k hmem (List.mem_append_left _ hk)
  obtain ⟨howner, hdata⟩ := h.closed.touches k hnotPlan
  rw [h.written, setData_of_ne hne] at howner hdata
  exact ⟨howner.trans (imagesWritten_owner layout applied k), hdata⟩

theorem SettleRun.marker_written (h : SettleRun env services accounts pool kind s layout x v a sourceNext applied
    planned withdrawal l marked paid closing l' receipt) :
    (l' layout.marker.key).owner = env.programId ∧ (l' layout.marker.key).data = markerBytes planned.marker := by
  have hnotPlan : layout.marker.key ∉ (layout.shard.map (·.key)).toList ++ [layout.core.key] := fun hmem =>
    h.plan_not_written _ hmem (List.mem_append_right _ (List.mem_singleton_self _))
  obtain ⟨howner, hdata⟩ := h.closed.touches _ hnotPlan
  rw [h.written, setData_owner, imagesWritten_owner] at howner
  rw [h.written, setData_self, h.marker_planned.encoded_eq] at hdata
  exact ⟨howner.trans h.marker_zeroed.owner_eq, hdata⟩

theorem SettleRun.marker_key (h : SettleRun env services accounts pool kind s layout x v a sourceNext applied planned
    withdrawal l marked paid closing l' receipt) :
    layout.marker.key = (poolV1NullifierMarkerAddress env receipt.pool receipt.nullifier).1 := by
  rw [h.marker_planned.key_eq, h.marker_pool, h.marker_nullifier, h.receipt_pool]

theorem SettleRun.consumes (h : SettleRun env services accounts pool kind s layout x v a sourceNext applied planned
    withdrawal l marked paid closing l' receipt) : ConsumesMarker env receipt.pool receipt.nullifier l l' := by
  obtain ⟨howner, hdata⟩ := h.marker_written
  refine ⟨h.marker_key ▸ h.marker_planned.fresh.not_marker, markerBytes planned.marker, ?_⟩
  refine ⟨h.marker_key ▸ howner, h.marker_key ▸ hdata, planned.marker, ?_, h.marker_nullifier, rfl⟩
  rw [h.marker_pool, h.receipt_pool]

end Settle

/-! ### Runs -/

theorem Accepted.keepsMarkers {services : AuthorizationServices} {i : Instruction} {o : Outcome} (h : Accepted env services l l' i o) : KeepsMarkers env l l' := by
  cases h with
  | initializePool run => exact run.keepsMarkers
  | deposit run => exact run.keepsMarkers
  | spend _ run => exact run.keepsMarkers
  | prepare _ _ run => exact run.keepsMarkers
  | settle _ _ run => exact run.keepsMarkers
  | cancel _ run => exact run.keepsMarkers

theorem Accepted.consumes {services : AuthorizationServices} {i : Instruction} {receipt : TransitionReceiptV1} (h : Accepted env services l l' i (.spent receipt)) :
    ConsumesMarker env receipt.pool receipt.nullifier l l' := by
  cases h with
  | spend _ run => exact run.consumes
  | settle _ _ run => exact run.consumes

end

section
variable {d : Deployment} {l l' : Ledger}

theorem Deployment.Step.keepsMarkers {e : Event} (h : d.Step l e l') : KeepsMarkers d.env l l' := by
  cases e with
  | outside => exact KeepsMarkers.of_outside h
  | rejected i =>
    obtain ⟨-, rfl⟩ := h
    exact KeepsMarkers.refl l'
  | accepted i o => exact (processInstruction_accepted h).keepsMarkers

theorem Deployment.Step.consumes {e : Event} {pool : Pubkey} {nullifier : Digest} (h : d.Step l e l')
    (he : e.consumed = some (pool, nullifier)) : ConsumesMarker d.env pool nullifier l l' := by
  cases e with
  | outside => cases he
  | rejected i => cases he
  | accepted i o =>
    cases o with
    | spent receipt =>
      cases he
      exact (processInstruction_accepted h).consumes
    | initialized pool init => cases he
    | deposited receipt => cases he
    | prepared => cases he
    | cancelled => cases he

theorem Deployment.Runs.keepsMarkers {events : List Event} (h : d.Runs l events l') : KeepsMarkers d.env l l' :=
  Run.relates KeepsMarkers.refl KeepsMarkers.trans (fun _ _ _ hstep => Deployment.Step.keepsMarkers hstep) h

theorem KeepsMarkers.hasKind {env : Environment} {k : Pubkey} (h : KeepsMarkers env l l')
    (hk : HasKind env .marker l k) : HasKind env .marker l' k := by
  obtain ⟨howner, hdata⟩ := h k hk
  exact ⟨howner, by rw [hdata]; exact hk.magic_eq⟩

/-- Some spend of the run left the marker written, and it stays. -/
theorem Deployment.Runs.marker_written {events : List Event} {pool : Pubkey} {nullifier : Digest}
    (h : d.Runs l events l') (hspent : ∃ e ∈ events, e.consumed = some (pool, nullifier)) :
    ∃ bytes, MarkerHolds d.env pool nullifier bytes l' := by
  obtain ⟨e, hmem, he⟩ := hspent
  obtain ⟨before, after, rfl⟩ := List.append_of_mem hmem
  obtain ⟨m, -, hafter⟩ := Run.split h
  cases hafter with
  | cons hstep hrest =>
    obtain ⟨bytes, hbytes⟩ := (Deployment.Step.consumes hstep he).written
    exact ⟨bytes, hbytes.kept (Deployment.Runs.keepsMarkers hrest)⟩

/-- In every run, from any ledger, at most one accepted instruction consumes a
nullifier of a pool. From then on the marker account holds a marker of that
pool and nullifier, and whatever such marker it holds it keeps byte for byte to
the end of the run. -/
theorem nullifier_consumed_at_most_once {events : List Event} (h : d.Runs l events l') (pool : Pubkey)
    (nullifier : Digest) :
    events.countP (fun e => e.consumed = some (pool, nullifier)) ≤ 1 ∧
      ∀ before after m, events = before ++ after → d.Runs l before m → d.Runs m after l' →
        (∀ bytes, MarkerHolds d.env pool nullifier bytes m → MarkerHolds d.env pool nullifier bytes l') ∧
        ((∃ e ∈ before, e.consumed = some (pool, nullifier)) → ∃ bytes, MarkerHolds d.env pool nullifier bytes m) := by
  refine ⟨?_, fun before after m _ hbefore hafter => ⟨fun bytes hbytes => hbytes.kept hafter.keepsMarkers,
    hbefore.marker_written⟩⟩
  let marker := (poolV1NullifierMarkerAddress d.env pool nullifier).1
  have hkeep : ∀ s e t, d.Step s e t → HasKind d.env .marker s marker → HasKind d.env .marker t marker :=
    fun _ _ _ hstep => (Deployment.Step.keepsMarkers hstep).hasKind
  refine Run.countP_le_one hkeep ?_ ?_ h
  · intro _ _ _ hstep he
    exact (Deployment.Step.consumes hstep (of_decide_eq_true he)).fresh
  · intro _ _ _ hstep he
    obtain ⟨bytes, hbytes⟩ := (Deployment.Step.consumes hstep (of_decide_eq_true he)).written
    exact hbytes.hasKind

end

/-- A prepared withdrawal that is settled consumes its nullifier, and nothing else in its run does. -/
theorem nullifier_consumed_at_most_once_settlement :
    ∃ receipt settled, Sample.deployment.Runs Sample.start
        ((Sample.events 255 ++ [Sample.preparedEvent]) ++ [Sample.settledEvent receipt]) settled ∧
      (Sample.settledEvent receipt).consumed = some (Sample.pool, Sample.nullifier) ∧
      ((Sample.events 255 ++ [Sample.preparedEvent]) ++ [Sample.settledEvent receipt]).countP
        (fun e => e.consumed = some (Sample.pool, Sample.nullifier)) ≤ 1 := by
  obtain ⟨receipt, settled, hstep, -, hpool, hnullifier, -⟩ := Sample.settle_ok
  have hrun := Sample.runs_prepared.append (.cons hstep (.nil settled))
  have hconsumed : (Sample.settledEvent receipt).consumed = some (Sample.pool, Sample.nullifier) := by
    rw [← hpool, ← hnullifier]
    rfl
  exact ⟨receipt, settled, hrun, hconsumed, (nullifier_consumed_at_most_once hrun Sample.pool Sample.nullifier).1⟩

end Aspis.Pool
