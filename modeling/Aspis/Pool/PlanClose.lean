import Aspis.Pool.SpendOnce

/-! The life of a prepared plan. A preparation opens it and records who paid; no
instruction writes its bytes; a settlement or a cancellation of it closes it and
refunds both its accounts to the recorded authority. Once closed it can only be
opened by another preparation, so no plan is closed twice. -/

namespace Aspis.Pool

open Lib Chain Statement

section
variable {env : Environment} {l m n l' : Ledger}

/-! ### Kinds of written images -/

theorem magic_patch {magic d src : Bytes} {off : ℕ} (hmagic : magic.length = 4) (h : slice 0 4 d = magic)
    (hoff : 4 ≤ off) : slice 0 4 (patch off src d) = magic := by
  have hlen : 4 ≤ d.length := by
    have hslice := congrArg List.length h
    rw [hmagic, slice, List.drop_zero, List.length_take] at hslice
    omega
  rw [← h, slice, patch, slice, List.drop_zero, List.drop_zero, List.append_assoc,
    List.take_append_of_le_length (by simp; omega), List.take_take]
  congr 1
  omega

theorem magic_writeRoots {magic : Bytes} (hmagic : magic.length = 4) :
    ∀ (roots : List Digest) (slot : ℕ) (d : Bytes), slice 0 4 d = magic → slice 0 4 (writeRoots slot roots d) = magic
  | [], _, _, h => h
  | root :: roots, slot, d, h => by
    rw [writeRoots]
    exact magic_writeRoots hmagic roots (slot + 1) _ (magic_patch hmagic h (by omega))

theorem magic_appendRootsUnchecked {d : Bytes} {header : RootPageHeaderV1} {roots : List Digest}
    (h : slice 0 4 d = AccountKind.page.magic) :
    slice 0 4 (appendRootsUnchecked d header roots) = AccountKind.page.magic :=
  magic_patch rfl (magic_writeRoots rfl roots header.filled d h) (by omega)

theorem magic_writeNewPageUnchecked (pool : Pubkey) (number first : ℕ) (roots : List Digest) :
    slice 0 4 (writeNewPageUnchecked pool number first roots) = AccountKind.page.magic := by
  refine magic_writeRoots rfl roots 0 _ ?_
  rw [pageHeaderBytes, List.append_assoc, slice_append_left (by simp)]
  rfl

/-! ### Plans that an instruction leaves alone -/

/-- Outside the listed accounts no plan is written, closed or opened. -/
structure PlansKept (env : Environment) (except : List Pubkey) (l l' : Ledger) : Prop where
  kept : ∀ k, k ∉ except → HasKind env .core l k → HasKind env .core l' k ∧ (l' k).data = (l k).data
  opened : ∀ k, k ∉ except → HasKind env .core l' k → HasKind env .core l k

namespace PlansKept

variable {except except' : List Pubkey}

theorem trans (h : PlansKept env except l m) (h' : PlansKept env except' m n) :
    PlansKept env (except ++ except') l n where
  kept k hk hcore := by
    rw [List.mem_append, not_or] at hk
    obtain ⟨hcore', hdata⟩ := h.kept k hk.1 hcore
    obtain ⟨hcore'', hdata'⟩ := h'.kept k hk.2 hcore'
    exact ⟨hcore'', hdata'.trans hdata⟩
  opened k hk hcore := by
    rw [List.mem_append, not_or] at hk
    exact h.opened k hk.1 (h'.opened k hk.2 hcore)

theorem of_outside (h : Outside env.programId l l') : PlansKept env [] l l' where
  kept k _ hcore := ⟨hcore.outside h, (h.kept k hcore.owner_eq).2⟩
  opened _ _ hcore := (hcore.of_outside h).1

/-- Writes to accounts that neither were nor become plans. -/
theorem of_touches {keys : List Pubkey} (h : Touches keys l l')
    (hkeys : ∀ k ∈ keys, k ∉ except → ¬ HasKind env .core l k ∧ ¬ HasKind env .core l' k) :
    PlansKept env except l l' where
  kept k hk hcore := by
    obtain ⟨howner, hdata⟩ := h k fun hmem => (hkeys k hmem hk).1 hcore
    exact ⟨⟨howner.trans hcore.owner_eq, by rw [hdata]; exact hcore.magic_eq⟩, hdata⟩
  opened k hk hcore := by
    obtain ⟨howner, hdata⟩ := h k fun hmem => (hkeys k hmem hk).2 hcore
    exact ⟨howner.symm.trans hcore.owner_eq, by rw [← hdata]; exact hcore.magic_eq⟩

end PlansKept

theorem not_core_of_magic {kind : AccountKind} {k : Pubkey} (h : slice 0 4 (l k).data = kind.magic)
    (hne : kind ≠ .core) : ¬ HasKind env .core l k :=
  fun hcore => hne (AccountKind.magic_inj (h.symm.trans hcore.magic_eq))

/-- What an append leaves in its accounts: a pool state, and pages. -/
theorem AppendSpec.written_magic {pool current : AccountInfo} {supplied : Option AccountInfo}
    {source : AuthorizedSourceStateV1} {prevalidated : Option PrevalidatedCurrentHistoryV1} {r : AuthorizedAppendV1}
    {plan : AppendPlanV1} (hspec : AppendSpec env pool current supplied source prevalidated r l plan)
    (htargets : AppendTargets env pool.key current.key (plan.next.map (·.1)) m) {k : Pubkey}
    (hk : k ∈ pool.key :: current.key :: (plan.next.map (·.1)).toList) :
    slice 0 4 (plan.persist pool.key current.key m k).data = AccountKind.state.magic ∨
      slice 0 4 (plan.persist pool.key current.key m k).data = AccountKind.page.magic := by
  have hnext : ∀ n ∈ plan.next, n.1 ≠ pool.key ∧ n.1 ≠ current.key := by
    rintro ⟨key, number, first⟩ hplan
    obtain ⟨-, -, -, hpool, hcurrent, -⟩ := hspec.next_some key number first hplan
    exact ⟨hpool, hcurrent⟩
  simp only [List.mem_cons, Option.mem_toList] at hk
  rcases hk with rfl | rfl | hk
  · refine .inl ?_
    rw [plan.persist_pool hspec.pool_ne fun n hn => (hnext n hn).1]
    exact magic_of_preamble (magic_writeEncoding _)
  · refine .inr ?_
    rw [plan.persist_current hspec.pool_ne.symm fun n hn => (hnext n hn).2]
    split_ifs
    · exact magic_appendRootsUnchecked htargets.current_kind.magic_eq
    · exact htargets.current_kind.magic_eq
  · obtain ⟨⟨key, number, first⟩, hplan, rfl⟩ := Option.map_eq_some_iff.mp hk
    refine .inr ?_
    rw [plan.persist_next hplan]
    exact magic_writeNewPageUnchecked _ _ _ _

/-- The accounts of an append are no plans, before it and after it. -/
theorem AppendSpec.plansKept {pool current : AccountInfo} {supplied : Option AccountInfo}
    {source : AuthorizedSourceStateV1} {prevalidated : Option PrevalidatedCurrentHistoryV1} {r : AuthorizedAppendV1}
    {plan : AppendPlanV1} (hspec : AppendSpec env pool current supplied source prevalidated r l plan)
    (htargets : AppendTargets env pool.key current.key (plan.next.map (·.1)) m) :
    PlansKept env [] m (plan.persist pool.key current.key m) := by
  refine PlansKept.of_touches plan.persist_touches fun k hk _ => ⟨fun hcore =>
    htargets.not_target (by decide) (by decide) hcore hk, ?_⟩
  rcases hspec.written_magic htargets hk with hmagic | hmagic
  · exact not_core_of_magic hmagic (by decide)
  · exact not_core_of_magic hmagic (by decide)

/-- An append still has its targets after a write to an account that is none of them. -/
theorem AppendTargets.setData {pool current key : Pubkey} {next : Option Pubkey} (data : Bytes)
    (h : AppendTargets env pool current next l) (hkey : key ∉ pool :: current :: next.toList) :
    AppendTargets env pool current next (setData key data l) := by
  simp only [List.mem_cons, Option.mem_toList, not_or] at hkey
  obtain ⟨hpool, hcurrent, hnext⟩ := hkey
  refine ⟨⟨?_, ?_⟩, ⟨?_, ?_⟩, fun k hk => ?_⟩
  · rw [setData_owner, h.pool_kind.owner_eq]
  · rw [setData_of_ne (Ne.symm hpool), h.pool_kind.magic_eq]
  · rw [setData_owner, h.current_kind.owner_eq]
  · rw [setData_of_ne (Ne.symm hcurrent), h.current_kind.magic_eq]
  · have hne : k ≠ key := by
      rintro rfl
      exact hnext hk
    exact ⟨by rw [setData_owner, (h.next_zeroed k hk).owner_eq],
      by rw [setData_of_ne hne]; exact (h.next_zeroed k hk).zero_eq⟩

/-- Writing a record of another kind to a zeroed account opens no plan. -/
theorem PlansKept.setData {key : Pubkey} {data : Bytes} (kind : AccountKind) (hzero : Zeroed env l key)
    (hdata : slice 0 4 data = kind.magic) (hne : kind ≠ .core) : PlansKept env [] l (setData key data l) := by
  refine PlansKept.of_touches (Touches.setData key data l) fun k hk _ => ?_
  obtain rfl := List.mem_singleton.mp hk
  exact ⟨hzero.not_kind, not_core_of_magic (by rw [setData_self]; exact hdata) hne⟩

theorem DepositRun.plansKept {pool current : AccountInfo} {next : Option AccountInfo}
    {tokenAccounts : List AccountInfo} {c : CanonicalPoolStateV1} {r : DepositRequestV1}
    {transfer : LegacyDepositTransferPlanV1} {plan : AppendPlanV1} {created paid : Ledger} {receipt : DepositReceiptV1}
    (h : DepositRun env pool current next tokenAccounts c r transfer plan l created paid l' receipt) :
    PlansKept env [] l l' := by
  have hbefore := (h.created_call.outside env.programId_ne_system).trans
    (env.transferChecked_outside _ _ _ h.transferred)
  have hafter := (planAuthorizedAppend_spec h.append).plansKept h.targets
  rw [h.persisted] at hafter
  exact (PlansKept.of_outside hbefore).trans hafter

theorem SpendRun.plansKept {i : SpendInstructionV1} {pool current marker : AccountInfo} {next : Option AccountInfo}
    {source : AuthorizedSourceStateV1} {prevalidated : Option PrevalidatedCurrentHistoryV1} {r : AuthorizedAppendV1}
    {plan : AppendPlanV1} {planned : PlannedNullifierMarkerV1} {tokens : List AccountInfo}
    {withdrawal : Option LegacyWithdrawalTransferPlanV1} {created marked paid : Ledger} {receipt : TransitionReceiptV1}
    (h : SpendRun env i pool current marker next source prevalidated r plan planned tokens withdrawal l created marked
      paid l' receipt) : PlansKept env [] l l' := by
  have hbefore := (h.created_call.outside env.programId_ne_system).trans h.outside
  have hmarker : PlansKept env [] paid (Chain.setData marker.key planned.encodedMarker paid) := by
    refine PlansKept.setData .marker h.marker_zeroed ?_ (by decide)
    rw [h.marker_planned.encoded_eq]
    exact slice_markerBytes_magic planned.marker
  have hafter := (planAuthorizedAppend_spec h.append).plansKept (h.targets.setData planned.encodedMarker h.marker_not_target)
  rw [h.persisted] at hafter
  exact ((PlansKept.of_outside hbefore).trans hmarker).trans hafter

theorem InitializeRun.plansKept {pool pageZero : AccountInfo} {init : PoolInitializationV1} {state : PoolStateV1}
    {prepared : Ledger} (h : InitializeRun env pool pageZero init state l prepared l') : PlansKept env [] l l' := by
  have hpool : PlansKept env [] prepared (Chain.setData pool.key state.writeEncodingPrevalidated prepared) :=
    PlansKept.setData .state ⟨h.pool_owner, h.pool_zeroed⟩ (magic_of_preamble (magic_writeEncoding _)) (by decide)
  have hpageZero : Zeroed env (Chain.setData pool.key state.writeEncodingPrevalidated prepared) pageZero.key :=
    ⟨by rw [setData_owner, h.page.owner_eq], by rw [setData_of_ne h.distinct.symm]; exact h.page.zeroed⟩
  have hpage := PlansKept.setData .page hpageZero
    (magic_writeNewPageUnchecked pool.key 0 0 [env.emptyRoots POOL_V1_TREE_DEPTH]) (by decide)
  rw [← h.written] at hpage
  exact ((PlansKept.of_outside h.outside).trans hpool).trans hpage

/-- A preparation opens its core and no other plan. -/
theorem PrepareRun.plansKept {pool core : AccountInfo} {c : CanonicalPoolStateV1} {r : AuthorizedAppendV1}
    {images : PreparedSettlementPlanImagesV1} {f : PreparedSettlementPlanFieldsV1}
    {prepared : PreparedAuthorizedAppendImagesV1} {shard : Option PlannedShard} {created : Ledger}
    (h : PrepareRun env pool core c r images f prepared shard l created l') : PlansKept env [core.key] l l' := by
  have hcore : PlansKept env [core.key] created (Chain.setData core.key images.coreImage created) :=
    PlansKept.of_touches (Touches.setData core.key _ created) fun k hk hk' => absurd hk hk'
  refine (PlansKept.of_outside (h.created_call.outside env.programId_ne_system)).trans ?_
  rw [h.written]
  cases hshard : shard with
  | none => exact hcore
  | some s =>
    obtain ⟨howner, hzero, hmagic⟩ := h.shard_zeroed s hshard
    have hwrite : PlansKept env [core.key] (Chain.setData core.key images.coreImage created)
        (Chain.setData s.1.key s.2.1.image (Chain.setData core.key images.coreImage created)) := by
      refine PlansKept.of_touches (Touches.setData s.1.key _ _) fun k hk hk' => ?_
      obtain rfl := List.mem_singleton.mp hk
      have hne : s.1.key ≠ core.key := by simpa using hk'
      refine ⟨Zeroed.not_kind ⟨by rw [setData_owner, howner], by rw [setData_of_ne hne]; exact hzero⟩,
        @not_core_of_magic _ _ .shard _ (by rw [setData_self]; exact hmagic) (by decide)⟩
    exact ⟨fun k hk => (hcore.trans hwrite).kept k (by simpa using hk),
      fun k hk => (hcore.trans hwrite).opened k (by simpa using hk)⟩

/-- The core of a new plan is the encoded one: a shard written over it would be no plan. -/
theorem PrepareRun.core_written {pool core : AccountInfo} {c : CanonicalPoolStateV1} {r : AuthorizedAppendV1}
    {images : PreparedSettlementPlanImagesV1} {f : PreparedSettlementPlanFieldsV1}
    {prepared : PreparedAuthorizedAppendImagesV1} {shard : Option PlannedShard} {created : Ledger}
    (h : PrepareRun env pool core c r images f prepared shard l created l') (hcore : HasKind env .core l' core.key) :
    (l' core.key).data = images.coreImage := by
  rw [h.written] at hcore ⊢
  cases hshard : shard with
  | none => exact setData_self
  | some s =>
    subst hshard
    obtain ⟨-, -, hmagic⟩ := h.shard_zeroed s rfl
    have hne : core.key ≠ s.1.key := by
      intro heq
      refine @not_core_of_magic _ _ .shard _ ?_ (by decide) hcore
      rw [heq]
      exact (congrArg (slice 0 4) setData_self).trans hmagic
    exact (congrArg Account.data (setData_of_ne hne)).trans setData_self

/-- A closed plan is closed for good and no other plan is touched. -/
theorem PlanClosed.plansKept {core : AccountInfo} {shard : Option AccountInfo} (h : PlanClosed env core shard l l')
    (hkinds : ∀ k ∈ (shard.map (·.key)).toList ++ [core.key], k ≠ core.key → ¬ HasKind env .core l k) :
    PlansKept env [core.key] l l' := by
  refine PlansKept.of_touches h.touches fun k hk hk' => ⟨hkinds k hk (by simpa using hk'), fun hcore => ?_⟩
  exact env.programId_ne_system (hcore.owner_eq.symm.trans (h.disowned k hk))

/-- Of the accounts of a decoded plan only the core is a plan. -/
theorem shard_not_core {core : AccountInfo} {shard : Option AccountInfo} {bytes : Bytes}
    {v : PreparedSettlementPlanViewV1} (howner : ∀ account ∈ shard, (l account.key).owner = env.programId)
    (hv : decodePreparedSettlementPlanV1 env core.key bytes (shardAccountView shard l) = .ok v) :
    ∀ k ∈ (shard.map (·.key)).toList ++ [core.key], k ≠ core.key → ¬ HasKind env .core l k := by
  intro k hk hne
  rw [List.mem_append, List.mem_singleton, Option.mem_toList] at hk
  rcases hk with hk | hk
  · obtain ⟨account, haccount, rfl⟩ := Option.map_eq_some_iff.mp hk
    exact (hasKind_shard (howner account haccount) haccount hv).not_kind_of_ne (by decide)
  · exact absurd hk hne

theorem CancelRun.plansKept {core : AccountInfo} {shard : Option AccountInfo} (h : CancelRun env core shard l l') :
    PlansKept env [core.key] l l' := by
  obtain ⟨v, hv, -⟩ := h.decoded
  exact h.closed.plansKept (shard_not_core h.shard_owner hv)

section Settle
variable {services : AuthorizationServices} {accounts : List AccountInfo} {pool : AccountInfo} {kind : PoolV1TransitionKind}
  {s : PoolStateV1} {layout : SettlePreparedLayoutV1} {x : PreparedSettlementApplyContextV1}
  {v : PreparedSettlementPlanViewV1} {a : AuthenticatedSettlementStatementV1} {sourceNext : Option Bytes}
  {applied : PreparedSettlementApplyResultV1} {planned : PlannedNullifierMarkerV1}
  {withdrawal : Option LegacyWithdrawalTransferPlanV1} {marked paid closing : Ledger} {receipt : TransitionReceiptV1}

/-- The result image keeps the head of the pool image it replaces. -/
theorem AppliedPlan.pool_magic {result : PreparedSettlementApplyResultV1} {magic : Bytes}
    (h : AppliedPlan env services x v a sourceNext result) (hsource : slice 0 4 x.sourcePoolImage = magic) :
    slice 0 4 result.nextPoolImage = magic := by
  have hmatch := h.state_match
  simp only [sourceStateAndResultImageMatch, except_bind_eq_ok, require_eq_ok] at hmatch
  obtain ⟨_, -, _, -, hhead, -⟩ := hmatch
  rw [h.image_eq, ← hsource, ← slice_slice v.fields.nextPoolImage (by omega : 0 + 4 ≤ 40), hhead,
    slice_slice x.sourcePoolImage (by omega)]

theorem magic_nextCurrentImage {data : Bytes} {header : RootPageHeaderV1} {roots : List Digest} {inCurrent : ℕ}
    (h : slice 0 4 data = AccountKind.page.magic) :
    slice 0 4 (nextCurrentImage data header roots inCurrent) = AccountKind.page.magic := by
  unfold nextCurrentImage
  split_ifs
  · exact magic_appendRootsUnchecked h
  · exact h

/-- What a settlement leaves in the pool and its pages. -/
theorem SettleRun.closing_magic (h : SettleRun env services accounts pool kind s layout x v a sourceNext applied
    planned withdrawal l marked paid closing l' receipt) {k : Pubkey}
    (hk : k ∈ pool.key :: layout.current.key :: (layout.next.map (·.key)).toList) :
    slice 0 4 (closing k).data = AccountKind.state.magic ∨ slice 0 4 (closing k).data = AccountKind.page.magic := by
  have htargets := h.targets.outside h.outside
  obtain ⟨header, inCurrent, hhistory⟩ := h.history
  have hpoolCurrent := htargets.pool_kind.ne_of_kind htargets.current_kind (by decide)
  have hnextPool : ∀ n ∈ layout.next, n.key ≠ pool.key := fun n hn =>
    (htargets.next_zeroed n.key (by rw [hn]; rfl)).ne_of_kind htargets.pool_kind
  have hnextCurrent : ∀ n ∈ layout.next, n.key ≠ layout.current.key := fun n hn =>
    (htargets.next_zeroed n.key (by rw [hn]; rfl)).ne_of_kind htargets.current_kind
  have hdata : (closing k).data = (imagesWritten pool.key layout applied paid k).data := by
    have hne : k ≠ layout.marker.key := by
      rintro rfl
      exact h.marker_not_image hk
    rw [h.written, setData_of_ne hne]
  simp only [List.mem_cons, Option.mem_toList] at hk
  rw [hdata]
  rcases hk with rfl | rfl | hk
  · refine .inl ?_
    rw [imagesWritten_pool layout applied hpoolCurrent hnextPool]
    refine h.applied_plan.pool_magic ?_
    rw [h.context_source]
    exact h.targets.pool_kind.magic_eq
  · refine .inr ?_
    rw [imagesWritten_current layout applied hpoolCurrent.symm hnextCurrent]
    split_ifs
    · rw [h.applied_plan.current_image_eq, hhistory.current_eq]
      exact magic_nextCurrentImage h.targets.current_kind.magic_eq
    · exact htargets.current_kind.magic_eq
  · obtain ⟨next, hnext, rfl⟩ := Option.map_eq_some_iff.mp hk
    have hsource : (l next.key).data ∈ sourceNext := by
      rw [h.next_source.1, hnext]
      rfl
    obtain ⟨-, -, -, hrollover⟩ := hhistory.next_some _ hsource
    refine .inr ?_
    rw [imagesWritten_next layout applied hnext (h.applied_plan.next_image_eq.trans hrollover)]
    exact magic_writeNewPageUnchecked _ _ _ _

/-- What a settlement writes besides the plan: pool, pages and marker, none of them a plan. -/
theorem SettleRun.closing_plansKept (h : SettleRun env services accounts pool kind s layout x v a sourceNext applied
    planned withdrawal l marked paid closing l' receipt) : PlansKept env [] paid closing := by
  have htargets := h.targets.outside h.outside
  refine PlansKept.of_touches h.closing_touches fun k hk _ => ?_
  rw [List.mem_append, List.mem_singleton] at hk
  rcases hk with hk | rfl
  · refine ⟨fun hcore => htargets.not_target (by decide) (by decide) hcore hk, ?_⟩
    rcases h.closing_magic hk with hmagic | hmagic
    · exact not_core_of_magic hmagic (by decide)
    · exact not_core_of_magic hmagic (by decide)
  · refine ⟨h.marker_zeroed.not_kind, @not_core_of_magic _ _ .marker _ ?_ (by decide)⟩
    rw [h.written, setData_self, h.marker_planned.encoded_eq]
    exact slice_markerBytes_magic planned.marker

theorem SettleRun.plan_decoded (h : SettleRun env services accounts pool kind s layout x v a sourceNext applied planned
    withdrawal l marked paid closing l' receipt) :
    decodePreparedSettlementPlanV1 env layout.core.key (l layout.core.key).data (shardAccountView layout.shard l) =
      .ok v := by
  have hv := h.applied_plan.decoded
  rwa [h.context_core.1, h.context_core.2, h.context_shard] at hv

/-- A settlement closes its core and touches no other plan. -/
theorem SettleRun.plansKept (h : SettleRun env services accounts pool kind s layout x v a sourceNext applied planned
    withdrawal l marked paid closing l' receipt) : PlansKept env [layout.core.key] l l' := by
  have hbefore := (PlansKept.of_outside h.outside).trans h.closing_plansKept
  refine hbefore.trans (h.closed.plansKept fun k hk hne hcore => ?_)
  exact shard_not_core h.shard_owner h.plan_decoded k hk hne (hbefore.opened k (by simp) hcore)

end Settle

/-! ### Closing a plan -/

/-- The authority a plan account records. -/
def planAuthorityAt (l : Ledger) (k : Pubkey) : Pubkey := Bytes32.read 80 (l k).data

/-- The plan account and the shard account it names. -/
def planAccountsAt (l : Ledger) (k : Pubkey) : List Pubkey := (planShardOf (l k).data).toList ++ [k]

/-- An instruction that closed the plan at `k`: from the moment the closing
began, both plan accounts were emptied into the account of the recorded
authority; until then they held what they held before the instruction. -/
structure ClosesPlan (env : Environment) (k : Pubkey) (l l' : Ledger) : Prop where
  was_open : HasKind env .core l k
  now_closed : ¬ HasKind env .core l' k
  refunded : ∃ closing, (∀ a ∈ planAccountsAt l k, (closing a).lamports = (l a).lamports) ∧
    Refunds (planAccountsAt l k) (planAuthorityAt l k) closing l'

/-- No byte of a pool state, a history page or a marker changes, and none is written. -/
def PoolRecordsKept (env : Environment) (l l' : Ledger) : Prop :=
  ∀ kind k, kind = .state ∨ kind = .page ∨ kind = .marker →
    (HasKind env kind l k ↔ HasKind env kind l' k) ∧ (HasKind env kind l k → (l' k).data = (l k).data)

theorem planAccountsAt_eq {core : AccountInfo} {shard : Option AccountInfo} {v : PreparedSettlementPlanViewV1}
    (hv : decodePreparedSettlementPlanV1 env core.key (l core.key).data (shardAccountView shard l) = .ok v) :
    (shard.map (·.key)).toList ++ [core.key] = planAccountsAt l core.key ∧
      v.fields.planAuthority = planAuthorityAt l core.key := by
  obtain ⟨hauthority, hshard⟩ := decodePreparedSettlementPlanV1_recorded env hv
  refine ⟨?_, hauthority⟩
  rw [planAccountsAt, ← hshard]
  cases shard <;> rfl

theorem PlanClosed.not_core {core : AccountInfo} {shard : Option AccountInfo} (h : PlanClosed env core shard l l') :
    ¬ HasKind env .core l' core.key := fun hcore =>
  env.programId_ne_system (hcore.owner_eq.symm.trans (h.disowned core.key (by simp)))

theorem CancelRun.closes {core : AccountInfo} {shard : Option AccountInfo} (h : CancelRun env core shard l l') :
    ClosesPlan env core.key l l' := by
  obtain ⟨v, hv, hrefunds⟩ := h.decoded
  obtain ⟨haccounts, hauthority⟩ := planAccountsAt_eq hv
  rw [haccounts, hauthority] at hrefunds
  exact ⟨hasKind_core h.core_owner hv, h.closed.not_core, l, fun _ _ => rfl, hrefunds⟩

/-- A cancellation touches the two plan accounts only, and they held no other record. -/
theorem CancelRun.recordsKept {core : AccountInfo} {shard : Option AccountInfo} (h : CancelRun env core shard l l') :
    PoolRecordsKept env l l' := by
  obtain ⟨v, hv, -⟩ := h.decoded
  intro kind k hkind
  by_cases hk : k ∈ (shard.map (·.key)).toList ++ [core.key]
  · have hbefore : ¬ HasKind env kind l k := by
      rcases plan_kinds h.core_owner h.shard_owner hv k hk with hplan | hplan <;>
        refine hplan.not_kind_of_ne ?_ <;> rcases hkind with rfl | rfl | rfl <;> decide
    have hafter : ¬ HasKind env kind l' k := fun hk' =>
      env.programId_ne_system (hk'.owner_eq.symm.trans (h.closed.disowned k hk))
    exact ⟨iff_of_false hbefore hafter, fun hk' => absurd hk' hbefore⟩
  · obtain ⟨howner, hdata⟩ := h.closed.touches k hk
    refine ⟨⟨fun hk' => ⟨howner.trans hk'.owner_eq, by rw [hdata]; exact hk'.magic_eq⟩,
      fun hk' => ⟨howner.symm.trans hk'.owner_eq, by rw [← hdata]; exact hk'.magic_eq⟩⟩, fun _ => hdata⟩

/-- What the closing relies on of the token program: it moves no lamports of the pool program's accounts. -/
def TransferKeepsLamports (env : Environment) : Prop :=
  ∀ t l l' k, env.transferChecked t l = .ok l' → (l k).owner = env.programId → (l' k).lamports = (l k).lamports

theorem Paid.lamports {tokens : List AccountInfo} {withdrawal : Option LegacyWithdrawalTransferPlanV1} {k : Pubkey}
    (hlaw : TransferKeepsLamports env) (h : Paid env tokens withdrawal l l') (hk : (l k).owner = env.programId) :
    (l' k).lamports = (l k).lamports := by
  cases withdrawal with
  | none => rw [show l' = l from h]
  | some transfer => exact hlaw _ _ _ k h.1 hk

theorem SettleRun.closes {services : AuthorizationServices} {accounts : List AccountInfo} {pool : AccountInfo}
    {kind : PoolV1TransitionKind} {s : PoolStateV1} {layout : SettlePreparedLayoutV1}
    {x : PreparedSettlementApplyContextV1} {v : PreparedSettlementPlanViewV1} {a : AuthenticatedSettlementStatementV1}
    {sourceNext : Option Bytes} {applied : PreparedSettlementApplyResultV1} {planned : PlannedNullifierMarkerV1}
    {withdrawal : Option LegacyWithdrawalTransferPlanV1} {marked paid closing : Ledger} {receipt : TransitionReceiptV1}
    (hlaw : TransferKeepsLamports env)
    (h : SettleRun env services accounts pool kind s layout x v a sourceNext applied planned withdrawal l marked paid
      closing l' receipt) : ClosesPlan env layout.core.key l l' := by
  obtain ⟨haccounts, hauthority⟩ := planAccountsAt_eq h.plan_decoded
  refine ⟨hasKind_core h.core_owner h.plan_decoded, h.closed.not_core, closing, fun k hk => ?_, ?_⟩
  · rw [← haccounts] at hk
    have howner : (l k).owner = env.programId := by
      rcases Pool.plan_kinds h.core_owner h.shard_owner h.plan_decoded k hk with hkind | hkind <;> exact hkind.owner_eq
    have hmarked := (h.marked_call.outside env.programId_ne_system).kept k howner
    rw [h.written, setData_lamports, imagesWritten_lamports, Paid.lamports hlaw h.paid_step hmarked.1]
    exact h.marked_lamports k (howner ▸ env.programId_ne_system)
  · have hrefunds := h.refunded
    rwa [haccounts, hauthority] at hrefunds

end

/-! ### Runs -/

/-- The event settled or cancelled the plan at `k`. -/
def Event.ClosesPlanAt (env : Environment) (l : Ledger) (k : Pubkey) : Event → Prop
  | .accepted (.settlePrepared accounts i _) _ =>
    ∃ layout, settleLayout env accounts i.transitionKind l = .ok layout ∧ layout.core.key = k
  | .accepted (.cancelPreparedSettlement accounts _) _ => accounts[1]?.map (·.key) = some k
  | _ => False

/-- The event prepared a settlement, paid by the given account. -/
def Event.PreparedBy (payer : Pubkey) : Event → Prop
  | .accepted (.prepareSettlement accounts _ _) _ => accounts.head?.map (·.key) = some payer
  | _ => False

def Event.Cancels : Event → Prop
  | .accepted (.cancelPreparedSettlement _ _) _ => True
  | _ => False

/-- What one event does to the plan at `k`. -/
structure PlanStep (env : Environment) (k : Pubkey) (l : Ledger) (e : Event) (l' : Ledger) : Prop where
  closes : e.ClosesPlanAt env l k → ClosesPlan env k l l'
  kept : ¬ e.ClosesPlanAt env l k → HasKind env .core l k → HasKind env .core l' k ∧ (l' k).data = (l k).data
  opens : ¬ HasKind env .core l k → HasKind env .core l' k → e.PreparedBy (planAuthorityAt l' k)
  cancels : e.Cancels → PoolRecordsKept env l l'

section
variable {env : Environment} {k : Pubkey} {l l' : Ledger}

/-- An event that closes or opens nothing. -/
theorem PlansKept.planStep {e : Event} (h : PlansKept env [] l l') (hcloses : ¬ e.ClosesPlanAt env l k)
    (hcancels : ¬ e.Cancels) : PlanStep env k l e l' where
  closes hclose := absurd hclose hcloses
  kept _ := h.kept k (by simp)
  opens hnot hcore := absurd (h.opened k (by simp) hcore) hnot
  cancels hcancel := absurd hcancel hcancels

/-- An event that closes the plan at `core` and touches no other. -/
theorem PlansKept.planStep_close {e : Event} {core : Pubkey} (h : PlansKept env [core] l l')
    (hclose : ClosesPlan env core l l') (hat : e.ClosesPlanAt env l k ↔ core = k)
    (hcancels : e.Cancels → PoolRecordsKept env l l') : PlanStep env k l e l' := by
  refine ⟨fun hk => hat.mp hk ▸ hclose, fun hk => h.kept k ?_, fun hnot hcore => ?_, hcancels⟩
  · rw [List.mem_singleton]
    exact fun heq => hk (hat.mpr heq.symm)
  · by_cases hk : k = core
    · exact absurd (hk ▸ hcore) hclose.now_closed
    · exact absurd (h.opened k (by simpa using hk) hcore) hnot

theorem PrepareRun.planStep {pool core : AccountInfo} {c : CanonicalPoolStateV1} {request : PrepareSettlementRequestV1}
    {images : PreparedSettlementPlanImagesV1} {f : PreparedSettlementPlanFieldsV1}
    {prepared : PreparedAuthorizedAppendImagesV1} {shard : Option PlannedShard} {created : Ledger}
    {accounts : List AccountInfo} {slot : ℕ} {o : Outcome}
    (h : PrepareRun env pool core c request.request images f prepared shard l created l')
    (hauthority : accounts.head?.map (·.key) = some f.planAuthority) :
    PlanStep env k l (.accepted (.prepareSettlement accounts request slot) o) l' := by
  refine ⟨fun hclose => absurd hclose id, fun _ hcore => ?_, fun hnot hcore => ?_, fun hcancel => absurd hcancel id⟩
  · -- a plan already there is not the fresh core
    refine h.plansKept.kept k ?_ hcore
    rw [List.mem_singleton]
    rintro rfl
    exact Zeroed.not_kind ⟨h.core_zeroed.1, h.core_zeroed.2⟩
      (hcore.outside (h.created_call.outside env.programId_ne_system))
  · by_cases hk : k = core.key
    · subst hk
      have hdata : (l' core.key).data = images.coreImage := h.core_written hcore
      obtain ⟨_, _, hencoded⟩ := h.built.encoded
      rw [Event.PreparedBy, hauthority, planAuthorityAt, hdata, encodePreparedSettlementPlanV1_authority env hencoded]
    · exact absurd (h.plansKept.opened k (by simpa using hk) hcore) hnot

theorem Accepted.planStep {services : AuthorizationServices} {i : Instruction} {o : Outcome}
    (hlaw : TransferKeepsLamports env) (h : Accepted env services l l' i o) : PlanStep env k l (.accepted i o) l' := by
  cases h with
  | initializePool run => exact run.plansKept.planStep id id
  | deposit run => exact run.plansKept.planStep id id
  | spend direct run => cases i <;> first | exact run.plansKept.planStep id id | cases direct
  | prepare named authority run => exact run.planStep authority
  | settle named payload run =>
    refine run.plansKept.planStep_close (run.closes hlaw) ⟨fun hat => ?_, fun hk => ⟨_, run.layout_eq, hk⟩⟩
      fun hcancel => absurd hcancel id
    obtain ⟨layout, hlayout, hk⟩ := hat
    rw [run.layout_eq] at hlayout
    cases hlayout
    exact hk
  | cancel named run =>
    refine run.plansKept.planStep_close run.closes ?_ fun _ => run.recordsKept
    rw [Event.ClosesPlanAt, named, Option.map_some, Option.some_inj]

end

section
variable {d : Deployment} {l l' : Ledger} {k : Pubkey}

theorem Deployment.Step.planStep {e : Event} (hlaw : TransferKeepsLamports d.env) (h : d.Step l e l') :
    PlanStep d.env k l e l' := by
  cases e with
  | outside => exact (PlansKept.of_outside h).planStep id id
  | rejected i =>
    obtain ⟨-, rfl⟩ := h
    exact (PlansKept.of_outside (Outside.refl _ l')).planStep id id
  | accepted i o => exact (processInstruction_accepted h).planStep hlaw

end

end Aspis.Pool
