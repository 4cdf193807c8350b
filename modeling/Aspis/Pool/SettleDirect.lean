import Aspis.Pool.Refinement

/-! The prepared path against the direct one. A plan carries the pool image and
the receipts that the direct spend would compute from the same state; the pages
are recomputed from them when it is settled. Both paths write the same bytes
except where a single root is the first of a new page, and a plan whose pool has
moved on is refused before anything is written. Nothing here assumes that the
pool was reached by a run. -/

namespace Aspis.Pool

open Lib Chain Statement

section
variable {env : Environment}

/-! ### Plans for an arbitrary state -/

theorem carryLoop_canonical (n : ℕ) : ∀ (fuel level : ℕ) (frontier : Fin POOL_V1_TREE_DEPTH → Digest) (carry : Digest),
    DigestIsCanonical carry →
      DigestIsCanonical (carryLoop env.treeParent env.emptyRoots n fuel level frontier carry).2.2
  | 0, _, _, _, hcarry => hcarry
  | fuel + 1, level, frontier, carry, hcarry => by
    unfold carryLoop
    split
    · exact carryLoop_canonical n fuel _ _ _ (env.treeParent_canonical _ _)
    · exact hcarry

theorem rootLoop_canonical (n : ℕ) (frontier : Fin POOL_V1_TREE_DEPTH → Digest) : ∀ (fuel level : ℕ) (node : Digest),
    DigestIsCanonical node → DigestIsCanonical (rootLoop env.treeParent env.emptyRoots n frontier fuel level node)
  | 0, _, _, hnode => hnode
  | fuel + 1, level, node, hnode => by
    unfold rootLoop
    split
    · refine rootLoop_canonical n frontier fuel _ _ ?_
      split_ifs <;> exact env.treeParent_canonical _ _
    · exact hnode

/-- The receipt of a carry append can be encoded. -/
theorem encodable_carryAppend {t : PoolTree} {leaf : Digest} (hleaf : DigestIsCanonical leaf)
    (hlt : t.nextLeafIndex + 1 < U64_LIMIT) :
    EncodableReceipt (carryAppend env.treeParent env.emptyRoots t leaf).2 := by
  refine ⟨hlt, rfl, rfl, ?_⟩
  simp only [carryAppend]
  by_cases hfull : (carryLoop env.treeParent env.emptyRoots t.nextLeafIndex POOL_V1_TREE_DEPTH 0 t.frontier leaf).1 =
      POOL_V1_TREE_DEPTH
  · rw [if_pos hfull]
    exact carryLoop_canonical _ _ _ _ _ hleaf
  · rw [if_neg hfull]
    exact rootLoop_canonical _ _ _ _ _ (env.emptyRoots_canonical _)

/-- Plan fields that describe appending `r` to the state `s`. -/
structure PlanFrom (env : Environment) (s : PoolStateV1) (r : AuthorizedAppendV1) (f : PreparedSettlementPlanFieldsV1) :
    Prop where
  kind_eq : f.transitionKind = r.transitionKind
  commitments_eq : (f.firstCommitment, f.secondCommitment) = r.commitments
  receipt_eq : (⟨f.firstReceipt, f.secondReceipt⟩ : AuthorizedAppendReceiptV1) = (appended env s r).receipt
  image_eq : f.nextPoolImage = (appended env s r).nextState.writeEncodingPrevalidated
  sequence_eq : f.sourceSequence = s.currentRootSequence

theorem BuiltPlan.planFrom {pool : Pubkey} {c : CanonicalPoolStateV1} {r : AuthorizedAppendV1}
    {images : PreparedSettlementPlanImagesV1} {f : PreparedSettlementPlanFieldsV1}
    {prepared : PreparedAuthorizedAppendImagesV1} (h : BuiltPlan env pool c r images f prepared) :
    PlanFrom env c.state r f ∧ EncodablePlan f := by
  have hprepared := h.prepared_eq
  simp only [prepareAuthorizedAppendImagesV1, AuthorizedAppendV1.validateLeaves, except_bind_eq_ok, require_eq_ok,
    except_pure_eq_ok] at hprepared
  obtain ⟨_, hcanon, p, hp, rfl⟩ := hprepared
  obtain ⟨hlt, -⟩ := prepare_cursor hp
  obtain ⟨rfl, -⟩ := prepare_appended hp
  have hplan : PlanFrom env c.state r f :=
    ⟨h.kind_eq, h.commitments_eq, by rw [h.first_eq, h.second_eq]; rfl, h.image_eq, h.sequence_eq⟩
  have hfirst := h.first_eq
  have hsecond := h.second_eq
  have hcommitments := h.commitments_eq
  simp only [AuthorizedSourceStateV1.asState, PoolStateV1.currentRootSequence] at hlt
  have hseq : f.sourceSequence < U64_LIMIT := by
    rw [h.sequence_eq, PoolStateV1.currentRootSequence]
    omega
  have himage : f.nextPoolImage.length = POOL_V1_STATE_ACCOUNT_BYTES := by rw [h.image_eq]; simp
  refine ⟨hplan, hseq, ?_, ?_, ?_, ?_, himage⟩ <;> cases r <;>
    simp only [AuthorizedAppendV1.commitments, Prod.mk.injEq, AuthorizedAppendV1.count, AuthorizedAppendV1.leaves,
      List.mem_cons, List.not_mem_nil, or_false, forall_eq_or_imp, forall_eq, AuthorizedSourceStateV1.asState,
      appended] at hcommitments hlt hcanon hfirst hsecond
  · rw [hfirst]
    exact encodable_carryAppend hcanon hlt
  · rw [hfirst]
    exact encodable_carryAppend hcanon.1 (by omega)
  · simp [hsecond]
  · rw [hsecond]
    rintro _ ⟨⟩
    exact encodable_carryAppend hcanon.2 hlt
  · rw [hcommitments.1]
    exact hcanon
  · rw [hcommitments.1]
    exact hcanon.1
  · simp [hcommitments.2]
  · rw [hcommitments.2]
    rintro _ ⟨⟩
    exact hcanon.2

theorem PlanFrom.of_same {s : PoolStateV1} {r : AuthorizedAppendV1} {f v : PreparedSettlementPlanFieldsV1}
    (h : PlanFrom env s r f) (hsame : SamePlan v f) : PlanFrom env s r v :=
  ⟨hsame.kind_eq.trans h.kind_eq, by rw [hsame.firstCommitment_eq, hsame.secondCommitment_eq]; exact h.commitments_eq,
    by rw [hsame.first_eq, hsame.second_eq]; exact h.receipt_eq, hsame.image_eq.trans h.image_eq,
    hsame.sequence_eq.trans h.sequence_eq⟩

/-- Both decoders of the state account read the same state. -/
theorem decodeStateWith_ok {decode : Bytes → Except ProgramError PoolTree} {data : Bytes} {pool : Pubkey}
    {s : PoolStateV1} (h : decodeStateWith decode data pool = .ok s) :
    decodePoolIdentityV1 (slice 64 144 data) = .ok s.identity ∧
      decodeVerifierPolicyV1 (slice 208 104 data) = .ok s.verifierPolicy ∧ decode (slice 312 688 data) = .ok s.tree ∧
      leNat (slice 40 8 data) = s.currentRootSequence := by
  simp only [decodeStateWith, except_bind_eq_ok, require_eq_ok, mapErr_eq_ok, except_pure_eq_ok] at h
  obtain ⟨_, -, identity, hidentity, _, -, policy, hpolicy, tree, htree, _, ⟨hseq, -⟩, rfl⟩ := h
  exact ⟨hidentity, hpolicy, htree, hseq⟩

theorem decode_agree {data : Bytes} {pool : Pubkey} {s s' : PoolStateV1}
    (h : PoolStateV1.decodeWithValidatedTree env data pool = .ok s)
    (h' : PoolStateV1.decodeFromProgramInvariant env data pool = .ok s') : s = s' := by
  obtain ⟨hidentity, hpolicy, htree, -⟩ := decodeStateWith_ok h
  obtain ⟨hidentity', hpolicy', htree', -⟩ := decodeStateWith_ok h'
  simp only [decodeTree, decodeTreeFromProgramInvariant, except_bind_eq_ok, mapErr_eq_ok, except_pure_eq_ok] at htree htree'
  obtain ⟨t, ht, -, -, heq⟩ := htree
  obtain ⟨t', ht', -, -, -, -, -, -, heq'⟩ := htree'
  obtain rfl := Except.ok.inj (ht.symm.trans ht')
  have hid := Except.ok.inj (hidentity.symm.trans hidentity')
  have hpol := Except.ok.inj (hpolicy.symm.trans hpolicy')
  cases s
  cases s'
  simp_all

/-! ### Every append moves its pool on -/

section Advances
variable {l l' : Ledger} {k : Pubkey}

/-- A state account stays one, its root sequence never falls, and it rises when
leaves are appended to it. -/
structure Advances (env : Environment) (l l' : Ledger) (k : Pubkey) (appends : Prop) : Prop where
  state_kind : HasKind env .state l' k
  sequence_le : rootSequenceAt l k ≤ rootSequenceAt l' k
  sequence_lt : appends → rootSequenceAt l k < rootSequenceAt l' k

theorem Advances.of_kept {m : Ledger} {appends : Prop} (hout : Outside env.programId l m) (hk : HasKind env .state l k)
    (hkept : (l' k).owner = (m k).owner ∧ (l' k).data = (m k).data) (hnot : ¬ appends) : Advances env l l' k appends := by
  obtain ⟨howner, hdata⟩ := hout.kept k hk.owner_eq
  have hsame : (l' k).data = (l k).data := hkept.2.trans hdata
  refine ⟨⟨hkept.1.trans howner, by rw [hsame]; exact hk.magic_eq⟩, ?_, fun h => absurd h hnot⟩
  rw [rootSequenceAt, rootSequenceAt, hsame]

/-- The state a persisted append leaves behind is further on. -/
theorem Advances.of_prepared {source : AuthorizedSourceStateV1} {r : AuthorizedAppendV1} {p : PreparedAuthorizedAppendV1}
    {appends : Prop} (hprepared : source.prepare env r = .ok p)
    (hsource : rootSequenceAt l k = source.asState.currentRootSequence) (howner : (l' k).owner = env.programId)
    (hdata : (l' k).data = p.nextState.writeEncodingPrevalidated) : Advances env l l' k appends := by
  obtain ⟨hlt, hcursor⟩ := prepare_cursor hprepared
  have hsequence : rootSequenceAt l' k = rootSequenceAt l k + r.count := by
    rw [rootSequenceAt, hdata, sequence_writeEncoding (by rw [hcursor]; exact hlt), hcursor, hsource]
  have hcount := r.count_le
  refine ⟨⟨howner, by rw [hdata]; exact magic_of_preamble (magic_writeEncoding _)⟩, ?_, fun _ => ?_⟩ <;> omega

theorem DepositRun.advances {pool current : AccountInfo} {next : Option AccountInfo} {tokenAccounts : List AccountInfo}
    {c : CanonicalPoolStateV1} {r : DepositRequestV1} {transfer : LegacyDepositTransferPlanV1} {plan : AppendPlanV1}
    {created paid : Ledger} {receipt : DepositReceiptV1}
    (h : DepositRun env pool current next tokenAccounts c r transfer plan l created paid l' receipt)
    (hk : HasKind env .state l k) : Advances env l l' k (receipt.pool = k) := by
  obtain ⟨howner, hdecode, -, -⟩ := decodeAccountWith_ok h.decoded
  obtain ⟨-, -, hidentity⟩ := decodeStateWith_magic hdecode
  have hout := (h.created_call.outside env.programId_ne_system).trans (env.transferChecked_outside _ _ _ h.transferred)
  have hspec := planAuthorizedAppend_spec h.append
  by_cases hkp : k = pool.key
  · subst hkp
    refine Advances.of_prepared hspec.prepared (decodeStateWith_ok hdecode).2.2.2 ?_ ?_
    · rw [← h.persisted, plan.persist_owner]
      exact (hout.kept _ howner).1
    · rw [← h.persisted]
      refine plan.persist_pool hspec.pool_ne ?_
      rintro ⟨key, number, first⟩ hplan
      exact (hspec.next_some key number first hplan).2.2.2.1
  · refine Advances.of_kept hout hk ?_ fun heq => hkp (by rw [← heq, h.receipt_pool, hidentity])
    rw [← h.persisted]
    exact plan.persist_touches k (h.targets.not_state_target (hk.outside hout) hkp)

theorem SpendRun.advances {i : SpendInstructionV1} {pool current marker : AccountInfo} {next : Option AccountInfo}
    {source : AuthorizedSourceStateV1} {prevalidated : Option PrevalidatedCurrentHistoryV1} {r : AuthorizedAppendV1}
    {plan : AppendPlanV1} {planned : PlannedNullifierMarkerV1} {tokens : List AccountInfo}
    {withdrawal : Option LegacyWithdrawalTransferPlanV1} {created marked paid : Ledger} {receipt : TransitionReceiptV1}
    (h : SpendRun env i pool current marker next source prevalidated r plan planned tokens withdrawal l created marked
      paid l' receipt) (hk : HasKind env .state l k) : Advances env l l' k (receipt.pool = k) := by
  have hcreated := h.created_call.outside env.programId_ne_system
  have hout := hcreated.trans h.outside
  have hspec := planAuthorizedAppend_spec h.append
  have hne : k ≠ marker.key := fun heq => h.marker_zeroed.not_kind (heq ▸ hk.outside hout)
  by_cases hkp : k = pool.key
  · subst hkp
    refine Advances.of_prepared hspec.prepared ?_ ?_ ?_
    · rw [rootSequenceAt, ← (hcreated.kept _ h.pool_owner).2]
      exact (decodeStateWith_ok h.decoded).2.2.2
    · rw [← h.persisted, plan.persist_owner, setData_owner]
      exact (hout.kept _ h.pool_owner).1
    · rw [← h.persisted]
      refine plan.persist_pool hspec.pool_ne ?_
      rintro ⟨key, number, first⟩ hplan
      exact (hspec.next_some key number first hplan).2.2.2.1
  · refine Advances.of_kept hout hk ?_ fun heq => hkp (by rw [← heq, h.receipt_pool])
    rw [← h.persisted, ← @setData_of_ne paid _ _ planned.encodedMarker hne]
    exact plan.persist_touches k (h.targets.not_state_target (hk.outside hout) hkp)

theorem SettleRun.advances {services : AuthorizationServices} {accounts : List AccountInfo} {pool : AccountInfo}
    {kind : PoolV1TransitionKind} {s : PoolStateV1} {layout : SettlePreparedLayoutV1}
    {x : PreparedSettlementApplyContextV1} {v : PreparedSettlementPlanViewV1} {a : AuthenticatedSettlementStatementV1}
    {sourceNext : Option Bytes} {applied : PreparedSettlementApplyResultV1} {planned : PlannedNullifierMarkerV1}
    {withdrawal : Option LegacyWithdrawalTransferPlanV1} {marked paid closing : Ledger} {receipt : TransitionReceiptV1}
    (h : SettleRun env services accounts pool kind s layout x v a sourceNext applied planned withdrawal l marked paid
      closing l' receipt) (hk : HasKind env .state l k) : Advances env l l' k (receipt.pool = k) := by
  have htargets := h.targets.outside h.outside
  have hkPaid := hk.outside h.outside
  by_cases hkp : k = pool.key
  · subst hkp
    have hmatch := h.applied_plan.state_match
    rw [h.context_source] at hmatch
    simp only [sourceStateAndResultImageMatch, except_bind_eq_ok, require_eq_ok] at hmatch
    obtain ⟨_, ⟨hsource, -⟩, _, hlt, hhead, -, -, hsequence, -⟩ := hmatch
    obtain ⟨howner, hdata⟩ := h.image_kept (k := pool.key) (by simp)
    rw [imagesWritten_pool layout applied (htargets.pool_kind.ne_of_kind htargets.current_kind (by decide)) fun n hn =>
      (htargets.next_zeroed n.key (Option.map_eq_some_iff.mpr ⟨n, hn, rfl⟩)).ne_of_kind htargets.pool_kind,
      h.applied_plan.image_eq] at hdata
    have hnext : rootSequenceAt l' pool.key = rootSequenceAt l pool.key + v.fields.transitionKind.appendCount := by
      rw [rootSequenceAt, hdata, hsequence, leNat_leBytes_of_lt hlt, rootSequenceAt, hsource]
    have hpos : 0 < v.fields.transitionKind.appendCount := by
      cases v.fields.transitionKind <;> decide
    refine ⟨⟨howner.trans hkPaid.owner_eq, ?_⟩, by omega, fun _ => by omega⟩
    rw [hdata, ← hk.magic_eq, ← @slice_slice 0 40 0 4 _ (by omega), hhead, slice_slice _ (by omega)]
  · refine Advances.of_kept h.outside hk ?_ fun heq => hkp (by rw [← heq, h.receipt_pool])
    have hnot : k ∉ pool.key :: layout.current.key :: (layout.next.map (·.key)).toList ++ [layout.marker.key] := by
      rw [List.mem_append, List.mem_singleton, not_or]
      exact ⟨htargets.not_state_target hkPaid hkp, fun heq => h.marker_zeroed.not_kind (heq ▸ hkPaid)⟩
    have hnotPlan : k ∉ (layout.shard.map (·.key)).toList ++ [layout.core.key] := by
      intro hmem
      rcases h.plan_kinds k hmem with hkind | hkind <;> exact hkind.not_kind_of_ne (by decide) hkPaid
    obtain ⟨howner, hdata⟩ := h.closing_touches k hnot
    obtain ⟨howner', hdata'⟩ := h.closed.touches k hnotPlan
    exact ⟨howner'.trans howner, hdata'.trans hdata⟩

theorem Accepted.advances {services : AuthorizationServices} {i : Instruction} {o : Outcome} (h : Accepted env services l l' i o) (hk : HasKind env .state l k) :
    Advances env l l' k (o.AppendsTo k) := by
  cases h with
  | deposit run => exact run.advances hk
  | spend _ run => exact run.advances hk
  | settle _ _ run => exact run.advances hk
  | initializePool run =>
    refine Advances.of_kept run.outside hk ?_ id
    rw [run.written]
    refine ((Touches.setData _ _ _).trans (Touches.setData _ _ _)) k ?_
    have hkind := hk.outside run.outside
    simp only [List.cons_append, List.nil_append, List.mem_cons, List.not_mem_nil, or_false, not_or]
    exact ⟨fun heq => Zeroed.not_kind ⟨run.pool_owner, run.pool_zeroed⟩ (heq ▸ hkind),
      fun heq => Zeroed.not_kind ⟨run.page.owner_eq, run.page.zeroed⟩ (heq ▸ hkind)⟩
  | @prepare accounts request slot pool core c images f prepared shard created _ _ run =>
    have hout := run.created_call.outside env.programId_ne_system
    have hkind := hk.outside hout
    refine Advances.of_kept hout hk ?_ id
    have hcore : k ≠ core.key := fun heq =>
      Zeroed.not_kind ⟨run.core_zeroed.1, run.core_zeroed.2⟩ (heq ▸ hkind)
    rw [run.written]
    cases hshard : shard with
    | none => exact Touches.setData _ _ _ k (by simpa using hcore)
    | some s =>
      obtain ⟨howner, hzero, -⟩ := run.shard_zeroed s hshard
      have hs : k ≠ s.1.key := fun heq => Zeroed.not_kind ⟨howner, hzero⟩ (heq ▸ hkind)
      exact ((Touches.setData _ _ _).trans (Touches.setData _ _ _)) k (by simp [hcore, hs])
  | cancel _ run =>
    obtain ⟨v, hv, -⟩ := run.decoded
    refine Advances.of_kept (Outside.refl _ _) hk (run.closed.touches k fun hmem => ?_) id
    rcases plan_kinds run.core_owner run.shard_owner hv k hmem with hkind | hkind <;>
      exact hkind.not_kind_of_ne (by decide) hk

theorem Deployment.Step.advances {d : Deployment} {e : Event} (h : d.Step l e l') (hk : HasKind d.env .state l k) :
    Advances d.env l l' k (e.AppendsTo k) := by
  cases e with
  | outside => exact Advances.of_kept h hk ⟨rfl, rfl⟩ id
  | rejected i =>
    obtain ⟨-, rfl⟩ := h
    exact Advances.of_kept (Outside.refl _ _) hk ⟨rfl, rfl⟩ id
  | accepted i o => exact (processInstruction_accepted h).advances hk

theorem Deployment.Runs.advances {d : Deployment} {events : List Event} (h : d.Runs l events l')
    (hk : HasKind d.env .state l k) : Advances d.env l l' k (∃ e ∈ events, e.AppendsTo k) := by
  induction h with
  | nil s => exact ⟨hk, le_rfl, by simp⟩
  | cons hstep _ ih =>
    have hfirst := Deployment.Step.advances hstep hk
    have hrest := ih hfirst.state_kind
    refine ⟨hrest.state_kind, hfirst.sequence_le.trans hrest.sequence_le, ?_⟩
    rintro ⟨e, hmem, happends⟩
    rcases List.mem_cons.mp hmem with rfl | hmem
    · exact (hfirst.sequence_lt happends).trans_le hrest.sequence_le
    · exact hfirst.sequence_le.trans_lt (hrest.sequence_lt ⟨e, hmem, happends⟩)

end Advances

/-! ### What both paths write -/

section Writes
variable {l l' : Ledger} {r : AuthorizedAppendV1}

/-- The images of pool and pages after appending `r` to `s`, with the given roots on a new page. -/
structure WritesAppend (env : Environment) (pool : Pubkey) (s : PoolStateV1) (r : AuthorizedAppendV1)
    (fresh : List Digest) (l l' : Ledger) : Prop where
  pool_eq : (l' pool).data = (appended env s r).nextState.writeEncodingPrevalidated
  current_eq : ∃ header, validateRootPageBytes
      (l (poolV1RootPageAddress env pool (rootHistoryLocation s.currentRootSequence).pageNumber).1).data pool
      (rootHistoryLocation s.currentRootSequence).pageNumber = .ok header ∧
    (l' (poolV1RootPageAddress env pool (rootHistoryLocation s.currentRootSequence).pageNumber).1).data =
      nextCurrentImage (l (poolV1RootPageAddress env pool (rootHistoryLocation s.currentRootSequence).pageNumber).1).data
        header (appended env s r).receipt.roots
        (rootsInCurrent s.currentRootSequence r.count (rootHistoryLocation s.currentRootSequence).pageNumber)
  next_eq : r.count -
      rootsInCurrent s.currentRootSequence r.count (rootHistoryLocation s.currentRootSequence).pageNumber ≠ 0 →
    (l' (poolV1RootPageAddress env pool ((rootHistoryLocation s.currentRootSequence).pageNumber + 1)).1).data =
      writeNewPageUnchecked pool ((rootHistoryLocation s.currentRootSequence).pageNumber + 1)
        (((rootHistoryLocation s.currentRootSequence).pageNumber + 1) * POOL_V1_ROOT_HISTORY_CAPACITY) fresh

theorem length_roots_appended (s : PoolStateV1) (r : AuthorizedAppendV1) :
    (appended env s r).receipt.roots.length = r.count := by
  cases r <;> rfl

theorem SpendRun.writes {i : SpendInstructionV1} {pool current marker : AccountInfo} {next : Option AccountInfo}
    {source : AuthorizedSourceStateV1} {prevalidated : Option PrevalidatedCurrentHistoryV1}
    {plan : AppendPlanV1} {planned : PlannedNullifierMarkerV1} {tokens : List AccountInfo}
    {withdrawal : Option LegacyWithdrawalTransferPlanV1} {created marked paid : Ledger} {receipt : TransitionReceiptV1}
    (h : SpendRun env i pool current marker next source prevalidated r plan planned tokens withdrawal l created marked
      paid l' receipt) :
    WritesAppend env pool.key source.asState r ((appended env source.asState r).receipt.roots.drop
      (rootsInCurrent source.asState.currentRootSequence r.count
        (rootHistoryLocation source.asState.currentRootSequence).pageNumber)) l l' := by
  have hspec := planAuthorizedAppend_spec h.append
  obtain ⟨hprepared, -⟩ := prepare_appended hspec.prepared
  have hkey := hspec.page.key_eq
  have hcreated := h.created_call.outside env.programId_ne_system
  have hcurrent : (created current.key).data = (l current.key).data :=
    ((hasKind_page hspec.page.owner_eq h.page_valid).of_outside hcreated).2
  have hpaid : (paid current.key).data = (l current.key).data :=
    ((h.outside.kept _ hspec.page.owner_eq).2).trans hcurrent
  have hnext : ∀ n ∈ plan.next, n.1 ≠ pool.key ∧ n.1 ≠ current.key := by
    rintro ⟨key, number, first⟩ hplan
    obtain ⟨-, -, -, hpool, hcur, -⟩ := hspec.next_some key number first hplan
    exact ⟨hpool, hcur⟩
  have hmarker : current.key ≠ marker.key := fun heq => h.marker_not_target (by simp [heq])
  refine ⟨?_, ⟨plan.currentHeader, ?_, ?_⟩, fun hneeded => ?_⟩
  · rw [← h.persisted, plan.persist_pool hspec.pool_ne fun n hn => (hnext n hn).1, hprepared]
  · rw [← hkey, ← hcurrent]
    exact h.page_valid
  · rw [← hkey, ← h.persisted, plan.persist_current hspec.pool_ne.symm fun n hn => (hnext n hn).2,
      setData_of_ne hmarker, hpaid, hprepared, hspec.inCurrent_eq]
    rfl
  · cases hplan : plan.next with
    | none =>
      have hnone := hspec.next_none hplan
      rw [hspec.inCurrent_eq] at hnone
      exact absurd hnone hneeded
    | some n =>
      obtain ⟨key, number, first⟩ := n
      obtain ⟨rfl, rfl, hnew, -⟩ := hspec.next_some key number first hplan
      have hnewKey := hnew.key_eq
      subst hnewKey
      rw [← h.persisted, plan.persist_next hplan, hprepared, hspec.inCurrent_eq]

theorem SettleRun.writes {services : AuthorizationServices} {accounts : List AccountInfo} {pool : AccountInfo}
    {kind : PoolV1TransitionKind} {s : PoolStateV1} {layout : SettlePreparedLayoutV1}
    {x : PreparedSettlementApplyContextV1} {v : PreparedSettlementPlanViewV1} {a : AuthenticatedSettlementStatementV1}
    {sourceNext : Option Bytes} {applied : PreparedSettlementApplyResultV1} {planned : PlannedNullifierMarkerV1}
    {withdrawal : Option LegacyWithdrawalTransferPlanV1} {marked paid closing : Ledger} {receipt : TransitionReceiptV1}
    (h : SettleRun env services accounts pool kind s layout x v a sourceNext applied planned withdrawal l marked paid
      closing l' receipt) (hplan : PlanFrom env s r v.fields) :
    WritesAppend env pool.key s r ((appendRoots (appended env s r).receipt).drop
      (rootsInCurrent s.currentRootSequence r.count (rootHistoryLocation s.currentRootSequence).pageNumber)) l l' := by
  obtain ⟨header, inCurrent, hmatch⟩ := h.history
  have hkind : v.fields.transitionKind.appendCount = r.count := by
    rw [hplan.kind_eq, appendCount_transitionKind]
  have hin := hmatch.inCurrent_eq
  rw [hplan.sequence_eq, hkind] at hin
  have hkey := h.pages.current_key
  have hvalid := hmatch.page_valid
  rw [hplan.sequence_eq, hkey] at hvalid
  have htargets := h.targets.outside h.outside
  have hpoolNe : pool.key ≠ layout.current.key := htargets.pool_kind.ne_of_kind htargets.current_kind (by decide)
  have hnextZero : ∀ n ∈ layout.next, Zeroed env paid n.key := fun n hn =>
    htargets.next_zeroed n.key (Option.map_eq_some_iff.mpr ⟨n, hn, rfl⟩)
  have hpaid : (paid layout.current.key).data = (l layout.current.key).data :=
    (h.outside.kept _ h.pages.current_owner).2
  refine ⟨?_, ⟨header, hvalid, ?_⟩, fun hneeded => ?_⟩
  · rw [(h.image_kept (by simp)).2, imagesWritten_pool layout applied hpoolNe fun n hn =>
      (hnextZero n hn).ne_of_kind htargets.pool_kind, h.applied_plan.image_eq, hplan.image_eq]
  · rw [← hkey, (h.image_kept (by simp)).2, imagesWritten_current layout applied hpoolNe.symm fun n hn =>
      (hnextZero n hn).ne_of_kind htargets.current_kind, h.applied_plan.current_image_eq, hmatch.current_eq,
      hplan.receipt_eq, hpaid, hin]
    have htake := take_appendRoots (le_trans (min_le_left r.count (255 - (rootHistoryLocation s.currentRootSequence).slot))
      (@length_roots_appended env s r).ge)
    rw [← rootsInCurrent_eq _ _ r.count_le] at htake
    rw [nextCurrentImage, nextCurrentImage, htake]
    split_ifs with hwritable hzero hzero
    · rfl
    · rfl
    · -- a read-only current page is full, so no root belongs to it
      rw [h.pages.writable_eq, decide_eq_true_eq] at hwritable
      rw [rootsInCurrent, if_neg hwritable] at hzero
      exact absurd rfl hzero
    · rfl
  · cases hn : layout.next with
    | none =>
      have hnone := (hmatch.next_none (by rw [h.next_source.1, hn]; rfl)).1
      rw [hkind, hin] at hnone
      exact absurd hnone hneeded
    | some n =>
      obtain ⟨-, -, haddress, himage⟩ := hmatch.next_some (l n.key).data (by rw [h.next_source.1, hn]; rfl)
      rw [hplan.sequence_eq] at haddress himage
      rw [hplan.receipt_eq, hin] at himage
      have hnkey := Option.some_inj.mp ((h.next_source.2 n hn).symm.trans haddress)
      rw [← hnkey, (h.image_kept (by simp [hn])).2,
        imagesWritten_next layout applied hn (h.applied_plan.next_image_eq.trans himage)]

/-- Pool and written pages agree unless a single root starts a page. -/
theorem WritesAppend.same_iff {pool : Pubkey} {s : PoolStateV1} {settled spent : Ledger}
    (hsettled : WritesAppend env pool s r ((appendRoots (appended env s r).receipt).drop
      (rootsInCurrent s.currentRootSequence r.count (rootHistoryLocation s.currentRootSequence).pageNumber)) l settled)
    (hspent : WritesAppend env pool s r ((appended env s r).receipt.roots.drop
      (rootsInCurrent s.currentRootSequence r.count (rootHistoryLocation s.currentRootSequence).pageNumber)) l spent) :
    (∀ p, s.currentRootSequence / 256 ≤ p → p ≤ (s.currentRootSequence + r.count) / 256 →
      (settled (poolV1RootPageAddress env pool p).1).data = (spent (poolV1RootPageAddress env pool p).1).data) ↔
      ¬ (r.transitionKind = .withdrawal ∧ s.currentRootSequence % 256 = 255) := by
  have hin := rootsInCurrent_eq s.currentRootSequence r.count r.count_le
  constructor
  · rintro hsame ⟨hkind, hslot⟩
    cases r with
    | two first second => cases hkind
    | one leaf =>
      have hnone : rootsInCurrent s.currentRootSequence 1 (rootHistoryLocation s.currentRootSequence).pageNumber = 0 := by
        simp only [AuthorizedAppendV1.count, rootHistoryLocation, POOL_V1_ROOT_HISTORY_CAPACITY] at hin ⊢
        omega
      have hneeded : AuthorizedAppendV1.count (.one leaf) - rootsInCurrent s.currentRootSequence
          (AuthorizedAppendV1.count (.one leaf)) (rootHistoryLocation s.currentRootSequence).pageNumber ≠ 0 := by
        rw [AuthorizedAppendV1.count, hnone]
        decide
      have heq := hsame ((rootHistoryLocation s.currentRootSequence).pageNumber + 1) (by
        simp only [rootHistoryLocation, POOL_V1_ROOT_HISTORY_CAPACITY]
        omega) (by
        simp only [AuthorizedAppendV1.count, rootHistoryLocation, POOL_V1_ROOT_HISTORY_CAPACITY]
        omega)
      rw [hsettled.next_eq hneeded, hspent.next_eq hneeded, AuthorizedAppendV1.count, hnone,
        writeNewPageUnchecked_eq (by simp [appendRoots, POOL_V1_ROOT_HISTORY_CAPACITY]),
        writeNewPageUnchecked_eq (by simp [appended, AuthorizedAppendReceiptV1.roots, POOL_V1_ROOT_HISTORY_CAPACITY])]
        at heq
      have hcount := congrArg (slice 56 2) heq
      rw [slice_pageImage_header (by omega), slice_pageImage_header (by omega), slice_pageHeader_filled,
        slice_pageHeader_filled] at hcount
      revert hcount
      simp only [appended, appendRoots, AuthorizedAppendReceiptV1.roots, List.drop_zero, List.length_cons,
        List.length_nil, Option.map_none, Option.toList_none]
      decide
  · intro hsafe p hlow hhigh
    obtain ⟨header, hvalid, hcurrent⟩ := hsettled.current_eq
    obtain ⟨header', hvalid', hcurrent'⟩ := hspent.current_eq
    obtain rfl : header = header' := Except.ok.inj (hvalid.symm.trans hvalid')
    have hlast := pageNumber_grown s.currentRootSequence r.count r.count_le
    rcases hlow.eq_or_lt with rfl | hlt
    · exact hcurrent.trans hcurrent'.symm
    · split_ifs at hlast with hfits
      · simp only [rootHistoryLocation, POOL_V1_ROOT_HISTORY_CAPACITY] at hlast
        omega
      · obtain rfl : p = (rootHistoryLocation s.currentRootSequence).pageNumber + 1 := by
          simp only [rootHistoryLocation, POOL_V1_ROOT_HISTORY_CAPACITY] at hlast ⊢
          omega
        rw [hsettled.next_eq hfits, hspent.next_eq hfits, drop_appendRoots ?_ (by
          rw [length_roots_appended]
          exact hfits)]
        intro hone hzero
        refine hsafe ⟨?_, ?_⟩
        · cases r with
          | one leaf => rfl
          | two first second => cases hone
        · rcases r.count_le with hcount | hcount <;> rw [hzero, hcount] at hin <;>
            simp only [rootHistoryLocation, POOL_V1_ROOT_HISTORY_CAPACITY] at hin <;> omega

end Writes

/-! ### Settlement against the direct spend -/

section Compare
variable {services : AuthorizationServices} {l l' before settled spent : Ledger}

/-- The plan account that a preparation adds holds the core image it built. -/
theorem PrepareRun.new_core {pool core : AccountInfo} {c : CanonicalPoolStateV1} {r : AuthorizedAppendV1}
    {images : PreparedSettlementPlanImagesV1} {f : PreparedSettlementPlanFieldsV1}
    {prepared : PreparedAuthorizedAppendImagesV1} {shard : Option PlannedShard} {created : Ledger} {k : Pubkey}
    (h : PrepareRun env pool core c r images f prepared shard l created l') (hk : HasKind env .core l' k)
    (hnew : ¬ HasKind env .core l k) : (l' k).data = images.coreImage := by
  have hout := h.created_call.outside env.programId_ne_system
  have hcreated : ¬ HasKind env .core created k := fun hkind => hnew (hkind.of_outside hout).1
  cases hshard : shard with
  | none =>
    have hwritten : l' = setData core.key images.coreImage created := by rw [h.written, hshard]; rfl
    have hkey : k = core.key := by
      by_contra hne
      rw [hwritten] at hk
      exact hcreated (hk.of_touches (Touches.setData _ _ _) (by simpa using hne)).1
    rw [hwritten, hkey, setData_self]
  | some s =>
    have hwritten : l' = setData s.1.key s.2.1.image (setData core.key images.coreImage created) := by
      rw [h.written, hshard]
      rfl
    have hne : k ≠ s.1.key := by
      intro heq
      have hmagic := hk.magic_eq
      rw [hwritten, heq, setData_self, (h.shard_zeroed s hshard).2.2] at hmagic
      exact absurd hmagic (by decide)
    have hkey : k = core.key := by
      by_contra hcore
      rw [hwritten] at hk
      refine hcreated (hk.of_touches ((Touches.setData _ _ _).trans (Touches.setData _ _ _)) ?_).1
      simp [hne, hcore]
    rw [hwritten, setData_of_ne hne, hkey, setData_self]

theorem request_of_commitments {r : AuthorizedAppendV1} {s : CanonicalSettlementStatementV1}
    (h : r.commitments = s.orderedCommitments) : r = s.request := by
  cases r <;> cases haction : s.action <;>
    simp_all [CanonicalSettlementStatementV1.orderedCommitments, CanonicalSettlementStatementV1.request,
      AuthorizedAppendV1.commitments]

/-- A plan account that still holds what the preparation stored, applied to a
live pool, carries the append to the prepared state. -/
theorem AppliedPlan.planFrom {pool core : AccountInfo} {c : CanonicalPoolStateV1} {r : AuthorizedAppendV1}
    {images : PreparedSettlementPlanImagesV1} {f : PreparedSettlementPlanFieldsV1}
    {prepared : PreparedAuthorizedAppendImagesV1} {shard : Option PlannedShard} {created : Ledger}
    {x : PreparedSettlementApplyContextV1} {v : PreparedSettlementPlanViewV1} {a : AuthenticatedSettlementStatementV1}
    {sourceNext : Option Bytes} {applied : PreparedSettlementApplyResultV1}
    (hprepare : PrepareRun env pool core c r images f prepared shard l created l')
    (h : AppliedPlan env services x v a sourceNext applied) (himage : x.planImage = images.coreImage) :
    PlanFrom env c.state r v.fields ∧ x.pool = pool.key := by
  obtain ⟨hplan, hencodable⟩ := hprepare.built.planFrom
  obtain ⟨current, rollover, hencode⟩ := hprepare.built.encoded
  have hdecoded := h.decoded
  rw [himage] at hdecoded
  have hsame := decode_encodePreparedSettlementPlanV1 env hencodable hencode hdecoded
  refine ⟨hplan.of_same hsame, ?_⟩
  rw [← h.pool_eq, hsame.pool_eq, hprepare.built.pool_eq]

/-- The bytes of the pool, of its pages from `first` to `last` and of the marker
of the nullifier are the same in both ledgers. -/
structure SameWrites (env : Environment) (pool : Pubkey) (nullifier : Digest) (first last : ℕ) (l l' : Ledger) : Prop
    where
  pool_eq : (l pool).data = (l' pool).data
  pages_eq : ∀ p, first ≤ p → p ≤ last →
    (l (poolV1RootPageAddress env pool p).1).data = (l' (poolV1RootPageAddress env pool p).1).data
  marker_eq : (l (poolV1NullifierMarkerAddress env pool nullifier).1).data =
    (l' (poolV1NullifierMarkerAddress env pool nullifier).1).data

/-- The direct spend of the same statement, under the profile and release that
the settlement's receipt names. -/
structure DirectSpendOf (services : AuthorizationServices) (i : SettlePreparedInstructionV1) (receiptImage : Bytes)
    (direct : SpendInstructionV1) : Prop where
  statement_eq : services.decodeCanonicalStatement i.transitionKind i.statementPayload = some direct.statement
  receipt_eq : ∃ account receipt, services.decodeReceiptAccount receiptImage = some account ∧
    account.receipt = some receipt ∧ receipt.binding.profileBinding = direct.envelope.verifierProfile ∧
    receipt.binding.releaseBinding = direct.envelope.verifierRelease

section Same
variable {accounts : List AccountInfo} {pool : AccountInfo} {i : SettlePreparedInstructionV1} {s : PoolStateV1}
  {layout : SettlePreparedLayoutV1} {x : PreparedSettlementApplyContextV1} {v : PreparedSettlementPlanViewV1}
  {a : AuthenticatedSettlementStatementV1} {sourceNext : Option Bytes} {applied : PreparedSettlementApplyResultV1}
  {planned : PlannedNullifierMarkerV1} {withdrawal : Option LegacyWithdrawalTransferPlanV1}
  {marked paid closing : Ledger} {receipt : TransitionReceiptV1}

theorem SettleRun.direct_statement {direct : SpendInstructionV1}
    (h : SettleRun env services accounts pool i.transitionKind s layout x v a sourceNext applied planned withdrawal
      before marked paid closing settled receipt)
    (hpayload : x.payload = i.statementPayload)
    (hdirect : DirectSpendOf services i (before layout.receipt.key).data direct) :
    a.statement = direct.statement ∧ a.receipt.binding.profileBinding = direct.envelope.verifierProfile ∧
      a.receipt.binding.releaseBinding = direct.envelope.verifierRelease := by
  have hstatement := h.applied_plan.statement_decoded
  rw [h.context_kind, hpayload, hdirect.statement_eq] at hstatement
  obtain ⟨account, haccount, hreceipt⟩ := h.applied_plan.receipt_decoded
  obtain ⟨account', receipt', haccount', hreceipt', hprofile, hrelease⟩ := hdirect.receipt_eq
  rw [h.context_receipt, haccount'] at haccount
  obtain rfl := Option.some_inj.mp haccount
  obtain rfl := Option.some_inj.mp (hreceipt.symm.trans hreceipt')
  exact ⟨(Option.some_inj.mp hstatement).symm, hprofile, hrelease⟩

/-- Both paths write the same marker, byte for byte and to the same account. -/
theorem SettleRun.same_marker {direct : SpendInstructionV1} {pool' current marker : AccountInfo}
    {next : Option AccountInfo} {source : AuthorizedSourceStateV1} {prevalidated : Option PrevalidatedCurrentHistoryV1}
    {r : AuthorizedAppendV1} {plan : AppendPlanV1} {planned' : PlannedNullifierMarkerV1} {tokens : List AccountInfo}
    {withdrawal' : Option LegacyWithdrawalTransferPlanV1} {created marked' paid' : Ledger}
    {receipt' : TransitionReceiptV1}
    (h : SettleRun env services accounts pool i.transitionKind s layout x v a sourceNext applied planned withdrawal
      before marked paid closing settled receipt)
    (hdirect : a.statement = direct.statement ∧ a.receipt.binding.profileBinding = direct.envelope.verifierProfile ∧
      a.receipt.binding.releaseBinding = direct.envelope.verifierRelease)
    (h' : SpendRun env direct pool' current marker next source prevalidated r plan planned' tokens withdrawal' before
      created marked' paid' spent receipt') :
    planned.marker = planned'.marker ∧ pool'.key = pool.key := by
  obtain ⟨hstatement, hprofile, hrelease⟩ := hdirect
  have hmatch := h.applied_plan.marker_match
  rw [h.context_marker] at hmatch
  simp only [nullifierMarkerMatches, require_eq_ok] at hmatch
  obtain ⟨-, -, hkind, hpool, hdomain, hnullifier, hsequence, hroot, hmprofile, hmrelease⟩ := hmatch
  obtain ⟨ekind, epool, edomain, esequence, eroot, enullifier⟩ := require_eq_ok.mp h'.envelope_match
  have hmarker : planned.marker = planned'.marker := by
    rw [h'.marker_anchor]
    rw [hstatement] at hkind hpool hdomain hnullifier hsequence hroot
    rw [hprofile] at hmprofile
    rw [hrelease] at hmrelease
    cases hm : planned.marker
    simp only [hm] at hkind hpool hdomain hnullifier hsequence hroot hmprofile hmrelease
    simp [PoolV1NullifierMarkerV1.fromHistoricalAnchor, *]
  exact ⟨hmarker, by rw [← h'.marker_pool, ← hmarker, h.marker_pool]⟩

end Same

/-- A settled plan, compared with the direct spend of the same statement on the
same accounts. The two agree on every byte they write to the pool, its pages
and the marker, unless a withdrawal's root is the first of a new page. -/
theorem settle_same_iff {verify : SpendVerifier} {prepareAccounts settleAccounts directAccounts : List AccountInfo}
    {request : PrepareSettlementRequestV1} {slot settleSlot : ℕ} {pool : AccountInfo} {core : Pubkey}
    {i : SettlePreparedInstructionV1} {direct : SpendInstructionV1} {receipt receipt' : TransitionReceiptV1}
    (hprepare : processPrepareSettlementV1 env services prepareAccounts request slot l = .ok () l')
    (hpool : prepareAccounts[1]? = some pool) (hcore : HasKind env .core l' core ∧ ¬ HasKind env .core l core)
    (hkept : (before core).data = (l' core).data ∧ (before pool.key).data = (l pool.key).data)
    (hsettle : processSettlePreparedV1 env services settleAccounts i settleSlot before = .ok receipt settled)
    (hnamed : ∀ layout, settleLayout env settleAccounts i.transitionKind before = .ok layout →
      layout.core.key = core ∧ DirectSpendOf services i (before layout.receipt.key).data direct)
    (hspend : processPrivateTransferV1 env verify directAccounts direct before = .ok receipt' spent ∨
      processWithdrawalV1 env verify directAccounts direct before = .ok receipt' spent) :
    SameWrites env pool.key receipt.nullifier (rootSequenceAt before pool.key / 256)
        ((rootSequenceAt before pool.key + i.transitionKind.appendCount) / 256) settled spent ↔
      ¬ (i.transitionKind = .withdrawal ∧ rootSequenceAt before pool.key % 256 = 255) := by
  obtain ⟨pool', core', c, images, f, prepared, shard, created, hpool', hauthority, hprun⟩ :=
    processPrepareSettlementV1_run hprepare
  obtain rfl := Option.some_inj.mp (hpool.symm.trans hpool')
  obtain ⟨pool', s, layout, x, v, a, sourceNext, applied, planned, withdrawal, marked, paid, closing, -, hpayload,
    hrun⟩ := processSettlePreparedV1_run hsettle
  obtain ⟨rfl, hdirect⟩ := hnamed layout hrun.layout_eq
  obtain ⟨hplan, hplanPool⟩ := hrun.applied_plan.planFrom hprun
    (by rw [hrun.context_core.2, hkept.1, hprun.new_core hcore.1 hcore.2])
  have hkey : pool'.key = pool.key := hrun.context_pool.symm.trans hplanPool
  have hstate : s = c.state := by
    have hdecoded := hrun.decoded
    rw [hkey, hkept.2] at hdecoded
    exact decode_agree hdecoded hprun.decoded
  subst hstate
  have hstatement := hrun.direct_statement hpayload hdirect
  have hrequest : request.request = direct.statement.request := by
    refine request_of_commitments ?_
    rw [← hplan.commitments_eq, ← hrun.applied_plan.commitments_eq, hstatement.1]
  have hspendRun : ∃ spender current marker next source prevalidated r plan planned' tokens withdrawal' created' marked'
      paid', SpendRun env direct spender current marker next source prevalidated r plan planned' tokens withdrawal'
        before created' marked' paid' spent receipt' := by
    rcases hspend with hspend | hspend
    · obtain ⟨spender, current, marker, next, source, prevalidated, r, plan, planned', tokens, withdrawal', created',
        marked', paid', -, h⟩ := processPrivateTransferV1_run hspend
      exact ⟨spender, current, marker, next, source, prevalidated, r, plan, planned', tokens, withdrawal', created',
        marked', paid', h⟩
    · obtain ⟨spender, current, marker, next, source, prevalidated, r, plan, planned', tokens, withdrawal', created',
        marked', paid', -, h⟩ := processWithdrawalV1_run hspend
      exact ⟨spender, current, marker, next, source, prevalidated, r, plan, planned', tokens, withdrawal', created',
        marked', paid', h⟩
  obtain ⟨spender, current, marker, next, source, prevalidated, r, plan, planned', tokens, withdrawal', created',
    marked', paid', hspent⟩ := hspendRun
  obtain ⟨hmarker, hspender⟩ := hrun.same_marker hstatement hspent
  obtain rfl : r = request.request := by rw [hspent.request_eq, hrequest]
  have hsource : source.asState = c.state := by
    have hdecoded := hspent.decoded
    rw [((hspent.created_call.outside env.programId_ne_system).kept _ hspent.pool_owner).2, hspender] at hdecoded
    exact Except.ok.inj (hdecoded.symm.trans hrun.decoded)
  have hsettleWrites := hrun.writes hplan
  have hspendWrites := hspent.writes
  rw [hsource, hspender] at hspendWrites
  have hsequence : rootSequenceAt before pool.key = c.state.currentRootSequence := by
    rw [← hkey]
    exact (decodeStateWith_ok hrun.decoded).2.2.2
  have hkind : i.transitionKind = request.request.transitionKind := by
    rw [← hrun.context_kind, ← hrun.applied_plan.kind_eq, hplan.kind_eq]
  have hiff := hsettleWrites.same_iff hspendWrites
  rw [hkey] at hsettleWrites hspendWrites hiff
  rw [hsequence, hkind, appendCount_transitionKind, ← hiff]
  constructor
  · exact fun hsame => hsame.pages_eq
  · refine fun hpages => ⟨hsettleWrites.pool_eq.trans hspendWrites.pool_eq.symm, hpages, ?_⟩
    have hsettledMarker := hrun.marker_written.2
    have hspentMarker := hspent.marker_written.2
    rw [hrun.marker_key, hrun.receipt_pool, hkey] at hsettledMarker
    rw [hspent.marker_planned.key_eq, ← hmarker, hrun.marker_pool, hrun.marker_nullifier, hkey] at hspentMarker
    rw [hsettledMarker, hspentMarker]

/-- A plan whose pool has been appended to is refused, and nothing is written. -/
theorem settle_refused_of_append {d : Deployment} {prepareAccounts settleAccounts : List AccountInfo}
    {request : PrepareSettlementRequestV1} {slot settleSlot : ℕ} {pool : AccountInfo} {core : Pubkey}
    {i : SettlePreparedInstructionV1} {events : List Event}
    (hprepare : processPrepareSettlementV1 d.env d.services prepareAccounts request slot l = .ok () l')
    (hpool : prepareAccounts[1]? = some pool) (hcore : HasKind d.env .core l' core ∧ ¬ HasKind d.env .core l core)
    (hruns : d.Runs l' events before) (happends : ∃ e ∈ events, e.AppendsTo pool.key)
    (hkept : (before core).data = (l' core).data)
    (hnamed : ∀ layout, settleLayout d.env settleAccounts i.transitionKind before = .ok layout →
      layout.core.key = core) :
    ∃ e, processSettlePreparedV1 d.env d.services settleAccounts i settleSlot before = .error e before := by
  obtain ⟨pool', core', c, images, f, prepared, shard, created, hpool', hauthority, hprun⟩ :=
    processPrepareSettlementV1_run hprepare
  obtain rfl := Option.some_inj.mp (hpool.symm.trans hpool')
  have hkind := hasKind_state hprun.pool_owner hprun.decoded
  have haccepted : Accepted d.env d.services l l' (.prepareSettlement prepareAccounts request slot) .prepared :=
    .prepare hpool' hauthority hprun
  have hadvances := haccepted.advances hkind
  have hlt := hadvances.sequence_le.trans_lt ((hruns.advances hadvances.state_kind).sequence_lt happends)
  match settleAccounts, hnamed with
  | [], _ => exact ⟨.notEnoughAccountKeys, rfl⟩
  | [_], _ => exact ⟨.notEnoughAccountKeys, rfl⟩
  | authority :: pool' :: rest, hnamed =>
    refine processSettlePreparedV1_refused fun plan hplan => ?_
    obtain ⟨hlayout, x, v, a, sourceNext, happlied, -, himage, hx, hsource⟩ := planSettlePrepared_applied hplan
    obtain ⟨hfrom, hplanPool⟩ := happlied.planFrom hprun
      (by rw [himage, hnamed _ hlayout, hkept, hprun.new_core hcore.1 hcore.2])
    have hmatch := happlied.state_match
    rw [hsource, ← hx, hplanPool] at hmatch
    simp only [sourceStateAndResultImageMatch, except_bind_eq_ok, require_eq_ok] at hmatch
    obtain ⟨_, ⟨hsequence, -⟩, -⟩ := hmatch
    rw [hfrom.sequence_eq, ← (decodeStateWith_ok hprun.decoded).2.2.2] at hsequence
    exact hlt.ne hsequence.symm

/-- Preparing and settling against spending directly. For a plan account that a
preparation added: while the plan and the pool are as they were, settling it
writes what the direct spend of the same statement writes, exactly when it does
not settle a withdrawal whose root is the first of a new page; and after any
other append to the pool, settling it fails and writes nothing. -/
theorem prepared_settlement_matches_direct_spend {d : Deployment} {prepareAccounts : List AccountInfo}
    {request : PrepareSettlementRequestV1} {slot : ℕ} {pool : AccountInfo} {core : Pubkey}
    (hprepare : processPrepareSettlementV1 d.env d.services prepareAccounts request slot l = .ok () l')
    (hpool : prepareAccounts[1]? = some pool) (hcore : HasKind d.env .core l' core ∧ ¬ HasKind d.env .core l core) :
    (∀ before settled spent settleAccounts directAccounts i settleSlot direct receipt receipt',
      (before core).data = (l' core).data → (before pool.key).data = (l pool.key).data →
      processSettlePreparedV1 d.env d.services settleAccounts i settleSlot before = .ok receipt settled →
      (∀ layout, settleLayout d.env settleAccounts i.transitionKind before = .ok layout →
        layout.core.key = core ∧ DirectSpendOf d.services i (before layout.receipt.key).data direct) →
      (processPrivateTransferV1 d.env d.verify directAccounts direct before = .ok receipt' spent ∨
        processWithdrawalV1 d.env d.verify directAccounts direct before = .ok receipt' spent) →
      (SameWrites d.env pool.key receipt.nullifier (rootSequenceAt before pool.key / 256)
          ((rootSequenceAt before pool.key + i.transitionKind.appendCount) / 256) settled spent ↔
        ¬ (i.transitionKind = .withdrawal ∧ rootSequenceAt before pool.key % 256 = 255))) ∧
    (∀ events before settleAccounts i settleSlot, d.Runs l' events before →
      (∃ e ∈ events, e.AppendsTo pool.key) → (before core).data = (l' core).data →
      (∀ layout, settleLayout d.env settleAccounts i.transitionKind before = .ok layout → layout.core.key = core) →
      ∃ e, processSettlePreparedV1 d.env d.services settleAccounts i settleSlot before = .error e before) := by
  constructor
  · intro before settled spent settleAccounts directAccounts i settleSlot direct receipt receipt' hplan hstate hsettle
      hnamed hspend
    exact settle_same_iff hprepare hpool hcore ⟨hplan, hstate⟩ hsettle hnamed hspend
  · intro events before settleAccounts i settleSlot hruns happends hkept hnamed
    exact settle_refused_of_append hprepare hpool hcore hruns happends hkept hnamed

end Compare

end

/-! ### A withdrawal over a full page -/

theorem Sample.core_opened : HasKind Sample.environment .core Sample.prepared Sample.core ∧
    ¬ HasKind Sample.environment .core (Sample.ledger 255) Sample.core := by
  obtain ⟨-, howner, hmagic, -⟩ := Sample.prepare_ok
  refine ⟨⟨howner, hmagic⟩, fun hkind => ?_⟩
  have howned := hkind.owner_eq
  rw [Sample.ledger_core] at howned
  exact Sample.environment.programId_ne_system howned.symm

theorem Sample.directSpendOf (image : Bytes) :
    DirectSpendOf Sample.services Sample.settleInstruction image Sample.directSpend where
  statement_eq := rfl
  receipt_eq := ⟨Sample.receiptAccount, _, rfl, rfl, rfl, rfl⟩

theorem Sample.layout_named : ∀ layout,
    settleLayout Sample.environment Sample.settleAccounts Sample.settleInstruction.transitionKind Sample.prepared =
      .ok layout → layout.core.key = Sample.core ∧
        DirectSpendOf Sample.services Sample.settleInstruction (Sample.prepared layout.receipt.key).data
          Sample.directSpend := by
  intro layout hlayout
  obtain ⟨layout', hlayout', hcore⟩ := Sample.settleLayout_ok
  obtain rfl := Except.ok.inj (hlayout'.symm.trans hlayout)
  exact ⟨hcore, Sample.directSpendOf _⟩

/-- Settling the prepared withdrawal and withdrawing directly, on the same ledger with the first page full, write
different bytes: the settlement counts two roots on the new page. -/
theorem prepared_withdrawal_differs_from_direct : ∃ receipt receipt' settled spent,
    Sample.prepare (Sample.ledger 255) = .ok () Sample.prepared ∧
    Sample.settle Sample.prepared = .ok receipt settled ∧ Sample.withdraw Sample.prepared = .ok receipt' spent ∧
    DirectSpendOf Sample.services Sample.settleInstruction (Sample.prepared Sample.receiptKey).data Sample.directSpend ∧
    ¬ SameWrites Sample.environment Sample.pool receipt.nullifier 0 1 settled spent := by
  obtain ⟨receipt, settled, -, hsettle, -, -, -, htwo⟩ := Sample.settle_ok
  obtain ⟨receipt', spent, hwithdraw, hone⟩ := Sample.withdraw_ok
  refine ⟨receipt, receipt', settled, spent, Sample.prepare_ok.1, hsettle, hwithdraw, Sample.directSpendOf _, ?_⟩
  intro hsame
  have hpage : (settled (Sample.page 1)).data = (spent (Sample.page 1)).data :=
    hsame.pages_eq 1 (Nat.zero_le 1) le_rfl
  rw [hpage, hone] at htwo
  exact absurd htwo (by decide)

/-- The comparison of the two, read off for this withdrawal. -/
theorem prepared_settlement_matches_direct_spend_full_page : ∃ receipt receipt' settled spent,
    Sample.settle Sample.prepared = .ok receipt settled ∧ Sample.withdraw Sample.prepared = .ok receipt' spent ∧
    (SameWrites Sample.environment Sample.pool receipt.nullifier (rootSequenceAt Sample.prepared Sample.pool / 256)
        ((rootSequenceAt Sample.prepared Sample.pool + 1) / 256) settled spent ↔
      ¬ (PoolV1TransitionKind.withdrawal = .withdrawal ∧ rootSequenceAt Sample.prepared Sample.pool % 256 = 255)) := by
  obtain ⟨receipt, settled, -, hsettle, -⟩ := Sample.settle_ok
  obtain ⟨receipt', spent, hwithdraw, -⟩ := Sample.withdraw_ok
  obtain ⟨hprepare, -, -, hpool⟩ := Sample.prepare_ok
  have hnamed : Sample.prepareAccounts[1]? = some Sample.poolAccount := rfl
  have hkind : Sample.settleInstruction.transitionKind = .withdrawal := rfl
  have hcount : PoolV1TransitionKind.withdrawal.appendCount = 1 := rfl
  have hkey : Sample.poolAccount.key = Sample.pool := rfl
  have henv : Sample.deployment.env = Sample.environment := rfl
  have hcompare := (@prepared_settlement_matches_direct_spend _ _ Sample.deployment _ _ _ _ Sample.core hprepare hnamed
    Sample.core_opened).1 Sample.prepared settled spent Sample.settleAccounts Sample.directAccounts
    Sample.settleInstruction 6 Sample.directSpend receipt receipt' (Eq.refl _) hpool hsettle Sample.layout_named
    (.inr hwithdraw)
  rw [hkind, hcount, hkey, henv] at hcompare
  exact ⟨receipt, receipt', settled, spent, hsettle, hwithdraw, hcompare⟩

end Aspis.Pool
