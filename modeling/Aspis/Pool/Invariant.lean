import Aspis.Pool.Content
import Aspis.Pool.Ideal

/-! The invariant of a deployment. Each initialized pool has a log, its state
account is the image of the log, its pages hold the roots of the log's prefixes,
and every plan account was computed from a prefix of some log. The frame rules
say what an instruction has to show for the invariant to go on. -/

namespace Aspis.Pool

open Lib Chain Statement

/-- The logs of all pools. -/
abbrev Logs := Pubkey → Option PoolLog

def Logs.append (logs : Logs) (pool : Pubkey) (new : List Digest) : Logs :=
  Function.update logs pool ((logs pool).map (·.append new))

/-- The log of a pool that was just initialized. -/
def PoolLog.initial (pool : Pubkey) (init : PoolInitializationV1) : PoolLog :=
  ⟨⟨pool, init.assetMint, init.tokenProgram, init.assetId, init.deploymentDomain⟩, init.verifierPolicy, []⟩

/-- The accounts of one pool hold its log. -/
structure PoolTracked (env : Environment) (pool : Pubkey) (log : PoolLog) (l : Ledger) : Prop where
  wellFormed : log.WellFormed
  pool_eq : log.identity.pool = pool
  owner_eq : (l pool).owner = env.programId
  data_eq : (l pool).data = (log.state env).writeEncodingPrevalidated
  pages : ∀ p ≤ (rootHistoryLocation log.leaves.length).pageNumber,
    (l (poolV1RootPageAddress env pool p).1).owner = env.programId ∧
      (l (poolV1RootPageAddress env pool p).1).data = pageImage pool p (pageRoots env log.leaves p)

/-- Plan fields that describe appending `r` to `base`. -/
structure PlanOf (env : Environment) (base : PoolLog) (r : AuthorizedAppendV1) (f : PreparedSettlementPlanFieldsV1) :
    Prop where
  kind_eq : f.transitionKind = r.transitionKind
  commitments_eq : (f.firstCommitment, f.secondCommitment) = r.commitments
  receipt_eq : (⟨f.firstReceipt, f.secondReceipt⟩ : AuthorizedAppendReceiptV1) = idealReceipt env base.leaves r
  image_eq : f.nextPoolImage = ((base.append r.leaves).state env).writeEncodingPrevalidated
  sequence_eq : f.sourceSequence = base.leaves.length
  wellFormed : (base.append r.leaves).WellFormed

/-- The log as it stood after `q` appends. -/
def PoolLog.upTo (log : PoolLog) (q : ℕ) : PoolLog := { log with leaves := log.leaves.take q }

/-- Core bytes that were computed from a prefix of the pool's log. -/
def HonestPlan (env : Environment) (logs : Logs) (data : Bytes) : Prop :=
  ∃ f current rollover images log r, encodePreparedSettlementPlanV1 env f current rollover = .ok images ∧
    data = images.coreImage ∧ logs f.pool = some log ∧ f.sourceSequence ≤ log.leaves.length ∧
    PlanOf env (log.upTo f.sourceSequence) r f

structure Tracks (env : Environment) (logs : Logs) (l : Ledger) : Prop where
  pools : ∀ pool log, logs pool = some log → PoolTracked env pool log l
  states : ∀ k, HasKind env .state l k → ∃ log, logs k = some log
  plans : ∀ k, HasKind env .core l k → HonestPlan env logs (l k).data

section
variable {env : Environment} {pool pool' : Pubkey} {log log' : PoolLog} {logs : Logs} {l l' : Ledger}

/-! ### One pool -/

theorem pageImage_magic (pool : Pubkey) (p : ℕ) (roots : List Digest) :
    slice 0 4 (pageImage pool p roots) = AccountKind.page.magic := by
  have h8 : slice 0 8 (pageImage pool p roots) = pagePreamble := by
    rw [slice_pageImage_header (by omega), slice_pageHeader_preamble]
  exact magic_of_preamble h8

namespace PoolTracked

theorem state_kind (h : PoolTracked env pool log l) : HasKind env .state l pool :=
  ⟨h.owner_eq, by rw [h.data_eq]; exact magic_of_preamble (magic_writeEncoding _)⟩

theorem page_kind (h : PoolTracked env pool log l) {p : ℕ}
    (hp : p ≤ (rootHistoryLocation log.leaves.length).pageNumber) :
    HasKind env .page l (poolV1RootPageAddress env pool p).1 := by
  obtain ⟨howner, hdata⟩ := h.pages p hp
  exact ⟨howner, by rw [hdata]; exact pageImage_magic pool p _⟩

theorem page_lt (h : PoolTracked env pool log l) {p : ℕ}
    (hp : p ≤ (rootHistoryLocation log.leaves.length).pageNumber) : p < 256 ^ 8 := by
  have hlen := h.wellFormed.length_le
  simp only [rootHistoryLocation, POOL_V1_ROOT_HISTORY_CAPACITY, POOL_V1_LEAF_CAPACITY, POOL_V1_TREE_DEPTH] at hp hlen
  omega

/-- Pages of tracked pools share an account only when they are the same page. -/
theorem page_unique (h : PoolTracked env pool log l) (h' : PoolTracked env pool' log' l) {p p' : ℕ}
    (hp : p ≤ (rootHistoryLocation log.leaves.length).pageNumber)
    (hp' : p' ≤ (rootHistoryLocation log'.leaves.length).pageNumber)
    (heq : (poolV1RootPageAddress env pool p).1 = (poolV1RootPageAddress env pool' p').1) :
    pool = pool' ∧ p = p' := by
  have himage : pageImage pool p (pageRoots env log.leaves p) = pageImage pool' p' (pageRoots env log'.leaves p') := by
    rw [← (h.pages p hp).2, ← (h'.pages p' hp').2, heq]
  have hpool := congrArg (slice 8 32) himage
  have hnumber := congrArg (slice 40 8) himage
  rw [slice_pageImage_header (by omega), slice_pageImage_header (by omega), slice_pageHeader_pool,
    slice_pageHeader_pool] at hpool
  rw [slice_pageImage_header (by omega), slice_pageImage_header (by omega), slice_pageHeader_number,
    slice_pageHeader_number] at hnumber
  exact ⟨Bytes32.ext hpool, leBytes_inj (h.page_lt hp) (h'.page_lt hp') hnumber⟩

/-- The current page is accepted, and its header says how full it is. -/
theorem current_header (h : PoolTracked env pool log l) {header : RootPageHeaderV1}
    (hvalid : validateRootPageBytes
      (l (poolV1RootPageAddress env pool (rootHistoryLocation log.leaves.length).pageNumber).1).data pool
      (rootHistoryLocation log.leaves.length).pageNumber = .ok header) :
    header.filled = (pageRoots env log.leaves (rootHistoryLocation log.leaves.length).pageNumber).length := by
  have hlen := h.wellFormed.length_le
  have hnum : (rootHistoryLocation log.leaves.length).pageNumber * POOL_V1_ROOT_HISTORY_CAPACITY < U64_LIMIT := by
    simp only [rootHistoryLocation, POOL_V1_ROOT_HISTORY_CAPACITY, POOL_V1_LEAF_CAPACITY, POOL_V1_TREE_DEPTH,
      U64_LIMIT] at hlen ⊢
    omega
  rw [(h.pages _ le_rfl).2, validateRootPageBytes_pageImage (length_pageRoots_le env _ _) hnum
    (pageRoots_canonical env h.wellFormed.leaves_canonical _)] at hvalid
  cases hvalid
  rfl

theorem decode_strict (h : PoolTracked env pool log l) {s : PoolStateV1}
    (hs : PoolStateV1.decodeWithValidatedTree env (l pool).data pool = .ok s) : s = log.state env := by
  have hdecode := @PoolLog.WellFormed.decode_strict env _ h.wellFormed
  rw [h.pool_eq, ← h.data_eq, hs] at hdecode
  exact Except.ok.inj hdecode

theorem decode_invariant (h : PoolTracked env pool log l) {s : PoolStateV1}
    (hs : PoolStateV1.decodeFromProgramInvariant env (l pool).data pool = .ok s) : s = log.state env := by
  have hdecode := @PoolLog.WellFormed.decode_invariant env _ h.wellFormed
  rw [h.pool_eq, ← h.data_eq, hs] at hdecode
  exact Except.ok.inj hdecode

/-- A pool whose accounts are left alone stays tracked. -/
theorem kept (h : PoolTracked env pool log l)
    (hstate : (l' pool).owner = (l pool).owner ∧ (l' pool).data = (l pool).data)
    (hpages : ∀ p ≤ (rootHistoryLocation log.leaves.length).pageNumber,
      (l' (poolV1RootPageAddress env pool p).1).owner = (l (poolV1RootPageAddress env pool p).1).owner ∧
        (l' (poolV1RootPageAddress env pool p).1).data = (l (poolV1RootPageAddress env pool p).1).data) :
    PoolTracked env pool log l' where
  wellFormed := h.wellFormed
  pool_eq := h.pool_eq
  owner_eq := hstate.1.trans h.owner_eq
  data_eq := hstate.2.trans h.data_eq
  pages p hp := ⟨(hpages p hp).1.trans (h.pages p hp).1, (hpages p hp).2.trans (h.pages p hp).2⟩

theorem outside (h : PoolTracked env pool log l) (hout : Outside env.programId l l') : PoolTracked env pool log l' := by
  refine h.kept ⟨?_, ?_⟩ fun p hp => ⟨?_, ?_⟩
  · rw [(hout.kept _ h.owner_eq).1, h.owner_eq]
  · exact (hout.kept _ h.owner_eq).2
  · rw [(hout.kept _ (h.pages p hp).1).1, (h.pages p hp).1]
  · exact (hout.kept _ (h.pages p hp).1).2

end PoolTracked

/-! ### Plans -/

theorem HonestPlan.mono {logs' : Logs} {data : Bytes} (h : HonestPlan env logs data)
    (hmono : ∀ pool log, logs pool = some log → ∃ new, logs' pool = some (log.append new)) :
    HonestPlan env logs' data := by
  obtain ⟨f, current, rollover, images, log, r, hencode, hdata, hlog, hle, hplan⟩ := h
  obtain ⟨new, hlog'⟩ := hmono f.pool log hlog
  refine ⟨f, current, rollover, images, log.append new, r, hencode, hdata, hlog', ?_, ?_⟩
  · simp only [PoolLog.append, List.length_append]
    omega
  · have hupTo : (log.append new).upTo f.sourceSequence = log.upTo f.sourceSequence := by
      simp only [PoolLog.upTo, PoolLog.append, List.take_append_of_le_length hle]
    rwa [hupTo]

theorem Logs.append_mono (new : List Digest) :
    ∀ p log, logs p = some log → ∃ new', (logs.append pool new) p = some (log.append new') := by
  intro p log hlog
  by_cases hp : p = pool
  · subst hp
    exact ⟨new, by simp [Logs.append, hlog]⟩
  · exact ⟨[], by simp [Logs.append, Function.update_of_ne hp, hlog, PoolLog.append]⟩

/-! ### Frame rules -/

theorem HasKind.of_touches {kind : AccountKind} {keys : List Pubkey} {k : Pubkey} (h : HasKind env kind l' k)
    (ht : Touches keys l l') (hk : k ∉ keys) : HasKind env kind l k ∧ (l' k).data = (l k).data := by
  obtain ⟨howner, hdata⟩ := ht k hk
  exact ⟨⟨howner.symm.trans h.owner_eq, by rw [← hdata]; exact h.magic_eq⟩, hdata⟩

namespace Tracks

theorem outside (h : Tracks env logs l) (hout : Outside env.programId l l') : Tracks env logs l' where
  pools pool log hlog := (h.pools pool log hlog).outside hout
  states k hk := h.states k (hk.of_outside hout).1
  plans k hk := by
    obtain ⟨hcore, hdata⟩ := hk.of_outside hout
    rw [hdata]
    exact h.plans k hcore

/-- Accounts that are neither states nor pages may change, as long as no state
and no dishonest plan appears. -/
theorem scratch {keys : List Pubkey} (h : Tracks env logs l) (ht : Touches keys l l')
    (hbefore : ∀ k ∈ keys, ¬ HasKind env .state l k ∧ ¬ HasKind env .page l k)
    (hafter : ∀ k ∈ keys, ¬ HasKind env .state l' k ∧ (HasKind env .core l' k → HonestPlan env logs (l' k).data)) :
    Tracks env logs l' where
  pools pool log hlog := by
    have htracked := h.pools pool log hlog
    exact htracked.kept (ht _ fun hk => (hbefore _ hk).1 htracked.state_kind)
      fun p hp => ht _ fun hk => (hbefore _ hk).2 (htracked.page_kind hp)
  states k hk := by
    by_cases hmem : k ∈ keys
    · exact absurd hk (hafter k hmem).1
    · exact h.states k (hk.of_touches ht hmem).1
  plans k hk := by
    by_cases hmem : k ∈ keys
    · exact (hafter k hmem).2 hk
    · obtain ⟨hcore, hdata⟩ := hk.of_touches ht hmem
      rw [hdata]
      exact h.plans k hcore

end Tracks

/-- The writes of an append to one pool: its state, its current page and, when
the history grows past it, a new page. -/
structure AppendEffect (env : Environment) (pool : Pubkey) (log : PoolLog) (new : List Digest) (next : Option Pubkey)
    (l l' : Ledger) : Prop where
  touches : Touches (pool ::
    (poolV1RootPageAddress env pool (rootHistoryLocation log.leaves.length).pageNumber).1 :: next.toList) l l'
  next_zeroed : ∀ k ∈ next, Zeroed env l k
  next_written : ∀ k ∈ next, HasKind env .page l' k
  wellFormed : (log.append new).WellFormed
  state_owner : (l' pool).owner = env.programId
  state_eq : (l' pool).data = ((log.append new).state env).writeEncodingPrevalidated
  grown : ∀ p, (rootHistoryLocation log.leaves.length).pageNumber ≤ p →
    p ≤ (rootHistoryLocation (log.leaves ++ new).length).pageNumber →
    (l' (poolV1RootPageAddress env pool p).1).owner = env.programId ∧
      (l' (poolV1RootPageAddress env pool p).1).data = pageImage pool p (pageRoots env (log.leaves ++ new) p)

section Append
variable {new : List Digest} {next : Option Pubkey}

/-- The page accounts an append leaves alone. -/
theorem AppendEffect.page_kept (he : AppendEffect env pool log new next l l') (h : PoolTracked env pool log l)
    (h' : PoolTracked env pool' log' l) {p : ℕ} (hp : p ≤ (rootHistoryLocation log'.leaves.length).pageNumber)
    (hne : ¬ (pool' = pool ∧ p = (rootHistoryLocation log.leaves.length).pageNumber)) :
    (l' (poolV1RootPageAddress env pool' p).1).owner = (l (poolV1RootPageAddress env pool' p).1).owner ∧
      (l' (poolV1RootPageAddress env pool' p).1).data = (l (poolV1RootPageAddress env pool' p).1).data := by
  refine he.touches _ fun hmem => ?_
  have hkind := h'.page_kind hp
  simp only [List.mem_cons, Option.mem_toList] at hmem
  rcases hmem with heq | heq | hnext
  · exact h.state_kind.ne_of_kind hkind (by decide) heq.symm
  · exact hne (h'.page_unique h hp le_rfl heq)
  · exact (he.next_zeroed _ hnext).not_kind hkind

theorem AppendEffect.state_kept (he : AppendEffect env pool log new next l l') (h : PoolTracked env pool log l)
    (h' : PoolTracked env pool' log' l) (hne : pool' ≠ pool) :
    (l' pool').owner = (l pool').owner ∧ (l' pool').data = (l pool').data := by
  refine he.touches _ fun hmem => ?_
  simp only [List.mem_cons, Option.mem_toList] at hmem
  rcases hmem with heq | heq | hnext
  · exact hne heq
  · exact h'.state_kind.ne_of_kind (h.page_kind le_rfl) (by decide) heq
  · exact (he.next_zeroed _ hnext).not_kind h'.state_kind

/-- The pool that was appended to holds its longer log. -/
theorem AppendEffect.tracked (he : AppendEffect env pool log new next l l') (h : PoolTracked env pool log l) :
    PoolTracked env pool (log.append new) l' where
  wellFormed := he.wellFormed
  pool_eq := h.pool_eq
  owner_eq := he.state_owner
  data_eq := he.state_eq
  pages p hp := by
    by_cases hlt : p < (rootHistoryLocation log.leaves.length).pageNumber
    · obtain ⟨howner, hdata⟩ := he.page_kept h h hlt.le fun hsame => hlt.ne hsame.2
      obtain ⟨howner', hdata'⟩ := h.pages p hlt.le
      refine ⟨howner.trans howner', hdata.trans (hdata'.trans ?_)⟩
      simp only [PoolLog.append, pageRoots_append_of_lt env new hlt]
    · exact he.grown p (not_lt.mp hlt) hp

/-- After an append a written account is the pool's state or one of its pages. -/
theorem AppendEffect.written_kind (he : AppendEffect env pool log new next l l') (h : PoolTracked env pool log l) :
    ∀ k ∈ pool :: (poolV1RootPageAddress env pool (rootHistoryLocation log.leaves.length).pageNumber).1 :: next.toList,
      (k = pool ∧ HasKind env .state l' k) ∨ HasKind env .page l' k := by
  intro k hk
  have htracked := he.tracked h
  simp only [List.mem_cons, Option.mem_toList] at hk
  rcases hk with rfl | rfl | hnext
  · exact .inl ⟨rfl, htracked.state_kind⟩
  · have hgrow : (rootHistoryLocation log.leaves.length).pageNumber ≤
        (rootHistoryLocation (log.append new).leaves.length).pageNumber := by
      simp only [PoolLog.append, List.length_append, rootHistoryLocation]
      exact Nat.div_le_div_right (by omega)
    exact .inr (htracked.page_kind hgrow)
  · exact .inr (he.next_written k hnext)

theorem Tracks.append (h : Tracks env logs l) (hlog : logs pool = some log)
    (he : AppendEffect env pool log new next l l') : Tracks env (logs.append pool new) l' where
  pools pool' log' hlog' := by
    have hpool := h.pools pool log hlog
    by_cases hp : pool' = pool
    · subst hp
      simp only [Logs.append, hlog, Option.map_some, Function.update_self, Option.some.injEq] at hlog'
      exact hlog' ▸ he.tracked hpool
    · rw [Logs.append, Function.update_of_ne hp] at hlog'
      have hother := h.pools pool' log' hlog'
      exact hother.kept (he.state_kept hpool hother hp) fun p hpage =>
        he.page_kept hpool hother hpage fun hsame => hp hsame.1
  states k hk := by
    by_cases hmem : k ∈ pool ::
        (poolV1RootPageAddress env pool (rootHistoryLocation log.leaves.length).pageNumber).1 :: next.toList
    · rcases he.written_kind (h.pools pool log hlog) k hmem with ⟨rfl, -⟩ | hpage
      · exact ⟨log.append new, by simp [Logs.append, hlog]⟩
      · exact absurd (hk.unique hpage) (by decide)
    · obtain ⟨log', hlog'⟩ := h.states k (hk.of_touches he.touches hmem).1
      obtain ⟨new', hnew⟩ := @Logs.append_mono pool logs new k log' hlog'
      exact ⟨_, hnew⟩
  plans k hk := by
    by_cases hmem : k ∈ pool ::
        (poolV1RootPageAddress env pool (rootHistoryLocation log.leaves.length).pageNumber).1 :: next.toList
    · rcases he.written_kind (h.pools pool log hlog) k hmem with ⟨-, hstate⟩ | hpage
      · exact absurd (hk.unique hstate) (by decide)
      · exact absurd (hk.unique hpage) (by decide)
    · obtain ⟨hcore, hdata⟩ := hk.of_touches he.touches hmem
      rw [hdata]
      exact (h.plans k hcore).mono (Logs.append_mono new)

end Append

end

end Aspis.Pool
