import Aspis.Forest.LaneLog
import Aspis.Pool.Refinement

/-! What the program's accounts may hold, account by account: zeros, or the
image of a pool log, of a history page, of a lane log, of a settlement plan that
was computed from some log, or another record known by its first bytes. No
account is compared with another, so any writer keeps this by writing an image
that is sound on its own; here are those of the pool. -/

namespace Aspis.Forest

open Lib Chain Statement Pool

/-! ### Sound images -/

/-- A page image of canonical roots that fit. -/
structure HoldsPage (data : Bytes) (pool : Pubkey) (p : ℕ) (roots : List Digest) : Prop where
  data_eq : data = pageImage pool p roots
  fits : roots.length ≤ POOL_V1_ROOT_HISTORY_CAPACITY
  number_lt : p * POOL_V1_ROOT_HISTORY_CAPACITY < U64_LIMIT
  canonical : ∀ root ∈ roots, DigestIsCanonical root

/-- Core bytes of a plan that was computed from some log of its pool. -/
def HoldsPlan (env : Environment) (data : Bytes) : Prop :=
  ∃ f current rollover images base r, encodePreparedSettlementPlanV1 env f current rollover = .ok images ∧
    data = images.coreImage ∧ base.identity.pool = f.pool ∧ PlanOf env base r f

def laneMagic : Bytes := [65, 83, 76, 56]

/-- First bytes of the records that no fast reader reads: markers, rollover shards, masters, checkpoints. -/
def recordMagics : List Bytes := [markerMagic, rolloverMagic, [65, 83, 77, 56], [65, 83, 67, 56]]

inductive SoundImage (env : Environment) (k : Pubkey) (data : Bytes) : Prop
  | zeroed (zero_eq : allZero data = true)
  | state (log : PoolLog) (wellFormed : log.WellFormed) (pool_eq : log.identity.pool = k)
      (data_eq : data = (log.state env).writeEncodingPrevalidated)
  | page (pool : Pubkey) (p : ℕ) (roots : List Digest) (holds : HoldsPage data pool p roots)
  | lane (log : LaneLog) (wellFormed : log.WellFormed) (data_eq : data = laneImage (log.state env))
  | core (holds : HoldsPlan env data)
  | record (magic_mem : slice 0 4 data ∈ recordMagics)

/-- Every account of the program holds a sound image. -/
def SoundLedger (env : Environment) (l : Ledger) : Prop :=
  ∀ k, (l k).owner = env.programId → SoundImage env k (l k).data

section
variable {env : Environment} {k : Pubkey} {data : Bytes}

theorem laneImage_magic (lane : PoolV1PairForestLaneStateV1) : slice 0 4 (laneImage lane) = laneMagic := by
  rw [laneImage, slice_append_left (by simp)]
  rfl

theorem HoldsPage.magic {pool : Pubkey} {p : ℕ} {roots : List Digest} (h : HoldsPage data pool p roots) :
    slice 0 4 data = AccountKind.page.magic := by
  rw [h.data_eq]
  exact pageImage_magic pool p roots

theorem HoldsPlan.magic (h : HoldsPlan env data) : slice 0 4 data = AccountKind.core.magic := by
  obtain ⟨f, current, rollover, images, base, r, hencode, rfl, -⟩ := h
  exact encodePreparedSettlementPlanV1_magic env hencode

/-- The first bytes of a state image. -/
theorem stateImage_magic (log : PoolLog) :
    slice 0 4 (log.state env).writeEncodingPrevalidated = AccountKind.state.magic :=
  magic_of_preamble (magic_writeEncoding _)

namespace SoundImage

/-- What an image is, by its first bytes. -/
theorem by_magic {magic : Bytes} (h : SoundImage env k data) (hmagic : slice 0 4 data = magic) :
    allZero magic = true ∨
      (magic = AccountKind.state.magic ∧ ∃ log : PoolLog, log.WellFormed ∧ log.identity.pool = k ∧
        data = (log.state env).writeEncodingPrevalidated) ∨
      (magic = AccountKind.page.magic ∧ ∃ pool p roots, HoldsPage data pool p roots) ∨
      (magic = laneMagic ∧ ∃ log : LaneLog, log.WellFormed ∧ data = laneImage (log.state env)) ∨
      (magic = AccountKind.core.magic ∧ HoldsPlan env data) ∨ magic ∈ recordMagics := by
  subst hmagic
  cases h with
  | zeroed hzero => exact .inl (allZero_slice 0 4 hzero)
  | state log hwell hpool hdata =>
    refine .inr (.inl ⟨?_, log, hwell, hpool, hdata⟩)
    rw [hdata, stateImage_magic]
  | page pool p roots holds => exact .inr (.inr (.inl ⟨holds.magic, pool, p, roots, holds⟩))
  | lane log hwell hdata =>
    refine .inr (.inr (.inr (.inl ⟨?_, log, hwell, hdata⟩)))
    rw [hdata, laneImage_magic]
  | core holds => exact .inr (.inr (.inr (.inr (.inl ⟨holds.magic, holds⟩))))
  | record hmem => exact .inr (.inr (.inr (.inr (.inr hmem))))

theorem state_of_magic (h : SoundImage env k data) (hmagic : slice 0 4 data = AccountKind.state.magic) :
    ∃ log : PoolLog, log.WellFormed ∧ log.identity.pool = k ∧ data = (log.state env).writeEncodingPrevalidated := by
  rcases h.by_magic hmagic with h | ⟨-, h⟩ | ⟨h, -⟩ | ⟨h, -⟩ | ⟨h, -⟩ | h
  · exact absurd h (by decide)
  · exact h
  all_goals exact absurd h (by decide)

theorem page_of_magic (h : SoundImage env k data) (hmagic : slice 0 4 data = AccountKind.page.magic) :
    ∃ pool p roots, HoldsPage data pool p roots := by
  rcases h.by_magic hmagic with h | ⟨h, -⟩ | ⟨-, h⟩ | ⟨h, -⟩ | ⟨h, -⟩ | h
  · exact absurd h (by decide)
  · exact absurd h (by decide)
  · exact h
  all_goals exact absurd h (by decide)

theorem lane_of_magic (h : SoundImage env k data) (hmagic : slice 0 4 data = laneMagic) :
    ∃ log : LaneLog, log.WellFormed ∧ data = laneImage (log.state env) := by
  rcases h.by_magic hmagic with h | ⟨h, -⟩ | ⟨h, -⟩ | ⟨-, h⟩ | ⟨h, -⟩ | h
  · exact absurd h (by decide)
  · exact absurd h (by decide)
  · exact absurd h (by decide)
  · exact h
  all_goals exact absurd h (by decide)

theorem plan_of_magic (h : SoundImage env k data) (hmagic : slice 0 4 data = AccountKind.core.magic) :
    HoldsPlan env data := by
  rcases h.by_magic hmagic with h | ⟨h, -⟩ | ⟨h, -⟩ | ⟨h, -⟩ | ⟨-, h⟩ | h
  · exact absurd h (by decide)
  · exact absurd h (by decide)
  · exact absurd h (by decide)
  · exact absurd h (by decide)
  · exact h
  · exact absurd h (by decide)

end SoundImage

/-! ### Pages -/

section Pages
variable {pool : Pubkey} {p : ℕ} {roots new : List Digest} {header : RootPageHeaderV1}

theorem validateRootPageBytes_filled {expected : ℕ} (h : validateRootPageBytes data pool expected = .ok header) :
    header.filled = leNat (slice 56 2 data) := by
  unfold validateRootPageBytes at h
  dsimp only at h
  split_ifs at h
  rw [← Except.ok.inj h]

theorem HoldsPage.filled (h : HoldsPage data pool p roots) : leNat (slice 56 2 data) = roots.length := by
  have hfits := h.fits
  simp only [POOL_V1_ROOT_HISTORY_CAPACITY] at hfits
  rw [h.data_eq, slice_pageImage_header (by omega), slice_pageHeader_filled, leNat_leBytes_of_lt (by omega)]

theorem HoldsPage.validated (h : HoldsPage data pool p roots) :
    validateRootPageBytes data pool p = .ok ⟨pool, p, p * POOL_V1_ROOT_HISTORY_CAPACITY, roots.length⟩ := by
  rw [h.data_eq]
  exact validateRootPageBytes_pageImage h.fits h.number_lt h.canonical

/-- A page takes more roots while it has room. -/
theorem HoldsPage.append (h : HoldsPage data pool p roots) (hfilled : header.filled = leNat (slice 56 2 data))
    (hnew : ∀ root ∈ new, DigestIsCanonical root)
    (hroom : header.filled + new.length ≤ POOL_V1_ROOT_HISTORY_CAPACITY) :
    HoldsPage (appendRootsUnchecked data header new) pool p (roots ++ new) := by
  rw [h.filled] at hfilled
  refine ⟨?_, ?_, h.number_lt, fun root hroot => ?_⟩
  · rw [h.data_eq]
    exact appendRootsUnchecked_pageImage hfilled (by omega)
  · rw [List.length_append]
    omega
  · rcases List.mem_append.mp hroot with hroot | hroot
    · exact h.canonical root hroot
    · exact hnew root hroot

theorem HoldsPage.fresh (hnew : ∀ root ∈ new, DigestIsCanonical root)
    (hfits : new.length ≤ POOL_V1_ROOT_HISTORY_CAPACITY) (hnumber : p * POOL_V1_ROOT_HISTORY_CAPACITY < U64_LIMIT) :
    HoldsPage (writeNewPageUnchecked pool p (p * POOL_V1_ROOT_HISTORY_CAPACITY) new) pool p new :=
  ⟨writeNewPageUnchecked_eq hfits, hfits, hnumber, hnew⟩

end Pages

/-! ### Ledgers -/

namespace SoundLedger

variable {l l' : Ledger}

theorem outside (h : SoundLedger env l) (hout : Outside env.programId l l') : SoundLedger env l' := by
  intro k hk
  by_cases howner : (l k).owner = env.programId
  · rw [(hout.kept k howner).2]
    exact h k howner
  · exact .zeroed (hout.fresh k howner hk)

/-- Writing a sound image. -/
theorem write (h : SoundLedger env l) (hdata : SoundImage env k data) : SoundLedger env (setData k data l) := by
  intro k' hk'
  rw [setData_owner] at hk'
  by_cases heq : k' = k
  · subst heq
    rw [setData_self]
    exact hdata
  · rw [setData_of_ne heq]
    exact h k' hk'

theorem marker (h : SoundLedger env l) (m : PoolV1NullifierMarkerV1) : SoundLedger env (setData k (markerBytes m) l) := by
  refine h.write (.record ?_)
  rw [slice_markerBytes_magic]
  decide

/-- Accounts that are given back do not count. -/
theorem close_plan {core : AccountInfo} {shard : Option AccountInfo} (h : SoundLedger env l)
    (hclosed : PlanClosed env core shard l l') : SoundLedger env l' := by
  intro k hk
  by_cases hmem : k ∈ (shard.map (·.key)).toList ++ [core.key]
  · exact absurd (hk.symm.trans (hclosed.disowned k hmem)) env.programId_ne_system
  · obtain ⟨howner, hdata⟩ := hclosed.touches k hmem
    rw [hdata]
    exact h k (howner.symm.trans hk)

end SoundLedger

/-! ### Appends to a pool -/

theorem newRoots_canonical {leaves new : List Digest} (h : ∀ x ∈ leaves ++ new, DigestIsCanonical x) :
    ∀ root ∈ newRoots env leaves new, DigestIsCanonical root := by
  intro root hroot
  refine historyRoots_canonical env h root ?_
  rw [historyRoots_append]
  exact List.mem_append_right _ hroot

/-- Neither the page after the current one nor any before it has a number out of range. -/
theorem nextPage_lt {sequence : ℕ} (h : sequence ≤ POOL_V1_LEAF_CAPACITY) :
    ((rootHistoryLocation sequence).pageNumber + 1) * POOL_V1_ROOT_HISTORY_CAPACITY < U64_LIMIT := by
  simp only [rootHistoryLocation, POOL_V1_ROOT_HISTORY_CAPACITY, POOL_V1_LEAF_CAPACITY, POOL_V1_TREE_DEPTH,
    U64_LIMIT] at h ⊢
  omega

theorem filled_room {n count : ℕ} (hcount : count = 1 ∨ count = 2) :
    (rootHistoryLocation n).slot + 1 + rootsInCurrent n count (rootHistoryLocation n).pageNumber ≤
      POOL_V1_ROOT_HISTORY_CAPACITY := by
  rw [rootsInCurrent_eq n count hcount]
  simp only [rootHistoryLocation, POOL_V1_ROOT_HISTORY_CAPACITY]
  omega

section Pool
variable {l l' : Ledger}

/-- The writes of a planned append, on a ledger that is sound. -/
theorem SoundLedger.append {pool current : AccountInfo} {supplied : Option AccountInfo}
    {source : AuthorizedSourceStateV1} {prevalidated : Option PrevalidatedCurrentHistoryV1} {r : AuthorizedAppendV1}
    {plan : AppendPlanV1} {log : PoolLog} {created m : Ledger} (h : SoundLedger env m)
    (hspec : AppendSpec env pool current supplied source prevalidated r created plan)
    (hsource : source.asState = log.state env) (hwell : log.WellFormed) (hpool : log.identity.pool = pool.key)
    (hvalid : validateRootPageBytes (m current.key).data pool.key
      (rootHistoryLocation source.asState.currentRootSequence).pageNumber = .ok plan.currentHeader)
    (howner : (m current.key).owner = env.programId) (hcanon : ∀ leaf ∈ r.leaves, DigestIsCanonical leaf) :
    SoundLedger env (plan.persist pool.key current.key m) := by
  have hsequence : source.asState.currentRootSequence = log.leaves.length := by rw [hsource]; rfl
  have hideal := prepare_ideal env (by rw [hsource]; rfl) hwell.length_le hspec.prepared
  have hnext := hwell.append hcanon (by rw [r.length_leaves]; exact hideal.room)
  have hroots : ∀ root ∈ plan.prepared.receipt.roots, DigestIsCanonical root := by
    rw [hideal.receipt_eq, roots_idealReceipt]
    exact newRoots_canonical hnext.leaves_canonical
  have hlength : plan.prepared.receipt.roots.length = r.count := by
    rw [hideal.receipt_eq, roots_idealReceipt, length_newRoots, r.length_leaves]
  have hcount := r.count_le
  have hstate : SoundLedger env (setData pool.key plan.prepared.nextState.writeEncodingPrevalidated m) := by
    refine h.write (.state (log.append r.leaves) hnext hpool ?_)
    rw [hideal.state_eq, hsource]
    rfl
  have hcurrent : SoundImage env current.key (appendRootsUnchecked (m current.key).data plan.currentHeader
      (plan.prepared.receipt.roots.take plan.inCurrent)) := by
    obtain ⟨pool', p, roots, hpage⟩ :=
      (h current.key howner).page_of_magic (hasKind_page howner hvalid).magic_eq
    refine .page pool' p _ (hpage.append (validateRootPageBytes_filled hvalid)
      (fun root hroot => hroots root (List.mem_of_mem_take hroot)) ?_)
    have hroom := @filled_room source.asState.currentRootSequence r.count hcount
    have htake := List.length_take_le plan.inCurrent plan.prepared.receipt.roots
    rw [hspec.page.filled_eq]
    rw [← hspec.inCurrent_eq] at hroom
    omega
  have hfresh : ∀ key number first, plan.next = some (key, number, first) →
      SoundImage env key (writeNewPageUnchecked pool.key number first
        (plan.prepared.receipt.roots.drop plan.inCurrent)) := by
    intro key number first hplan
    obtain ⟨rfl, rfl, -⟩ := hspec.next_some key number first hplan
    refine .page pool.key _ _ (HoldsPage.fresh (fun root hroot => hroots root (List.mem_of_mem_drop hroot)) ?_ ?_)
    · rw [List.length_drop, hlength]
      simp only [POOL_V1_ROOT_HISTORY_CAPACITY]
      omega
    · rw [hsequence]
      exact nextPage_lt hwell.length_le
  have hwritten : SoundLedger env (if plan.inCurrent ≠ 0 then setData current.key (appendRootsUnchecked
        (setData pool.key plan.prepared.nextState.writeEncodingPrevalidated m current.key).data plan.currentHeader
        (plan.prepared.receipt.roots.take plan.inCurrent))
        (setData pool.key plan.prepared.nextState.writeEncodingPrevalidated m)
      else setData pool.key plan.prepared.nextState.writeEncodingPrevalidated m) := by
    split_ifs
    · rw [setData_of_ne hspec.pool_ne.symm]
      exact hstate.write hcurrent
    · exact hstate
  unfold AppendPlanV1.persist
  cases hplan : plan.next with
  | none => exact hwritten
  | some next => exact hwritten.write (hfresh _ _ _ hplan)

/-- The state that the strict reader returns is that of the account's log. -/
theorem SoundLedger.pool_log {pool : AccountInfo} {s : PoolStateV1} (h : SoundLedger env l)
    (howner : (l pool.key).owner = env.programId)
    (hdecode : PoolStateV1.decodeWithValidatedTree env (l pool.key).data pool.key = .ok s) :
    ∃ log : PoolLog, log.WellFormed ∧ log.identity.pool = pool.key ∧ s = log.state env := by
  obtain ⟨log, hwell, hpool, hdata⟩ :=
    (h pool.key howner).state_of_magic (hasKind_state howner hdecode).magic_eq
  have hstrict := @PoolLog.WellFormed.decode_strict env _ hwell
  rw [hpool, ← hdata, hdecode] at hstrict
  exact ⟨log, hwell, hpool, Except.ok.inj hstrict⟩

theorem SoundLedger.deposit {pool current : AccountInfo} {next : Option AccountInfo} {tokenAccounts : List AccountInfo}
    {c : CanonicalPoolStateV1} {r : DepositRequestV1} {transfer : LegacyDepositTransferPlanV1} {plan : AppendPlanV1}
    {created paid : Ledger} {receipt : DepositReceiptV1} (h : SoundLedger env l)
    (run : DepositRun env pool current next tokenAccounts c r transfer plan l created paid l' receipt) :
    SoundLedger env l' := by
  obtain ⟨howner, hdecode, -, -⟩ := decodeAccountWith_ok run.decoded
  obtain ⟨log, hwell, hpool, hstate⟩ := h.pool_log howner hdecode
  have hspec := planAuthorizedAppend_spec run.append
  have hpaid := env.transferChecked_outside _ _ _ run.transferred
  obtain ⟨hpageOwner, hpageData⟩ := hpaid.kept _ hspec.page.owner_eq
  rw [← run.persisted]
  refine SoundLedger.append ((h.outside (run.created_call.outside env.programId_ne_system)).outside hpaid) hspec hstate
    hwell hpool ?_ hpageOwner (by simpa [AuthorizedAppendV1.leaves] using run.canonical)
  rw [hpageData]
  exact hspec.validated rfl

theorem SoundLedger.spend {i : SpendInstructionV1} {pool current marker : AccountInfo} {next : Option AccountInfo}
    {source : AuthorizedSourceStateV1} {prevalidated : Option PrevalidatedCurrentHistoryV1} {r : AuthorizedAppendV1}
    {plan : AppendPlanV1} {planned : PlannedNullifierMarkerV1} {tokens : List AccountInfo}
    {withdrawal : Option LegacyWithdrawalTransferPlanV1} {created marked paid : Ledger} {receipt : TransitionReceiptV1}
    (h : SoundLedger env l) (run : SpendRun env i pool current marker next source prevalidated r plan planned tokens
      withdrawal l created marked paid l' receipt) : SoundLedger env l' := by
  have hcreated := run.created_call.outside env.programId_ne_system
  obtain ⟨log, hwell, hpool, hstate⟩ := (h.outside hcreated).pool_log (hcreated.kept _ run.pool_owner).1 run.decoded
  have hspec := planAuthorizedAppend_spec run.append
  obtain ⟨hpageOwner, hpageData⟩ := run.outside.kept _ hspec.page.owner_eq
  have hmarker : current.key ≠ marker.key := fun heq => run.marker_not_target (by simp [heq])
  have hmarked : SoundLedger env (setData marker.key planned.encodedMarker paid) := by
    rw [run.marker_planned.encoded_eq]
    exact ((h.outside hcreated).outside run.outside).marker planned.marker
  rw [← run.persisted]
  refine SoundLedger.append hmarked hspec hstate hwell hpool ?_ ?_ run.leaves_canonical
  · rw [setData_of_ne hmarker, hpageData]
    exact run.page_valid
  · rw [setData_of_ne hmarker]
    exact hpageOwner

theorem SoundLedger.initializePool {pool pageZero : AccountInfo} {init : PoolInitializationV1} {state : PoolStateV1}
    {prepared : Ledger} (h : SoundLedger env l) (run : InitializeRun env pool pageZero init state l prepared l') :
    SoundLedger env l' := by
  obtain ⟨rfl, hwell⟩ := genesis_initial run.genesis
  rw [run.written]
  refine ((h.outside run.outside).write (.state _ hwell rfl rfl)).write (.page pool.key 0 _ (HoldsPage.fresh ?_ ?_ ?_))
  · intro root hroot
    rw [List.mem_singleton.mp hroot]
    exact env.emptyRoots_canonical _
  · simp [POOL_V1_ROOT_HISTORY_CAPACITY]
  · simp [U64_LIMIT]

theorem PrepareRun.holdsPlan {pool core : AccountInfo} {c : CanonicalPoolStateV1} {r : AuthorizedAppendV1}
    {images : PreparedSettlementPlanImagesV1} {f : PreparedSettlementPlanFieldsV1}
    {prepared : PreparedAuthorizedAppendImagesV1} {shard : Option PlannedShard} {created : Ledger}
    (h : SoundLedger env l) (run : PrepareRun env pool core c r images f prepared shard l created l') :
    HoldsPlan env images.coreImage := by
  obtain ⟨log, hwell, hpool, hdata⟩ :=
    (h pool.key run.pool_owner).state_of_magic (hasKind_state run.pool_owner run.decoded).magic_eq
  have hstate : c.state = log.state env := by
    have hfast := @PoolLog.WellFormed.decode_invariant env _ hwell
    rw [hpool, ← hdata, run.decoded] at hfast
    exact Except.ok.inj hfast
  obtain ⟨current, rollover, hencoded⟩ := run.built.encoded
  exact ⟨f, current, rollover, images, log, r, hencoded, rfl, by rw [run.built.pool_eq, hpool],
    run.planOf hwell hstate⟩

theorem SoundLedger.prepare {pool core : AccountInfo} {c : CanonicalPoolStateV1} {r : AuthorizedAppendV1}
    {images : PreparedSettlementPlanImagesV1} {f : PreparedSettlementPlanFieldsV1}
    {prepared : PreparedAuthorizedAppendImagesV1} {shard : Option PlannedShard} {created : Ledger}
    (h : SoundLedger env l) (run : PrepareRun env pool core c r images f prepared shard l created l') :
    SoundLedger env l' := by
  have hwritten : SoundLedger env (setData core.key images.coreImage created) :=
    (h.outside (run.created_call.outside env.programId_ne_system)).write (.core (PrepareRun.holdsPlan h run))
  rw [run.written]
  cases hshard : shard with
  | none => exact hwritten
  | some s =>
    obtain ⟨-, -, himage⟩ := run.shard_zeroed s hshard
    refine hwritten.write (.record ?_)
    rw [himage]
    decide

section Settle
variable {services : AuthorizationServices} {accounts : List AccountInfo} {pool : AccountInfo}
  {kind : PoolV1TransitionKind} {s : PoolStateV1} {layout : SettlePreparedLayoutV1}
  {x : PreparedSettlementApplyContextV1} {v : PreparedSettlementPlanViewV1} {a : AuthenticatedSettlementStatementV1}
  {sourceNext : Option Bytes} {applied : PreparedSettlementApplyResultV1} {planned : PlannedNullifierMarkerV1}
  {withdrawal : Option LegacyWithdrawalTransferPlanV1} {marked paid closing : Ledger} {receipt : TransitionReceiptV1}

/-- The plan that a settlement applies was computed from some log of the pool. -/
theorem SettleRun.planOf (h : SoundLedger env l) (run : SettleRun env services accounts pool kind s layout x v a
    sourceNext applied planned withdrawal l marked paid closing l' receipt) :
    ∃ base r, base.identity.pool = pool.key ∧ PlanOf env base r v.fields := by
  have hv := run.applied_plan.decoded
  rw [run.context_core.1, run.context_core.2] at hv
  obtain ⟨f, current, rollover, images, base, r, hencode, hdata, hpool, hplan⟩ :=
    (h _ run.core_owner).plan_of_magic (hasKind_core run.core_owner hv).magic_eq
  rw [hdata] at hv
  have hsame := decode_encodePreparedSettlementPlanV1 env hplan.encodable hencode hv
  refine ⟨base, r, ?_, hplan.same hsame⟩
  rw [hpool, ← hsame.pool_eq, run.applied_plan.pool_eq, run.context_pool]

theorem appendRoots_canonical {base : PoolLog} {r : AuthorizedAppendV1} {f : PreparedSettlementPlanFieldsV1}
    (h : PlanOf env base r f) :
    ∀ root ∈ appendRoots ⟨f.firstReceipt, f.secondReceipt⟩, DigestIsCanonical root := by
  have hnew := @newRoots_canonical env _ _ h.wellFormed.leaves_canonical
  rw [← roots_idealReceipt, ← h.receipt_eq] at hnew
  intro root hroot
  refine hnew root ?_
  cases hsecond : f.secondReceipt <;>
    simp only [appendRoots, AuthorizedAppendReceiptV1.roots, hsecond] at hroot ⊢ <;> simpa using hroot

/-- The three images that a settlement writes are sound. -/
theorem SoundLedger.imagesWritten (h : SoundLedger env l) (run : SettleRun env services accounts pool kind s layout x v a
    sourceNext applied planned withdrawal l marked paid closing l' receipt) :
    SoundLedger env (imagesWritten pool.key layout applied paid) := by
  obtain ⟨base, r, hpool, hplan⟩ := SettleRun.planOf h run
  obtain ⟨header, inCurrent, hmatch⟩ := run.history
  have hcanon := appendRoots_canonical hplan
  have hlen : base.leaves.length ≤ POOL_V1_LEAF_CAPACITY := by
    have := hplan.wellFormed.length_le
    rw [PoolLog.append, List.length_append] at this
    omega
  have hstate : SoundLedger env (setData pool.key applied.nextPoolImage paid) := by
    refine (h.outside run.outside).write (.state _ hplan.wellFormed hpool ?_)
    rw [run.applied_plan.image_eq, hplan.image_eq]
  obtain ⟨pool', p, roots, hpage⟩ := (h _ run.pages.current_owner).page_of_magic
    (hasKind_page run.pages.current_owner hmatch.page_valid).magic_eq
  have hcurrent : SoundImage env layout.current.key applied.nextCurrentPageImage := by
    rw [run.applied_plan.current_image_eq, hmatch.current_eq, nextCurrentImage]
    split_ifs
    · refine .page pool' p _ (hpage.append (validateRootPageBytes_filled hmatch.page_valid)
        (fun root hroot => hcanon root (List.mem_of_mem_take hroot)) ?_)
      have hroom := @filled_room v.fields.sourceSequence r.count r.count_le
      have htake := List.length_take_le inCurrent (appendRoots ⟨v.fields.firstReceipt, v.fields.secondReceipt⟩)
      rw [← appendCount_transitionKind, ← hplan.kind_eq, ← hmatch.inCurrent_eq] at hroom
      rw [hmatch.filled_eq]
      omega
    · exact .page pool' p roots hpage
  have hnext : ∀ n ∈ layout.next, ∀ image ∈ applied.nextRolloverPageImage, SoundImage env n.key image := by
    intro n hn image himage
    obtain ⟨-, -, -, hrollover⟩ := hmatch.next_some (l n.key).data (by
      rw [run.next_source.1, Option.mem_def.mp hn]
      rfl)
    rw [← run.applied_plan.next_image_eq, Option.mem_def.mp himage] at hrollover
    rw [Option.some.inj hrollover]
    refine .page pool.key _ _ (HoldsPage.fresh (fun root hroot => hcanon root (List.mem_of_mem_drop hroot)) ?_ ?_)
    · rw [List.length_drop]
      simp [appendRoots, POOL_V1_ROOT_HISTORY_CAPACITY]
      omega
    · rw [hplan.sequence_eq]
      exact nextPage_lt hlen
  have hwritten : SoundLedger env (if layout.currentWritable = true then setData layout.current.key
      applied.nextCurrentPageImage (setData pool.key applied.nextPoolImage paid)
      else setData pool.key applied.nextPoolImage paid) := by
    split_ifs
    · exact hstate.write hcurrent
    · exact hstate
  unfold Pool.imagesWritten
  cases hn : layout.next <;> cases himage : applied.nextRolloverPageImage
  case some.some next image => exact hwritten.write (hnext next hn image himage)
  all_goals exact hwritten

theorem SoundLedger.settle (h : SoundLedger env l) (run : SettleRun env services accounts pool kind s layout x v a
    sourceNext applied planned withdrawal l marked paid closing l' receipt) : SoundLedger env l' := by
  refine SoundLedger.close_plan ?_ run.closed
  rw [run.written, run.marker_planned.encoded_eq]
  exact (h.imagesWritten run).marker planned.marker

end Settle

/-- Every instruction of the pool writes sound images. -/
theorem SoundLedger.accepted {services : AuthorizationServices} {i : Instruction} {o : Outcome} (h : SoundLedger env l)
    (haccepted : Accepted env services l l' i o) : SoundLedger env l' := by
  cases haccepted with
  | initializePool run => exact h.initializePool run
  | deposit run => exact h.deposit run
  | spend _ run => exact h.spend run
  | prepare _ _ run => exact h.prepare run
  | settle _ _ run => exact h.settle run
  | cancel _ run => exact h.close_plan run.closed

end Pool

end

end Aspis.Forest
