import Aspis.Relayer.ExecutionHistory
import Aspis.Wallet.WitnessImage

/-! The witness states that calls can reach from a checked tree. Every call keeps the
tree valid, all digests canonical, every path at the tree's root and the tracked events
and leaves distinct, so a reachable state can be written down whenever it is small enough. -/

namespace Aspis.Wallet

open Lib Statement Pool Forest

section Append
variable {env : Environment} {s s' : PoolWitnessState}

/-- What the repair of a path keeps, and where its new siblings come from. -/
structure Repaired (partialRoots : Fin POOL_V1_TREE_DEPTH → Digest) (w w' : PoolWitness) : Prop where
  event : w'.eventId = w.eventId
  index : w'.leafIndex = w.leafIndex
  leaf : w'.leaf = w.leaf
  siblings : ∀ level, w'.siblings level = w.siblings level ∨ w'.siblings level = partialRoots level

theorem repairWitness_repaired {leafIndex : ℕ} {partialRoots : Fin POOL_V1_TREE_DEPTH → Digest} {w w' : PoolWitness}
    (h : TreeDigests.repairWitness leafIndex partialRoots w = .ok w') : Repaired partialRoots w w' := by
  unfold TreeDigests.repairWitness at h
  dsimp only at h
  split_ifs at h with hzero hlevel
  obtain rfl := Except.ok.inj h
  refine ⟨rfl, rfl, rfl, fun level => ?_⟩
  dsimp only
  by_cases heq : level = ⟨(w.leafIndex ^^^ leafIndex).log2, hlevel⟩
  · subst heq
    exact .inr (Function.update_self _ _ _)
  · exact .inl (Function.update_of_ne heq _ _)

theorem mapM_repaired {leafIndex : ℕ} {partialRoots : Fin POOL_V1_TREE_DEPTH → Digest} :
    ∀ {tracked repaired : List PoolWitness}, tracked.mapM (TreeDigests.repairWitness leafIndex partialRoots) = .ok repaired →
      List.Forall₂ (Repaired partialRoots) tracked repaired
  | [], repaired, h => by
    obtain rfl := Except.ok.inj h
    exact .nil
  | w :: tracked, repaired, h => by
    simp only [List.mapM_cons, except_bind_eq_ok, except_pure_eq_ok] at h
    obtain ⟨w', hw, rest, hrest, rfl⟩ := h
    exact .cons (repairWitness_repaired hw) (mapM_repaired hrest)

/-- Repaired paths track the same events and leaves. -/
theorem repaired_keys {partialRoots : Fin POOL_V1_TREE_DEPTH → Digest} {tracked repaired : List PoolWitness}
    (h : List.Forall₂ (Repaired partialRoots) tracked repaired) :
    repaired.map (fun w => (w.eventId, w.leafIndex)) = tracked.map fun w => (w.eventId, w.leafIndex) := by
  induction h with
  | nil => rfl
  | cons hw _ ih => rw [List.map_cons, List.map_cons, ih, hw.event, hw.index]

theorem pairwise_distinct_iff {l : List PoolWitness} : l.Pairwise DistinctWitness ↔
    (l.map fun w => (w.eventId, w.leafIndex)).Pairwise fun a b => a.1 ≠ b.1 ∧ a.2 ≠ b.2 := by
  rw [List.pairwise_map]
  rfl

theorem forall₂_mem_right {α β : Type} {R : α → β → Prop} {l : List α} {l' : List β} (h : List.Forall₂ R l l') {b : β}
    (hb : b ∈ l') : ∃ a ∈ l, R a b := by
  induction h with
  | nil => exact absurd hb List.not_mem_nil
  | cons hab _ ih =>
    rcases List.mem_cons.mp hb with rfl | hmem
    · exact ⟨_, List.mem_cons_self, hab⟩
    · obtain ⟨a, ha, hR⟩ := ih hmem
      exact ⟨a, List.mem_cons_of_mem _ ha, hR⟩

/-- The roots above the new leaf are canonical. -/
theorem appendPartialRootsV1_canonical {tree : PoolTree} {leaf : Digest} {partialRoots : Fin POOL_V1_TREE_DEPTH → Digest}
    {root : Digest} (hleaf : DigestIsCanonical leaf)
    (h : (poolTreeDigests env).appendPartialRootsV1 tree leaf = .ok (partialRoots, root)) :
    ∀ level, DigestIsCanonical (partialRoots level) := by
  unfold TreeDigests.appendPartialRootsV1 at h
  split_ifs at h
  have hloop := @MerkleTree.foldl_levels _ _
    (fun _ (acc : (Fin POOL_V1_TREE_DEPTH → Digest) × Digest) =>
      DigestIsCanonical acc.2 ∧ ∀ level, DigestIsCanonical (acc.1 level))
    (fun (roots, current) level =>
      (Function.update roots level current,
        if tree.nextLeafIndex.testBit level then (poolTreeDigests env).parent (tree.frontier level) current
        else (poolTreeDigests env).parent current ((poolTreeDigests env).emptyRoots level)))
    (fun _ => (poolTreeDigests env).zero, leaf) ⟨hleaf, fun _ => Environment.zero_canonical⟩ ?_
  · rw [Except.ok.inj h] at hloop
    exact hloop.2
  · rintro level ⟨roots, current⟩ ⟨hcurrent, hroots⟩
    constructor
    · dsimp only
      split_ifs
      · exact env.treeParent_canonical _ _
      · exact env.treeParent_canonical _ _
    · intro other
      dsimp only
      by_cases heq : other = level
      · subst heq
        rw [Function.update_self]
        exact hcurrent
      · rw [Function.update_of_ne heq]
        exact hroots other

/-- The paths of the next state, from the checks of the append. -/
theorem nextTracked_entries {partialRoots : Fin POOL_V1_TREE_DEPTH → Digest} {tracked repaired : List PoolWitness}
    {tree nextTree : PoolTree} {leaf : Digest} {event : Option DepositEventIdV1}
    (hentries : ∀ w ∈ tracked, WitnessEntry env tree w) (hpairs : List.Forall₂ (Repaired partialRoots) tracked repaired)
    (hblocks : ∀ level, DigestIsCanonical (partialRoots level)) (hleaf : DigestIsCanonical leaf)
    (hfrontier : ∀ level, DigestIsCanonical (tree.frontier level))
    (hnext : nextTree.nextLeafIndex = tree.nextLeafIndex + 1)
    (hpaths : ∀ w ∈ repaired ++ (event.map ((poolTreeDigests env).newWitness tree tree.nextLeafIndex leaf)).toList,
      (poolTreeDigests env).rootOf w = nextTree.root) :
    ∀ w ∈ repaired ++ (event.map ((poolTreeDigests env).newWitness tree tree.nextLeafIndex leaf)).toList,
      WitnessEntry env nextTree w := by
  intro w hw
  have hroot := hpaths w hw
  rcases List.mem_append.mp hw with hold | hnew
  · obtain ⟨old, hmem, hrepaired⟩ := forall₂_mem_right hpairs hold
    have hentry := hentries old hmem
    refine ⟨by rw [hrepaired.index, hnext]; exact Nat.lt_succ_of_lt hentry.index_lt,
      hrepaired.leaf ▸ hentry.leaf_canonical, fun level => ?_, hroot⟩
    rcases hrepaired.siblings level with hsame | hchanged
    · rw [hsame]
      exact hentry.siblings_canonical level
    · rw [hchanged]
      exact hblocks level
  · obtain ⟨id, -, rfl⟩ := Option.map_eq_some_iff.mp (Option.mem_toList.mp hnew)
    refine ⟨by rw [hnext]; exact Nat.lt_succ_self _, hleaf, fun level => ?_, hroot⟩
    dsimp only [TreeDigests.newWitness]
    split_ifs
    · exact hfrontier level
    · exact env.emptyRoots_canonical level

/-- An append keeps a checked state checked. -/
theorem planAppend_checked {leafIndex rootSequence : ℕ} {leafBytes rootBytes : Bytes32}
    {trackedEventId : Option DepositEventIdV1} (hs : CheckedWitnesses env s)
    (h : (poolTreeDigests env).planAppend leafIndex rootSequence leafBytes rootBytes trackedEventId s = .ok s') :
    CheckedWitnesses env s' := by
  simp only [TreeDigests.planAppend, appendOneWithEmptyRoots, except_bind_eq_ok, require_eq_ok, okOr_eq_ok, mapErr_eq_ok,
    except_pure_eq_ok] at h
  obtain ⟨_, rfl, _, _, _, hfresh, leaf, hleaf, expectedRoot, hroot, ⟨partialRoots, terminal⟩, hblocks, ⟨nextTree, append⟩,
    ⟨_, _, happend⟩, _, ⟨_, _, _, hnextRoot, _⟩, repaired, hrepaired, _, hpaths, rfl⟩ := h
  have hleafCanonical : DigestIsCanonical leaf := decodeDigestCanonical_canonical hleaf
  have hpairs := mapM_repaired hrepaired
  unfold appendOneValidated at happend
  split_ifs at happend with hfull
  have hle : s.tree.nextLeafIndex ≤ 2 ^ POOL_V1_TREE_DEPTH := (validateWithEmptyRoots_ok hs.tree_valid).1
  have hroom : s.tree.nextLeafIndex < 2 ^ POOL_V1_TREE_DEPTH := lt_of_le_of_ne hle hfull
  have hnext : nextTree = (uncheckedAppend env.treeParent env.emptyRoots s.tree leaf).1 := by
    rw [uncheckedAppend_eq]
    exact (congrArg Prod.fst (Except.ok.inj happend)).symm
  have hclosed := @uncheckedAppend_closed _ _ _ _ DigestIsCanonical env.treeParent_canonical env.emptyRoots_canonical
    s.tree leaf hs.tree_canonical.frontier_canonical hleafCanonical
  have hindex : nextTree.nextLeafIndex = s.tree.nextLeafIndex + 1 := by rw [hnext]; rfl
  refine ⟨?_, ?_, ?_, ?_⟩
  · rw [hnext]
    exact uncheckedAppend_valid env.treeParent leaf (fun _ => rfl) hs.tree_valid hroom
  · rw [hnext]
    exact ⟨hclosed.1, hclosed.2⟩
  · exact nextTracked_entries hs.entries hpairs (appendPartialRootsV1_canonical hleafCanonical hblocks) hleafCanonical
      hs.tree_canonical.frontier_canonical hindex (by rw [hnextRoot]; exact hpaths)
  · refine List.pairwise_append.mpr ⟨?_, ?_, ?_⟩
    · rw [pairwise_distinct_iff, repaired_keys hpairs, ← pairwise_distinct_iff]
      exact hs.distinct
    · cases trackedEventId with
      | none => exact List.Pairwise.nil
      | some id => exact List.pairwise_singleton _ _
    · intro w hw new hnew
      obtain ⟨id, hid, rfl⟩ := Option.map_eq_some_iff.mp (Option.mem_toList.mp hnew)
      obtain ⟨old, hmem, hkept⟩ := forall₂_mem_right hpairs hw
      refine ⟨?_, ?_⟩
      · rw [hkept.event]
        intro heq
        exact hfresh ⟨id, hid, old, hmem, heq⟩
      · rw [hkept.index]
        exact (hs.entries old hmem).index_lt.ne

/-- An append keeps the tracked events and adds the one it names. -/
theorem planAppend_events {leafIndex rootSequence : ℕ} {leafBytes rootBytes : Bytes32}
    {trackedEventId : Option DepositEventIdV1}
    (h : (poolTreeDigests env).planAppend leafIndex rootSequence leafBytes rootBytes trackedEventId s = .ok s') :
    s'.tracked.map (·.eventId) = s.tracked.map (·.eventId) ++ trackedEventId.toList := by
  simp only [TreeDigests.planAppend, except_bind_eq_ok, except_pure_eq_ok] at h
  obtain ⟨_, _, _, _, _, _, leaf, _, _, _, ⟨partialRoots, _⟩, _, ⟨nextTree, _⟩, _, _, _, repaired, hrepaired, _, _, rfl⟩ := h
  have hkeys := congrArg (List.map Prod.fst) (repaired_keys (mapM_repaired hrepaired))
  rw [List.map_map, List.map_map] at hkeys
  dsimp only
  rw [List.map_append]
  congr 1
  cases trackedEventId with
  | none => rfl
  | some id => rfl

theorem perform_append_of_plan {leafIndex rootSequence : ℕ} {leafBytes rootBytes : Bytes32}
    {trackedEventId : Option DepositEventIdV1}
    (h : (poolTreeDigests env).planAppend leafIndex rootSequence leafBytes rootBytes trackedEventId s = .ok s') :
    (poolTreeDigests env).perform (.append leafIndex rootSequence leafBytes rootBytes trackedEventId) s = .ok () s' := by
  simp only [TreeDigests.perform, TreeDigests.appendAuthenticatedLeafV1, Exec.bind_ok, Exec.query_ok, Exec.update_ok,
    Exec.pure_ok]
  exact ⟨_, _, ⟨_, _, ⟨h, rfl⟩, (), _, rfl, rfl, rfl⟩, trivial, rfl⟩

theorem applyAppends_checked {ids : List DepositEventIdV1} {appends : List FinalizedAppendEvidenceV1}
    {receipts : List WitnessAppendReceiptV1} (hs : CheckedWitnesses env s)
    (h : (poolTreeDigests env).applyAppends ids appends s = .ok (s', receipts)) : CheckedWitnesses env s' := by
  induction appends generalizing s receipts with
  | nil =>
    obtain ⟨rfl, -⟩ := Prod.mk.inj (Except.ok.inj h)
    exact hs
  | cons append appends ih =>
    rw [TreeDigests.applyAppends] at h
    dsimp only at h
    split at h
    · cases h
    · rename_i working happend
      simp only [except_bind_eq_ok, except_pure_eq_ok] at h
      obtain ⟨⟨next, rest⟩, hnext, heq⟩ := h
      obtain ⟨rfl, -⟩ := Prod.mk.inj heq
      exact ih (planAppend_checked hs (TreeDigests.appendAuthenticatedLeafV1_ok happend)) hnext

/-- Every call that succeeds keeps a checked state checked. -/
theorem perform_checked {call : TreeDigests.Call} {u : Unit} (hs : CheckedWitnesses env s)
    (h : (poolTreeDigests env).perform call s = .ok u s') : CheckedWitnesses env s' := by
  cases call with
  | append leafIndex rootSequence leafBytes rootBytes trackedEventId =>
    simp only [TreeDigests.perform, Exec.bind_ok, Exec.pure_ok] at h
    obtain ⟨receipt, _, happend, -, rfl⟩ := h
    exact planAppend_checked hs (TreeDigests.appendAuthenticatedLeafV1_ok happend)
  | applyFinalized appends trackEventIds =>
    simp only [TreeDigests.perform, TreeDigests.applyFinalizedAppendsV1, Exec.bind_ok, Exec.query_ok, Exec.update_ok,
      Exec.pure_ok] at h
    obtain ⟨_, _, ⟨_, _, ⟨_, rfl⟩, ⟨working, receipts⟩, _, ⟨happlied, rfl⟩, _, _, rfl, -, rfl⟩, -, rfl⟩ := h
    exact applyAppends_checked hs happlied
  | importPath eventId leafIndex leafBytes siblingBytes =>
    obtain ⟨leaf, siblings, hindex, hnew, hleaf, hsiblings, hroot, rfl⟩ := importCurrentWitnessV1_eq_ok.mp h
    have hentry : WitnessEntry env s.tree ⟨eventId, leafIndex, leaf, siblings⟩ :=
      ⟨hindex, decodeDigestCanonical_canonical hleaf,
        fun level => decodeDigestCanonical_canonical (decodeSiblings_eq_some.mp hsiblings level), hroot⟩
    refine ⟨hs.tree_valid, hs.tree_canonical, ?_, ?_⟩
    · intro w hw
      rcases List.mem_append.mp hw with hold | hlast
      · exact hs.entries w hold
      · obtain rfl := List.mem_singleton.mp hlast
        exact hentry
    · refine List.pairwise_append.mpr ⟨hs.distinct, List.pairwise_singleton _ _, ?_⟩
      intro v hv w hw
      obtain rfl := List.mem_singleton.mp hw
      exact hnew v hv
  | remove eventId =>
    simp only [TreeDigests.perform, TreeDigests.removeWitnessV1, Exec.bind_ok, Exec.query_ok, Exec.update_ok, Exec.pure_ok] at h
    obtain ⟨_, _, ⟨_, _, ⟨-, rfl⟩, _, _, rfl, -, rfl⟩, -, rfl⟩ := h
    exact ⟨hs.tree_valid, hs.tree_canonical, fun w hw => hs.entries w (List.mem_of_mem_eraseP hw),
      hs.distinct.sublist List.eraseP_sublist⟩

end Append

/-! ### Reachable states -/

/-- The states of a wallet: from an authenticated tree with canonical digests, or read from an image, and then any calls. -/
inductive WitnessReachable (env : Environment) (sha256 : Bytes → Bytes32) : PoolWitnessState → Prop
  | authenticated {tree : PoolTree} {root : Bytes32} {s : PoolWitnessState} (hcanonical : CanonicalTree tree)
      (h : (poolTreeDigests env).fromAuthenticatedTreeV1 tree root = .ok s) : WitnessReachable env sha256 s
  | loaded {bytes : Bytes} {s : PoolWitnessState} (h : decodeWalletWitnessStateV1 env sha256 bytes = .ok s) :
      WitnessReachable env sha256 s
  | performed {s s' : PoolWitnessState} {call : TreeDigests.Call} (hs : WitnessReachable env sha256 s)
      (h : (poolTreeDigests env).perform call s = .ok () s') : WitnessReachable env sha256 s'
  | failed {s s' : PoolWitnessState} {call : TreeDigests.Call} {e : WitnessStateErrorV1} (hs : WitnessReachable env sha256 s)
      (h : (poolTreeDigests env).perform call s = .error e s') : WitnessReachable env sha256 s'

section Reachable
variable {env : Environment} {sha256 : Bytes → Bytes32} {s : PoolWitnessState}

theorem WitnessReachable.checked (h : WitnessReachable env sha256 s) : CheckedWitnesses env s := by
  induction h with
  | authenticated hcanonical h =>
    simp only [TreeDigests.fromAuthenticatedTreeV1, except_bind_eq_ok, except_pure_eq_ok, mapErr_eq_ok] at h
    obtain ⟨_, hvalid, _, -, _, -, rfl⟩ := h
    exact ⟨hvalid, hcanonical, by simp, List.Pairwise.nil⟩
  | loaded h => exact (decodeWalletWitnessStateV1_eq_ok.mp h).1
  | performed _ h ih => exact perform_checked ih h
  | failed _ h ih =>
    obtain rfl := TreeDigests.perform_error h
    exact ih

/-- A reachable state that fits is written, and read back with its paths in order. -/
theorem WitnessReachable.round_trip (h : WitnessReachable env sha256 s) (hfits : FitsWitnessImage s) :
    ∃ image, encodeWalletWitnessStateV1 env sha256 s = .ok image ∧
      decodeWalletWitnessStateV1 env sha256 image = .ok ⟨s.tree, orderedWitnesses s.tracked⟩ := by
  have hperm := orderedWitnesses_perm s.tracked
  have hchecked := h.checked
  refine ⟨_, encodeWalletWitnessStateV1_of_fits hchecked hfits, decodeWalletWitnessStateV1_eq_ok.mpr ⟨?_, ?_, ?_, rfl⟩⟩
  · exact ⟨hchecked.tree_valid, hchecked.tree_canonical, fun w hw => hchecked.entries w (hperm.mem_iff.mp hw),
      orderedWitnesses_distinct hchecked.distinct⟩
  · unfold FitsWitnessImage at hfits ⊢
    dsimp only
    rw [hperm.length_eq]
    exact hfits
  · exact orderedWitnesses_sorted hchecked.distinct

/-- The event that a wallet tracks at a slot. -/
def slotEvent (slot : ℕ) (h : slot < 2 ^ 64) : DepositEventIdV1 :=
  { firstEvent with point := ⟨slot, word 1, h, firstEvent.point.hash_ne⟩ }

/-- A wallet that tracks every leaf can track any number up to the capacity of the tree. -/
theorem exists_reachable_tracking (env : Environment) (sha256 : Bytes → Bytes32) (k : ℕ) (hk : k ≤ POOL_V1_LEAF_CAPACITY) :
    ∃ s, WitnessReachable env sha256 s ∧ (poolTreeDigests env).Tracks (List.replicate k Digest.zero) s ∧
      s.tracked.length = k ∧ ∀ w ∈ s.tracked, w.eventId.point.slot < k := by
  have hcapacity : POOL_V1_LEAF_CAPACITY < 2 ^ 64 := by decide
  induction k with
  | zero =>
    have hroot : DigestIsCanonical (env.tree []).root := env.tree_root_canonical (by simp)
    have hempty : (poolTreeDigests env).fromAuthenticatedTreeV1 (env.tree [])
        (encodeDigest32 ((poolTreeDigests env).leavesRoot [])) = .ok ⟨env.tree [], []⟩ := by
      simp only [TreeDigests.fromAuthenticatedTreeV1, except_bind_eq_ok, require_eq_ok, okOr_eq_ok, mapErr_eq_ok,
        except_pure_eq_ok]
      exact ⟨(), validate_treeOf _ _ (Nat.zero_le _), _, decode_encodeDigestCanonical hroot, (), rfl, trivial⟩
    exact ⟨_, .authenticated ⟨hroot, env.tree_frontier_canonical (by simp)⟩ hempty, ⟨Nat.zero_le _, rfl, by simp⟩, rfl, by simp⟩
  | succ k ih =>
    obtain ⟨s, hreach, htracks, hlength, hslots⟩ := ih (by omega)
    have hzero : (poolTreeDigests env).decode (encodeDigest32 Digest.zero) = some Digest.zero :=
      decode_encodeDigestCanonical Environment.zero_canonical
    have hleaves : ∀ x ∈ List.replicate k Digest.zero ++ [Digest.zero], DigestIsCanonical x := by
      intro x hx
      rw [← List.replicate_succ'] at hx
      rw [List.eq_of_mem_replicate hx]
      exact Environment.zero_canonical
    have hfresh : ¬ TreeDigests.AlreadyTracked (some (slotEvent k (by omega))) s := by
      rintro ⟨id, hid, w, hw, heq⟩
      obtain rfl := Option.some.inj hid
      exact absurd (hslots w hw) (by rw [heq]; exact lt_irrefl k)
    have hroot : (poolTreeDigests env).decode (encodeDigest32 (env.tree (List.replicate k Digest.zero ++ [Digest.zero])).root) =
        some (env.tree (List.replicate k Digest.zero ++ [Digest.zero])).root :=
      decode_encodeDigestCanonical (env.tree_root_canonical hleaves)
    obtain ⟨s', hplan, htracks'⟩ := TreeDigests.planAppend_canonical htracks hzero
      ⟨by rw [List.length_replicate]; omega, rfl, rfl, hroot⟩ hfresh
    have hevents := planAppend_events hplan
    refine ⟨s', hreach.performed (perform_append_of_plan hplan), by rw [List.replicate_succ']; exact htracks', ?_, ?_⟩
    · have hcount := congrArg List.length hevents
      simpa [hlength] using hcount
    · intro w hw
      have hmem : w.eventId ∈ s'.tracked.map (·.eventId) := List.mem_map_of_mem hw
      rw [hevents, List.mem_append, List.mem_map] at hmem
      rcases hmem with ⟨v, hv, heq⟩ | hlast
      · rw [← heq]
        exact Nat.lt_succ_of_lt (hslots v hv)
      · rw [← Option.some.inj (Option.mem_toList.mp hlast)]
        exact Nat.lt_succ_self k

end Reachable

/-! ### The two durable images -/

open Relayer

/-- The journal of a relayer and the paths of a wallet are kept as images. In every run, the records in memory can be written,
and what is written is read back as the same records in the order of their requests. An accepted journal is written again
to an image that reads the same, and to the very same bytes when they have the current version; images of one version that
read the same are equal. A reachable witness state is written exactly when its image stays below the limit, and is read back
with its paths in the order of the leaves. An accepted witness image is written again to the same bytes. -/
theorem durable_images_exact (env : Environment) (sha256 : Bytes → Bytes32)
    (inspector : Bytes → Option InspectedSignedTransactionV1) :
    (∀ (file : Option Bytes) (es : List JournalEvent) (t : JournalState) (records : List RelayerExecutionRecordV1),
      Run (JournalStep sha256 inspector) ⟨file, none, false⟩ es t → t.memory = some records →
        (orderedRecords records).Perm records ∧
        ∃ image, encodeExecutionJournalV1 sha256 records = .ok image ∧
          decodeExecutionJournalV1 sha256 image = .ok (orderedRecords records)) ∧
    (∀ (bytes : Bytes) (records : List RelayerExecutionRecordV1), decodeExecutionJournalV1 sha256 bytes = .ok records →
      KnownVersion (byteAt 4 bytes) ∧
      (∃ image, encodeExecutionJournalV1 sha256 records = .ok image ∧ decodeExecutionJournalV1 sha256 image = .ok records ∧
        (byteAt 4 bytes = RELAYER_EXECUTION_VERSION_V2 → image = bytes)) ∧
      ∀ bytes', decodeExecutionJournalV1 sha256 bytes' = .ok records → byteAt 4 bytes' = byteAt 4 bytes → bytes' = bytes) ∧
    (∀ s, WitnessReachable env sha256 s →
      (orderedWitnesses s.tracked).Perm s.tracked ∧
      (FitsWitnessImage s → ∃ image, encodeWalletWitnessStateV1 env sha256 s = .ok image ∧
        decodeWalletWitnessStateV1 env sha256 image = .ok ⟨s.tree, orderedWitnesses s.tracked⟩) ∧
      (¬ FitsWitnessImage s → encodeWalletWitnessStateV1 env sha256 s = .error .countOverflow)) ∧
    ∀ (bytes : Bytes) (s : PoolWitnessState), decodeWalletWitnessStateV1 env sha256 bytes = .ok s →
      encodeWalletWitnessStateV1 env sha256 s = .ok bytes := by
  refine ⟨?_, ?_, ?_, ?_⟩
  · intro file es t records hrun hmemory
    have hstorable := run_encodable hrun (fun _ hm => nomatch hm) records hmemory
    have hencode := (@encodeExecutionJournalV1_eq_ok sha256 _ _).mpr ⟨hstorable, rfl⟩
    exact ⟨orderedRecords_perm records, _, hencode, holdsRecords_of_encode hencode⟩
  · intro bytes records hdecode
    obtain ⟨hstorable, hversion, -, himage⟩ := journalImage_of_decode hdecode
    have hsame : orderedRecords records = records := orderedRecords_of_sorted hstorable.sorted
    have hencode := (@encodeExecutionJournalV1_eq_ok sha256 records _).mpr ⟨hsame.symm ▸ hstorable, rfl⟩
    have hread : decodeExecutionJournalV1 sha256 _ = .ok (orderedRecords records) := holdsRecords_of_encode hencode
    rw [hsame] at hencode hread
    refine ⟨hversion, ⟨_, hencode, hread, ?_⟩, ?_⟩
    · intro hcurrent
      rw [hcurrent] at himage
      exact himage.symm
    · intro bytes' hdecode' heq
      rw [(journalImage_of_decode hdecode').2.2.2, heq]
      exact himage.symm
  · intro s hs
    exact ⟨orderedWitnesses_perm s.tracked, hs.round_trip, encodeWalletWitnessStateV1_of_not_fits hs.checked⟩
  · intro bytes s hdecode
    obtain ⟨hchecked, hfits, hsorted, rfl⟩ := decodeWalletWitnessStateV1_eq_ok.mp hdecode
    rw [encodeWalletWitnessStateV1_of_fits hchecked hfits, orderedWitnesses_of_sorted hsorted]

/-- An empty journal of the first version is accepted and written again with the second; and a wallet that tracks enough
leaves has a state that is not written. -/
theorem durable_images_not_unique :
    (∃ bytes image, decodeExecutionJournalV1 lengthHash bytes = .ok [] ∧ encodeExecutionJournalV1 lengthHash [] = .ok image ∧
      image ≠ bytes) ∧
    ∃ s, WitnessReachable Sample.environment lengthHash s ∧
      encodeWalletWitnessStateV1 Sample.environment lengthHash s = .error .countOverflow := by
  constructor
  · have hstorable : Storable [] := ⟨List.Pairwise.nil, by simp, Nat.zero_le _, by decide⟩
    have hsame : orderedRecords [] = [] := orderedRecords_of_sorted List.Pairwise.nil
    refine ⟨journalImage lengthHash RELAYER_EXECUTION_VERSION_V1 [],
      journalImage lengthHash RELAYER_EXECUTION_VERSION_V2 [],
      decodeExecutionJournalV1_journalImage hstorable (.inl rfl) (fun r hr => absurd hr List.not_mem_nil), ?_, by decide +kernel⟩
    rw [encodeExecutionJournalV1_eq_ok, hsame]
    exact ⟨hstorable, rfl⟩
  · obtain ⟨s, hreach, -, hlength, -⟩ := exists_reachable_tracking Sample.environment lengthHash 100000 (by decide)
    refine ⟨s, hreach, encodeWalletWitnessStateV1_of_not_fits hreach.checked ?_⟩
    unfold FitsWitnessImage
    rw [hlength]
    decide

end Aspis.Wallet
