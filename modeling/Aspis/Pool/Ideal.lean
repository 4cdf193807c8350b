import Aspis.Lib.Pages
import Aspis.Pool.Transition

/-! What a pool stands for: a fixed identity and policy and a growing list of
leaves. The state account is the tree of that list, the history pages are the
roots of its prefixes in pages of 256. Every append of the program, whichever
way the source tree was authenticated, extends the list. -/

namespace Aspis.Pool

open Lib Chain Statement

/-- The abstract pool: who it is and every leaf appended to it, in order. -/
structure PoolLog where
  identity : PoolIdentityV1
  verifierPolicy : VerifierPolicyV1
  leaves : List Digest
  deriving DecidableEq

namespace PoolLog

def state (env : Environment) (log : PoolLog) : PoolStateV1 :=
  ⟨log.identity, log.verifierPolicy, env.tree log.leaves⟩

def append (log : PoolLog) (leaves : List Digest) : PoolLog := { log with leaves := log.leaves ++ leaves }

/-- A log that the encoders of the program accept. -/
structure WellFormed (log : PoolLog) : Prop where
  asset_canonical : log.identity.assetId.Canonical
  policy_valid : validateVerifierPolicyV1 log.verifierPolicy = .ok ()
  leaves_canonical : ∀ x ∈ log.leaves, DigestIsCanonical x
  length_le : log.leaves.length ≤ POOL_V1_LEAF_CAPACITY

end PoolLog

section
variable (env : Environment)

/-! ### The state image of a log -/

section StateImage
variable {env : Environment} {log : PoolLog}

theorem PoolLog.WellFormed.state (h : log.WellFormed) : WellFormedState (log.state env) :=
  ⟨h.asset_canonical, h.policy_valid, h.length_le, env.tree_root_canonical h.leaves_canonical,
    env.tree_frontier_canonical h.leaves_canonical⟩

theorem PoolLog.WellFormed.decode_strict (h : log.WellFormed) :
    PoolStateV1.decodeWithValidatedTree env (log.state env).writeEncodingPrevalidated log.identity.pool =
      .ok (log.state env) :=
  decodeWithValidatedTree_writeEncoding env h.state (validate_treeOf env.treeParent Digest.zero h.length_le)

theorem PoolLog.WellFormed.decode_invariant (h : log.WellFormed) :
    PoolStateV1.decodeFromProgramInvariant env (log.state env).writeEncodingPrevalidated log.identity.pool =
      .ok (log.state env) := by
  refine decodeFromProgramInvariant_writeEncoding env h.state (fun level hbit => ?_) (fun hzero => ?_)
  · have hdead : log.leaves.length.testBit level = false := hbit
    simp [PoolLog.state, Environment.tree, treeOf, MerkleTree.frontier, hdead, Environment.emptyRoots]
  · have hnil : log.leaves = [] := List.eq_nil_of_length_eq_zero hzero
    simp [PoolLog.state, Environment.tree, treeOf, hnil, Environment.emptyRoots]

/-- The sequence number in the image is the number of leaves. -/
theorem PoolLog.sequence_image (hle : log.leaves.length ≤ POOL_V1_LEAF_CAPACITY) :
    leNat (slice 40 8 (log.state env).writeEncodingPrevalidated) = log.leaves.length := by
  refine sequence_writeEncoding ?_
  simp only [PoolLog.state, PoolStateV1.currentRootSequence, Environment.tree, treeOf, U64_LIMIT, POOL_V1_LEAF_CAPACITY,
    POOL_V1_TREE_DEPTH] at hle ⊢
  omega

end StateImage

/-! ### Roots of prefixes -/

/-- The roots after `0, 1, …, n` appends. -/
def historyRoots (leaves : List Digest) : List Digest :=
  (List.range (leaves.length + 1)).map fun q => (env.tree (leaves.take q)).root

/-- The roots that appending `new` one leaf at a time adds to the history. -/
def newRoots (leaves new : List Digest) : List Digest :=
  (List.range new.length).map fun i => (env.tree (leaves ++ new.take (i + 1))).root

@[simp] theorem length_historyRoots (leaves : List Digest) :
    (historyRoots env leaves).length = leaves.length + 1 := by
  simp [historyRoots]

@[simp] theorem length_newRoots (leaves new : List Digest) : (newRoots env leaves new).length = new.length := by
  simp [newRoots]

theorem getElem?_historyRoots {leaves : List Digest} {q : ℕ} (h : q ≤ leaves.length) :
    (historyRoots env leaves)[q]? = some (env.tree (leaves.take q)).root := by
  simp [historyRoots, List.getElem?_range (show q < leaves.length + 1 by omega)]

theorem historyRoots_append (leaves new : List Digest) :
    historyRoots env (leaves ++ new) = historyRoots env leaves ++ newRoots env leaves new := by
  have hsplit : (leaves ++ new).length + 1 = (leaves.length + 1) + new.length := by
    rw [List.length_append]
    omega
  rw [historyRoots, hsplit, List.range_add, List.map_append, List.map_map]
  congr 1
  · refine List.map_congr_left fun q hq => ?_
    rw [List.mem_range] at hq
    rw [List.take_append_of_le_length (by omega)]
  · refine List.map_congr_left fun i _ => ?_
    have htake : (leaves ++ new).take (leaves.length + 1 + i) = leaves ++ new.take (i + 1) := by
      rw [List.take_append, List.take_of_length_le (by omega)]
      congr 2
      omega
    simp only [Function.comp_apply, htake]

theorem canonical_take {leaves : List Digest} (h : ∀ x ∈ leaves, DigestIsCanonical x) (q : ℕ) :
    ∀ x ∈ leaves.take q, DigestIsCanonical x := fun x hx => h x (List.mem_of_mem_take hx)

theorem historyRoots_canonical {leaves : List Digest} (h : ∀ x ∈ leaves, DigestIsCanonical x) :
    ∀ root ∈ historyRoots env leaves, DigestIsCanonical root := by
  intro root hroot
  simp only [historyRoots, List.mem_map] at hroot
  obtain ⟨q, -, rfl⟩ := hroot
  exact env.tree_root_canonical (canonical_take h q)

/-- The roots page `p` retains. -/
def pageRoots (leaves : List Digest) (p : ℕ) : List Digest :=
  page POOL_V1_ROOT_HISTORY_CAPACITY p (historyRoots env leaves)

theorem pageRoots_canonical {leaves : List Digest} (h : ∀ x ∈ leaves, DigestIsCanonical x) (p : ℕ) :
    ∀ root ∈ pageRoots env leaves p, DigestIsCanonical root := fun root hroot =>
  historyRoots_canonical env h root (mem_of_mem_page hroot)

theorem length_pageRoots_le (leaves : List Digest) (p : ℕ) :
    (pageRoots env leaves p).length ≤ POOL_V1_ROOT_HISTORY_CAPACITY := length_page_le _ _ _

/-- The current page ends with the root of the current sequence. -/
theorem length_pageRoots_current (leaves : List Digest) :
    (pageRoots env leaves (rootHistoryLocation leaves.length).pageNumber).length =
      (rootHistoryLocation leaves.length).slot + 1 :=
  length_page_last (by decide) (length_historyRoots env leaves)

theorem pageRoots_append_of_lt {leaves : List Digest} (new : List Digest) {p : ℕ}
    (h : p < (rootHistoryLocation leaves.length).pageNumber) :
    pageRoots env (leaves ++ new) p = pageRoots env leaves p := by
  rw [pageRoots, historyRoots_append]
  refine page_append_of_full _ ?_
  rw [length_historyRoots]
  simp only [rootHistoryLocation, POOL_V1_ROOT_HISTORY_CAPACITY] at h ⊢
  omega

theorem pageRoots_append_current (leaves new : List Digest) :
    pageRoots env (leaves ++ new) (rootHistoryLocation leaves.length).pageNumber =
      pageRoots env leaves (rootHistoryLocation leaves.length).pageNumber ++
        (newRoots env leaves new).take (255 - (rootHistoryLocation leaves.length).slot) := by
  have hdiv := Nat.div_add_mod leaves.length 256
  rw [pageRoots, historyRoots_append, page_append_last, length_historyRoots]
  · congr 2
    simp only [rootHistoryLocation, POOL_V1_ROOT_HISTORY_CAPACITY]
    omega
  · rw [length_historyRoots]
    simp only [rootHistoryLocation, POOL_V1_ROOT_HISTORY_CAPACITY]
    omega
  · rw [length_historyRoots]
    simp only [rootHistoryLocation, POOL_V1_ROOT_HISTORY_CAPACITY]
    omega

theorem pageRoots_append_next (leaves new : List Digest) :
    pageRoots env (leaves ++ new) ((rootHistoryLocation leaves.length).pageNumber + 1) =
      page POOL_V1_ROOT_HISTORY_CAPACITY 0
        ((newRoots env leaves new).drop (255 - (rootHistoryLocation leaves.length).slot)) := by
  have hdiv := Nat.div_add_mod leaves.length 256
  rw [pageRoots, historyRoots_append, page_append_next, length_historyRoots]
  · congr 2
    simp only [rootHistoryLocation, POOL_V1_ROOT_HISTORY_CAPACITY]
    omega
  · rw [length_historyRoots]
    simp only [rootHistoryLocation, POOL_V1_ROOT_HISTORY_CAPACITY]
    omega

/-! ### Appends -/

/-- The receipt of appending one leaf. -/
def idealAppend (leaves : List Digest) (leaf : Digest) : AppendOneV1 Digest :=
  ⟨leaves.length, leaves.length + 1, (env.tree (leaves ++ [leaf])).root, rootHistoryLocation (leaves.length + 1)⟩

def idealReceipt (leaves : List Digest) : AuthorizedAppendV1 → AuthorizedAppendReceiptV1
  | .one leaf => ⟨idealAppend env leaves leaf, none⟩
  | .two first second => ⟨idealAppend env leaves first, some (idealAppend env (leaves ++ [first]) second)⟩

theorem roots_idealReceipt (leaves : List Digest) (r : AuthorizedAppendV1) :
    (idealReceipt env leaves r).roots = newRoots env leaves r.leaves := by
  cases r <;> simp [idealReceipt, AuthorizedAppendReceiptV1.roots, idealAppend, newRoots,
    AuthorizedAppendV1.leaves, List.range_succ]

theorem carryAppend_tree {leaves : List Digest} (leaf : Digest) (h : leaves.length < POOL_V1_LEAF_CAPACITY) :
    carryAppend env.treeParent env.emptyRoots (env.tree leaves) leaf =
      (env.tree (leaves ++ [leaf]), idealAppend env leaves leaf) :=
  carryAppend_treeOf env.treeParent Digest.zero h

/-- What one prepared append amounts to on the leaf list. -/
structure IdealAppend (source : PoolStateV1) (leaves : List Digest) (r : AuthorizedAppendV1)
    (p : PreparedAuthorizedAppendV1) : Prop where
  state_eq : p.nextState = { source with tree := env.tree (leaves ++ r.leaves) }
  receipt_eq : p.receipt = idealReceipt env leaves r
  room : leaves.length + r.count ≤ POOL_V1_LEAF_CAPACITY

/-- Whatever source a prepared append starts from, it appends to the leaf list. -/
theorem prepare_ideal {source : AuthorizedSourceStateV1} {leaves : List Digest} {r : AuthorizedAppendV1}
    {p : PreparedAuthorizedAppendV1} (htree : source.asState.tree = env.tree leaves)
    (hle : leaves.length ≤ POOL_V1_LEAF_CAPACITY) (h : source.prepare env r = .ok p) :
    IdealAppend env source.asState leaves r p := by
  obtain ⟨rfl, hroom⟩ := prepare_appended h
  have hlength : source.asState.tree.nextLeafIndex = leaves.length := by rw [htree]; rfl
  rw [hlength] at hroom
  have hroom := hroom hle
  cases r with
  | one leaf =>
    have hcarry := carryAppend_tree env leaf hroom
    refine ⟨?_, ?_, hroom⟩ <;> simp only [appended, htree, hcarry, AuthorizedAppendV1.leaves, idealReceipt]
  | two first second =>
    have hfirst := carryAppend_tree env first (show leaves.length < POOL_V1_LEAF_CAPACITY by
      simp only [AuthorizedAppendV1.count] at hroom
      omega)
    have hsecond := @carryAppend_tree env (leaves ++ [first]) second (by
      rw [List.length_append]
      exact hroom)
    refine ⟨?_, ?_, hroom⟩ <;> simp only [appended, htree, hfirst, hsecond, AuthorizedAppendV1.leaves, idealReceipt,
      List.append_assoc, List.singleton_append]

end

end Aspis.Pool
