import Aspis.Lib.Exec
import Aspis.Pool.Environment
import Aspis.Wallet.ChainPoint

/-! Authentication paths the wallet keeps for its own notes. When leaf `n` is
appended, the path of an older leaf `i` changes in one sibling, the one at the
level of the highest bit in which `i` and `n` differ. The construction is
generic in the digest type; the pool's own digests are one instance. -/

namespace Aspis.Wallet

open Lib Statement Pool

inductive WitnessStateErrorV1
  | tree (error : PoolV1TreeError)
  | nonCanonicalDigest
  | leafIndexMismatch
  | rootSequenceMismatch
  | rootMismatch
  | duplicateWitness
  | witnessNotFound
  | invalidWitness
  | wrongImageLength
  | wrongImageMagic
  | wrongImageVersion
  | wrongImageParameters
  | nonZeroReserved
  | checksumMismatch
  | countOverflow
  | nonCanonicalOrder
  | invalidEventIdentity
  deriving DecidableEq, Repr

/-- What the tree takes from its digests: the parent hash, the empty leaf and
the canonical decoding of 32 bytes. -/
structure TreeDigests (D : Type) where
  parent : D → D → D
  zero : D
  decode : Bytes32 → Option D

/-- The digests of the pool's note tree. -/
def poolTreeDigests (env : Environment) : TreeDigests Digest :=
  ⟨env.treeParent, Digest.zero, fun b => decodeDigestCanonical b.bytes⟩

structure TrackedMerkleWitnessV1 (D : Type) where
  eventId : DepositEventIdV1
  leafIndex : ℕ
  leaf : D
  siblings : Fin POOL_V1_TREE_DEPTH → D

structure WalletWitnessStateV1 (D : Type) where
  tree : IncrementalMerkleTreeV1 D POOL_V1_TREE_DEPTH
  tracked : List (TrackedMerkleWitnessV1 D)

structure WitnessAppendReceiptV1 where
  leafIndex : ℕ
  rootSequence : ℕ
  root : Bytes32
  trackedEventId : Option DepositEventIdV1
  deriving DecidableEq

namespace TreeDigests

variable {D : Type} [DecidableEq D] (t : TreeDigests D)

abbrev emptyRoots : ℕ → D := MerkleTree.emptyRoot t.parent t.zero

/-- The root a path recomputes to: at each level the bit of the index says on which side the sibling stands. -/
def witnessRootV1 (leafIndex : ℕ) (leaf : D) (siblings : Fin POOL_V1_TREE_DEPTH → D) : D :=
  MerkleTree.pathRoot t.parent leafIndex leaf siblings

abbrev rootOf (w : TrackedMerkleWitnessV1 D) : D := t.witnessRootV1 w.leafIndex w.leaf w.siblings

/-- Start from an authenticated pool tree, with no paths. -/
def fromAuthenticatedTreeV1 (tree : IncrementalMerkleTreeV1 D POOL_V1_TREE_DEPTH) (authenticatedRoot : Bytes32) :
    Except WitnessStateErrorV1 (WalletWitnessStateV1 D) := do
  mapErr .tree (tree.validateWithEmptyRoots t.parent t.emptyRoots)
  let root ← okOr (t.decode authenticatedRoot) .nonCanonicalDigest
  require (tree.root = root) .rootMismatch
  return ⟨tree, []⟩

def removeWitnessV1 (eventId : DepositEventIdV1) :
    Exec WitnessStateErrorV1 (WalletWitnessStateV1 D) (TrackedMerkleWitnessV1 D) := do
  let witness ← Exec.query fun s => okOr (s.tracked.find? (·.eventId = eventId)) .witnessNotFound
  Exec.update fun s => { s with tracked := s.tracked.eraseP (·.eventId = eventId) }
  return witness

/-- All siblings decoded, or nothing. -/
def decodeSiblings (siblings : Fin POOL_V1_TREE_DEPTH → Bytes32) : Option (Fin POOL_V1_TREE_DEPTH → D) :=
  if h : ∀ level, (t.decode (siblings level)).isSome then some fun level => (t.decode (siblings level)).get (h level)
  else none

/-- Take over a path from an untrusted source once it recomputes to the current root. -/
def importCurrentWitnessV1 (eventId : DepositEventIdV1) (leafIndex : ℕ) (leafBytes : Bytes32)
    (siblingBytes : Fin POOL_V1_TREE_DEPTH → Bytes32) : Exec WitnessStateErrorV1 (WalletWitnessStateV1 D) Unit := do
  let witness ← Exec.query fun s => do
    require (leafIndex < s.tree.nextLeafIndex) .leafIndexMismatch
    require (¬ ∃ w ∈ s.tracked, w.eventId = eventId ∨ w.leafIndex = leafIndex) .duplicateWitness
    let leaf ← okOr (t.decode leafBytes) .nonCanonicalDigest
    let siblings ← okOr (t.decodeSiblings siblingBytes) .nonCanonicalDigest
    let witness : TrackedMerkleWitnessV1 D := ⟨eventId, leafIndex, leaf, siblings⟩
    require (t.rootOf witness = s.tree.root) .invalidWitness
    return witness
  Exec.update fun s => { s with tracked := s.tracked ++ [witness] }

/-- The roots of the blocks above the new leaf, level by level, and the new tree root. -/
def appendPartialRootsV1 (tree : IncrementalMerkleTreeV1 D POOL_V1_TREE_DEPTH) (leaf : D) :
    Except WitnessStateErrorV1 ((Fin POOL_V1_TREE_DEPTH → D) × D) :=
  if tree.nextLeafIndex ≥ POOL_V1_LEAF_CAPACITY then .error (.tree .treeFull)
  else .ok (Fin.foldl POOL_V1_TREE_DEPTH (fun (roots, current) level =>
    (Function.update roots level current,
      if tree.nextLeafIndex.testBit level then t.parent (tree.frontier level) current
      else t.parent current (t.emptyRoots level))) (fun _ => t.zero, leaf))

/-- Replace the one sibling that the new leaf changes. -/
def repairWitness (leafIndex : ℕ) (partialRoots : Fin POOL_V1_TREE_DEPTH → D) (w : TrackedMerkleWitnessV1 D) :
    Except WitnessStateErrorV1 (TrackedMerkleWitnessV1 D) :=
  let differing := w.leafIndex ^^^ leafIndex
  if differing = 0 then .error .duplicateWitness
  else if h : differing.log2 < POOL_V1_TREE_DEPTH then
    .ok { w with siblings := Function.update w.siblings ⟨differing.log2, h⟩ (partialRoots ⟨differing.log2, h⟩) }
  else .error .invalidWitness

/-- The path of the new leaf itself. -/
def newWitness (tree : IncrementalMerkleTreeV1 D POOL_V1_TREE_DEPTH) (leafIndex : ℕ) (leaf : D)
    (eventId : DepositEventIdV1) : TrackedMerkleWitnessV1 D :=
  ⟨eventId, leafIndex, leaf, fun level => if leafIndex.testBit level then tree.frontier level else t.emptyRoots level⟩

/-- The checks of an append and the state it would give. -/
def planAppend (leafIndex rootSequence : ℕ) (leafBytes rootBytes : Bytes32) (trackedEventId : Option DepositEventIdV1)
    (s : WalletWitnessStateV1 D) : Except WitnessStateErrorV1 (WalletWitnessStateV1 D) := do
  require (leafIndex = s.tree.nextLeafIndex) .leafIndexMismatch
  require (leafIndex + 1 < 2 ^ 64 ∧ leafIndex + 1 = rootSequence) .rootSequenceMismatch
  require (¬ ∃ id ∈ trackedEventId, ∃ w ∈ s.tracked, w.eventId = id) .duplicateWitness
  let leaf ← okOr (t.decode leafBytes) .nonCanonicalDigest
  let expectedRoot ← okOr (t.decode rootBytes) .nonCanonicalDigest
  let (partialRoots, terminal) ← t.appendPartialRootsV1 s.tree leaf
  let (nextTree, append) ← mapErr .tree (appendOneWithEmptyRoots t.parent t.emptyRoots s.tree leaf)
  require (append.leafIndex = leafIndex ∧ append.rootSequence = rootSequence ∧ append.root = expectedRoot ∧
    nextTree.root = expectedRoot ∧ terminal = expectedRoot) .rootMismatch
  let repaired ← s.tracked.mapM (repairWitness leafIndex partialRoots)
  let tracked := repaired ++ (trackedEventId.map (t.newWitness s.tree leafIndex leaf)).toList
  require (∀ w ∈ tracked, t.rootOf w = expectedRoot) .invalidWitness
  return ⟨nextTree, tracked⟩

/-- One finalized append; the new leaf is tracked when an event is named. -/
def appendAuthenticatedLeafV1 (leafIndex rootSequence : ℕ) (leafBytes rootBytes : Bytes32)
    (trackedEventId : Option DepositEventIdV1) :
    Exec WitnessStateErrorV1 (WalletWitnessStateV1 D) WitnessAppendReceiptV1 := do
  let next ← Exec.query (t.planAppend leafIndex rootSequence leafBytes rootBytes trackedEventId)
  Exec.update fun _ => next
  return ⟨leafIndex, rootSequence, rootBytes, trackedEventId⟩

/-- The appends of a stream one after the other on a working copy. -/
def applyAppends (trackEventIds : List DepositEventIdV1) : List FinalizedAppendEvidenceV1 → WalletWitnessStateV1 D →
    Except WitnessStateErrorV1 (WalletWitnessStateV1 D × List WitnessAppendReceiptV1)
  | [], working => .ok (working, [])
  | append :: appends, working =>
    let tracked := if append.eventId ∈ trackEventIds then some append.eventId else none
    match t.appendAuthenticatedLeafV1 append.leafIndex append.rootSequence append.noteCommitment append.root tracked
      working with
    | .error e _ => .error e
    | .ok receipt working => do
      let (working, receipts) ← applyAppends trackEventIds appends working
      return (working, receipt :: receipts)

/-- A whole stream of finalized appends, or nothing. -/
def applyFinalizedAppendsV1 (appends : List FinalizedAppendEvidenceV1) (trackEventIds : List DepositEventIdV1) :
    Exec WitnessStateErrorV1 (WalletWitnessStateV1 D) (List WitnessAppendReceiptV1) := do
  Exec.query fun _ => do
    require (appends.map (·.eventId)).Nodup .duplicateWitness
    require (trackEventIds.Nodup ∧ ∀ id ∈ trackEventIds, id ∈ appends.map (·.eventId)) .witnessNotFound
  let (working, receipts) ← Exec.query (t.applyAppends trackEventIds appends)
  Exec.update fun _ => working
  return receipts

/-! ### Paths of the tree of a leaf list -/

/-- The path belongs to a leaf of the list and holds its true siblings in the padded tree. -/
structure TracksLeaf (leaves : List D) (w : TrackedMerkleWitnessV1 D) : Prop where
  leaf_eq : leaves[w.leafIndex]? = some w.leaf
  siblings_eq : ∀ level : Fin POOL_V1_TREE_DEPTH, w.siblings level =
    MerkleTree.node t.parent (MerkleTree.pad t.zero leaves) level (MerkleTree.siblingIndex w.leafIndex level)

/-- The state holds the tree of the list, and every tracked path is one of its paths. -/
structure Tracks (leaves : List D) (s : WalletWitnessStateV1 D) : Prop where
  room : leaves.length ≤ POOL_V1_LEAF_CAPACITY
  tree_eq : s.tree = treeOf t.parent t.zero POOL_V1_TREE_DEPTH leaves
  paths : ∀ w ∈ s.tracked, t.TracksLeaf leaves w

/-- The root of the padded tree over the leaves. -/
abbrev leavesRoot (leaves : List D) : D := MerkleTree.root t.parent t.zero POOL_V1_TREE_DEPTH leaves

variable {t} {leaves : List D} {s : WalletWitnessStateV1 D}

omit [DecidableEq D] in
theorem TracksLeaf.index_lt {w : TrackedMerkleWitnessV1 D} (h : t.TracksLeaf leaves w) :
    w.leafIndex < leaves.length := (List.getElem?_eq_some_iff.mp h.leaf_eq).1

omit [DecidableEq D] in
theorem TracksLeaf.root_eq {w : TrackedMerkleWitnessV1 D} (h : t.TracksLeaf leaves w)
    (hroom : leaves.length ≤ POOL_V1_LEAF_CAPACITY) : t.rootOf w = t.leavesRoot leaves := by
  have hleaf : w.leaf = MerkleTree.pad t.zero leaves w.leafIndex := by
    rw [MerkleTree.pad, List.getD_eq_getElem?_getD, h.leaf_eq, Option.getD_some]
  have hzero : w.leafIndex / 2 ^ POOL_V1_TREE_DEPTH = 0 := Nat.div_eq_of_lt (h.index_lt.trans_le hroom)
  rw [rootOf, witnessRootV1, hleaf, MerkleTree.pathRoot_eq_node t.parent h.siblings_eq, hzero]
  rfl

omit [DecidableEq D] in
/-- An injective parent hash leaves one path to the root for every leaf. -/
theorem tracksLeaf_of_root_eq (hp : Function.Injective2 t.parent) {w : TrackedMerkleWitnessV1 D}
    (hroom : leaves.length ≤ POOL_V1_LEAF_CAPACITY) (hindex : w.leafIndex < leaves.length)
    (hroot : t.rootOf w = t.leavesRoot leaves) : t.TracksLeaf leaves w := by
  have hzero : w.leafIndex / 2 ^ POOL_V1_TREE_DEPTH = 0 := Nat.div_eq_of_lt (hindex.trans_le hroom)
  rw [leavesRoot, MerkleTree.root, ← hzero] at hroot
  obtain ⟨hleaf, hsiblings⟩ := MerkleTree.eq_of_pathRoot_eq_node t.parent hp hroot
  refine ⟨?_, hsiblings⟩
  rw [hleaf, MerkleTree.pad, List.getD_eq_getElem?_getD, List.getElem?_eq_getElem hindex, Option.getD_some]

omit [DecidableEq D] in
/-- The roots above the new leaf are block roots of the longer list. -/
theorem appendPartialRootsV1_treeOf (t : TreeDigests D) (x : D) (hroom : leaves.length < POOL_V1_LEAF_CAPACITY) :
    ∃ partialRoots, t.appendPartialRootsV1 (treeOf t.parent t.zero POOL_V1_TREE_DEPTH leaves) x =
        .ok (partialRoots, t.leavesRoot (leaves ++ [x])) ∧
      ∀ level : Fin POOL_V1_TREE_DEPTH, partialRoots level = MerkleTree.node t.parent
        (MerkleTree.pad t.zero (leaves ++ [x])) level (leaves.length / 2 ^ (level : ℕ)) := by
  have hloop := @MerkleTree.foldl_levels _ _
    (fun n (acc : (Fin POOL_V1_TREE_DEPTH → D) × D) =>
      acc.2 = MerkleTree.node t.parent (MerkleTree.pad t.zero (leaves ++ [x])) n (leaves.length / 2 ^ n) ∧
      ∀ level : Fin POOL_V1_TREE_DEPTH, (level : ℕ) < n → acc.1 level = MerkleTree.node t.parent
        (MerkleTree.pad t.zero (leaves ++ [x])) level (leaves.length / 2 ^ (level : ℕ)))
    (fun (roots, current) level =>
      (Function.update roots level current,
        if leaves.length.testBit level then t.parent (MerkleTree.frontier t.parent t.zero leaves level) current
        else t.parent current (t.emptyRoots level)))
    (fun _ => t.zero, x) ⟨by simp [MerkleTree.node, MerkleTree.pad_append_length], fun level h => absurd h (Nat.not_lt_zero _)⟩ ?_
  · refine ⟨_, ?_, fun level => hloop.2 level level.isLt⟩
    have hroot := hloop.1
    rw [Nat.div_eq_of_lt (show leaves.length < 2 ^ POOL_V1_TREE_DEPTH from hroom)] at hroot
    rw [appendPartialRootsV1, if_neg (by simpa [treeOf] using hroom)]
    exact congrArg Except.ok (Prod.ext rfl hroot)
  · rintro level ⟨roots, current⟩ ⟨hcurrent, hroots⟩
    refine ⟨?_, fun lower hlower => ?_⟩
    · have hsibling := MerkleTree.node_sibling_new t.parent t.zero x leaves level
      rw [MerkleTree.node_sibling, hsibling]
      dsimp only at hcurrent ⊢
      rw [hcurrent]
      split_ifs <;> rfl
    · by_cases heq : lower = level
      · subst heq
        simpa using hcurrent
      · have hlt : (lower : ℕ) < level := by
          have := Fin.val_ne_of_ne heq
          omega
        simpa [Function.update_of_ne heq] using hroots lower hlt

omit [DecidableEq D] in
/-- A repaired path is a path of the longer list. -/
theorem repairWitness_tracks {w : TrackedMerkleWitnessV1 D} {x : D} {partialRoots : Fin POOL_V1_TREE_DEPTH → D}
    (hw : t.TracksLeaf leaves w) (hroom : leaves.length < POOL_V1_LEAF_CAPACITY)
    (hroots : ∀ level : Fin POOL_V1_TREE_DEPTH, partialRoots level = MerkleTree.node t.parent
      (MerkleTree.pad t.zero (leaves ++ [x])) level (leaves.length / 2 ^ (level : ℕ))) :
    ∃ w', repairWitness leaves.length partialRoots w = .ok w' ∧ t.TracksLeaf (leaves ++ [x]) w' := by
  have hlt := hw.index_lt
  have hne : w.leafIndex ^^^ leaves.length ≠ 0 := fun hzero => hlt.ne (Nat.xor_eq_zero_iff.mp hzero)
  have hlevel : (w.leafIndex ^^^ leaves.length).log2 < POOL_V1_TREE_DEPTH :=
    (Nat.log2_lt hne).mpr (Nat.xor_lt_two_pow (hlt.trans hroom) hroom)
  refine ⟨_, by rw [repairWitness, if_neg hne, dif_pos hlevel], ?_, fun level => ?_⟩
  · rw [List.getElem?_append_left hlt]
    exact hw.leaf_eq
  · dsimp only
    by_cases heq : level = ⟨(w.leafIndex ^^^ leaves.length).log2, hlevel⟩
    · subst heq
      rw [Function.update_self, hroots, MerkleTree.siblingIndex_eq_iff.mpr ⟨hne, rfl⟩]
    · have hother : MerkleTree.siblingIndex w.leafIndex level ≠ leaves.length / 2 ^ (level : ℕ) := by
        intro hsibling
        exact heq (Fin.ext (MerkleTree.siblingIndex_eq_iff.mp hsibling).2.symm)
      rw [Function.update_of_ne heq, hw.siblings_eq, MerkleTree.node_sibling_append t.parent t.zero x leaves _ _ hother]

omit [DecidableEq D] in
theorem newWitness_tracks (x : D) (id : DepositEventIdV1) :
    t.TracksLeaf (leaves ++ [x]) (t.newWitness (treeOf t.parent t.zero POOL_V1_TREE_DEPTH leaves) leaves.length x id) :=
  ⟨by simp [newWitness], fun level => (MerkleTree.node_sibling_new t.parent t.zero x leaves level).symm⟩

/-! ### Appends -/

/-- The arguments of an append that the next leaf `x` of the canonical tree has. -/
structure CanonicalAppend (t : TreeDigests D) (leaves : List D) (x : D) (leafIndex rootSequence : ℕ)
    (rootBytes : Bytes32) : Prop where
  room : leaves.length < POOL_V1_LEAF_CAPACITY
  index_eq : leafIndex = leaves.length
  sequence_eq : rootSequence = leaves.length + 1
  root_eq : t.decode rootBytes = some (t.leavesRoot (leaves ++ [x]))

/-- The caller asks to track an event that is tracked already. -/
def AlreadyTracked (trackedEventId : Option DepositEventIdV1) (s : WalletWitnessStateV1 D) : Prop :=
  ∃ id ∈ trackedEventId, ∃ w ∈ s.tracked, w.eventId = id

section Append
variable {leafIndex rootSequence : ℕ} {leafBytes rootBytes : Bytes32} {trackedEventId : Option DepositEventIdV1} {x : D}

/-- A canonical append of an untracked event succeeds, whatever paths are tracked. -/
theorem planAppend_canonical (hs : t.Tracks leaves s) (hleaf : t.decode leafBytes = some x)
    (hcanonical : t.CanonicalAppend leaves x leafIndex rootSequence rootBytes)
    (hfresh : ¬ AlreadyTracked trackedEventId s) :
    ∃ s', t.planAppend leafIndex rootSequence leafBytes rootBytes trackedEventId s = .ok s' ∧
      t.Tracks (leaves ++ [x]) s' := by
  obtain ⟨hroom, rfl, rfl, hroot⟩ := hcanonical
  have hroom' : (leaves ++ [x]).length ≤ POOL_V1_LEAF_CAPACITY := by
    rw [List.length_append, List.length_singleton]
    exact hroom
  have hcap : POOL_V1_LEAF_CAPACITY < 2 ^ 64 := by decide
  obtain ⟨partialRoots, hroots, hblocks⟩ := appendPartialRootsV1_treeOf t x hroom
  obtain ⟨repaired, hrepaired, htracks⟩ := mapM_of_forall fun w hw =>
    repairWitness_tracks (hs.paths w hw) hroom hblocks
  have htracked : ∀ w ∈ repaired ++ (trackedEventId.map (t.newWitness s.tree leaves.length x)).toList,
      t.TracksLeaf (leaves ++ [x]) w := by
    intro w hw
    rcases List.mem_append.mp hw with hw | hw
    · exact htracks w hw
    · obtain ⟨id, -, rfl⟩ := Option.map_eq_some_iff.mp (Option.mem_toList.mp hw)
      rw [hs.tree_eq]
      exact newWitness_tracks x id
  refine ⟨⟨treeOf t.parent t.zero POOL_V1_TREE_DEPTH (leaves ++ [x]), _⟩, ?_, hroom', rfl, htracked⟩
  have happend : appendOneWithEmptyRoots t.parent t.emptyRoots s.tree x = .ok (treeOf t.parent t.zero
      POOL_V1_TREE_DEPTH (leaves ++ [x]), ⟨leaves.length, leaves.length + 1, t.leavesRoot (leaves ++ [x]),
        rootHistoryLocation (leaves.length + 1)⟩) := by
    rw [hs.tree_eq, appendOneWithEmptyRoots, validate_treeOf t.parent t.zero hs.room]
    exact appendOneValidated_treeOf t.parent t.zero x hroom
  rw [← hs.tree_eq] at hroots
  have hindex : leaves.length = s.tree.nextLeafIndex := by rw [hs.tree_eq, treeOf]
  simp only [planAppend, except_bind_eq_ok, require_eq_ok, okOr_eq_ok, mapErr_eq_ok, except_pure_eq_ok]
  exact ⟨(), hindex, (), ⟨by omega, trivial⟩, (), hfresh, x, hleaf, _, hroot, _, hroots, _, happend, (),
    ⟨rfl, rfl, rfl, rfl, rfl⟩, repaired, hrepaired, (), fun w hw => (htracked w hw).root_eq hroom', rfl⟩

/-- An accepted append is the canonical one. -/
theorem planAppend_ok (hs : t.Tracks leaves s) {s' : WalletWitnessStateV1 D}
    (h : t.planAppend leafIndex rootSequence leafBytes rootBytes trackedEventId s = .ok s') :
    ∃ x, t.decode leafBytes = some x ∧ t.CanonicalAppend leaves x leafIndex rootSequence rootBytes ∧
      ¬ AlreadyTracked trackedEventId s := by
  have hindex : s.tree.nextLeafIndex = leaves.length := by rw [hs.tree_eq, treeOf]
  simp only [planAppend, except_bind_eq_ok, require_eq_ok, okOr_eq_ok, mapErr_eq_ok] at h
  obtain ⟨_, rfl, _, ⟨-, rfl⟩, _, hfresh, x, hx, root, hroot, ⟨partialRoots, terminal⟩, hroots, ⟨nextTree, append⟩,
    -, _, ⟨-, -, -, -, rfl⟩, -⟩ := h
  have hroom : leaves.length < POOL_V1_LEAF_CAPACITY := by
    unfold appendPartialRootsV1 at hroots
    split_ifs at hroots with hfull
    omega
  obtain ⟨_, hroots', -⟩ := appendPartialRootsV1_treeOf t x hroom
  rw [hs.tree_eq, hroots'] at hroots
  cases hroots
  exact ⟨x, hx, ⟨hroom, hindex, by rw [hindex], hroot⟩, hfresh⟩

theorem appendAuthenticatedLeafV1_ok {receipt : WitnessAppendReceiptV1} {s' : WalletWitnessStateV1 D}
    (h : t.appendAuthenticatedLeafV1 leafIndex rootSequence leafBytes rootBytes trackedEventId s = .ok receipt s') :
    t.planAppend leafIndex rootSequence leafBytes rootBytes trackedEventId s = .ok s' := by
  simp only [appendAuthenticatedLeafV1, Exec.bind_ok, Exec.query_ok, Exec.update_ok, Exec.pure_ok] at h
  obtain ⟨next, _, ⟨hnext, rfl⟩, _, _, rfl, -, rfl⟩ := h
  exact hnext

/-- An accepted append appends its leaf. -/
theorem appendAuthenticatedLeafV1_tracks (hs : t.Tracks leaves s) {receipt : WitnessAppendReceiptV1}
    {s' : WalletWitnessStateV1 D}
    (h : t.appendAuthenticatedLeafV1 leafIndex rootSequence leafBytes rootBytes trackedEventId s = .ok receipt s') :
    ∃ x, t.decode leafBytes = some x ∧ t.CanonicalAppend leaves x leafIndex rootSequence rootBytes ∧
      t.Tracks (leaves ++ [x]) s' := by
  have hplan := appendAuthenticatedLeafV1_ok h
  obtain ⟨x, hx, hcanonical, hfresh⟩ := planAppend_ok hs hplan
  obtain ⟨next, hnext, htracks⟩ := planAppend_canonical hs hx hcanonical hfresh
  rw [hplan] at hnext
  cases hnext
  exact ⟨x, hx, hcanonical, htracks⟩

end Append

/-- A stream of accepted appends appends its leaves in order. -/
theorem applyAppends_tracks {ids : List DepositEventIdV1} :
    ∀ {appends : List FinalizedAppendEvidenceV1} {leaves : List D} {s s' : WalletWitnessStateV1 D}
      {receipts : List WitnessAppendReceiptV1}, t.Tracks leaves s →
      t.applyAppends ids appends s = .ok (s', receipts) →
      t.Tracks (leaves ++ appends.filterMap fun append => t.decode append.noteCommitment) s'
  | [], leaves, s, s', receipts, hs, h => by
    cases h
    simpa using hs
  | append :: appends, leaves, s, s', receipts, hs, h => by
    rw [applyAppends] at h
    split at h
    · cases h
    · rename_i receipt working happend
      simp only [except_bind_eq_ok, except_pure_eq_ok, Prod.exists, Prod.mk.injEq] at h
      obtain ⟨_, receipts', hrest, rfl, -⟩ := h
      obtain ⟨x, hx, -, htracks⟩ := appendAuthenticatedLeafV1_tracks hs happend
      have hnext := applyAppends_tracks htracks hrest
      rw [List.append_assoc, List.singleton_append] at hnext
      rw [List.filterMap_cons, hx]
      exact hnext

theorem importCurrentWitnessV1_tracks (hp : Function.Injective2 t.parent) (hs : t.Tracks leaves s)
    {eventId : DepositEventIdV1} {leafIndex : ℕ} {leafBytes : Bytes32}
    {siblingBytes : Fin POOL_V1_TREE_DEPTH → Bytes32} {u : Unit} {s' : WalletWitnessStateV1 D}
    (h : t.importCurrentWitnessV1 eventId leafIndex leafBytes siblingBytes s = .ok u s') : t.Tracks leaves s' := by
  simp only [importCurrentWitnessV1, Exec.bind_ok, Exec.query_ok, Exec.update_ok, except_bind_eq_ok, require_eq_ok,
    except_pure_eq_ok] at h
  obtain ⟨witness, _, ⟨⟨_, hindex, _, -, leaf, -, siblings, -, _, hroot, rfl⟩, rfl⟩, rfl⟩ := h
  rw [hs.tree_eq] at hindex hroot
  refine ⟨hs.room, hs.tree_eq, fun w hw => ?_⟩
  rcases List.mem_append.mp hw with hw | hw
  · exact hs.paths w hw
  · obtain rfl := List.mem_singleton.mp hw
    exact tracksLeaf_of_root_eq hp hs.room hindex hroot

omit [DecidableEq D] in
theorem removeWitnessV1_tracks (hs : t.Tracks leaves s) {eventId : DepositEventIdV1} {w : TrackedMerkleWitnessV1 D}
    {s' : WalletWitnessStateV1 D} (h : removeWitnessV1 eventId s = .ok w s') : t.Tracks leaves s' := by
  simp only [removeWitnessV1, Exec.bind_ok, Exec.query_ok, Exec.update_ok, Exec.pure_ok] at h
  obtain ⟨_, _, ⟨-, rfl⟩, _, _, rfl, -, rfl⟩ := h
  exact ⟨hs.room, hs.tree_eq, fun w hw => hs.paths w (List.mem_of_mem_eraseP hw)⟩

/-! ### Sequences of calls -/

/-- A call on the witness state. -/
inductive Call
  | append (leafIndex rootSequence : ℕ) (leafBytes rootBytes : Bytes32) (trackedEventId : Option DepositEventIdV1)
  | applyFinalized (appends : List FinalizedAppendEvidenceV1) (trackEventIds : List DepositEventIdV1)
  | importPath (eventId : DepositEventIdV1) (leafIndex : ℕ) (leafBytes : Bytes32)
      (siblingBytes : Fin POOL_V1_TREE_DEPTH → Bytes32)
  | remove (eventId : DepositEventIdV1)

variable (t) in
def perform : Call → Exec WitnessStateErrorV1 (WalletWitnessStateV1 D) Unit
  | .append leafIndex rootSequence leafBytes rootBytes trackedEventId => do
    let _ ← t.appendAuthenticatedLeafV1 leafIndex rootSequence leafBytes rootBytes trackedEventId
  | .applyFinalized appends trackEventIds => do
    let _ ← t.applyFinalizedAppendsV1 appends trackEventIds
  | .importPath eventId leafIndex leafBytes siblingBytes =>
    t.importCurrentWitnessV1 eventId leafIndex leafBytes siblingBytes
  | .remove eventId => do
    let _ ← removeWitnessV1 eventId

variable (t) in
/-- The leaves a call appends when it succeeds. -/
def leavesOf : Call → List D
  | .append _ _ leafBytes _ _ => (t.decode leafBytes).toList
  | .applyFinalized appends _ => appends.filterMap fun append => t.decode append.noteCommitment
  | .importPath _ _ _ _ => []
  | .remove _ => []

variable (t) in
/-- Calls one after the other, whether they succeed or fail, with the leaves appended so far. -/
def performAll : List Call → List D × WalletWitnessStateV1 D → List D × WalletWitnessStateV1 D
  | [], state => state
  | call :: calls, (leaves, s) => match t.perform call s with
    | .ok _ s' => performAll calls (leaves ++ t.leavesOf call, s')
    | .error _ s' => performAll calls (leaves, s')

/-- A failing call leaves tree and paths as they were. -/
theorem perform_error {call : Call} {e : WitnessStateErrorV1} {s' : WalletWitnessStateV1 D}
    (h : t.perform call s = .error e s') : s' = s := by
  cases call <;>
    simp only [perform, appendAuthenticatedLeafV1, applyFinalizedAppendsV1, importCurrentWitnessV1, removeWitnessV1,
      Exec.bind_error, Exec.bind_ok, Exec.query_error, Exec.query_ok, Exec.update_ne_error, Exec.pure_ne_error, or_false,
      and_false, exists_false] at h
  case applyFinalized =>
    rcases h with ⟨-, rfl⟩ | ⟨_, _, ⟨-, rfl⟩, -, rfl⟩ <;> rfl
  all_goals exact h.2.symm

theorem perform_tracks (hp : Function.Injective2 t.parent) (hs : t.Tracks leaves s) {call : Call} {u : Unit}
    {s' : WalletWitnessStateV1 D} (h : t.perform call s = .ok u s') : t.Tracks (leaves ++ t.leavesOf call) s' := by
  cases call with
  | append leafIndex rootSequence leafBytes rootBytes trackedEventId =>
    simp only [perform, Exec.bind_ok, Exec.pure_ok] at h
    obtain ⟨receipt, _, happend, -, rfl⟩ := h
    obtain ⟨x, hx, -, htracks⟩ := appendAuthenticatedLeafV1_tracks hs happend
    rw [leavesOf, hx]
    exact htracks
  | applyFinalized appends ids =>
    simp only [perform, applyFinalizedAppendsV1, Exec.bind_ok, Exec.query_ok, Exec.update_ok, Exec.pure_ok] at h
    obtain ⟨_, _, ⟨_, _, ⟨-, rfl⟩, ⟨working, receipts⟩, _, ⟨happends, rfl⟩, _, _, rfl, -, rfl⟩, -, rfl⟩ := h
    exact applyAppends_tracks hs happends
  | importPath eventId leafIndex leafBytes siblingBytes =>
    rw [leavesOf, List.append_nil]
    exact importCurrentWitnessV1_tracks hp hs h
  | remove eventId =>
    simp only [perform, Exec.bind_ok, Exec.pure_ok] at h
    obtain ⟨w, _, hremove, -, rfl⟩ := h
    rw [leavesOf, List.append_nil]
    exact removeWitnessV1_tracks hs hremove

theorem performAll_tracks (hp : Function.Injective2 t.parent) :
    ∀ (calls : List Call) {leaves leaves' : List D} {s s' : WalletWitnessStateV1 D}, t.Tracks leaves s →
      t.performAll calls (leaves, s) = (leaves', s') → t.Tracks leaves' s'
  | [], leaves, leaves', s, s', hs, h => by
    cases h
    exact hs
  | call :: calls, leaves, leaves', s, s', hs, h => by
    rw [performAll] at h
    split at h
    · rename_i hcall
      exact performAll_tracks hp calls (perform_tracks hp hs hcall) h
    · rename_i hcall
      obtain rfl := perform_error hcall
      exact performAll_tracks hp calls hs h

theorem fromAuthenticatedTreeV1_tracks {root : Bytes32} (hroom : leaves.length ≤ POOL_V1_LEAF_CAPACITY)
    (h : t.fromAuthenticatedTreeV1 (treeOf t.parent t.zero POOL_V1_TREE_DEPTH leaves) root = .ok s) :
    t.Tracks leaves s := by
  simp only [fromAuthenticatedTreeV1, except_bind_eq_ok, except_pure_eq_ok] at h
  obtain ⟨_, -, _, -, _, -, rfl⟩ := h
  exact ⟨hroom, rfl, by simp⟩

/-- From the authenticated tree of any leaf list, after any calls: the state
holds the tree of all leaves appended so far and every tracked path is a true
path of it, recomputing to its root. The append of the next leaf with the index,
sequence and root of that tree succeeds whatever is tracked, unless the caller
asks to track an event a second time; an append with other arguments fails. A
failing call changes nothing. -/
theorem tracked_paths_correct (hp : Function.Injective2 t.parent) (hroom : leaves.length ≤ POOL_V1_LEAF_CAPACITY)
    {root : Bytes32} {start : WalletWitnessStateV1 D}
    (hstart : t.fromAuthenticatedTreeV1 (treeOf t.parent t.zero POOL_V1_TREE_DEPTH leaves) root = .ok start)
    (calls : List Call) {leaves' : List D} (hcalls : t.performAll calls (leaves, start) = (leaves', s)) :
    t.Tracks leaves' s ∧ (∀ w ∈ s.tracked, t.rootOf w = s.tree.root) ∧
      (∀ leafIndex rootSequence leafBytes rootBytes trackedEventId x, t.decode leafBytes = some x →
        t.CanonicalAppend leaves' x leafIndex rootSequence rootBytes → ¬ AlreadyTracked trackedEventId s →
        ∃ receipt s', t.appendAuthenticatedLeafV1 leafIndex rootSequence leafBytes rootBytes trackedEventId s =
          .ok receipt s') ∧
      (∀ leafIndex rootSequence leafBytes rootBytes trackedEventId,
        (¬ ∃ x, t.decode leafBytes = some x ∧ t.CanonicalAppend leaves' x leafIndex rootSequence rootBytes) →
        ∃ e, t.appendAuthenticatedLeafV1 leafIndex rootSequence leafBytes rootBytes trackedEventId s = .error e s) ∧
      ∀ call e s', t.perform call s = .error e s' → s' = s := by
  have hs := performAll_tracks hp calls (fromAuthenticatedTreeV1_tracks hroom hstart) hcalls
  refine ⟨hs, fun w hw => ?_, ?_, ?_, fun call e s' => perform_error⟩
  · rw [(hs.paths w hw).root_eq hs.room, hs.tree_eq]
    rfl
  · intro leafIndex rootSequence leafBytes rootBytes trackedEventId x hx hcanonical hfresh
    obtain ⟨next, hnext, -⟩ := planAppend_canonical hs hx hcanonical hfresh
    refine ⟨⟨leafIndex, rootSequence, rootBytes, trackedEventId⟩, next, ?_⟩
    simp only [appendAuthenticatedLeafV1, Exec.bind_ok, Exec.query_ok, Exec.update_ok, Exec.pure_ok]
    exact ⟨next, s, ⟨hnext, rfl⟩, (), next, rfl, trivial, rfl⟩
  · intro leafIndex rootSequence leafBytes rootBytes trackedEventId hother
    cases hrun : t.appendAuthenticatedLeafV1 leafIndex rootSequence leafBytes rootBytes trackedEventId s with
    | ok receipt s' =>
      obtain ⟨x, hx, hcanonical, -⟩ := appendAuthenticatedLeafV1_tracks hs hrun
      exact absurd ⟨x, hx, hcanonical⟩ hother
    | error e s' =>
      have hsame : s' = s := by
        refine @perform_error _ _ t s (.append leafIndex rootSequence leafBytes rootBytes trackedEventId) e s' ?_
        rw [perform, Exec.bind_error]
        exact .inl hrun
      exact ⟨e, by rw [hsame]⟩

end TreeDigests

/-- Digests without collisions: formal terms over numbered leaves. -/
inductive FormalDigest
  | leaf (n : ℕ)
  | join (left right : FormalDigest)
  deriving DecidableEq

/-- Formal digests with an encoding of small leaves and of the two roots used below. -/
def formalDigests : TreeDigests FormalDigest where
  parent := .join
  zero := .leaf 0
  decode b := match leNat b.bytes with
    | 1 => some (MerkleTree.root .join (.leaf 0) POOL_V1_TREE_DEPTH [])
    | 2 => some (MerkleTree.root .join (.leaf 0) POOL_V1_TREE_DEPTH [.leaf 7])
    | n => some (.leaf n)

/-- A 32-byte little-endian number. -/
def word (n : ℕ) : Bytes32 := ⟨leBytes 32 n, by simp⟩

def firstEvent : DepositEventIdV1 :=
  ⟨⟨1, word 1, by decide, by decide⟩, leBytes 64 1, 0, 0, by simp, by decide, by decide, by decide⟩

/-- The first leaf of an empty pool, appended and tracked. -/
theorem tracked_paths_correct_first_leaf : ∃ s, formalDigests.performAll
    [.append 0 1 (word 7) (word 2) (some firstEvent)] ([], ⟨treeOf .join (.leaf 0) POOL_V1_TREE_DEPTH [], []⟩) =
      ([.leaf 7], s) ∧ formalDigests.Tracks [.leaf 7] s ∧ ∀ w ∈ s.tracked, formalDigests.rootOf w = s.tree.root := by
  have hp : Function.Injective2 formalDigests.parent := fun _ _ _ _ h => by
    injection h with hleft hright
    exact ⟨hleft, hright⟩
  have hroom : ([] : List FormalDigest).length ≤ POOL_V1_LEAF_CAPACITY := Nat.zero_le _
  have hstart : formalDigests.fromAuthenticatedTreeV1 (treeOf .join (.leaf 0) POOL_V1_TREE_DEPTH []) (word 1) =
      .ok ⟨treeOf .join (.leaf 0) POOL_V1_TREE_DEPTH [], []⟩ := by
    simp only [TreeDigests.fromAuthenticatedTreeV1, except_bind_eq_ok, mapErr_eq_ok, okOr_eq_ok, require_eq_ok,
      except_pure_eq_ok]
    exact ⟨(), validate_treeOf _ _ hroom, _, rfl, (), rfl, trivial⟩
  have hs : formalDigests.Tracks [] ⟨treeOf .join (.leaf 0) POOL_V1_TREE_DEPTH [], []⟩ := ⟨hroom, rfl, by simp⟩
  have hcanonical : formalDigests.CanonicalAppend [] (.leaf 7) 0 1 (word 2) := ⟨by decide, rfl, rfl, rfl⟩
  have hleaf : formalDigests.decode (word 7) = some (.leaf 7) := rfl
  have hfresh : ¬ TreeDigests.AlreadyTracked (some firstEvent)
      (⟨treeOf .join (.leaf 0) POOL_V1_TREE_DEPTH [], []⟩ : WalletWitnessStateV1 FormalDigest) := by
    simp [TreeDigests.AlreadyTracked]
  obtain ⟨next, hnext, -⟩ := TreeDigests.planAppend_canonical hs hleaf hcanonical hfresh
  have hperform : formalDigests.perform (.append 0 1 (word 7) (word 2) (some firstEvent))
      ⟨treeOf .join (.leaf 0) POOL_V1_TREE_DEPTH [], []⟩ = .ok () next := by
    simp only [TreeDigests.perform, TreeDigests.appendAuthenticatedLeafV1, Exec.bind_ok, Exec.query_ok, Exec.update_ok,
      Exec.pure_ok]
    exact ⟨_, _, ⟨next, _, ⟨hnext, rfl⟩, (), next, rfl, rfl, rfl⟩, trivial, rfl⟩
  have hcalls : formalDigests.performAll [.append 0 1 (word 7) (word 2) (some firstEvent)]
      ([], ⟨treeOf .join (.leaf 0) POOL_V1_TREE_DEPTH [], []⟩) = ([.leaf 7], next) := by
    rw [TreeDigests.performAll, hperform]
    rfl
  obtain ⟨htracks, hroots, -⟩ := TreeDigests.tracked_paths_correct hp hroom hstart _ hcalls
  exact ⟨next, hcalls, htracks, hroots⟩

end Aspis.Wallet
