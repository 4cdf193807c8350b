import Aspis.Lib.MerkleTree
import Mathlib.Data.Fintype.Pi

/-! The append-only binary-carry tree. Slot `h` of the frontier is live exactly
when bit `h` of `nextLeafIndex` is one; inactive slots hold the recursive empty
root, so a state has one image. The construction is generic in the digest type,
the parent hash, the empty-root table and the depth. -/

namespace Aspis.Statement

open Lib

inductive PoolV1TreeError
  | treeFull
  | insufficientCapacity
  | indexOutOfRange
  | rootMismatch
  | nonCanonicalFrontier
  | wrongLength
  | wrongMagic
  | wrongVersion
  | wrongDepth
  | wrongTreeHash
  | wrongDigestEncoding
  | nonCanonicalDigest
  | nonZeroReserved
  deriving DecidableEq, Repr

/-! ### Root history locations -/

def POOL_V1_ROOT_HISTORY_CAPACITY : ℕ := 256

structure RootHistoryLocationV1 where
  pageNumber : ℕ
  slot : ℕ
  deriving DecidableEq, Repr

/-- The one page and slot that retain the root of a sequence number. -/
def rootHistoryLocation (sequence : ℕ) : RootHistoryLocationV1 :=
  ⟨sequence / POOL_V1_ROOT_HISTORY_CAPACITY, sequence % POOL_V1_ROOT_HISTORY_CAPACITY⟩

/-! ### The tree -/

structure AppendOneV1 (D : Type) where
  leafIndex : ℕ
  rootSequence : ℕ
  root : D
  history : RootHistoryLocationV1
  deriving DecidableEq

structure AppendTwoV1 (D : Type) where
  first : AppendOneV1 D
  second : AppendOneV1 D
  deriving DecidableEq

@[ext]
structure IncrementalMerkleTreeV1 (D : Type) (depth : ℕ) where
  nextLeafIndex : ℕ
  root : D
  frontier : Fin depth → D

instance {D : Type} {depth : ℕ} [DecidableEq D] : DecidableEq (IncrementalMerkleTreeV1 D depth) :=
  fun _ _ => decidable_of_iff' _ IncrementalMerkleTreeV1.ext_iff

section Operations
variable {D : Type} {depth : ℕ} (parent : D → D → D) (empty : ℕ → D)

/-- The carry loop: while the leaf index has a one at `level`, join the live
slot with the carry and clear the slot. Returns the level it stopped at. -/
def carryLoop (leafIndex : ℕ) : ℕ → ℕ → (Fin depth → D) → D → ℕ × (Fin depth → D) × D
  | 0, level, frontier, carry => (level, frontier, carry)
  | fuel + 1, level, frontier, carry =>
    if h : level < depth ∧ leafIndex.testBit level = true then
      carryLoop leafIndex fuel (level + 1) (Function.update frontier ⟨level, h.1⟩ (empty level))
        (parent (frontier ⟨level, h.1⟩) carry)
    else (level, frontier, carry)

/-- The reconstruction loop over the levels from `level` on. -/
def rootLoop (nextLeafIndex : ℕ) (frontier : Fin depth → D) : ℕ → ℕ → D → D
  | 0, _, node => node
  | fuel + 1, level, node =>
    if h : level < depth then
      rootLoop nextLeafIndex frontier fuel (level + 1)
        (if nextLeafIndex.testBit level = true then parent (frontier ⟨level, h⟩) node
         else parent node (empty level))
    else node

namespace IncrementalMerkleTreeV1

def reconstructNonfullRootFromLevel (t : IncrementalMerkleTreeV1 D depth) (startLevel : ℕ) :
    Except PoolV1TreeError D :=
  if t.nextLeafIndex ≥ 2 ^ depth then .error .treeFull
  else if startLevel > depth then .error .indexOutOfRange
  else .ok (rootLoop parent empty t.nextLeafIndex t.frontier depth startLevel (empty startLevel))

variable [DecidableEq D]

/-- The complete frontier and root check. The root of a full tree cannot be
reconstructed from its frontier and is left to the history cross-check. -/
def validateWithEmptyRoots (t : IncrementalMerkleTreeV1 D depth) : Except PoolV1TreeError Unit :=
  if t.nextLeafIndex > 2 ^ depth then .error .indexOutOfRange
  else if ∃ level : Fin depth,
      t.nextLeafIndex.testBit level = false ∧ t.frontier level ≠ empty level then
    .error .nonCanonicalFrontier
  else if t.nextLeafIndex = 0 then
    if t.root = empty depth then .ok () else .error .rootMismatch
  else if t.nextLeafIndex < 2 ^ depth then
    match t.reconstructNonfullRootFromLevel parent empty 0 with
    | .error e => .error e
    | .ok r => if r ≠ t.root then .error .rootMismatch else .ok ()
  else .ok ()

end IncrementalMerkleTreeV1

/-- The carry construction shared by every append of the repository: the next
tree and its receipt. -/
def carryAppend (t : IncrementalMerkleTreeV1 D depth) (leaf : D) :
    IncrementalMerkleTreeV1 D depth × AppendOneV1 D :=
  let (carryLevel, cleared, carry) := carryLoop parent empty t.nextLeafIndex depth 0 t.frontier leaf
  let frontier := if h : carryLevel < depth then Function.update cleared ⟨carryLevel, h⟩ carry else cleared
  let root := if carryLevel = depth then carry
    else rootLoop parent empty (t.nextLeafIndex + 1) frontier depth carryLevel (empty carryLevel)
  (⟨t.nextLeafIndex + 1, root, frontier⟩,
    ⟨t.nextLeafIndex, t.nextLeafIndex + 1, root, rootHistoryLocation (t.nextLeafIndex + 1)⟩)

/-- Append to a validated source without reconstructing its root. -/
def appendOneValidated (t : IncrementalMerkleTreeV1 D depth) (leaf : D) :
    Except PoolV1TreeError (IncrementalMerkleTreeV1 D depth × AppendOneV1 D) :=
  if t.nextLeafIndex = 2 ^ depth then .error .treeFull else .ok (carryAppend parent empty t leaf)

/-- Both appends or none: room for two leaves is checked first. -/
def appendTwoValidated (t : IncrementalMerkleTreeV1 D depth) (firstLeaf secondLeaf : D) :
    Except PoolV1TreeError (IncrementalMerkleTreeV1 D depth × AppendTwoV1 D) :=
  if t.nextLeafIndex > 2 ^ depth then .error .indexOutOfRange
  else if 2 ^ depth - t.nextLeafIndex < 2 then .error .insufficientCapacity
  else do
    let (afterFirst, first) ← appendOneValidated parent empty t firstLeaf
    let (afterSecond, second) ← appendOneValidated parent empty afterFirst secondLeaf
    return (afterSecond, ⟨first, second⟩)

variable [DecidableEq D]

def appendOneWithEmptyRoots (t : IncrementalMerkleTreeV1 D depth) (leaf : D) :
    Except PoolV1TreeError (IncrementalMerkleTreeV1 D depth × AppendOneV1 D) := do
  t.validateWithEmptyRoots parent empty
  appendOneValidated parent empty t leaf

def appendTwoWithEmptyRoots (t : IncrementalMerkleTreeV1 D depth) (firstLeaf secondLeaf : D) :
    Except PoolV1TreeError (IncrementalMerkleTreeV1 D depth × AppendTwoV1 D) := do
  t.validateWithEmptyRoots parent empty
  appendTwoValidated parent empty t firstLeaf secondLeaf

end Operations

/-! ### The tree of a leaf list -/

section Spec
variable {D : Type} {depth : ℕ} (parent : D → D → D) (e : D)

open MerkleTree

/-- What the state means: the tree of all leaves appended so far, in order. -/
def treeOf (depth : ℕ) (leaves : List D) : IncrementalMerkleTreeV1 D depth where
  nextLeafIndex := leaves.length
  root := MerkleTree.root parent e depth leaves
  frontier h := MerkleTree.frontier parent e leaves h

theorem div_succ_of_low_ones {n : ℕ} : ∀ {k : ℕ}, (∀ j < k, n.testBit j = true) →
    (n + 1) / 2 ^ k = n / 2 ^ k + 1
  | 0, _ => by simp
  | k + 1, h => by
    have ih := div_succ_of_low_ones fun j hj => h j (Nat.lt_succ_of_lt hj)
    have hodd := (testBit_iff_odd n k).mp (h k (Nat.lt_succ_self k))
    rw [pow_succ, ← Nat.div_div_eq_div_mul, ih, ← Nat.div_div_eq_div_mul]
    omega

theorem div_succ_of_zero {n k : ℕ} (hlow : ∀ j < k, n.testBit j = true) (hk : n.testBit k = false)
    {h : ℕ} (hh : k < h) : (n + 1) / 2 ^ h = n / 2 ^ h := by
  have hs := div_succ_of_low_ones hlow
  have heven := (not_testBit_iff_even n k).mp hk
  obtain ⟨d, rfl⟩ := Nat.exists_eq_add_of_lt hh
  have hstep : (n + 1) / 2 ^ (k + 1) = n / 2 ^ (k + 1) := by
    rw [pow_succ, ← Nat.div_div_eq_div_mul, hs, ← Nat.div_div_eq_div_mul]
    rw [pow_succ, ← Nat.div_div_eq_div_mul] at heven
    omega
  rw [show k + d + 1 = (k + 1) + d by omega, pow_add, ← Nat.div_div_eq_div_mul, hstep,
    Nat.div_div_eq_div_mul]

/-- What the carry loop has done when it stops at `stop`: the slots below are
cleared, the carry is the complete block that ends with the new leaf. -/
structure CarrySpec (leaves : List D) (x : D) (stop : ℕ) (cleared : Fin depth → D) (carry : D) : Prop where
  stop_le : stop ≤ depth
  low_ones : ∀ j < stop, leaves.length.testBit j = true
  stopped : stop < depth → leaves.length.testBit stop = false
  cleared_low : ∀ h : Fin depth, (h : ℕ) < stop → cleared h = emptyRoot parent e h
  cleared_high : ∀ h : Fin depth, stop ≤ (h : ℕ) → cleared h = MerkleTree.frontier parent e leaves h
  carry_eq : carry = node parent (pad e (leaves ++ [x])) stop (leaves.length / 2 ^ stop)

theorem carryLoop_spec (leaves : List D) (x : D) :
    ∀ (fuel level : ℕ) (f : Fin depth → D) (carry : D), fuel + level = depth →
      (∀ j < level, leaves.length.testBit j = true) →
      (∀ h : Fin depth, (h : ℕ) < level → f h = emptyRoot parent e h) →
      (∀ h : Fin depth, level ≤ (h : ℕ) → f h = MerkleTree.frontier parent e leaves h) →
      carry = node parent (pad e (leaves ++ [x])) level (leaves.length / 2 ^ level) →
      CarrySpec parent e leaves x
        (carryLoop parent (emptyRoot parent e) leaves.length fuel level f carry).1
        (carryLoop parent (emptyRoot parent e) leaves.length fuel level f carry).2.1
        (carryLoop parent (emptyRoot parent e) leaves.length fuel level f carry).2.2 := by
  intro fuel
  induction fuel with
  | zero =>
    intro level f carry hfuel hlow hclear hhigh hcarry
    exact ⟨by simp only [carryLoop]; omega, hlow, fun h => by simp only [carryLoop] at h; omega,
      hclear, hhigh, hcarry⟩
  | succ fuel ih =>
    intro level f carry hfuel hlow hclear hhigh hcarry
    rw [carryLoop]
    split_ifs with hcond
    · obtain ⟨hlt, hbit⟩ := hcond
      apply ih
      · omega
      · intro j hj
        rcases Nat.lt_succ_iff_lt_or_eq.mp hj with hj | rfl
        · exact hlow j hj
        · exact hbit
      · intro h hh
        by_cases heq : (h : ℕ) = level
        · obtain rfl : h = ⟨level, hlt⟩ := Fin.ext heq
          rw [Function.update_self]
        · rw [Function.update_of_ne (by simpa [Fin.ext_iff] using heq)]
          exact hclear h (by omega)
      · intro h hh
        rw [Function.update_of_ne (by simp only [ne_eq, Fin.ext_iff]; omega)]
        exact hhigh h (by omega)
      · rw [node_carry_succ parent e x leaves level hbit, hcarry, hhigh ⟨level, hlt⟩ le_rfl]
    · refine ⟨by dsimp only; omega, hlow, fun hlt => ?_, hclear, hhigh, hcarry⟩
      simpa [hlt] using hcond

/-- The frontier after the carry has been stored is that of the longer list. -/
theorem CarrySpec.frontier_eq {leaves : List D} {x : D} {stop : ℕ} {cleared : Fin depth → D} {carry : D}
    (hs : CarrySpec parent e leaves x stop cleared carry) (h : Fin depth) :
    (if hlt : stop < depth then Function.update cleared ⟨stop, hlt⟩ carry else cleared) h =
      MerkleTree.frontier parent e (leaves ++ [x]) h := by
  rcases lt_trichotomy (h : ℕ) stop with hlt | heq | hgt
  · have hdiv := div_succ_of_low_ones fun j hj => hs.low_ones j (hj.trans hlt)
    rw [frontier_append_of_cleared parent e x leaves h hdiv (hs.low_ones h hlt)]
    split_ifs with hd
    · rw [Function.update_of_ne (by simp only [ne_eq, Fin.ext_iff]; omega)]
      exact hs.cleared_low h hlt
    · exact hs.cleared_low h hlt
  · have hd : stop < depth := heq ▸ h.isLt
    obtain rfl : h = ⟨stop, hd⟩ := Fin.ext heq
    rw [dif_pos hd, Function.update_self,
      frontier_append_of_carry parent e x leaves stop (div_succ_of_low_ones hs.low_ones) (hs.stopped hd),
      hs.carry_eq]
  · have hd : stop < depth := hgt.trans h.isLt
    have hdiv := div_succ_of_zero hs.low_ones (hs.stopped hd) hgt
    rw [frontier_append_of_div_eq parent e x leaves h hdiv, dif_pos hd,
      Function.update_of_ne (by simp only [ne_eq, Fin.ext_iff]; omega)]
    exact hs.cleared_high h hgt.le

/-- The reconstruction loop climbs the blocks that hold the first free leaf. -/
theorem rootLoop_spec {leaves : List D} {f : Fin depth → D}
    (hf : ∀ h : Fin depth, f h = MerkleTree.frontier parent e leaves h) (hroom : leaves.length < 2 ^ depth) :
    ∀ (fuel level : ℕ), level ≤ depth → depth ≤ fuel + level →
      rootLoop parent (emptyRoot parent e) leaves.length f fuel level
        (node parent (pad e leaves) level (leaves.length / 2 ^ level)) =
      MerkleTree.root parent e depth leaves := by
  have hdone : ∀ level, level = depth →
      node parent (pad e leaves) level (leaves.length / 2 ^ level) = MerkleTree.root parent e depth leaves := by
    rintro level rfl
    rw [Nat.div_eq_of_lt hroom, MerkleTree.root]
  intro fuel
  induction fuel with
  | zero =>
    intro level hle hfuel
    exact hdone level (by omega)
  | succ fuel ih =>
    intro level hle hfuel
    rw [rootLoop]
    split_ifs with hlt hbit
    · rw [← ih (level + 1) hlt (by omega), node_free_succ, if_pos hbit, hf]
    · rw [← ih (level + 1) hlt (by omega), node_free_succ, if_neg hbit]
    · exact hdone level (by omega)

/-- The root stored with the carry is that of the longer list. -/
theorem CarrySpec.root_eq {leaves : List D} {x : D} {stop : ℕ} {cleared : Fin depth → D} {carry : D}
    (hs : CarrySpec parent e leaves x stop cleared carry) (hroom : leaves.length < 2 ^ depth) :
    (if stop = depth then carry else
      rootLoop parent (emptyRoot parent e) (leaves.length + 1)
        (if hlt : stop < depth then Function.update cleared ⟨stop, hlt⟩ carry else cleared)
        depth stop (emptyRoot parent e stop)) = MerkleTree.root parent e depth (leaves ++ [x]) := by
  by_cases hstop : stop = depth
  · subst hstop
    rw [if_pos rfl, hs.carry_eq, Nat.div_eq_of_lt hroom, MerkleTree.root]
  · have hd : stop < depth := lt_of_le_of_ne hs.stop_le hstop
    have hdiv := div_succ_of_low_ones hs.low_ones
    -- below the carry level every bit of the new count is zero, so that block is empty
    have hempty : emptyRoot parent e stop =
        node parent (pad e (leaves ++ [x])) stop ((leaves ++ [x]).length / 2 ^ stop) := by
      rw [node_pad_empty]
      rw [List.length_append, List.length_singleton, hdiv]
      have hm := Nat.lt_div_mul_add (a := leaves.length) (Nat.two_pow_pos stop)
      rw [Nat.add_mul, Nat.one_mul]
      omega
    have hroom' : (leaves ++ [x]).length < 2 ^ depth := by
      have hsame := div_succ_of_zero hs.low_ones (hs.stopped hd) hd
      rw [Nat.div_eq_of_lt hroom] at hsame
      rw [List.length_append, List.length_singleton]
      exact (Nat.div_eq_zero_iff_lt (Nat.two_pow_pos depth)).mp hsame
    have hreach := rootLoop_spec parent e (hs.frontier_eq parent e) hroom' depth stop hs.stop_le (by omega)
    rw [← hempty, List.length_append, List.length_singleton] at hreach
    rw [if_neg hstop, hreach]

/-- Appending to the tree of a list gives the tree of the longer list. -/
theorem carryAppend_treeOf {leaves : List D} {x : D} (hroom : leaves.length < 2 ^ depth) :
    carryAppend parent (emptyRoot parent e) (treeOf parent e depth leaves) x =
      (treeOf parent e depth (leaves ++ [x]),
        ⟨leaves.length, leaves.length + 1, MerkleTree.root parent e depth (leaves ++ [x]),
          rootHistoryLocation (leaves.length + 1)⟩) := by
  have hs := carryLoop_spec parent e leaves x depth 0
    (treeOf parent e depth leaves).frontier x (by omega) (by simp) (by simp) (fun _ _ => rfl)
    (by simp [node, pad_append_length])
  have hlen : (treeOf parent e depth leaves).nextLeafIndex = leaves.length := rfl
  unfold carryAppend
  rw [hlen]
  generalize carryLoop parent (emptyRoot parent e) leaves.length depth 0
    (treeOf parent e depth leaves).frontier x = loop at hs ⊢
  obtain ⟨stop, cleared, carry⟩ := loop
  dsimp only at hs ⊢
  rw [hs.root_eq parent e hroom]
  simp only [treeOf, List.length_append, List.length_singleton, Prod.mk.injEq, and_true]
  exact IncrementalMerkleTreeV1.ext rfl rfl (funext (hs.frontier_eq parent e))

/-- The tree of a list passes the complete check. -/
theorem validate_treeOf [DecidableEq D] {leaves : List D} (hlen : leaves.length ≤ 2 ^ depth) :
    (treeOf parent e depth leaves).validateWithEmptyRoots parent (emptyRoot parent e) = .ok () := by
  have hinactive : ¬ ∃ level : Fin depth,
      (treeOf parent e depth leaves).nextLeafIndex.testBit level = false ∧
        (treeOf parent e depth leaves).frontier level ≠ emptyRoot parent e level := by
    rintro ⟨level, hbit, hne⟩
    have hdead : leaves.length.testBit level = false := hbit
    exact hne (by simp [treeOf, MerkleTree.frontier, hdead])
  unfold IncrementalMerkleTreeV1.validateWithEmptyRoots
  rw [if_neg (by simpa [treeOf] using hlen), if_neg hinactive]
  split_ifs with hzero hroot hroom
  · rfl
  · refine absurd ?_ hroot
    obtain rfl : leaves = [] := List.length_eq_zero_iff.mp hzero
    simp [treeOf]
  · have hreach := rootLoop_spec (f := (treeOf parent e depth leaves).frontier) parent e (fun _ => rfl) hroom depth 0 (by omega) (by omega)
    have hstart : node parent (pad e leaves) 0 (leaves.length / 2 ^ 0) = emptyRoot parent e 0 := by
      rw [node, pow_zero, Nat.div_one, pad_of_le e le_rfl, emptyRoot]
    rw [hstart] at hreach
    have hne : ¬ (treeOf parent e depth leaves).nextLeafIndex ≥ 2 ^ depth := by omega
    have hmatch : ¬ rootLoop parent (emptyRoot parent e) (treeOf parent e depth leaves).nextLeafIndex
        (treeOf parent e depth leaves).frontier depth 0 (emptyRoot parent e 0) ≠
          (treeOf parent e depth leaves).root := not_not.mpr hreach
    rw [IncrementalMerkleTreeV1.reconstructNonfullRootFromLevel, if_neg hne, if_neg (by omega)]
    exact if_neg hmatch
  · rfl

theorem appendOneValidated_treeOf {leaves : List D} (x : D) (hroom : leaves.length < 2 ^ depth) :
    appendOneValidated parent (emptyRoot parent e) (treeOf parent e depth leaves) x =
      .ok (treeOf parent e depth (leaves ++ [x]),
        ⟨leaves.length, leaves.length + 1, MerkleTree.root parent e depth (leaves ++ [x]),
          rootHistoryLocation (leaves.length + 1)⟩) := by
  have hne : ¬ (treeOf parent e depth leaves).nextLeafIndex = 2 ^ depth := by
    simp only [treeOf]
    omega
  rw [appendOneValidated, if_neg hne, carryAppend_treeOf parent e hroom]

end Spec

/-! ### Appending a list -/

section Append
variable {D : Type} [DecidableEq D] {depth : ℕ} (parent : D → D → D) (e : D)

open MerkleTree

def IncrementalMerkleTreeV1.empty (depth : ℕ) : IncrementalMerkleTreeV1 D depth :=
  ⟨0, emptyRoot parent e depth, fun level => emptyRoot parent e level⟩

/-- Append the leaves one at a time. -/
def appendEach (t : IncrementalMerkleTreeV1 D depth) (leaves : List D) :
    Except PoolV1TreeError (IncrementalMerkleTreeV1 D depth) :=
  leaves.foldlM (fun t leaf => do
    let (next, _) ← appendOneWithEmptyRoots parent (emptyRoot parent e) t leaf
    return next) t

omit [DecidableEq D] in
theorem treeOf_nil : treeOf parent e depth [] = IncrementalMerkleTreeV1.empty parent e depth := by
  refine IncrementalMerkleTreeV1.ext rfl (root_nil parent e depth) (funext fun level => ?_)
  change MerkleTree.frontier parent e [] level = emptyRoot parent e level
  simp [MerkleTree.frontier]

theorem appendOneWithEmptyRoots_treeOf {leaves : List D} (x : D) (hroom : leaves.length < 2 ^ depth) :
    appendOneWithEmptyRoots parent (emptyRoot parent e) (treeOf parent e depth leaves) x =
      .ok (treeOf parent e depth (leaves ++ [x]),
        ⟨leaves.length, leaves.length + 1, MerkleTree.root parent e depth (leaves ++ [x]),
          rootHistoryLocation (leaves.length + 1)⟩) := by
  rw [appendOneWithEmptyRoots, validate_treeOf parent e hroom.le]
  exact appendOneValidated_treeOf parent e x hroom

theorem appendEach_treeOf (leaves : List D) :
    ∀ {before : List D}, before.length + leaves.length ≤ 2 ^ depth →
      appendEach parent e (treeOf parent e depth before) leaves = .ok (treeOf parent e depth (before ++ leaves)) := by
  induction leaves with
  | nil =>
    intro before _
    rw [List.append_nil]
    rfl
  | cons x leaves ih =>
    intro before hlen
    rw [List.length_cons] at hlen
    have hfirst := appendOneWithEmptyRoots_treeOf parent e x (show before.length < 2 ^ depth by omega)
    have hrest := @ih (before ++ [x]) (by rw [List.length_append, List.length_singleton]; omega)
    rw [List.append_assoc, List.singleton_append] at hrest
    rw [← hrest]
    simp only [appendEach, List.foldlM_cons, hfirst]
    rfl

theorem appendOneWithEmptyRoots_full {leaves : List D} (x : D) (hfull : leaves.length = 2 ^ depth) :
    appendOneWithEmptyRoots parent (emptyRoot parent e) (treeOf parent e depth leaves) x = .error .treeFull := by
  rw [appendOneWithEmptyRoots, validate_treeOf parent e hfull.le]
  exact if_pos hfull

/-- Two leaves at once are the two single appends, if there is room for both. -/
theorem appendTwoWithEmptyRoots_treeOf {leaves : List D} (x y : D) (hroom : leaves.length + 2 ≤ 2 ^ depth) :
    appendTwoWithEmptyRoots parent (emptyRoot parent e) (treeOf parent e depth leaves) x y = (do
      let (afterFirst, first) ← appendOneWithEmptyRoots parent (emptyRoot parent e) (treeOf parent e depth leaves) x
      let (afterSecond, second) ← appendOneWithEmptyRoots parent (emptyRoot parent e) afterFirst y
      return (afterSecond, ⟨first, second⟩)) := by
  have hlen : (treeOf parent e depth leaves).nextLeafIndex = leaves.length := rfl
  have hnext : (leaves ++ [x]).length < 2 ^ depth := by rw [List.length_append, List.length_singleton]; omega
  rw [appendTwoWithEmptyRoots, validate_treeOf parent e (by omega), appendOneWithEmptyRoots_treeOf parent e x (by omega)]
  change appendTwoValidated parent (emptyRoot parent e) (treeOf parent e depth leaves) x y = (do
    let (afterSecond, second) ← appendOneWithEmptyRoots parent (emptyRoot parent e) (treeOf parent e depth (leaves ++ [x])) y
    return (afterSecond, ⟨_, second⟩))
  rw [appendTwoValidated, if_neg (by omega), if_neg (by omega), appendOneValidated_treeOf parent e x (by omega),
    appendOneWithEmptyRoots_treeOf parent e y hnext]
  change (appendOneValidated parent (emptyRoot parent e) (treeOf parent e depth (leaves ++ [x])) y >>= fun z =>
    pure (z.1, AppendTwoV1.mk _ z.2)) = _
  rw [appendOneValidated_treeOf parent e y hnext]

theorem appendTwoWithEmptyRoots_no_room {leaves : List D} (x y : D) (hlen : leaves.length ≤ 2 ^ depth)
    (hroom : 2 ^ depth < leaves.length + 2) :
    appendTwoWithEmptyRoots parent (emptyRoot parent e) (treeOf parent e depth leaves) x y =
      .error .insufficientCapacity := by
  have hindex : (treeOf parent e depth leaves).nextLeafIndex = leaves.length := rfl
  rw [appendTwoWithEmptyRoots, validate_treeOf parent e hlen]
  change appendTwoValidated parent (emptyRoot parent e) (treeOf parent e depth leaves) x y = _
  rw [appendTwoValidated, if_neg (by omega), if_pos (by omega)]

/-- The tree after any number of single appends, up to a full tree: its root is that of the padded leaf list, each slot
of its frontier is the complete block it stands for or empty, and further appends add leaves while there is room. -/
theorem append_leaves_gives_padded_tree (leaves : List D) (hlen : leaves.length ≤ 2 ^ 20) :
    ∃ t : IncrementalMerkleTreeV1 D 20,
      appendEach parent e (IncrementalMerkleTreeV1.empty parent e 20) leaves = .ok t ∧
      t.nextLeafIndex = leaves.length ∧
      t.root = node parent (pad e leaves) 20 0 ∧
      (∀ h : Fin 20, leaves.length.testBit h = true →
        (leaves.length / 2 ^ (h : ℕ) - 1 + 1) * 2 ^ (h : ℕ) ≤ leaves.length ∧
          t.frontier h = node parent (pad e leaves) h (leaves.length / 2 ^ (h : ℕ) - 1)) ∧
      (∀ h : Fin 20, leaves.length.testBit h = false → t.frontier h = emptyRoot parent e h) ∧
      (leaves.length = 2 ^ 20 → ∀ x,
        appendOneWithEmptyRoots parent (emptyRoot parent e) t x = .error .treeFull) ∧
      (∀ x y, leaves.length + 2 ≤ 2 ^ 20 →
        appendTwoWithEmptyRoots parent (emptyRoot parent e) t x y = (do
          let (afterFirst, first) ← appendOneWithEmptyRoots parent (emptyRoot parent e) t x
          let (afterSecond, second) ← appendOneWithEmptyRoots parent (emptyRoot parent e) afterFirst y
          return (afterSecond, ⟨first, second⟩))) ∧
      (∀ x y, 2 ^ 20 < leaves.length + 2 →
        appendTwoWithEmptyRoots parent (emptyRoot parent e) t x y = .error .insufficientCapacity) := by
  refine ⟨treeOf parent e 20 leaves, ?_, rfl, rfl, ?_, ?_, ?_, ?_, ?_⟩
  · have hall := @appendEach_treeOf D _ 20 parent e leaves [] (by simpa using hlen)
    rwa [treeOf_nil, List.nil_append] at hall
  · intro h hbit
    have hodd := (testBit_iff_odd _ _).mp hbit
    constructor
    · rw [Nat.sub_add_cancel (by omega)]
      exact Nat.div_mul_le_self _ _
    · exact if_pos hbit
  · intro h hbit
    exact if_neg (by simp [hbit])
  · exact fun hfull x => appendOneWithEmptyRoots_full parent e x hfull
  · exact fun x y hroom => appendTwoWithEmptyRoots_treeOf parent e x y hroom
  · exact fun x y hroom => appendTwoWithEmptyRoots_no_room parent e x y hlen hroom

theorem append_three_leaves_root : ∃ t : IncrementalMerkleTreeV1 ℕ 20,
    appendEach (fun a b => 2 * a + 3 * b) 0 (IncrementalMerkleTreeV1.empty (fun a b => 2 * a + 3 * b) 0 20) [1, 2, 3] = .ok t ∧
      t.root = node (fun a b => 2 * a + 3 * b) (pad 0 [1, 2, 3]) 20 0 := by
  obtain ⟨t, happend, _, hroot, _⟩ := append_leaves_gives_padded_tree (fun a b => 2 * a + 3 * b) 0 [1, 2, 3] (by decide)
  exact ⟨t, happend, hroot⟩

end Append

end Aspis.Statement
