import Aspis.Forest.LaneLog
import Aspis.Pool.SampleDeployment

/-! The three append routines as the source writes them: a `while` loop over the
carry and a `for` loop over the levels above it, each routine with its own guards.
They are the carry construction of the model, they agree with each other on every
valid tree, and they keep the tree valid whatever leaves it was built from. -/

namespace Aspis.Statement

open Lib MerkleTree

/-! ### The loops -/

/-- The variables of the carry loop. -/
structure CarryVariables (D : Type) (depth : ℕ) where
  frontier : Fin depth → D
  carry : D
  carryLevel : ℕ

section Loops
variable {D : Type} {depth : ℕ} (parent : D → D → D) (empty : ℕ → D)

/-- `while carry_level < DEPTH && (leaf_index >> carry_level) & 1 == 1`. -/
def carryWhile (leafIndex : ℕ) (s : CarryVariables D depth) : CarryVariables D depth :=
  if h : s.carryLevel < depth ∧ leafIndex >>> s.carryLevel &&& 1 = 1 then
    carryWhile leafIndex
      ⟨Function.update s.frontier ⟨s.carryLevel, h.1⟩ (empty s.carryLevel),
        parent (s.frontier ⟨s.carryLevel, h.1⟩) s.carry, s.carryLevel + 1⟩
  else s
termination_by depth - s.carryLevel

/-- `for level in start..DEPTH`, climbing from `node`. -/
def rootFor (nextLeafIndex : ℕ) (frontier : Fin depth → D) (start : ℕ) (node : D) : D :=
  ((List.finRange depth).drop start).foldl
    (fun node (level : Fin depth) =>
      if nextLeafIndex >>> (level : ℕ) &&& 1 = 0 then parent node (empty level)
      else parent (frontier level) node)
    node

/-- The common body of the two routines that skip revalidation. -/
def uncheckedAppend (source : IncrementalMerkleTreeV1 D depth) (leaf : D) :
    IncrementalMerkleTreeV1 D depth × AppendOneV1 D :=
  let leafIndex := source.nextLeafIndex
  let s := carryWhile parent empty leafIndex ⟨source.frontier, leaf, 0⟩
  let nextLeafIndex := leafIndex + 1
  let frontier :=
    if h : s.carryLevel < depth then Function.update s.frontier ⟨s.carryLevel, h⟩ s.carry
    else s.frontier
  let root :=
    if s.carryLevel = depth then s.carry
    else rootFor parent empty nextLeafIndex frontier s.carryLevel (empty s.carryLevel)
  (⟨nextLeafIndex, root, frontier⟩,
    ⟨leafIndex, nextLeafIndex, root, rootHistoryLocation nextLeafIndex⟩)

/-- The append of a sealed tree: the new root comes from the checked reconstruction
of a provisional tree whose own root is zero. -/
def sealedAppendOne (zero : D) (inner : IncrementalMerkleTreeV1 D depth) (leaf : D) :
    Except PoolV1TreeError (IncrementalMerkleTreeV1 D depth × AppendOneV1 D) := do
  if inner.nextLeafIndex = 2 ^ depth then
    throw .treeFull
  let leafIndex := inner.nextLeafIndex
  let s := carryWhile parent empty leafIndex ⟨inner.frontier, leaf, 0⟩
  let nextLeafIndex := leafIndex + 1
  let frontier :=
    if h : s.carryLevel < depth then Function.update s.frontier ⟨s.carryLevel, h⟩ s.carry
    else s.frontier
  let root ←
    if s.carryLevel = depth then pure s.carry
    else
      let provisional : IncrementalMerkleTreeV1 D depth := ⟨nextLeafIndex, zero, frontier⟩
      provisional.reconstructNonfullRootFromLevel parent empty s.carryLevel
  return (⟨nextLeafIndex, root, frontier⟩,
    ⟨leafIndex, nextLeafIndex, root, rootHistoryLocation nextLeafIndex⟩)

/-- The public append: the whole tree is validated first. -/
def checkedAppendOne [DecidableEq D] (zero : D) (t : IncrementalMerkleTreeV1 D depth) (leaf : D) :
    Except PoolV1TreeError (IncrementalMerkleTreeV1 D depth × AppendOneV1 D) := do
  t.validateWithEmptyRoots parent empty
  sealedAppendOne parent empty zero t leaf

/-! ### The loops are the model's -/

theorem shift_and_one_eq_one_iff (n level : ℕ) : n >>> level &&& 1 = 1 ↔ n.testBit level = true := by
  rw [Nat.testBit, Nat.and_comm]
  simp

theorem shift_and_one_eq_zero_iff (n level : ℕ) : n >>> level &&& 1 = 0 ↔ n.testBit level = false := by
  rw [Nat.testBit, Nat.and_comm]
  simp

theorem carryLoop_eq_carryWhile (leafIndex fuel : ℕ) :
    ∀ s : CarryVariables D depth, depth ≤ fuel + s.carryLevel →
      carryLoop parent empty leafIndex fuel s.carryLevel s.frontier s.carry =
        ((carryWhile parent empty leafIndex s).carryLevel,
          (carryWhile parent empty leafIndex s).frontier, (carryWhile parent empty leafIndex s).carry) := by
  induction fuel with
  | zero =>
    intro s hfuel
    have hstop : ¬ (s.carryLevel < depth ∧ leafIndex >>> s.carryLevel &&& 1 = 1) := by omega
    rw [carryWhile, dif_neg hstop, carryLoop]
  | succ fuel ih =>
    intro s hfuel
    rw [carryWhile, carryLoop]
    by_cases hgo : s.carryLevel < depth ∧ leafIndex.testBit s.carryLevel = true
    · have hgo' : s.carryLevel < depth ∧ leafIndex >>> s.carryLevel &&& 1 = 1 :=
        ⟨hgo.1, (shift_and_one_eq_one_iff _ _).mpr hgo.2⟩
      rw [dif_pos hgo, dif_pos hgo']
      exact ih ⟨_, _, s.carryLevel + 1⟩ (by dsimp only; omega)
    · have hgo' : ¬ (s.carryLevel < depth ∧ leafIndex >>> s.carryLevel &&& 1 = 1) := by
        rwa [shift_and_one_eq_one_iff]
      rw [dif_neg hgo, dif_neg hgo']

theorem drop_finRange {level : ℕ} (hlt : level < depth) :
    (List.finRange depth).drop level = ⟨level, hlt⟩ :: (List.finRange depth).drop (level + 1) := by
  rw [List.drop_eq_getElem_cons (by rw [List.length_finRange]; exact hlt), List.getElem_finRange]
  rfl

theorem rootLoop_eq_rootFor (nextLeafIndex : ℕ) (frontier : Fin depth → D) (fuel : ℕ) :
    ∀ (start : ℕ) (node : D), depth ≤ fuel + start →
      rootLoop parent empty nextLeafIndex frontier fuel start node =
        rootFor parent empty nextLeafIndex frontier start node := by
  induction fuel with
  | zero =>
    intro start node hfuel
    rw [rootLoop, rootFor, List.drop_eq_nil_of_le (by rw [List.length_finRange]; omega), List.foldl_nil]
  | succ fuel ih =>
    intro start node hfuel
    rw [rootLoop]
    by_cases hlt : start < depth
    · rw [dif_pos hlt, ih _ _ (by omega), rootFor, rootFor, drop_finRange hlt, List.foldl_cons]
      congr 1
      by_cases hbit : nextLeafIndex.testBit start = true
      · have hne : ¬ nextLeafIndex >>> start &&& 1 = 0 := by
          rw [shift_and_one_eq_zero_iff, hbit]
          decide
        rw [if_pos hbit, if_neg hne]
      · have heq : nextLeafIndex >>> start &&& 1 = 0 := by
          rw [shift_and_one_eq_zero_iff]
          simpa using hbit
        rw [if_neg hbit, if_pos heq]
    · rw [dif_neg hlt, rootFor, List.drop_eq_nil_of_le (by rw [List.length_finRange]; omega), List.foldl_nil]

theorem uncheckedAppend_eq (t : IncrementalMerkleTreeV1 D depth) (leaf : D) :
    uncheckedAppend parent empty t leaf = carryAppend parent empty t leaf := by
  have hcarry := carryLoop_eq_carryWhile parent empty t.nextLeafIndex depth ⟨t.frontier, leaf, 0⟩ (by simp)
  unfold carryAppend uncheckedAppend
  dsimp only at hcarry ⊢
  rw [hcarry]
  simp only [rootLoop_eq_rootFor parent empty _ _ depth _ _ (Nat.le_add_right _ _)]

/-! ### What the carry loop leaves -/

/-- The state in which the carry loop stops: the slots below are cleared, the others are
untouched, and every bit of the leaf index below the level is one. -/
structure CarryStopped (leafIndex : ℕ) (frontier : Fin depth → D) (s : CarryVariables D depth) : Prop where
  level_le : s.carryLevel ≤ depth
  low_ones : ∀ j < s.carryLevel, leafIndex.testBit j = true
  stopped : s.carryLevel < depth → leafIndex.testBit s.carryLevel = false
  cleared : ∀ h : Fin depth, (h : ℕ) < s.carryLevel → s.frontier h = empty h
  untouched : ∀ h : Fin depth, s.carryLevel ≤ (h : ℕ) → s.frontier h = frontier h

theorem carryWhile_stopped (leafIndex : ℕ) (frontier : Fin depth → D) (s : CarryVariables D depth)
    (hle : s.carryLevel ≤ depth) (hlow : ∀ j < s.carryLevel, leafIndex.testBit j = true)
    (hcleared : ∀ h : Fin depth, (h : ℕ) < s.carryLevel → s.frontier h = empty h)
    (huntouched : ∀ h : Fin depth, s.carryLevel ≤ (h : ℕ) → s.frontier h = frontier h) :
    CarryStopped empty leafIndex frontier (carryWhile parent empty leafIndex s) := by
  fun_induction carryWhile parent empty leafIndex s with
  | case1 s h ih =>
    apply ih
    · exact h.1
    · intro j hj
      by_cases heq : j = s.carryLevel
      · rw [heq]
        exact (shift_and_one_eq_one_iff _ _).mp h.2
      · exact hlow j (by dsimp only at hj; omega)
    · intro level hlevel
      dsimp only at hlevel ⊢
      by_cases heq : level = ⟨s.carryLevel, h.1⟩
      · rw [heq, Function.update_self]
      · rw [Function.update_of_ne heq]
        rw [Fin.ext_iff] at heq
        exact hcleared level (by dsimp only at heq; omega)
    · intro level hlevel
      dsimp only at hlevel ⊢
      have hne : level ≠ ⟨s.carryLevel, h.1⟩ := by
        rw [ne_eq, Fin.ext_iff]
        dsimp only
        omega
      rw [Function.update_of_ne hne]
      exact huntouched level (by omega)
  | case2 s h =>
    refine ⟨hle, hlow, fun hlt => ?_, hcleared, huntouched⟩
    rw [shift_and_one_eq_one_iff] at h
    simpa [hlt] using h

variable {empty} {leafIndex : ℕ} {frontier : Fin depth → D} {s : CarryVariables D depth}

/-- The carry went through every level exactly when the leaf was the last one. -/
theorem CarryStopped.level_eq_depth_iff (hs : CarryStopped empty leafIndex frontier s)
    (hroom : leafIndex < 2 ^ depth) : s.carryLevel = depth ↔ leafIndex + 1 = 2 ^ depth := by
  constructor
  · intro heq
    have hdiv := div_succ_of_low_ones hs.low_ones
    rw [heq, Nat.div_eq_of_lt hroom] at hdiv
    have hle := Nat.div_mul_le_self (leafIndex + 1) (2 ^ depth)
    rw [hdiv] at hle
    omega
  · intro hlast
    by_contra hne
    have hlt : s.carryLevel < depth := lt_of_le_of_ne hs.level_le hne
    have hdiv := div_succ_of_zero hs.low_ones (hs.stopped hlt) hlt
    rw [hlast, Nat.div_self (Nat.two_pow_pos depth), Nat.div_eq_of_lt hroom] at hdiv
    omega

/-- Below the carry level every bit of the next index is zero. -/
theorem CarryStopped.testBit_low (hs : CarryStopped empty leafIndex frontier s) {j : ℕ} (hj : j < s.carryLevel) :
    (leafIndex + 1).testBit j = false := by
  have hdiv := div_succ_of_low_ones fun i hi => hs.low_ones i (hi.trans hj)
  have hdiv' := div_succ_of_low_ones (k := j + 1) fun i hi => hs.low_ones i (by omega)
  have hodd := (testBit_iff_odd _ _).mp (hs.low_ones j hj)
  rw [not_testBit_iff_even, hdiv, hdiv']
  omega

/-- At the carry level the bit of the next index is one. -/
theorem CarryStopped.testBit_level (hs : CarryStopped empty leafIndex frontier s) (hlt : s.carryLevel < depth) :
    (leafIndex + 1).testBit s.carryLevel = true := by
  have hdiv := div_succ_of_low_ones hs.low_ones
  have hdiv' := div_succ_of_zero hs.low_ones (hs.stopped hlt) (Nat.lt_add_one s.carryLevel)
  have heven := (not_testBit_iff_even _ _).mp (hs.stopped hlt)
  rw [testBit_iff_odd, hdiv, hdiv']
  omega

/-- Above the carry level the bits of the index do not change. -/
theorem CarryStopped.testBit_high (hs : CarryStopped empty leafIndex frontier s) (hlt : s.carryLevel < depth)
    {j : ℕ} (hj : s.carryLevel < j) : (leafIndex + 1).testBit j = leafIndex.testBit j := by
  have hdiv := div_succ_of_zero hs.low_ones (hs.stopped hlt) hj
  rw [Nat.testBit_eq_decide_div_mod_eq, Nat.testBit_eq_decide_div_mod_eq, hdiv]

/-- The frontier after the carry has been stored: its inactive slots are empty. -/
theorem CarryStopped.inactive_empty (hs : CarryStopped empty leafIndex frontier s)
    (hinactive : ∀ h : Fin depth, leafIndex.testBit h = false → frontier h = empty h)
    (h : Fin depth) (hbit : (leafIndex + 1).testBit h = false) :
    (if hlt : s.carryLevel < depth then Function.update s.frontier ⟨s.carryLevel, hlt⟩ s.carry
      else s.frontier) h = empty h := by
  by_cases hlow : (h : ℕ) < s.carryLevel
  · by_cases hlt : s.carryLevel < depth
    · have hne : h ≠ ⟨s.carryLevel, hlt⟩ := by
        rw [ne_eq, Fin.ext_iff]
        exact hlow.ne
      rw [dif_pos hlt, Function.update_of_ne hne]
      exact hs.cleared h hlow
    · rw [dif_neg hlt]
      exact hs.cleared h hlow
  · have hlt : s.carryLevel < depth := (not_lt.mp hlow).trans_lt h.isLt
    by_cases heq : (h : ℕ) = s.carryLevel
    · rw [heq, hs.testBit_level hlt] at hbit
      cases hbit
    · have hne : h ≠ ⟨s.carryLevel, hlt⟩ := by rwa [ne_eq, Fin.ext_iff]
      have hhigh : s.carryLevel < (h : ℕ) := by omega
      rw [hs.testBit_high hlt hhigh] at hbit
      rw [dif_pos hlt, Function.update_of_ne hne, hs.untouched h hhigh.le]
      exact hinactive h hbit

/-- Climbing from the leaves through zero bits only meets empty subtrees. -/
theorem rootFor_of_zero_bits (htable : ∀ level, empty (level + 1) = parent (empty level) (empty level))
    (nextLeafIndex : ℕ) (frontier : Fin depth → D) :
    ∀ level ≤ depth, (∀ j < level, nextLeafIndex.testBit j = false) →
      rootFor parent empty nextLeafIndex frontier 0 (empty 0) =
        rootFor parent empty nextLeafIndex frontier level (empty level) := by
  intro level
  induction level with
  | zero => exact fun _ _ => rfl
  | succ level ih =>
    intro hle hzero
    have hstep : nextLeafIndex >>> level &&& 1 = 0 :=
      (shift_and_one_eq_zero_iff _ _).mpr (hzero level (Nat.lt_succ_self level))
    have hlt : level < depth := hle
    rw [ih hlt.le fun j hj => hzero j (hj.trans (Nat.lt_succ_self level)), rootFor,
      drop_finRange hlt, List.foldl_cons, if_pos hstep, ← htable, rootFor]

/-! ### The routines agree -/

variable (t : IncrementalMerkleTreeV1 D depth) (leaf : D)

variable (empty) in
/-- The loop variables at the end of an append to `t`. -/
def carried : CarryVariables D depth := carryWhile parent empty t.nextLeafIndex ⟨t.frontier, leaf, 0⟩

variable (empty) in
theorem carried_stopped : CarryStopped empty t.nextLeafIndex t.frontier (carried parent empty t leaf) :=
  carryWhile_stopped parent empty t.nextLeafIndex t.frontier ⟨t.frontier, leaf, 0⟩ (Nat.zero_le depth)
    (fun _ hj => absurd hj (Nat.not_lt_zero _)) (fun _ hh => absurd hh (Nat.not_lt_zero _)) (fun _ _ => rfl)

variable (empty) in
theorem sealedAppendOne_eq (zero : D) (hroom : t.nextLeafIndex < 2 ^ depth) :
    sealedAppendOne parent empty zero t leaf = .ok (uncheckedAppend parent empty t leaf) := by
  have hs := carried_stopped parent empty t leaf
  unfold carried at hs
  unfold sealedAppendOne uncheckedAppend
  rw [if_neg hroom.ne]
  dsimp only
  by_cases hstop : (carryWhile parent empty t.nextLeafIndex ⟨t.frontier, leaf, 0⟩).carryLevel = depth
  · rw [if_pos hstop, if_pos hstop]
    rfl
  · have hnext : ¬ t.nextLeafIndex + 1 ≥ 2 ^ depth := by
      have hlast := mt (hs.level_eq_depth_iff hroom).mpr hstop
      omega
    rw [if_neg hstop, if_neg hstop, IncrementalMerkleTreeV1.reconstructNonfullRootFromLevel, if_neg hnext,
      if_neg (not_lt.mpr hs.level_le), rootLoop_eq_rootFor parent empty _ _ depth _ _ (Nat.le_add_right _ _)]
    rfl

variable {t} [DecidableEq D]

/-- What the complete check of a tree says, its root included. -/
theorem validateWithEmptyRoots_eq_ok_iff : t.validateWithEmptyRoots parent empty = .ok () ↔
    t.nextLeafIndex ≤ 2 ^ depth ∧
      (∀ level : Fin depth, t.nextLeafIndex.testBit level = false → t.frontier level = empty level) ∧
      (t.nextLeafIndex = 0 → t.root = empty depth) ∧
      (t.nextLeafIndex ≠ 0 → t.nextLeafIndex < 2 ^ depth →
        rootFor parent empty t.nextLeafIndex t.frontier 0 (empty 0) = t.root) := by
  have hreach : t.nextLeafIndex < 2 ^ depth → t.reconstructNonfullRootFromLevel parent empty 0 =
      .ok (rootFor parent empty t.nextLeafIndex t.frontier 0 (empty 0)) := by
    intro hroom
    rw [IncrementalMerkleTreeV1.reconstructNonfullRootFromLevel, if_neg (not_le.mpr hroom), if_neg (by omega),
      rootLoop_eq_rootFor parent empty _ _ depth _ _ (Nat.le_add_right _ _)]
  unfold IncrementalMerkleTreeV1.validateWithEmptyRoots
  by_cases hindex : t.nextLeafIndex > 2 ^ depth
  · rw [if_pos hindex]
    simp [hindex.not_ge]
  rw [if_neg hindex]
  by_cases hinactive : ∃ level : Fin depth, t.nextLeafIndex.testBit level = false ∧ t.frontier level ≠ empty level
  · rw [if_pos hinactive]
    obtain ⟨level, hbit, hne⟩ := hinactive
    simp only [reduceCtorEq, false_iff]
    exact fun h => hne (h.2.1 level hbit)
  rw [if_neg hinactive]
  push Not at hinactive
  by_cases hzero : t.nextLeafIndex = 0
  · rw [if_pos hzero]
    by_cases hroot : t.root = empty depth
    · rw [if_pos hroot]
      exact ⟨fun _ => ⟨not_lt.mp hindex, hinactive, fun _ => hroot, fun hne => absurd hzero hne⟩, fun _ => rfl⟩
    · rw [if_neg hroot]
      simp only [reduceCtorEq, false_iff]
      exact fun h => hroot (h.2.2.1 hzero)
  rw [if_neg hzero]
  by_cases hroom : t.nextLeafIndex < 2 ^ depth
  · rw [if_pos hroom, hreach hroom]
    dsimp only
    by_cases hroot : rootFor parent empty t.nextLeafIndex t.frontier 0 (empty 0) = t.root
    · rw [if_neg (not_not.mpr hroot)]
      exact ⟨fun _ => ⟨not_lt.mp hindex, hinactive, fun h => absurd h hzero, fun _ _ => hroot⟩, fun _ => rfl⟩
    · rw [if_pos hroot]
      simp only [reduceCtorEq, false_iff]
      exact fun h => hroot (h.2.2.2 hzero hroom)
  · rw [if_neg hroom]
    exact ⟨fun _ => ⟨not_lt.mp hindex, hinactive, fun h => absurd h hzero, fun _ h => absurd h hroom⟩, fun _ => rfl⟩

/-- An append to a valid tree with room gives a valid tree, for every leaf. -/
theorem uncheckedAppend_valid (htable : ∀ level, empty (level + 1) = parent (empty level) (empty level))
    (hvalid : t.validateWithEmptyRoots parent empty = .ok ()) (hroom : t.nextLeafIndex < 2 ^ depth) :
    (uncheckedAppend parent empty t leaf).1.validateWithEmptyRoots parent empty = .ok () := by
  have hs := carried_stopped parent empty t leaf
  obtain ⟨-, hinactive, -, -⟩ := (validateWithEmptyRoots_eq_ok_iff parent).mp hvalid
  unfold carried at hs
  unfold uncheckedAppend
  dsimp only
  rw [validateWithEmptyRoots_eq_ok_iff]
  dsimp only
  refine ⟨hroom, hs.inactive_empty hinactive, fun hzero => absurd hzero (Nat.succ_ne_zero _), fun _ hnext => ?_⟩
  -- the tree is not full, so the carry stopped at a dead slot
  have hstop : (carryWhile parent empty t.nextLeafIndex ⟨t.frontier, leaf, 0⟩).carryLevel ≠ depth :=
    mt (hs.level_eq_depth_iff hroom).mp hnext.ne
  rw [if_neg hstop]
  exact rootFor_of_zero_bits parent htable _ _ _ hs.level_le fun j hj => hs.testBit_low hj

variable (t empty) in
theorem sealedAppendOne_full (zero : D) (hfull : t.nextLeafIndex = 2 ^ depth) :
    sealedAppendOne parent empty zero t leaf = .error .treeFull := by
  unfold sealedAppendOne
  rw [if_pos hfull]
  rfl

end Loops

/-! ### Canonical digests -/

section Canonical
variable {D : Type} {depth : ℕ} {parent : D → D → D} {empty : ℕ → D} {C : D → Prop}

theorem carryWhile_closed (hparent : ∀ a b, C (parent a b)) (hempty : ∀ level, C (empty level)) (leafIndex : ℕ)
    (s : CarryVariables D depth) (hcarry : C s.carry) (hfrontier : ∀ level, C (s.frontier level)) :
    C (carryWhile parent empty leafIndex s).carry ∧
      ∀ level, C ((carryWhile parent empty leafIndex s).frontier level) := by
  fun_induction carryWhile parent empty leafIndex s with
  | case1 s h ih =>
    apply ih
    · exact hparent _ _
    · intro level
      dsimp only
      by_cases heq : level = ⟨s.carryLevel, h.1⟩
      · rw [heq, Function.update_self]
        exact hempty _
      · rw [Function.update_of_ne heq]
        exact hfrontier level
  | case2 s h => exact ⟨hcarry, hfrontier⟩

theorem rootFor_closed (hparent : ∀ a b, C (parent a b)) (nextLeafIndex : ℕ) (frontier : Fin depth → D)
    (start : ℕ) {node : D} (hnode : C node) : C (rootFor parent empty nextLeafIndex frontier start node) := by
  unfold rootFor
  generalize (List.finRange depth).drop start = levels
  induction levels generalizing node with
  | nil => exact hnode
  | cons level levels ih =>
    rw [List.foldl_cons]
    apply ih
    split_ifs
    · exact hparent _ _
    · exact hparent _ _

/-- A property of digests that the leaf has and the hash always gives holds of the whole next tree. -/
theorem uncheckedAppend_closed (hparent : ∀ a b, C (parent a b)) (hempty : ∀ level, C (empty level))
    {t : IncrementalMerkleTreeV1 D depth} {leaf : D} (hfrontier : ∀ level, C (t.frontier level)) (hleaf : C leaf) :
    C (uncheckedAppend parent empty t leaf).1.root ∧
      ∀ level, C ((uncheckedAppend parent empty t leaf).1.frontier level) := by
  obtain ⟨hcarry, hcleared⟩ := carryWhile_closed hparent hempty t.nextLeafIndex ⟨t.frontier, leaf, 0⟩ hleaf hfrontier
  unfold uncheckedAppend
  dsimp only
  constructor
  · split_ifs
    · exact hcarry
    · exact rootFor_closed hparent _ _ _ (hempty _)
    · exact rootFor_closed hparent _ _ _ (hempty _)
  · intro level
    split_ifs with hlt
    · by_cases heq : level = ⟨_, hlt⟩
      · rw [heq, Function.update_self]
        exact hcarry
      · rw [Function.update_of_ne heq]
        exact hcleared level
    · exact hcleared level

end Canonical

end Aspis.Statement

namespace Aspis.Forest.UncheckedAppend

open Lib Chain Statement Pool

variable (env : Environment)

/-! ### The routines of the program -/

/-- The single-leaf append of the pool, over its own empty roots. -/
def appendOneFromProgramInvariant (source : PoolTree) (leaf : Digest) :
    Except ProgramError (PoolTree × AppendOneV1 Digest) := do
  require (source.nextLeafIndex ≠ POOL_V1_LEAF_CAPACITY) (.custom .treeFull)
  require (source.nextLeafIndex + 1 < U64_LIMIT) (.custom .arithmeticOverflow)
  return uncheckedAppend env.treeParent env.emptyRoots source leaf

/-- The pair-leaf append of the forest, over the pair empty roots. -/
def appendPairLeafFromProgramInvariantV1 (source : PoolTree) (pairLeaf : Digest) :
    Except ProgramError (PoolTree × AppendOneV1 Digest) := do
  require (source.nextLeafIndex < POOL_V1_PAIR_CAPACITY) (.custom .treeFull)
  require (DigestIsCanonical pairLeaf) (.custom .nonCanonicalLeaf)
  require (source.nextLeafIndex + 1 < U64_LIMIT) (.custom .arithmeticOverflow)
  return uncheckedAppend env.treeParent (pairEmptyRoots env) source pairLeaf

/-- The validated append with the pool's table. -/
def appendOneWithPoolRoots (t : PoolTree) (leaf : Digest) : Except PoolV1TreeError (PoolTree × AppendOneV1 Digest) :=
  checkedAppendOne env.treeParent env.emptyRoots Digest.zero t leaf

/-- The validated append with the table of empty pairs. -/
def appendOneWithPairRoots (t : PoolTree) (leaf : Digest) : Except PoolV1TreeError (PoolTree × AppendOneV1 Digest) :=
  checkedAppendOne env.treeParent (pairEmptyRoots env) Digest.zero t leaf

variable {env}

theorem succ_lt_u64 {n : ℕ} (h : n < POOL_V1_LEAF_CAPACITY) : n + 1 < U64_LIMIT := by
  have hcapacity : POOL_V1_LEAF_CAPACITY < U64_LIMIT := by decide
  omega

/-- The pool's routine is the append of the pool model. -/
theorem appendOneFromProgramInvariant_eq (t : PoolTree) (leaf : Digest) :
    appendOneFromProgramInvariant env t leaf = Pool.appendOneFromProgramInvariant env t leaf := by
  unfold appendOneFromProgramInvariant Pool.appendOneFromProgramInvariant
  rw [uncheckedAppend_eq]

/-- The forest's routine is the append of the lane model; its overflow check never fires. -/
theorem appendPairLeafFromProgramInvariantV1_eq (t : PoolTree) (leaf : Digest) :
    appendPairLeafFromProgramInvariantV1 env t leaf = Forest.appendPairLeafFromProgramInvariantV1 env t leaf := by
  unfold appendPairLeafFromProgramInvariantV1 Forest.appendPairLeafFromProgramInvariantV1
  rw [uncheckedAppend_eq]
  by_cases hroom : t.nextLeafIndex < POOL_V1_PAIR_CAPACITY
  · rw [require_of _ hroom, require_of _ (succ_lt_u64 hroom)]
    rfl
  · rw [require, if_neg hroom]
    rfl

theorem emptyRoots_succ (level : ℕ) :
    env.emptyRoots (level + 1) = env.treeParent (env.emptyRoots level) (env.emptyRoots level) := rfl

theorem pairEmptyRoots_succ (level : ℕ) :
    pairEmptyRoots env (level + 1) = env.treeParent (pairEmptyRoots env level) (pairEmptyRoots env level) := rfl

/-- Agreement of one unchecked routine with one validated append at a tree and a leaf: the same next tree and
receipt while there is room, the tree valid and as canonical as before, and both failures on a full tree. -/
structure AppendsAgree (parent : Digest → Digest → Digest) (empty : ℕ → Digest)
    (unchecked : PoolTree → Digest → Except ProgramError (PoolTree × AppendOneV1 Digest))
    (validated : PoolTree → Digest → Except PoolV1TreeError (PoolTree × AppendOneV1 Digest))
    (t : PoolTree) (leaf : Digest) : Prop where
  room : t.nextLeafIndex ≠ POOL_V1_LEAF_CAPACITY → ∃ next receipt,
    unchecked t leaf = .ok (next, receipt) ∧ validated t leaf = .ok (next, receipt) ∧
      next.validateWithEmptyRoots parent empty = .ok () ∧ (CanonicalTree t → CanonicalTree next) ∧
      next.nextLeafIndex = t.nextLeafIndex + 1 ∧ receipt.leafIndex = t.nextLeafIndex ∧
      receipt.rootSequence = next.nextLeafIndex ∧ receipt.root = next.root ∧
      receipt.history = rootHistoryLocation next.nextLeafIndex
  full : t.nextLeafIndex = POOL_V1_LEAF_CAPACITY →
    unchecked t leaf = .error (.custom .treeFull) ∧ validated t leaf = .error .treeFull

/-- One routine at a time: what its guards do decides the rest. -/
theorem appendsAgree_of {empty : ℕ → Digest} (htable : ∀ level, empty (level + 1) = env.treeParent (empty level) (empty level))
    (hempty : ∀ level, DigestIsCanonical (empty level))
    {unchecked : PoolTree → Digest → Except ProgramError (PoolTree × AppendOneV1 Digest)} {t : PoolTree} {leaf : Digest}
    (hroom : t.nextLeafIndex < POOL_V1_LEAF_CAPACITY →
      unchecked t leaf = .ok (uncheckedAppend env.treeParent empty t leaf))
    (hfull : t.nextLeafIndex = POOL_V1_LEAF_CAPACITY → unchecked t leaf = .error (.custom .treeFull))
    (hvalid : t.validateWithEmptyRoots env.treeParent empty = .ok ()) (hleaf : DigestIsCanonical leaf) :
    AppendsAgree env.treeParent empty unchecked (checkedAppendOne env.treeParent empty Digest.zero) t leaf where
  room := by
    intro hne
    have hlt : t.nextLeafIndex < POOL_V1_LEAF_CAPACITY :=
      lt_of_le_of_ne ((validateWithEmptyRoots_eq_ok_iff env.treeParent).mp hvalid).1 hne
    refine ⟨(uncheckedAppend env.treeParent empty t leaf).1, (uncheckedAppend env.treeParent empty t leaf).2,
      hroom hlt, ?_, uncheckedAppend_valid env.treeParent leaf htable hvalid hlt, fun hcanonical => ?_,
      rfl, rfl, rfl, rfl, rfl⟩
    · rw [checkedAppendOne, hvalid]
      exact sealedAppendOne_eq env.treeParent empty t leaf Digest.zero hlt
    · obtain ⟨hroot, hfrontier⟩ := uncheckedAppend_closed env.treeParent_canonical hempty
        hcanonical.frontier_canonical hleaf
      exact ⟨hroot, hfrontier⟩
  full := by
    intro heq
    refine ⟨hfull heq, ?_⟩
    rw [checkedAppendOne, hvalid]
    exact sealedAppendOne_full env.treeParent empty t leaf Digest.zero heq

/-- The appends that skip revalidation agree with the validated append on every valid tree and canonical leaf. -/
theorem unchecked_appends_agree (env : Environment) (t : PoolTree) (leaf : Digest) (hleaf : DigestIsCanonical leaf) :
    (t.validateWithEmptyRoots env.treeParent env.emptyRoots = .ok () →
      AppendsAgree env.treeParent env.emptyRoots (appendOneFromProgramInvariant env) (appendOneWithPoolRoots env) t leaf) ∧
    (t.validateWithEmptyRoots env.treeParent (pairEmptyRoots env) = .ok () →
      AppendsAgree env.treeParent (pairEmptyRoots env) (appendPairLeafFromProgramInvariantV1 env)
        (appendOneWithPairRoots env) t leaf) := by
  constructor
  · intro hvalid
    apply appendsAgree_of emptyRoots_succ env.emptyRoots_canonical _ _ hvalid hleaf
    · intro hroom
      rw [appendOneFromProgramInvariant, require_of _ hroom.ne, require_of _ (succ_lt_u64 hroom)]
      rfl
    · intro hfull
      rw [appendOneFromProgramInvariant, require, if_neg (not_not.mpr hfull)]
      rfl
  · intro hvalid
    apply appendsAgree_of pairEmptyRoots_succ (fun level => env.emptyRoots_canonical (level + 1)) _ _ hvalid hleaf
    · intro hroom
      rw [appendPairLeafFromProgramInvariantV1, require_of _ (show _ < POOL_V1_PAIR_CAPACITY from hroom),
        require_of _ hleaf, require_of _ (succ_lt_u64 hroom)]
      rfl
    · intro hfull
      have hno : ¬ t.nextLeafIndex < POOL_V1_PAIR_CAPACITY := by
        rw [hfull]
        exact lt_irrefl _
      rw [appendPairLeafFromProgramInvariantV1, require, if_neg hno]
      rfl

theorem empty_tree_valid : (env.tree []).validateWithEmptyRoots env.treeParent env.emptyRoots = .ok () :=
  validate_treeOf env.treeParent Digest.zero (Nat.zero_le _)

theorem empty_lane_valid :
    (laneTree env []).validateWithEmptyRoots env.treeParent (pairEmptyRoots env) = .ok () := by
  rw [pairEmptyRoots_eq]
  exact validate_treeOf env.treeParent (env.treeParent Digest.zero Digest.zero) (Nat.zero_le _)

open Pool.Sample in
/-- The first append to an empty tree and to an empty lane. -/
theorem first_appends_agree :
    (∃ next receipt, appendOneFromProgramInvariant environment (environment.tree []) Digest.zero = .ok (next, receipt) ∧
      appendOneWithPoolRoots environment (environment.tree []) Digest.zero = .ok (next, receipt)) ∧
    (∃ next receipt,
      appendPairLeafFromProgramInvariantV1 environment (laneTree environment []) Digest.zero = .ok (next, receipt) ∧
      appendOneWithPairRoots environment (laneTree environment []) Digest.zero = .ok (next, receipt)) := by
  constructor
  · have hagree := (unchecked_appends_agree environment (environment.tree []) Digest.zero
      Environment.zero_canonical).1 empty_tree_valid
    obtain ⟨next, receipt, hunchecked, hvalidated, -⟩ := hagree.room (by decide)
    exact ⟨next, receipt, hunchecked, hvalidated⟩
  · have hagree := (unchecked_appends_agree environment (laneTree environment []) Digest.zero
      Environment.zero_canonical).2 empty_lane_valid
    obtain ⟨next, receipt, hunchecked, hvalidated, -⟩ := hagree.room (by decide)
    exact ⟨next, receipt, hunchecked, hvalidated⟩

end Aspis.Forest.UncheckedAppend
