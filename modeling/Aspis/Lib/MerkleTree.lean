import Mathlib.Data.Nat.Bitwise
import Mathlib.Data.Nat.Size
import Mathlib.Logic.Function.Basic
import Mathlib.Tactic.Linarith
import Mathlib.Tactic.Ring

/-! Complete binary hash trees over an infinite leaf sequence. `node f h i` is
the root of the block of `2 ^ h` leaves starting at `i * 2 ^ h`; a finite list
of leaves is padded with one empty leaf. Nothing is assumed of the parent hash
except where injectivity is named. -/

namespace Aspis.Lib.MerkleTree

variable {D : Type*} (parent : D → D → D)

/-- Roots of the trees all of whose leaves are empty. -/
def emptyRoot (e : D) : ℕ → D
  | 0 => e
  | h + 1 => parent (emptyRoot e h) (emptyRoot e h)

/-- The root of the `i`-th block of height `h`. -/
def node (f : ℕ → D) : ℕ → ℕ → D
  | 0, i => f i
  | h + 1, i => parent (node f h (2 * i)) (node f h (2 * i + 1))

/-- The leaf list padded with the empty leaf. -/
def pad (e : D) (leaves : List D) (i : ℕ) : D := leaves.getD i e

/-- The root of the tree of the given depth over a padded leaf list. -/
def root (e : D) (depth : ℕ) (leaves : List D) : D := node parent (pad e leaves) depth 0

/-- A tree whose leaves are empty pairs is an empty tree of one more level. -/
theorem emptyRoot_parent (e : D) (h : ℕ) : emptyRoot parent (parent e e) h = emptyRoot parent e (h + 1) := by
  induction h with
  | zero => rfl
  | succ h ih =>
    rw [emptyRoot, ih]
    rfl

/-- A block root depends on the leaves of its block only. -/
theorem node_congr {f g : ℕ → D} (h i : ℕ)
    (hfg : ∀ j, i * 2 ^ h ≤ j → j < (i + 1) * 2 ^ h → f j = g j) :
    node parent f h i = node parent g h i := by
  induction h generalizing i with
  | zero => exact hfg i (by simp) (by simp)
  | succ h ih =>
    have hpow : 2 ^ (h + 1) = 2 * 2 ^ h := by ring
    rw [hpow] at hfg
    simp only [node]
    congr 1
    · exact ih _ fun j hj hj' => hfg j (by nlinarith) (by nlinarith)
    · exact ih _ fun j hj hj' => hfg j (by nlinarith) (by nlinarith)

theorem node_const (e : D) (h i : ℕ) : node parent (fun _ => e) h i = emptyRoot parent e h := by
  induction h generalizing i with
  | zero => rfl
  | succ h ih => simp only [node, emptyRoot, ih]

theorem pad_of_le (e : D) {leaves : List D} {i : ℕ} (h : leaves.length ≤ i) : pad e leaves i = e := by
  rw [pad, List.getD_eq_getElem?_getD, List.getElem?_eq_none h, Option.getD_none]

theorem pad_append_of_lt (e : D) {leaves more : List D} {i : ℕ} (h : i < leaves.length) :
    pad e (leaves ++ more) i = pad e leaves i := by
  simp only [pad, List.getD_eq_getElem?_getD, List.getElem?_append_left h]

theorem pad_append_length (e x : D) (leaves : List D) :
    pad e (leaves ++ [x]) leaves.length = x := by
  simp [pad, List.getD_eq_getElem?_getD]

/-- A block past the last leaf is empty. -/
theorem node_pad_empty (e : D) {leaves : List D} {h i : ℕ} (hi : leaves.length ≤ i * 2 ^ h) :
    node parent (pad e leaves) h i = emptyRoot parent e h := by
  rw [← node_const parent e h i]
  exact node_congr parent h i fun j hj _ => pad_of_le e (hi.trans hj)

/-- A block that ends before the appended leaf keeps its root. -/
theorem node_pad_append (e : D) {leaves more : List D} {h i : ℕ}
    (hi : (i + 1) * 2 ^ h ≤ leaves.length) :
    node parent (pad e (leaves ++ more)) h i = node parent (pad e leaves) h i :=
  node_congr parent h i fun _ _ hj => pad_append_of_lt e (hj.trans_le hi)

@[simp] theorem root_nil (e : D) (depth : ℕ) : root parent e depth [] = emptyRoot parent e depth :=
  node_pad_empty parent e (by simp)

/-! ### Binary carry positions -/

/-- Slot `h` of the carry frontier of a leaf list: the root of the complete
block that bit `h` of the leaf count stands for, or the empty root. -/
def frontier (e : D) (leaves : List D) (h : ℕ) : D :=
  if leaves.length.testBit h then node parent (pad e leaves) h (leaves.length / 2 ^ h - 1)
  else emptyRoot parent e h

theorem testBit_iff_odd (n h : ℕ) : n.testBit h = true ↔ n / 2 ^ h = 2 * (n / 2 ^ (h + 1)) + 1 := by
  rw [Nat.testBit_eq_decide_div_mod_eq, pow_succ, ← Nat.div_div_eq_div_mul, decide_eq_true_iff]
  omega

theorem not_testBit_iff_even (n h : ℕ) : n.testBit h = false ↔ n / 2 ^ h = 2 * (n / 2 ^ (h + 1)) := by
  rw [Nat.testBit_eq_decide_div_mod_eq, pow_succ, ← Nat.div_div_eq_div_mul, decide_eq_false_iff_not]
  omega

/-- The block holding the first free leaf, one level up: a live slot is its
left neighbour, a dead slot has an empty right neighbour. -/
theorem node_free_succ (e : D) (leaves : List D) (h : ℕ) :
    node parent (pad e leaves) (h + 1) (leaves.length / 2 ^ (h + 1)) =
      if leaves.length.testBit h then
        parent (frontier parent e leaves h) (node parent (pad e leaves) h (leaves.length / 2 ^ h))
      else parent (node parent (pad e leaves) h (leaves.length / 2 ^ h)) (emptyRoot parent e h) := by
  cases hb : leaves.length.testBit h with
  | true =>
    have hodd := (testBit_iff_odd _ _).mp hb
    rw [if_pos rfl, frontier, if_pos hb, node, hodd, Nat.add_sub_cancel]
  | false =>
    have heven := (not_testBit_iff_even _ _).mp hb
    rw [if_neg (by simp), node, heven]
    congr 1
    apply node_pad_empty
    have hlt := Nat.lt_div_mul_add (a := leaves.length) (Nat.two_pow_pos h)
    rw [heven] at hlt
    nlinarith

/-- Above the carry level of an append the frontier is unchanged. -/
theorem frontier_append_of_div_eq (e x : D) (leaves : List D) (h : ℕ)
    (hdiv : (leaves.length + 1) / 2 ^ h = leaves.length / 2 ^ h) :
    frontier parent e (leaves ++ [x]) h = frontier parent e leaves h := by
  have hbit : (leaves.length + 1).testBit h = leaves.length.testBit h := by
    rw [Nat.testBit_eq_decide_div_mod_eq, Nat.testBit_eq_decide_div_mod_eq, hdiv]
  unfold frontier
  rw [List.length_append, List.length_singleton, hbit, hdiv]
  split_ifs with hb
  · have hodd := (testBit_iff_odd _ _).mp hb
    apply node_pad_append
    rw [Nat.sub_add_cancel (by omega)]
    exact Nat.div_mul_le_self _ _
  · rfl

/-- At the carry level of an append the slot becomes the carried block. -/
theorem frontier_append_of_carry (e x : D) (leaves : List D) (h : ℕ)
    (hdiv : (leaves.length + 1) / 2 ^ h = leaves.length / 2 ^ h + 1)
    (hb : leaves.length.testBit h = false) :
    frontier parent e (leaves ++ [x]) h =
      node parent (pad e (leaves ++ [x])) h (leaves.length / 2 ^ h) := by
  have heven := (not_testBit_iff_even _ _).mp hb
  have hbit : (leaves.length + 1).testBit h = true := by
    rw [Nat.testBit_eq_decide_div_mod_eq, hdiv, decide_eq_true_iff]
    omega
  unfold frontier
  rw [List.length_append, List.length_singleton, if_pos hbit, hdiv, Nat.add_sub_cancel]

/-- Below the carry level of an append the slot becomes empty. -/
theorem frontier_append_of_cleared (e x : D) (leaves : List D) (h : ℕ)
    (hdiv : (leaves.length + 1) / 2 ^ h = leaves.length / 2 ^ h + 1)
    (hb : leaves.length.testBit h = true) :
    frontier parent e (leaves ++ [x]) h = emptyRoot parent e h := by
  have hodd := (testBit_iff_odd _ _).mp hb
  have hbit : (leaves.length + 1).testBit h = false := by
    rw [Nat.testBit_eq_decide_div_mod_eq, hdiv, decide_eq_false_iff_not]
    omega
  unfold frontier
  rw [List.length_append, List.length_singleton, if_neg (by simp [hbit])]

/-- The carried block one level up joins the live slot with the carry. -/
theorem node_carry_succ (e x : D) (leaves : List D) (h : ℕ)
    (hb : leaves.length.testBit h = true) :
    node parent (pad e (leaves ++ [x])) (h + 1) (leaves.length / 2 ^ (h + 1)) =
      parent (frontier parent e leaves h)
        (node parent (pad e (leaves ++ [x])) h (leaves.length / 2 ^ h)) := by
  have hodd := (testBit_iff_odd _ _).mp hb
  rw [node, frontier, if_pos hb, hodd, Nat.add_sub_cancel]
  congr 1
  apply node_pad_append
  have hle := Nat.div_mul_le_self leaves.length (2 ^ h)
  rwa [hodd] at hle

/-! ### Authentication paths -/

/-- A loop over the levels `0, ..., n - 1` carries an invariant from level to level. -/
theorem foldl_levels {α : Type*} {n : ℕ} (motive : ℕ → α → Prop) (f : α → Fin n → α) {a : α} (hstart : motive 0 a)
    (hstep : ∀ (level : Fin n) (b : α), motive level b → motive (level + 1) (f b level)) :
    motive n (Fin.foldl n f a) := by
  induction n with
  | zero => exact hstart
  | succ n ih =>
    rw [Fin.foldl_succ_last]
    exact hstep (Fin.last n) _ (ih (fun b level => f b level.castSucc) fun level b => hstep level.castSucc b)

/-- The block next to the one that holds leaf `i` at height `h`. -/
def siblingIndex (i h : ℕ) : ℕ := i / 2 ^ h ^^^ 1

theorem siblingIndex_of_bit {i h : ℕ} (hbit : i.testBit h = true) : siblingIndex i h = 2 * (i / 2 ^ (h + 1)) := by
  rw [siblingIndex, (testBit_iff_odd i h).mp hbit, Nat.xor_one_of_odd ⟨_, rfl⟩, Nat.add_sub_cancel]

theorem siblingIndex_of_not_bit {i h : ℕ} (hbit : i.testBit h = false) :
    siblingIndex i h = 2 * (i / 2 ^ (h + 1)) + 1 := by
  rw [siblingIndex, (not_testBit_iff_even i h).mp hbit, Nat.xor_one_of_even ⟨i / 2 ^ (h + 1), by ring⟩]

/-- One level up, a block joins with its sibling, on the side its bit says. -/
theorem node_sibling (f : ℕ → D) (i h : ℕ) :
    node parent f (h + 1) (i / 2 ^ (h + 1)) =
      if i.testBit h then parent (node parent f h (siblingIndex i h)) (node parent f h (i / 2 ^ h))
      else parent (node parent f h (i / 2 ^ h)) (node parent f h (siblingIndex i h)) := by
  cases hbit : i.testBit h with
  | true => rw [if_pos rfl, node, siblingIndex_of_bit hbit, (testBit_iff_odd i h).mp hbit]
  | false => rw [if_neg (by simp), node, siblingIndex_of_not_bit hbit, (not_testBit_iff_even i h).mp hbit]

/-- Of two leaves, one lies in the other's sibling block exactly at the level of
their highest differing bit. -/
theorem siblingIndex_eq_iff {i j h : ℕ} : siblingIndex i h = j / 2 ^ h ↔ i ^^^ j ≠ 0 ∧ (i ^^^ j).log2 = h := by
  have hone : siblingIndex i h = j / 2 ^ h ↔ (i ^^^ j) / 2 ^ h = 1 := by
    rw [siblingIndex, Nat.xor_div_two_pow]
    constructor
    · intro heq
      rw [← heq, ← Nat.xor_assoc, Nat.xor_self, Nat.zero_xor]
    · intro heq
      rw [← heq, ← Nat.xor_assoc, Nat.xor_self, Nat.zero_xor]
  rw [hone]
  by_cases hzero : i ^^^ j = 0
  · simp [hzero]
  · rw [Nat.log2_eq_iff hzero, Nat.div_eq_iff (Nat.two_pow_pos h)]
    have hpow : 2 ^ (h + 1) = 2 * 2 ^ h := by ring
    have := Nat.two_pow_pos h
    constructor
    · rintro ⟨hlow, hhigh⟩
      exact ⟨hzero, by omega, by omega⟩
    · rintro ⟨-, hlow, hhigh⟩
      exact ⟨by omega, by omega⟩

/-- The root recomputed from a leaf, its index and its siblings, bottom up. -/
def pathRoot {n : ℕ} (i : ℕ) (x : D) (siblings : Fin n → D) : D :=
  Fin.foldl n (fun current level => if i.testBit level then parent (siblings level) current
    else parent current (siblings level)) x

theorem pathRoot_succ {n : ℕ} (i : ℕ) (x : D) (siblings : Fin (n + 1) → D) :
    pathRoot parent i x siblings =
      if i.testBit n then
        parent (siblings (Fin.last n)) (pathRoot parent i x fun level : Fin n => siblings level.castSucc)
      else parent (pathRoot parent i x fun level : Fin n => siblings level.castSucc) (siblings (Fin.last n)) := by
  rw [pathRoot, Fin.foldl_succ_last]
  rfl

/-- The true siblings of a leaf lead to the block root above it. -/
theorem pathRoot_eq_node {n : ℕ} {f : ℕ → D} {i : ℕ} {siblings : Fin n → D}
    (h : ∀ level : Fin n, siblings level = node parent f level (siblingIndex i level)) :
    pathRoot parent i (f i) siblings = node parent f n (i / 2 ^ n) := by
  refine foldl_levels (fun level current => current = node parent f level (i / 2 ^ level)) _ (by simp [node]) ?_
  rintro level current rfl
  rw [node_sibling, h level]

/-- With an injective parent hash no other leaf and no other siblings lead there. -/
theorem eq_of_pathRoot_eq_node (hp : Function.Injective2 parent) {f : ℕ → D} {i : ℕ} {x : D} :
    ∀ {n : ℕ} {siblings : Fin n → D}, pathRoot parent i x siblings = node parent f n (i / 2 ^ n) →
      x = f i ∧ ∀ level : Fin n, siblings level = node parent f level (siblingIndex i level)
  | 0, siblings, h => by
    simp only [pathRoot, Fin.foldl_zero, node, pow_zero, Nat.div_one] at h
    exact ⟨h, fun level => level.elim0⟩
  | n + 1, siblings, h => by
    rw [pathRoot_succ, node_sibling] at h
    have htop : siblings (Fin.last n) = node parent f n (siblingIndex i n) ∧
        (pathRoot parent i x fun level : Fin n => siblings level.castSucc) = node parent f n (i / 2 ^ n) := by
      split_ifs at h
      · exact hp h
      · exact (hp h).symm
    obtain ⟨hleaf, hlower⟩ := eq_of_pathRoot_eq_node hp htop.2
    refine ⟨hleaf, Fin.lastCases htop.1 fun level => ?_⟩
    exact hlower level

/-- An append changes the one sibling block that the new leaf lies in. -/
theorem node_sibling_append (e x : D) (leaves : List D) (i h : ℕ)
    (hne : siblingIndex i h ≠ leaves.length / 2 ^ h) :
    node parent (pad e (leaves ++ [x])) h (siblingIndex i h) = node parent (pad e leaves) h (siblingIndex i h) := by
  refine node_congr parent h _ fun j hlow hhigh => ?_
  have hj : j / 2 ^ h = siblingIndex i h := by
    rw [Nat.div_eq_iff (Nat.two_pow_pos h)]
    have := Nat.two_pow_pos h
    rw [Nat.add_mul] at hhigh
    omega
  rcases lt_trichotomy j leaves.length with hlt | rfl | hgt
  · exact pad_append_of_lt e hlt
  · exact absurd hj.symm hne
  · rw [pad_of_le e (by rw [List.length_append, List.length_singleton]; omega), pad_of_le e hgt.le]

/-- The siblings of the new leaf: the live slots of the old frontier, empty blocks elsewhere. -/
theorem node_sibling_new (e x : D) (leaves : List D) (h : ℕ) :
    node parent (pad e (leaves ++ [x])) h (siblingIndex leaves.length h) =
      if leaves.length.testBit h then frontier parent e leaves h else emptyRoot parent e h := by
  have hne : siblingIndex leaves.length h ≠ leaves.length / 2 ^ h := by
    intro heq
    simpa using (siblingIndex_eq_iff.mp heq).1
  rw [node_sibling_append parent e x leaves _ h hne]
  cases hbit : leaves.length.testBit h with
  | true =>
    rw [if_pos rfl, frontier, if_pos hbit, siblingIndex_of_bit hbit, (testBit_iff_odd _ _).mp hbit, Nat.add_sub_cancel]
  | false =>
    rw [if_neg (by simp), siblingIndex_of_not_bit hbit]
    apply node_pad_empty
    have heven := (not_testBit_iff_even _ _).mp hbit
    have hlt := Nat.lt_div_mul_add (a := leaves.length) (Nat.two_pow_pos h)
    rw [heven] at hlt
    rw [Nat.add_mul, Nat.one_mul]
    exact hlt.le

end Aspis.Lib.MerkleTree
