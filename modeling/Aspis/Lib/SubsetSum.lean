import Mathlib.Algebra.BigOperators.Intervals
import Mathlib.Algebra.BigOperators.Ring.Finset
import Mathlib.Data.Nat.Bitwise
import Mathlib.Tactic.Ring

/-! The transform that replaces each entry of a table by the sum over the subsets of its index, one bit
level at a time, and its inverse. Both pass from the lowest bit up, so that a table of `2 ^ (n + 1)`
entries splits into its even and its odd entries; the multilinear extension of the transformed
table is the sum of the entries times the monomials of their indices. -/

namespace Aspis.Lib.SubsetSum

/-- The entries at the even and at the odd indices. -/
def half {α : Type*} (b : Bool) (f : ℕ → α) (i : ℕ) : α := f (2 * i + b.toNat)

theorem testBit_half_zero (i : ℕ) (b : Bool) : (2 * i + b.toNat).testBit 0 = b := by
  rw [Nat.testBit_zero]
  cases b with
  | false => exact decide_eq_false (by simp)
  | true => exact decide_eq_true (by simp)

theorem testBit_half_succ (i k : ℕ) (b : Bool) : (2 * i + b.toNat).testBit (k + 1) = i.testBit k := by
  rw [Nat.testBit_succ]
  have hb : b.toNat < 2 := Bool.toNat_lt b
  congr 1
  omega

theorem and_two_pow_ne_zero {m k : ℕ} : m &&& 2 ^ k ≠ 0 ↔ m.testBit k = true := by
  rw [Nat.and_two_pow]
  cases m.testBit k with
  | false => simp
  | true => simp

/-- Clearing a bit that is set subtracts its power. -/
theorem xor_two_pow_of_testBit : ∀ {k m : ℕ}, m.testBit k = true → m ^^^ 2 ^ k = m - 2 ^ k
  | 0, m, h => by
    rw [Nat.testBit_zero, decide_eq_true_eq] at h
    rw [pow_zero]
    have hmod : (m ^^^ 1) % 2 = (m + 1) % 2 := Nat.xor_mod_two_eq
    have hdiv : (m ^^^ 1) / 2 = m / 2 ^^^ 0 := Nat.xor_div_two
    rw [Nat.xor_zero] at hdiv
    omega
  | k + 1, m, h => by
    rw [Nat.testBit_succ] at h
    have hrec := xor_two_pow_of_testBit h
    have hle := Nat.ge_two_pow_of_testBit h
    have hpow : 2 ^ (k + 1) / 2 = 2 ^ k := by
      rw [pow_succ]
      omega
    have hmod : (m ^^^ 2 ^ (k + 1)) % 2 = (m + 2 ^ (k + 1)) % 2 := Nat.xor_mod_two_eq
    have hdiv : (m ^^^ 2 ^ (k + 1)) / 2 = m / 2 ^^^ 2 ^ (k + 1) / 2 := Nat.xor_div_two
    rw [hpow, hrec] at hdiv
    rw [pow_succ] at hmod hdiv ⊢
    omega

theorem testBit_sub_two_pow {k m : ℕ} (h : m.testBit k = true) : (m - 2 ^ k).testBit k = false := by
  have hle := Nat.ge_two_pow_of_testBit h
  have hadd := Nat.testBit_two_pow_add_eq (m - 2 ^ k) k
  rw [Nat.add_sub_cancel' hle, h] at hadd
  cases hbit : (m - 2 ^ k).testBit k with
  | false => rfl
  | true =>
    rw [hbit] at hadd
    cases hadd

section Group
variable {G : Type*} [AddCommGroup G]

/-- One level: an entry whose index has the bit gets the entry without it. -/
def level (k : ℕ) (f : ℕ → G) (m : ℕ) : G := if m.testBit k then f m + f (m - 2 ^ k) else f m

def unlevel (k : ℕ) (f : ℕ → G) (m : ℕ) : G := if m.testBit k then f m - f (m - 2 ^ k) else f m

def levels (n : ℕ) (f : ℕ → G) : ℕ → G := (List.range n).foldl (fun f k => level k f) f

def unlevels (n : ℕ) (f : ℕ → G) : ℕ → G := (List.range n).foldl (fun f k => unlevel k f) f

theorem sub_pow_of_testBit {m k : ℕ} (h : m.testBit k = true) : 2 ^ k ≤ m := Nat.ge_two_pow_of_testBit h

/-- The levels above the lowest act on the two halves alike. -/
theorem half_level (k : ℕ) (f : ℕ → G) (b : Bool) : half b (level (k + 1) f) = level k (half b f) := by
  funext i
  unfold half level
  rw [testBit_half_succ]
  by_cases h : i.testBit k = true
  · have hle := sub_pow_of_testBit h
    have hindex : 2 * i + b.toNat - 2 ^ (k + 1) = 2 * (i - 2 ^ k) + b.toNat := by
      rw [pow_succ]
      omega
    rw [if_pos h, if_pos h, hindex]
  · rw [if_neg h, if_neg h]

theorem half_unlevel (k : ℕ) (f : ℕ → G) (b : Bool) : half b (unlevel (k + 1) f) = unlevel k (half b f) := by
  funext i
  unfold half unlevel
  rw [testBit_half_succ]
  by_cases h : i.testBit k = true
  · have hle := sub_pow_of_testBit h
    have hindex : 2 * i + b.toNat - 2 ^ (k + 1) = 2 * (i - 2 ^ k) + b.toNat := by
      rw [pow_succ]
      omega
    rw [if_pos h, if_pos h, hindex]
  · rw [if_neg h, if_neg h]

omit [AddCommGroup G] in
theorem half_fold {step step' : ℕ → (ℕ → G) → ℕ → G} (b : Bool)
    (h : ∀ k f, half b (step (k + 1) f) = step' k (half b f)) :
    ∀ (l : List ℕ) (f : ℕ → G), half b ((l.map (· + 1)).foldl (fun f k => step k f) f) =
      l.foldl (fun f k => step' k f) (half b f)
  | [], _ => rfl
  | k :: l, f => by
    rw [List.map_cons, List.foldl_cons, half_fold b h l, h]
    rfl

theorem levels_succ (n : ℕ) (f : ℕ → G) (b : Bool) :
    half b (levels (n + 1) f) = levels n (half b (level 0 f)) := by
  unfold levels
  rw [List.range_succ_eq_map, List.foldl_cons]
  exact half_fold b (fun k f => half_level k f b) _ _

theorem unlevels_succ (n : ℕ) (f : ℕ → G) (b : Bool) :
    half b (unlevels (n + 1) f) = unlevels n (half b (unlevel 0 f)) := by
  unfold unlevels
  rw [List.range_succ_eq_map, List.foldl_cons]
  exact half_fold b (fun k f => half_unlevel k f b) _ _

theorem level_zero_even (f : ℕ → G) : half false (level 0 f) = half false f := by
  funext i
  unfold half level
  rw [testBit_half_zero, if_neg Bool.false_ne_true]

theorem level_zero_odd (f : ℕ → G) : half true (level 0 f) = fun i => half true f i + half false f i := by
  funext i
  unfold half level
  rw [testBit_half_zero, if_pos rfl]
  rfl

theorem unlevel_zero_even (f : ℕ → G) : half false (unlevel 0 f) = half false f := by
  funext i
  unfold half unlevel
  rw [testBit_half_zero, if_neg Bool.false_ne_true]

theorem unlevel_zero_odd (f : ℕ → G) : half true (unlevel 0 f) = fun i => half true f i - half false f i := by
  funext i
  unfold half unlevel
  rw [testBit_half_zero, if_pos rfl]
  rfl

theorem level_add (k : ℕ) (f g : ℕ → G) : level k (fun i => f i + g i) = fun i => level k f i + level k g i := by
  funext m
  unfold level
  split
  · exact add_add_add_comm _ _ _ _
  · rfl

theorem levels_add (n : ℕ) (f g : ℕ → G) : levels n (fun i => f i + g i) = fun i => levels n f i + levels n g i := by
  have hfold : ∀ (l : List ℕ) (f g : ℕ → G), l.foldl (fun f k => level k f) (fun i => f i + g i) =
      fun i => l.foldl (fun f k => level k f) f i + l.foldl (fun f k => level k f) g i := by
    intro l
    induction l with
    | nil => exact fun _ _ => rfl
    | cons k l ih =>
      intro f g
      rw [List.foldl_cons, level_add, ih]
      rfl
  exact hfold _ f g

/-- The halves of the transform. -/
theorem levels_even (n : ℕ) (f : ℕ → G) : half false (levels (n + 1) f) = levels n (half false f) := by
  rw [levels_succ, level_zero_even]

theorem levels_odd (n : ℕ) (f : ℕ → G) :
    half true (levels (n + 1) f) = fun i => levels n (half true f) i + levels n (half false f) i := by
  rw [levels_succ, level_zero_odd, levels_add]

omit [AddCommGroup G] in
theorem eq_of_halves {f g : ℕ → G} {n m : ℕ} (hm : m < 2 ^ (n + 1))
    (h : ∀ b, ∀ i < 2 ^ n, half b f i = half b g i) : f m = g m := by
  have hi : m / 2 < 2 ^ n := by
    rw [pow_succ] at hm
    omega
  rcases Nat.mod_two_eq_zero_or_one m with hb | hb
  · have hindex : 2 * (m / 2) + false.toNat = m := by
      rw [Bool.toNat_false]
      omega
    have heq := h false (m / 2) hi
    unfold half at heq
    rwa [hindex] at heq
  · have hindex : 2 * (m / 2) + true.toNat = m := by
      rw [Bool.toNat_true]
      omega
    have heq := h true (m / 2) hi
    unfold half at heq
    rwa [hindex] at heq

/-- The inverse transform undoes the transform, entry by entry. -/
theorem unlevels_levels : ∀ (n : ℕ) (f g : ℕ → G), (∀ m < 2 ^ n, g m = levels n f m) →
    ∀ m < 2 ^ n, unlevels n g m = f m
  | 0, f, g, h, m, hm => h m hm
  | n + 1, f, g, h, m, hm => by
    have hg : ∀ b, ∀ i < 2 ^ n, half b g i = half b (levels (n + 1) f) i := by
      intro b i hi
      have hb : b.toNat < 2 := Bool.toNat_lt b
      exact h _ (by rw [pow_succ]; omega)
    apply eq_of_halves hm
    intro b i hi
    rw [unlevels_succ]
    cases b with
    | false =>
      rw [unlevel_zero_even]
      refine unlevels_levels n _ _ (fun j hj => ?_) i hi
      rw [hg false j hj, levels_even]
    | true =>
      rw [unlevel_zero_odd]
      refine unlevels_levels n _ _ (fun j hj => ?_) i hi
      rw [hg true j hj, hg false j hj, levels_even, levels_odd, add_sub_cancel_right]

/-! ### Subsets -/

theorem sum_range_double (N : ℕ) (f : ℕ → G) :
    ∑ m ∈ Finset.range (2 * N), f m = ∑ i ∈ Finset.range N, (half false f i + half true f i) := by
  induction N with
  | zero => rfl
  | succ N ih =>
    rw [Nat.mul_succ, Finset.sum_range_succ, Finset.sum_range_succ, ih, Finset.sum_range_succ, add_assoc]
    rfl

/-- The sum over the subsets of an index. -/
def subsetSum (n : ℕ) (f : ℕ → G) (m : ℕ) : G := ∑ s ∈ Finset.range (2 ^ n), if s &&& m = s then f s else 0

theorem and_half (i j : ℕ) (b c : Bool) :
    (2 * j + c.toNat) &&& (2 * i + b.toNat) = 2 * j + c.toNat ↔ j &&& i = j ∧ (c = true → b = true) := by
  constructor
  · intro h
    have hbits : ∀ k, ((2 * j + c.toNat).testBit k && (2 * i + b.toNat).testBit k) = (2 * j + c.toNat).testBit k := by
      intro k
      rw [← Nat.testBit_and, h]
    constructor
    · apply Nat.eq_of_testBit_eq
      intro k
      have hk := hbits (k + 1)
      rw [testBit_half_succ, testBit_half_succ] at hk
      rw [Nat.testBit_and]
      exact hk
    · intro hc
      have hk := hbits 0
      rw [testBit_half_zero, testBit_half_zero, hc, Bool.true_and] at hk
      exact hk
  · rintro ⟨hj, hc⟩
    apply Nat.eq_of_testBit_eq
    intro k
    rw [Nat.testBit_and]
    cases k with
    | zero =>
      rw [testBit_half_zero, testBit_half_zero]
      cases c with
      | false => rfl
      | true => rw [hc rfl, Bool.true_and]
    | succ k =>
      rw [testBit_half_succ, testBit_half_succ, ← Nat.testBit_and, hj]

theorem subsetSum_half (n : ℕ) (f : ℕ → G) (b : Bool) (i : ℕ) :
    half b (subsetSum (n + 1) f) i =
      subsetSum n (half false f) i + if b then subsetSum n (half true f) i else 0 := by
  have hterm : ∀ c : Bool, ∀ j, (if (2 * j + c.toNat) &&& (2 * i + b.toNat) = 2 * j + c.toNat then f (2 * j + c.toNat)
      else 0) = if j &&& i = j ∧ (c = true → b = true) then half c f j else 0 := by
    intro c j
    simp only [and_half]
    rfl
  show subsetSum (n + 1) f (2 * i + b.toNat) = _
  unfold subsetSum
  rw [pow_succ, Nat.mul_comm, sum_range_double, Finset.sum_add_distrib]
  unfold half at hterm ⊢
  simp only [hterm]
  congr 1
  · refine Finset.sum_congr rfl fun j _ => ?_
    simp
  · cases b with
    | false => simp
    | true => simp

/-- The levels sum over all subsets of the index. -/
theorem levels_eq_subsetSum : ∀ (n : ℕ) (f : ℕ → G) (m : ℕ), m < 2 ^ n → levels n f m = subsetSum n f m
  | 0, f, m, hm => by
    have hzero : m = 0 := by omega
    subst hzero
    simp [levels, subsetSum]
  | n + 1, f, m, hm => by
    apply eq_of_halves hm
    intro b i hi
    rw [subsetSum_half]
    cases b with
    | false =>
      rw [levels_even, levels_eq_subsetSum n _ i hi, if_neg Bool.false_ne_true, add_zero]
    | true =>
      rw [levels_odd, if_pos rfl]
      dsimp only
      rw [levels_eq_subsetSum n _ i hi, levels_eq_subsetSum n _ i hi, add_comm]

end Group

/-! ### The multilinear extension -/

section Ring
variable {R : Type*} [CommRing R]

/-- The multilinear extension, one coordinate at a time from the lowest bit. -/
def extend : List R → (ℕ → R) → R
  | [], f => f 0
  | x :: point, f => extend point fun i => half false f i + x * (half true f i - half false f i)

/-- The monomial of an index. -/
def monomial : List R → ℕ → R
  | [], _ => 1
  | x :: point, m => (if m.testBit 0 then x else 1) * monomial point (m / 2)

def monomialSum (point : List R) (f : ℕ → R) : R := ∑ m ∈ Finset.range (2 ^ point.length), f m * monomial point m

theorem monomial_half (x : R) (point : List R) (b : Bool) (i : ℕ) :
    monomial (x :: point) (2 * i + b.toNat) = (if b then x else 1) * monomial point i := by
  have hdiv : (2 * i + b.toNat) / 2 = i := by
    have hb : b.toNat < 2 := Bool.toNat_lt b
    omega
  rw [monomial, testBit_half_zero, hdiv]

theorem monomialSum_cons (x : R) (point : List R) (f : ℕ → R) :
    monomialSum (x :: point) f = monomialSum point fun i => half false f i + x * half true f i := by
  unfold monomialSum
  rw [List.length_cons, pow_succ, Nat.mul_comm, sum_range_double]
  refine Finset.sum_congr rfl fun i _ => ?_
  show f (2 * i + false.toNat) * monomial (x :: point) (2 * i + false.toNat) +
    f (2 * i + true.toNat) * monomial (x :: point) (2 * i + true.toNat) =
    (f (2 * i + false.toNat) + x * f (2 * i + true.toNat)) * monomial point i
  rw [monomial_half, monomial_half, if_neg Bool.false_ne_true, if_pos rfl]
  ring

theorem extend_congr : ∀ (point : List R) {f g : ℕ → R}, (∀ m < 2 ^ point.length, f m = g m) →
    extend point f = extend point g
  | [], f, g, h => h 0 (by simp)
  | x :: point, f, g, h => by
    have hhalf : ∀ b, ∀ i < 2 ^ point.length, half b f i = half b g i := by
      intro b i hi
      have hb : b.toNat < 2 := Bool.toNat_lt b
      exact h _ (by rw [List.length_cons, pow_succ]; omega)
    rw [extend, extend]
    apply extend_congr point
    intro i hi
    rw [hhalf false i hi, hhalf true i hi]

theorem levels_scaled (n : ℕ) (x : R) (f : ℕ → R) : levels n (fun i => x * f i) = fun i => x * levels n f i := by
  have hfold : ∀ (l : List ℕ) (f : ℕ → R), l.foldl (fun f k => level k f) (fun i => x * f i) =
      fun i => x * l.foldl (fun f k => level k f) f i := by
    intro l
    induction l with
    | nil => exact fun _ => rfl
    | cons k l ih =>
      intro f
      have hlevel : level k (fun i => x * f i) = fun i => x * level k f i := by
        funext m
        unfold level
        split
        · ring
        · rfl
      rw [List.foldl_cons, hlevel, ih]
      rfl
  exact hfold _ f

/-- The extension of the transformed table is the monomial sum of the table. -/
theorem extend_levels : ∀ (point : List R) (f : ℕ → R), extend point (levels point.length f) = monomialSum point f
  | [], f => by simp [extend, levels, monomialSum, monomial]
  | x :: point, f => by
    have hstep : (fun i => half false (levels (point.length + 1) f) i +
        x * (half true (levels (point.length + 1) f) i - half false (levels (point.length + 1) f) i)) =
        levels point.length fun i => half false f i + x * half true f i := by
      rw [levels_even, levels_odd, levels_add, levels_scaled]
      funext i
      ring
    rw [List.length_cons, extend, hstep, extend_levels, monomialSum_cons]

/-- The monomials of the doubling powers are the powers. -/
theorem monomial_powers (x : R) : ∀ (n m : ℕ), m < 2 ^ n →
    monomial ((List.range n).map fun k => x ^ 2 ^ k) m = x ^ m
  | 0, m, hm => by
    have hzero : m = 0 := by omega
    rw [hzero, pow_zero]
    rfl
  | n + 1, m, hm => by
    have hsquare : ((List.range n).map fun k => x ^ 2 ^ (k + 1)) = (List.range n).map fun k => (x ^ 2) ^ 2 ^ k := by
      refine List.map_congr_left fun k _ => ?_
      rw [← pow_mul, pow_succ']
    rw [List.range_succ_eq_map, List.map_cons, List.map_map]
    have hmap : (List.range n).map ((fun k => x ^ 2 ^ k) ∘ Nat.succ) = (List.range n).map fun k => (x ^ 2) ^ 2 ^ k := hsquare
    rw [hmap, monomial, monomial_powers (x ^ 2) n (m / 2) (by rw [pow_succ] at hm; omega), ← pow_mul, pow_zero, pow_one]
    have hm2 := Nat.div_add_mod m 2
    rcases Nat.mod_two_eq_zero_or_one m with hb | hb
    · rw [Nat.testBit_zero, hb, if_neg (by decide), one_mul]
      congr 1
      omega
    · rw [Nat.testBit_zero, hb, if_pos (by decide), ← pow_succ']
      congr 1
      omega

theorem monomialSum_powers (x : R) (n : ℕ) (f : ℕ → R) :
    monomialSum ((List.range n).map fun k => x ^ 2 ^ k) f = ∑ m ∈ Finset.range (2 ^ n), f m * x ^ m := by
  unfold monomialSum
  rw [List.length_map, List.length_range]
  refine Finset.sum_congr rfl fun m hm => ?_
  rw [monomial_powers x n m (Finset.mem_range.mp hm)]

end Ring

end Aspis.Lib.SubsetSum
