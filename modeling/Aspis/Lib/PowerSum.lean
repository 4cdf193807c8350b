import Mathlib.Algebra.BigOperators.Intervals
import Mathlib.Algebra.BigOperators.Ring.Finset
import Mathlib.Algebra.Polynomial.Roots

/-! The polynomial of a list of coefficients, lowest first, and the number of its roots. -/

namespace Aspis.Lib.PowerSum

open Polynomial

section Ring
variable {R : Type*} [CommRing R]

/-- The entries of a list times the powers of a point. -/
def powerSum (x : R) : List R → R
  | [] => 0
  | a :: l => a + x * powerSum x l

@[simp] theorem powerSum_nil (x : R) : powerSum x [] = 0 := rfl

@[simp] theorem powerSum_cons (x a : R) (l : List R) : powerSum x (a :: l) = a + x * powerSum x l := rfl

theorem powerSum_append (x : R) (l l' : List R) : powerSum x (l ++ l') = powerSum x l + x ^ l.length * powerSum x l' := by
  induction l with
  | nil => rw [List.nil_append, powerSum_nil, List.length_nil, pow_zero, one_mul, zero_add]
  | cons a l ih =>
    rw [List.cons_append, powerSum_cons, powerSum_cons, ih, List.length_cons, pow_succ]
    ring

theorem powerSum_replicate_zero (x : R) (n : ℕ) : powerSum x (List.replicate n 0) = 0 := by
  induction n with
  | zero => rfl
  | succ n ih => rw [List.replicate_succ, powerSum_cons, ih, mul_zero, add_zero]

theorem powerSum_zero (a : R) (l : List R) : powerSum 0 (a :: l) = a := by
  rw [powerSum_cons, zero_mul, add_zero]

theorem powerSum_one (l : List R) : powerSum 1 l = l.sum := by
  induction l with
  | nil => rfl
  | cons a l ih => rw [powerSum_cons, one_mul, ih, List.sum_cons]

theorem powerSum_eq_sum (x : R) (l : List R) : powerSum x l = ∑ i ∈ Finset.range l.length, l.getD i 0 * x ^ i := by
  induction l with
  | nil => rfl
  | cons a l ih =>
    rw [powerSum_cons, ih, List.length_cons, Finset.sum_range_succ', Finset.mul_sum, add_comm]
    congr 1
    · refine Finset.sum_congr rfl fun i _ => ?_
      rw [List.getD_cons_succ, pow_succ]
      ring
    · rw [List.getD_cons_zero, pow_zero, mul_one]

theorem powerSum_ofFn (x : R) {n : ℕ} (f : Fin n → R) : powerSum x (List.ofFn f) = ∑ i : Fin n, f i * x ^ i.val := by
  rw [powerSum_eq_sum, List.length_ofFn, Finset.sum_range]
  refine Finset.sum_congr rfl fun i _ => ?_
  rw [List.getD_eq_getElem?_getD, List.getElem?_ofFn, dif_pos i.isLt, Option.getD_some]

theorem powerSum_zipWith_sub (x : R) : ∀ {l l' : List R}, l.length = l'.length →
    powerSum x (List.zipWith (· - ·) l l') = powerSum x l - powerSum x l'
  | [], [], _ => by rw [List.zipWith_nil_left, powerSum_nil, sub_self]
  | a :: l, b :: l', h => by
    rw [List.zipWith_cons_cons, powerSum_cons, powerSum_zipWith_sub x (Nat.succ.inj h), powerSum_cons, powerSum_cons]
    ring

theorem powerSum_set (x a : R) {l : List R} {i : ℕ} (hi : i < l.length) :
    powerSum x (l.set i a) = powerSum x l + (a - l.getD i 0) * x ^ i := by
  induction l generalizing i with
  | nil => cases hi
  | cons b l ih =>
    cases i with
    | zero =>
      rw [List.set_cons_zero, powerSum_cons, powerSum_cons, List.getD_cons_zero, pow_zero]
      ring
    | succ i =>
      rw [List.set_cons_succ, powerSum_cons, powerSum_cons, List.getD_cons_succ, ih (Nat.lt_of_succ_lt_succ hi), pow_succ]
      ring

/-- Writes at distinct places that hold zero add their terms. -/
theorem powerSum_foldl_set (x : R) {writes : List (ℕ × R)} {l : List R} (hnodup : (writes.map Prod.fst).Nodup)
    (hfree : ∀ w ∈ writes, w.1 < l.length ∧ l.getD w.1 0 = 0) :
    powerSum x (writes.foldl (fun l w => l.set w.1 w.2) l) = powerSum x l + (writes.map fun w => w.2 * x ^ w.1).sum := by
  induction writes generalizing l with
  | nil => rw [List.foldl_nil, List.map_nil, List.sum_nil, add_zero]
  | cons w writes ih =>
    obtain ⟨hlt, hzero⟩ := hfree w List.mem_cons_self
    rw [List.map_cons, List.nodup_cons] at hnodup
    have hrest : ∀ v ∈ writes, v.1 < (l.set w.1 w.2).length ∧ (l.set w.1 w.2).getD v.1 0 = 0 := by
      intro v hv
      obtain ⟨hvlt, hvzero⟩ := hfree v (List.mem_cons_of_mem w hv)
      have hne : w.1 ≠ v.1 := fun heq => hnodup.1 (heq ▸ List.mem_map_of_mem hv)
      refine ⟨by rw [List.length_set]; exact hvlt, ?_⟩
      rw [List.getD_eq_getElem?_getD, List.getElem?_set_ne hne, ← List.getD_eq_getElem?_getD, hvzero]
    rw [List.foldl_cons, ih hnodup.2 hrest, powerSum_set x w.2 hlt, hzero, sub_zero, List.map_cons, List.sum_cons, add_assoc]

/-- The multiples of a scale by the first powers of a ratio. -/
def geometric (scale ratio : R) : ℕ → List R
  | 0 => []
  | n + 1 => scale :: geometric (scale * ratio) ratio n

theorem sum_zipWith_geometric (ratio : R) : ∀ (l : List R) (scale : R),
    (List.zipWith (· * ·) (geometric scale ratio l.length) l).sum = scale * powerSum ratio l
  | [], scale => by rw [List.zipWith_nil_right, List.sum_nil, powerSum_nil, mul_zero]
  | a :: l, scale => by
    rw [List.length_cons, geometric, List.zipWith_cons_cons, List.sum_cons, sum_zipWith_geometric ratio l, powerSum_cons]
    ring

/-- The polynomial with the listed coefficients. -/
noncomputable def ofCoefficients : List R → R[X]
  | [] => 0
  | a :: l => C a + X * ofCoefficients l

theorem eval_ofCoefficients (x : R) (l : List R) : (ofCoefficients l).eval x = powerSum x l := by
  induction l with
  | nil => rw [ofCoefficients, eval_zero, powerSum_nil]
  | cons a l ih => rw [ofCoefficients, eval_add, eval_C, eval_mul, eval_X, ih, powerSum_cons]

theorem coeff_ofCoefficients (l : List R) (i : ℕ) : (ofCoefficients l).coeff i = l.getD i 0 := by
  induction l generalizing i with
  | nil => rw [ofCoefficients, coeff_zero, List.getD_nil]
  | cons a l ih =>
    rw [ofCoefficients, coeff_add]
    cases i with
    | zero => rw [coeff_C_zero, coeff_X_mul_zero, add_zero, List.getD_cons_zero]
    | succ i => rw [coeff_C_succ, coeff_X_mul, ih, zero_add, List.getD_cons_succ]

theorem natDegree_ofCoefficients_lt {l : List R} (hl : l ≠ []) : (ofCoefficients l).natDegree < l.length := by
  have hpos : 0 < l.length := List.length_pos_of_ne_nil hl
  have hle : (ofCoefficients l).natDegree ≤ l.length - 1 := by
    rw [natDegree_le_iff_coeff_eq_zero]
    intro i hi
    rw [coeff_ofCoefficients, List.getD_eq_getElem?_getD, List.getElem?_eq_none (by omega), Option.getD_none]
  omega

theorem ofCoefficients_ne_zero {l : List R} {i : ℕ} (h : l.getD i 0 ≠ 0) : ofCoefficients l ≠ 0 := by
  intro hzero
  rw [← coeff_ofCoefficients, hzero, coeff_zero] at h
  exact h rfl

end Ring

/-- A list with an entry other than zero has fewer roots than entries. -/
theorem card_roots_lt {R : Type*} [CommRing R] [IsDomain R] {l : List R} {i : ℕ} (h : l.getD i 0 ≠ 0) {s : Finset R}
    (hs : ∀ x ∈ s, powerSum x l = 0) : s.card < l.length := by
  classical
  have hne := ofCoefficients_ne_zero h
  have hl : l ≠ [] := by
    rintro rfl
    exact h List.getD_nil
  have hsub : s ⊆ (ofCoefficients l).roots.toFinset := by
    intro x hx
    rw [Multiset.mem_toFinset, mem_roots hne, IsRoot.def, eval_ofCoefficients]
    exact hs x hx
  calc s.card ≤ (ofCoefficients l).roots.toFinset.card := Finset.card_le_card hsub
    _ ≤ Multiset.card (ofCoefficients l).roots := Multiset.toFinset_card_le _
    _ ≤ (ofCoefficients l).natDegree := card_roots' _
    _ < l.length := natDegree_ofCoefficients_lt hl

/-! ### One coefficient from a boundary sum -/

section Boundary
variable {K : Type*} [Field K]

/-- Two polynomials that agree in more points than their degrees are equal. -/
theorem card_agreements_le {p q : K[X]} {d : ℕ} (hp : p.natDegree ≤ d) (hq : q.natDegree ≤ d) (hne : p ≠ q) {s : Finset K}
    (hs : ∀ x ∈ s, p.eval x = q.eval x) : s.card ≤ d := by
  classical
  have hsub : p - q ≠ 0 := sub_ne_zero.mpr hne
  have hroots : s ⊆ (p - q).roots.toFinset := by
    intro x hx
    rw [Multiset.mem_toFinset, mem_roots hsub, IsRoot.def, eval_sub, hs x hx, sub_self]
  calc s.card ≤ (p - q).roots.toFinset.card := Finset.card_le_card hroots
    _ ≤ Multiset.card (p - q).roots := Multiset.toFinset_card_le _
    _ ≤ (p - q).natDegree := card_roots' _
    _ ≤ max p.natDegree q.natDegree := natDegree_sub_le p q
    _ ≤ d := max_le hp hq

theorem sub_eq_monomial {p q : K[X]} {k : ℕ} (h : ∀ i, i ≠ k → p.coeff i = q.coeff i) :
    p - q = monomial k (p.coeff k - q.coeff k) := by
  ext i
  rw [coeff_sub, coeff_monomial]
  by_cases hi : k = i
  · rw [if_pos hi, hi]
  · rw [if_neg hi, h i fun heq => hi heq.symm, sub_self]

/-- The sum over the two ends of the Boolean line. -/
def lineBoundary (p : K[X]) : K := p.eval 0 + p.eval 1

/-- The linear coefficient is fixed by the others and the sum over the line. -/
theorem eq_of_lineBoundary {p q : K[X]} (h : ∀ i, i ≠ 1 → p.coeff i = q.coeff i) (hsum : lineBoundary p = lineBoundary q) :
    p = q := by
  have hmonomial := sub_eq_monomial h
  have hzero : lineBoundary (p - q) = 0 := by
    unfold lineBoundary at hsum ⊢
    rw [eval_sub, eval_sub, sub_add_sub_comm, hsum, sub_self]
  rw [hmonomial, lineBoundary, eval_monomial, eval_monomial, pow_one, pow_one, mul_zero, mul_one, zero_add] at hzero
  rw [hzero, monomial_zero_right] at hmonomial
  exact sub_eq_zero.mp hmonomial

/-- The sum over the four powers of a root of `-1`. -/
def circleBoundary (i : K) (p : K[X]) : K := p.eval 1 + p.eval i + p.eval (-1) + p.eval (-i)

/-- Below degree eight the sum keeps two coefficients. -/
theorem circleBoundary_eq {i : K} (hi : i * i = -1) {p : K[X]} (hp : p.natDegree < 7) :
    circleBoundary i p = 4 * (p.coeff 0 + p.coeff 4) := by
  have h2 : i ^ 2 = -1 := by rw [pow_two, hi]
  have h3 : i ^ 3 = -i := by rw [pow_succ, h2, neg_one_mul]
  have h4 : i ^ 4 = 1 := by rw [pow_succ, h3, neg_mul, hi, neg_neg]
  have h5 : i ^ 5 = i := by rw [pow_succ, h4, one_mul]
  have h6 : i ^ 6 = -1 := by rw [pow_succ, h5, hi]
  unfold circleBoundary
  rw [eval_eq_sum_range' hp, eval_eq_sum_range' hp, eval_eq_sum_range' hp, eval_eq_sum_range' hp]
  simp only [Finset.sum_range_succ, Finset.sum_range_zero, neg_pow i, h2, h3, h4, h5, h6]
  ring

theorem eq_of_circleBoundary {i : K} (hi : i * i = -1) (h4 : (4 : K) ≠ 0) {p q : K[X]} (hp : p.natDegree < 7)
    (hq : q.natDegree < 7) (h : ∀ j, j ≠ 4 → p.coeff j = q.coeff j) (hsum : circleBoundary i p = circleBoundary i q) :
    p = q := by
  rw [circleBoundary_eq hi hp, circleBoundary_eq hi hq, h 0 (by decide)] at hsum
  have hfour : p.coeff 4 = q.coeff 4 := add_left_cancel (mul_left_cancel₀ h4 hsum)
  ext j
  by_cases hj : j = 4
  · rw [hj, hfour]
  · exact h j hj

end Boundary

end Aspis.Lib.PowerSum
