import Aspis.Statement.Poseidon2
import Mathlib.Algebra.BigOperators.Fin
import Mathlib.Tactic.LinearCombination
import Mathlib.FieldTheory.Finite.Basic

/-! The layers of the permutation over a field. Each is a bijection: the matrix of a row has
determinant -35, the sums over the columns multiply by five, and the determinant of the partial
layer is a nonzero number up to a power of two. -/

namespace Aspis.Poseidon2

open scoped Core.Widths

/-- The constants of one round. -/
inductive Round (α : Type)
  | full (constants : Fin 16 → α)
  | inner (constant : α)

variable {K : Type} [Field K]

def mixFour (v : Fin 4 → K) : Fin 4 → K :=
  ![2 * v 0 + 3 * v 1 + v 2 + v 3, v 0 + 2 * v 1 + 3 * v 2 + v 3, v 0 + v 1 + 2 * v 2 + 3 * v 3,
    3 * v 0 + v 1 + v 2 + 2 * v 3]

def mixRows (v : Fin 16 → K) (i : Fin 16) : K := mixFour (fun column => v (place (rowOf i) column)) (columnOf i)

def externalLayer (v : Fin 16 → K) (i : Fin 16) : K := mixRows v i + ∑ row, mixRows v (place row (columnOf i))

def internalLayer (v : Fin 16 → K) : Fin 16 → K :=
  Fin.cons (∑ j : Fin 15, v j.succ - v 0) fun i =>
    ∑ j : Fin 15, v j.succ + v 0 + v i.succ * 2 ^ INTERNAL_SHIFTS i

def applyRound (v : Fin 16 → K) : Round K → Fin 16 → K
  | .full constants => externalLayer fun i => (v i + constants i) ^ 5
  | .inner constant => internalLayer (Function.update v 0 ((v 0 + constant) ^ 5))

@[simp] theorem rowOf_place (row column : Fin 4) : rowOf (place row column) = row := by
  apply Fin.ext
  show (row.val * 4 + column.val) / 4 = row.val
  omega

@[simp] theorem columnOf_place (row column : Fin 4) : columnOf (place row column) = column := by
  apply Fin.ext
  show (row.val * 4 + column.val) % 4 = column.val
  omega

@[simp] theorem place_rowOf_columnOf (i : Fin 16) : place (rowOf i) (columnOf i) = i := by
  apply Fin.ext
  show i.val / 4 * 4 + i.val % 4 = i.val
  omega

theorem mixFour_injective (h35 : (35 : K) ≠ 0) : Function.Injective (mixFour (K := K)) := by
  intro v w h
  have h0 : 2 * v 0 + 3 * v 1 + v 2 + v 3 = 2 * w 0 + 3 * w 1 + w 2 + w 3 := congrFun h 0
  have h1 : v 0 + 2 * v 1 + 3 * v 2 + v 3 = w 0 + 2 * w 1 + 3 * w 2 + w 3 := congrFun h 1
  have h2 : v 0 + v 1 + 2 * v 2 + 3 * v 3 = w 0 + w 1 + 2 * w 2 + 3 * w 3 := congrFun h 2
  have h3 : 3 * v 0 + v 1 + v 2 + 2 * v 3 = 3 * w 0 + w 1 + w 2 + 2 * w 3 := congrFun h 3
  have e0 : v 0 = w 0 := by
    apply mul_left_cancel₀ h35
    linear_combination -4 * h0 + 3 * h1 - 11 * h2 + 17 * h3
  have e1 : v 1 = w 1 := by
    apply mul_left_cancel₀ h35
    linear_combination 17 * h0 - 4 * h1 + 3 * h2 - 11 * h3
  have e2 : v 2 = w 2 := by
    apply mul_left_cancel₀ h35
    linear_combination -11 * h0 + 17 * h1 - 4 * h2 + 3 * h3
  have e3 : v 3 = w 3 := by
    apply mul_left_cancel₀ h35
    linear_combination 3 * h0 - 11 * h1 + 17 * h2 - 4 * h3
  funext i
  fin_cases i
  · exact e0
  · exact e1
  · exact e2
  · exact e3

theorem mixRows_injective (h35 : (35 : K) ≠ 0) : Function.Injective (mixRows (K := K)) := by
  intro v w h
  have hrow : ∀ row, (fun column => v (place row column)) = fun column => w (place row column) := by
    intro row
    apply mixFour_injective h35
    funext column
    have hi := congrFun h (place row column)
    simpa [mixRows] using hi
  funext i
  have hi := congrFun (hrow (rowOf i)) (columnOf i)
  simpa using hi

/-- The sums over the columns determine themselves: they are multiplied by five. -/
theorem externalLayer_injective (h35 : (35 : K) ≠ 0) : Function.Injective (externalLayer (K := K)) := by
  have h5 : (5 : K) ≠ 0 := by
    intro h
    apply h35
    linear_combination 7 * h
  intro v w h
  apply mixRows_injective h35
  have hsum : ∀ column, ∑ row, mixRows v (place row column) = ∑ row, mixRows w (place row column) := by
    intro column
    have hrows : ∀ row, mixRows v (place row column) + ∑ r, mixRows v (place r column) =
        mixRows w (place row column) + ∑ r, mixRows w (place r column) := by
      intro row
      have hi := congrFun h (place row column)
      simpa [externalLayer] using hi
    apply mul_left_cancel₀ h5
    have htotal := congrArg₂ (· + ·) (congrArg₂ (· + ·) (hrows 0) (hrows 1)) (congrArg₂ (· + ·) (hrows 2) (hrows 3))
    simp only [Fin.sum_univ_four] at htotal ⊢
    linear_combination htotal
  funext i
  have hi := congrFun h i
  simp only [externalLayer, hsum] at hi
  exact add_right_cancel hi

theorem internal_shifts_le : ∀ i, INTERNAL_SHIFTS i ≤ 16 := by decide

/-- The weights of the partial layer, over the common denominator `2 ^ 16`. -/
theorem internal_weights (d : Fin 15 → K) (c : K) (h : ∀ i, c + d i * 2 ^ INTERNAL_SHIFTS i = 0) :
    65536 * ∑ i, d i = -130911 * c := by
  have hterm : ∀ i, 65536 * d i = -(2 ^ (16 - INTERNAL_SHIFTS i)) * c := by
    intro i
    have hle := internal_shifts_le i
    have hpow : (65536 : K) = 2 ^ INTERNAL_SHIFTS i * 2 ^ (16 - INTERNAL_SHIFTS i) := by
      rw [← pow_add, Nat.add_sub_cancel' hle]
      norm_num
    rw [hpow]
    linear_combination 2 ^ (16 - INTERNAL_SHIFTS i) * h i
  rw [Finset.mul_sum, Finset.sum_congr rfl fun i _ => hterm i, ← Finset.sum_mul, Finset.sum_neg_distrib]
  have hnat : ∑ i : Fin 15, 2 ^ (16 - INTERNAL_SHIFTS i) = 130911 := by decide
  have hcast := congrArg (Nat.cast : ℕ → K) hnat
  push_cast at hcast
  rw [hcast]

theorem internalLayer_injective (h2 : (2 : K) ≠ 0) (hdet : (327358 : K) ≠ 0) :
    Function.Injective (internalLayer (K := K)) := by
  intro v w h
  have hfirst : ∑ j : Fin 15, v j.succ - v 0 = ∑ j : Fin 15, w j.succ - w 0 := congrFun h 0
  have hrest : ∀ i : Fin 15, ∑ j : Fin 15, v j.succ + v 0 + v i.succ * 2 ^ INTERNAL_SHIFTS i =
      ∑ j : Fin 15, w j.succ + w 0 + w i.succ * 2 ^ INTERNAL_SHIFTS i := fun i => congrFun h i.succ
  -- with `d` the difference of the two states, the sum of its last fifteen entries is its first one
  have hpart : ∑ i : Fin 15, (v i.succ - w i.succ) = v 0 - w 0 := by
    rw [Finset.sum_sub_distrib]
    linear_combination hfirst
  have hcolumn : ∀ i : Fin 15, 2 * (v 0 - w 0) + (v i.succ - w i.succ) * 2 ^ INTERNAL_SHIFTS i = 0 := by
    intro i
    linear_combination hrest i - hfirst
  have hzero : v 0 - w 0 = 0 := by
    have hweights := internal_weights (fun i => v i.succ - w i.succ) (2 * (v 0 - w 0)) hcolumn
    rw [hpart] at hweights
    apply (mul_eq_zero_iff_left hdet).mp
    linear_combination hweights
  funext i
  refine Fin.cases ?_ (fun j => ?_) i
  · exact sub_eq_zero.mp hzero
  · have hj := hcolumn j
    rw [hzero, mul_zero, zero_add] at hj
    exact sub_eq_zero.mp ((mul_eq_zero_iff_right (pow_ne_zero _ h2)).mp hj)

/-- Where the three numbers are units and the fifth power is a bijection, so is every round. -/
theorem applyRound_injective (h35 : (35 : K) ≠ 0) (h2 : (2 : K) ≠ 0) (hdet : (327358 : K) ≠ 0)
    (hfifth : Function.Injective fun x : K => x ^ 5) (round : Round K) :
    Function.Injective fun v => applyRound v round := by
  intro v w h
  cases round with
  | full constants =>
    have hstate := externalLayer_injective h35 h
    funext i
    exact add_right_cancel (hfifth (congrFun hstate i))
  | inner constant =>
    have hstate := internalLayer_injective h2 hdet h
    funext i
    by_cases hi : i = 0
    · have h0 := congrFun hstate 0
      simp only [Function.update_self] at h0
      rw [hi]
      exact add_right_cancel (hfifth h0)
    · have hj := congrFun hstate i
      simpa only [Function.update_of_ne hi] using hj

theorem rounds_injective (h35 : (35 : K) ≠ 0) (h2 : (2 : K) ≠ 0) (hdet : (327358 : K) ≠ 0)
    (hfifth : Function.Injective fun x : K => x ^ 5) : ∀ rounds : List (Round K),
    Function.Injective fun v => rounds.foldl applyRound v
  | [] => fun _ _ h => h
  | round :: rounds => fun _ _ h =>
    applyRound_injective h35 h2 hdet hfifth round (rounds_injective h35 h2 hdet hfifth rounds h)

end Aspis.Poseidon2
