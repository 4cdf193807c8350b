import Mathlib.Algebra.BigOperators.Intervals
import Mathlib.Algebra.BigOperators.Fin
import Mathlib.Algebra.BigOperators.Ring.Finset
import Mathlib.Data.Nat.Bitwise
import Mathlib.Tactic.FieldSimp
import Mathlib.Tactic.FinCases
import Mathlib.Tactic.LinearCombination
import Mathlib.Tactic.Ring

/-! The arity-four fold of a vector and the dual fold of a covector. A chunk of four values is the
cubic with these coefficients, and a chunk of weights the cubic with its coefficients in the dual
order, divided by four; the coefficients of the product carry the inner product of the chunk at the
degrees zero and four, and at a challenge the product is that of the two folds. -/

namespace Aspis.Lib.DualFold

variable {K : Type*} [Field K]

def foldValues (α : K) (v : ℕ → K) (j : ℕ) : K :=
  v (4 * j) + α * v (4 * j + 1) + α ^ 2 * v (4 * j + 2) + α ^ 3 * v (4 * j + 3)

def foldWeights (α : K) (w : ℕ → K) (j : ℕ) : K :=
  (w (4 * j) + α ^ 3 * w (4 * j + 1) + α ^ 2 * w (4 * j + 2) + α * w (4 * j + 3)) / 4

def pairing (n : ℕ) (w v : ℕ → K) : K := ∑ i ∈ Finset.range n, v i * w i

/-- The products of one chunk, by degree. -/
def chunkCoeff (v w : Fin 4 → K) : Fin 7 → K :=
  ![v 0 * w 0 / 4,
    (v 0 * w 3 + v 1 * w 0) / 4,
    (v 0 * w 2 + v 1 * w 3 + v 2 * w 0) / 4,
    (v 0 * w 1 + v 1 * w 2 + v 2 * w 3 + v 3 * w 0) / 4,
    (v 1 * w 1 + v 2 * w 2 + v 3 * w 3) / 4,
    (v 2 * w 1 + v 3 * w 2) / 4,
    v 3 * w 1 / 4]

/-- One product of a chunk at its degree. -/
def productAt (v w : Fin 4 → K) (a b : Fin 4) (d : Fin 7) : K :=
  if d.val = a.val + b.val then v a * ![w 0, w 3, w 2, w 1] b / 4 else 0

theorem sum_productAt (v w : Fin 4 → K) (d : Fin 7) : ∑ a, ∑ b, productAt v w a b d = chunkCoeff v w d := by
  simp only [Fin.sum_univ_four, productAt]
  fin_cases d <;> simp [chunkCoeff] <;> ring

def chunk (v : ℕ → K) (j : ℕ) : Fin 4 → K := fun slot => v (4 * j + slot.val)

/-- The coefficients of the round polynomial over a number of chunks. -/
def roundCoeff (chunks : ℕ) (w v : ℕ → K) (d : Fin 7) : K :=
  ∑ j ∈ Finset.range chunks, chunkCoeff (chunk v j) (chunk w j) d

theorem roundCoeff_succ (chunks : ℕ) (w v : ℕ → K) (d : Fin 7) :
    roundCoeff (chunks + 1) w v d = roundCoeff chunks w v d + chunkCoeff (chunk v chunks) (chunk w chunks) d :=
  Finset.sum_range_succ _ _

/-- Of the fourth roots of unity only the degrees zero and four survive. -/
theorem boundary (h4 : (4 : K) ≠ 0) (w v : ℕ → K) : ∀ chunks : ℕ,
    4 * (roundCoeff chunks w v 0 + roundCoeff chunks w v 4) = pairing (4 * chunks) w v
  | 0 => by simp [roundCoeff, pairing]
  | chunks + 1 => by
    have ih := boundary h4 w v chunks
    have hrange : pairing (4 * (chunks + 1)) w v = pairing (4 * chunks) w v + v (4 * chunks) * w (4 * chunks) +
        v (4 * chunks + 1) * w (4 * chunks + 1) + v (4 * chunks + 2) * w (4 * chunks + 2) +
        v (4 * chunks + 3) * w (4 * chunks + 3) := by
      unfold pairing
      rw [Nat.mul_succ, Finset.sum_range_succ, Finset.sum_range_succ, Finset.sum_range_succ, Finset.sum_range_succ]
    have h0 : chunkCoeff (chunk v chunks) (chunk w chunks) 0 = v (4 * chunks) * w (4 * chunks) / 4 := rfl
    have h1 : chunkCoeff (chunk v chunks) (chunk w chunks) 4 = (v (4 * chunks + 1) * w (4 * chunks + 1) +
        v (4 * chunks + 2) * w (4 * chunks + 2) + v (4 * chunks + 3) * w (4 * chunks + 3)) / 4 := rfl
    rw [hrange, ← ih, roundCoeff_succ, roundCoeff_succ, h0, h1]
    field_simp
    ring

/-- At a challenge the round polynomial is the inner product of the two folds. -/
theorem evaluation (α : K) (w v : ℕ → K) : ∀ chunks : ℕ,
    ∑ d : Fin 7, roundCoeff chunks w v d * α ^ d.val = pairing chunks (foldWeights α w) (foldValues α v)
  | 0 => by simp [roundCoeff, pairing]
  | chunks + 1 => by
    have ih := evaluation α w v chunks
    have hchunk : ∑ d : Fin 7, chunkCoeff (chunk v chunks) (chunk w chunks) d * α ^ d.val =
        foldValues α v chunks * foldWeights α w chunks := by
      simp only [Fin.sum_univ_succ, chunkCoeff, chunk, foldValues, foldWeights]
      simp
      ring
    have hinner : pairing (chunks + 1) (foldWeights α w) (foldValues α v) =
        pairing chunks (foldWeights α w) (foldValues α v) + foldValues α v chunks * foldWeights α w chunks :=
      Finset.sum_range_succ _ _
    rw [hinner, ← ih, ← hchunk, ← Finset.sum_add_distrib]
    refine Finset.sum_congr rfl fun d _ => ?_
    rw [roundCoeff_succ, add_mul]

/-! ### Linearity -/

theorem foldWeights_add (α : K) (w w' : ℕ → K) :
    foldWeights α (fun i => w i + w' i) = fun j => foldWeights α w j + foldWeights α w' j := by
  funext j
  simp only [foldWeights]
  ring

theorem foldWeights_zero (α : K) : foldWeights α (fun _ => (0 : K)) = fun _ => 0 := by
  funext j
  simp [foldWeights]

theorem foldWeights_div (α c : K) (w : ℕ → K) :
    foldWeights α (fun i => w i / c) = fun j => foldWeights α w j / c := by
  funext j
  simp only [foldWeights]
  ring

/-- The dual fold at an index reads only its chunk. -/
theorem foldWeights_congr {α : K} {w w' : ℕ → K} {j : ℕ} (h : ∀ i, 4 * j ≤ i → i < 4 * j + 4 → w i = w' i) :
    foldWeights α w j = foldWeights α w' j := by
  simp only [foldWeights]
  rw [h (4 * j) (by omega) (by omega), h (4 * j + 1) (by omega) (by omega), h (4 * j + 2) (by omega) (by omega),
    h (4 * j + 3) (by omega) (by omega)]

/-- The powers of a challenge in the dual order. -/
def dualPower (α : K) : Fin 4 → K := ![1, α ^ 3, α ^ 2, α]

theorem foldWeights_eq_sum (α : K) (w : ℕ → K) (j : ℕ) :
    foldWeights α w j = (∑ slot : Fin 4, dualPower α slot * w (4 * j + slot.val)) / 4 := by
  simp only [foldWeights, dualPower, Fin.sum_univ_four]
  simp

def highSlot (low : Fin 16) : Fin 4 := ⟨low.val / 4, by omega⟩

def lowSlot (low : Fin 16) : Fin 4 := ⟨low.val % 4, by omega⟩

theorem sum_slots (g : Fin 4 → Fin 4 → K) :
    ∑ low : Fin 16, g (highSlot low) (lowSlot low) = ∑ high, ∑ low, g high low := by
  rw [← Fintype.sum_prod_type', ← (@finProdFinEquiv 4 4).sum_comp fun low => g (highSlot low) (lowSlot low)]
  refine Finset.sum_congr rfl fun slots _ => ?_
  have hvalue : (finProdFinEquiv slots).val = slots.2.val + 4 * slots.1.val := rfl
  have hhigh : highSlot (finProdFinEquiv slots) = slots.1 := by
    apply Fin.ext
    show (finProdFinEquiv slots).val / 4 = slots.1.val
    rw [hvalue]
    omega
  have hlow : lowSlot (finProdFinEquiv slots) = slots.2 := by
    apply Fin.ext
    show (finProdFinEquiv slots).val % 4 = slots.2.val
    rw [hvalue]
    omega
  rw [hhigh, hlow]

/-- The weights of sixteen positions under two dual folds. -/
def slotPower (α β : K) (low : Fin 16) : K := dualPower β (highSlot low) * dualPower α (lowSlot low)

theorem sum_slotPower (α β : K) :
    ∑ low : Fin 16, slotPower α β low = (∑ slot, dualPower α slot) * ∑ slot, dualPower β slot := by
  have hslots := sum_slots fun high low => dualPower β high * dualPower α low
  unfold slotPower
  rw [hslots, mul_comm, Finset.sum_mul_sum]

theorem foldWeights_twice (α β : K) (w : ℕ → K) :
    foldWeights β (foldWeights α w) 0 = (∑ low : Fin 16, w low.val * slotPower α β low) / 16 := by
  have hslots := sum_slots fun high low => w (4 * high.val + low.val) * (dualPower β high * dualPower α low)
  have hindex : ∀ low : Fin 16, 4 * (highSlot low).val + (lowSlot low).val = low.val := fun low =>
    Nat.div_add_mod low.val 4
  simp only [hindex] at hslots
  have hsixteen : (16 : K) = 4 * 4 := by norm_num
  unfold slotPower
  rw [hslots, hsixteen, ← div_div]
  simp only [foldWeights_eq_sum, Fin.sum_univ_four]
  simp
  ring

/-! ### Rows -/

/-- A covector laid out in rows of equal width. -/
def rows (f : ℕ → ℕ → K) (width i : ℕ) : K := f (i / width) (i % width)

/-- The dual fold stays within the rows. -/
theorem foldWeights_rows (α : K) (f : ℕ → ℕ → K) (m : ℕ) :
    foldWeights α (rows f (4 * m)) = rows (fun row => foldWeights α (f row)) m := by
  funext j
  have hslot : ∀ slot < 4, rows f (4 * m) (4 * j + slot) = f (j / m) (4 * (j % m) + slot) := by
    intro slot hslot
    have hdiv : (4 * j + slot) / (4 * m) = j / m := by
      rw [← Nat.div_div_eq_div_mul]
      congr 1
      omega
    have hmod : (4 * j + slot) % (4 * m) = 4 * (j % m) + slot := by
      rw [Nat.mod_mul]
      have h4 : (4 * j + slot) / 4 = j := by omega
      rw [h4]
      omega
    rw [rows, hdiv, hmod]
  have h0 := hslot 0 (by decide)
  rw [Nat.add_zero, Nat.add_zero] at h0
  rw [rows, foldWeights, foldWeights, h0, hslot 1 (by decide), hslot 2 (by decide), hslot 3 (by decide)]

/-- A row of sixteen folds twice to one weight. -/
theorem foldWeights_rows_sixteen (α β : K) (f : ℕ → ℕ → K) (j : ℕ) :
    foldWeights β (rows (fun row => foldWeights α (f row)) 4) j = foldWeights β (foldWeights α (f j)) 0 := by
  have hrow := congrFun (foldWeights_rows β (fun row => foldWeights α (f row)) 1) j
  rw [Nat.mul_one] at hrow
  rw [hrow, rows, Nat.div_one, Nat.mod_one]

theorem foldWeights_shift (α : K) (w : ℕ → K) (c j : ℕ) :
    foldWeights α (fun i => w (4 * c + i)) j = foldWeights α w (c + j) := by
  have hslot : ∀ slot, 4 * c + (4 * j + slot) = 4 * (c + j) + slot := by
    intro slot
    ring
  have h0 := hslot 0
  rw [Nat.add_zero, Nat.add_zero] at h0
  simp only [foldWeights, hslot, h0]

/-! ### Products over the bits of the index -/

/-- One factor a bit of the index. -/
def bitProduct (f : ℕ → Bool → K) (bits : ℕ) (i : ℕ) : K := ∏ b ∈ Finset.range bits, f b (i.testBit b)

theorem bitProduct_chunk (f : ℕ → Bool → K) (bits j : ℕ) {slot : ℕ} (hslot : slot < 4) :
    bitProduct f (bits + 2) (4 * j + slot) =
      f 0 (slot.testBit 0) * f 1 (slot.testBit 1) * bitProduct (fun b => f (b + 2)) bits j := by
  have hlow : (4 * j + slot).testBit 0 = slot.testBit 0 := by
    rw [Nat.testBit_zero, Nat.testBit_zero]
    exact decide_eq_decide.mpr (by omega)
  have hhigh : (4 * j + slot).testBit 1 = slot.testBit 1 := by
    rw [Nat.testBit_succ, Nat.testBit_succ, Nat.testBit_zero, Nat.testBit_zero]
    exact decide_eq_decide.mpr (by omega)
  have hrest : ∀ b, (4 * j + slot).testBit (b + 2) = j.testBit b := by
    intro b
    rw [Nat.testBit_succ, Nat.testBit_succ]
    congr 1
    omega
  unfold bitProduct
  rw [Finset.prod_range_succ', Finset.prod_range_succ', hlow]
  simp only [Nat.add_assoc, hrest, Nat.zero_add]
  rw [hhigh]
  ring

/-- A product folds to its remaining factors and one scalar. -/
theorem foldWeights_bitProduct (α scale : K) (f : ℕ → Bool → K) (bits : ℕ) :
    foldWeights α (fun i => scale * bitProduct f (bits + 2) i) = fun j =>
      scale * ((f 0 false * f 1 false + α ^ 3 * (f 0 true * f 1 false) + α ^ 2 * (f 0 false * f 1 true) +
        α * (f 0 true * f 1 true)) / 4) * bitProduct (fun b => f (b + 2)) bits j := by
  funext j
  have h0 : bitProduct f (bits + 2) (4 * j) =
      f 0 (Nat.testBit 0 0) * f 1 (Nat.testBit 0 1) * bitProduct (fun b => f (b + 2)) bits j :=
    @bitProduct_chunk K _ f bits j 0 (by decide)
  have h1 := @bitProduct_chunk K _ f bits j 1 (by decide)
  have h2 := @bitProduct_chunk K _ f bits j 2 (by decide)
  have h3 := @bitProduct_chunk K _ f bits j 3 (by decide)
  have t0 : Nat.testBit 0 0 = false ∧ Nat.testBit 0 1 = false ∧ Nat.testBit 1 0 = true ∧ Nat.testBit 1 1 = false ∧
      Nat.testBit 2 0 = false ∧ Nat.testBit 2 1 = true ∧ Nat.testBit 3 0 = true ∧ Nat.testBit 3 1 = true := by decide
  obtain ⟨b00, b01, b10, b11, b20, b21, b30, b31⟩ := t0
  simp only [foldWeights]
  rw [h0, h1, h2, h3, b00, b01, b10, b11, b20, b21, b30, b31]
  ring

end Aspis.Lib.DualFold
