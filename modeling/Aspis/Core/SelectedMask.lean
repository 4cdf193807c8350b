import Aspis.Core.PowerKernels
import Aspis.Lib.Accumulate

/-! The selected hiding mask at a point, in two forms: a table of factors, one for each column, and
one polynomial in the shared linear form evaluated by Horner's rule. The second form writes one
coefficient for each exponent, so it needs the exponents of all columns to be distinct. -/

namespace Aspis.Core

open Aspis.Lib.PowerSum Aspis.Lib.Accumulate
open scoped Widths

/-- The exponents of the shared form, at most 26 as the schedule asserts. -/
def FACTOR_EXPONENTS : Vector (Fin 27) 16 := #v[0, 2, 4, 6, 8, 10, 12, 14, 16, 18, 20, 22, 24, 26, 13, 25]

def MASK_ONLY_FACTOR_EXPONENTS : Vector (Fin 27) 10 := #v[1, 3, 5, 7, 9, 11, 15, 17, 19, 21]

def EXPLICIT_FACTOR_EXPONENT : UInt64 := 26

def EXPLICIT_FACTOR_FAMILY : ℕ := 16

/-! ### The factor table -/

structure StateOnlyMaskFactors where
  c1 : Vector QM31 16
  maskOnlyC1 : Vector QM31 10
  explicitG : QM31

/-- Multiplication by one of `1, i, u, iu`. -/
def mulTowerBasis (value : QM31) (coordinate : Fin 4) : QM31 :=
  match coordinate with
  | 0 => value
  | 1 => ⟨value.c0.mulI, value.c1.mulI⟩
  | 2 => ⟨mulByR value.c1, value.c0⟩
  | 3 => ⟨(mulByR value.c1).mulI, value.c0.mulI⟩

/-- The linear form of a family. -/
def maskLinear (family : ℕ) (point : Vector QM31 10) : QM31 :=
  point.toList.zipIdx.foldl (fun sum entry =>
    let scalar := 3 + 22 * entry.2 + family * (17 + 8 * entry.2)
    sum.add (entry.1.mulM31 ⟨UInt32.ofNat scalar⟩)) .zero

/-- An entry of the power table: one, the form, and then each entry times the form. -/
def sharedFactorPower (linear : QM31) : ℕ → QM31
  | 0 => .one
  | 1 => linear
  | exponent + 2 => (sharedFactorPower linear (exponent + 1)).mul linear

def stateOnlySharedFactorPowers (point : Vector QM31 10) : Vector QM31 27 :=
  let linear := maskLinear 0 point
  Vector.ofFn fun exponent => sharedFactorPower linear exponent.val

/-- The factors of columns with a schedule of exponents, rotated by the number of the column. -/
def columnFactors {n : ℕ} (exponents : Vector (Fin 27) n) (powers : Vector QM31 27) : Vector QM31 n :=
  Vector.ofFn fun column => mulTowerBasis powers[exponents[column]] (Fin.ofNat 4 column.val)

def stateOnlyMaskFactors (point : Vector QM31 10) : StateOnlyMaskFactors :=
  let powers := stateOnlySharedFactorPowers point
  { c1 := columnFactors FACTOR_EXPONENTS powers
    maskOnlyC1 := columnFactors MASK_ONLY_FACTOR_EXPONENTS powers
    explicitG := QM31.one.add ((maskLinear EXPLICIT_FACTOR_FAMILY point).pow EXPLICIT_FACTOR_EXPONENT) }

/-- The columns times their factors, added to a start. -/
def addColumns {n : ℕ} (start : QM31) (columns factors : Vector QM31 n) : QM31 :=
  (columns.toList.zip factors.toList).foldl (fun sum entry => sum.add (entry.2.mul entry.1)) start

def stateOnlyMaskValueWithFactors (c1 : Vector QM31 16) (explicitG : QM31) (factors : StateOnlyMaskFactors) : QM31 :=
  (addColumns .zero c1 factors.c1).add (factors.explicitG.mul explicitG)

def stateOnlySelectedMaskValueWithFactors (c1 : Vector QM31 16) (maskOnlyC1 : Vector QM31 10) (explicitG : QM31)
    (factors : StateOnlyMaskFactors) : QM31 :=
  addColumns (stateOnlyMaskValueWithFactors c1 explicitG factors) maskOnlyC1 factors.maskOnlyC1

/-! ### The Horner form -/

/-- The sums of the coordinates and of the coordinates times their indices, from the last coordinate down. -/
def runningSums (point : Vector QM31 10) : QM31 × QM31 :=
  point.toList.zipIdx.reverse.foldl (fun sums entry =>
    let suffix := sums.1.add entry.1
    (suffix, if entry.2 ≠ 0 then sums.2.add suffix else sums.2)) (.zero, .zero)

def selectedMaskLinears (point : Vector QM31 10) : QM31 × QM31 :=
  let (suffix, weighted) := runningSums point
  ((suffix.mulM31 ⟨3⟩).add (weighted.mulM31 ⟨22⟩), (suffix.mulM31 ⟨275⟩).add (weighted.mulM31 ⟨150⟩))

def maskPower26 (value : QM31) : QM31 :=
  let x2 := value.square
  let x4 := x2.square
  let x8 := x4.square
  let x16 := x8.square
  (x16.mul x8).mul x2

/-- Every column writes its rotated value at its exponent. -/
def writeColumns {n : ℕ} (exponents : Vector (Fin 27) n) (columns : Vector QM31 n) (coefficients : Vector QM31 27) :
    Vector QM31 27 :=
  (List.finRange n).foldl (fun coefficients column =>
    coefficients.set exponents[column].val (mulTowerBasis columns[column] (Fin.ofNat 4 column.val))) coefficients

def stateOnlySelectedMaskValue (c1 : Vector QM31 16) (maskOnlyC1 : Vector QM31 10) (explicitG : QM31)
    (point : Vector QM31 10) : QM31 :=
  let (linear, explicitLinear) := selectedMaskLinears point
  let coefficients := writeColumns FACTOR_EXPONENTS c1 (Vector.replicate 27 .zero)
  let coefficients := writeColumns MASK_ONLY_FACTOR_EXPONENTS maskOnlyC1 coefficients
  let shared := hornerFold linear coefficients[26] (coefficients.toList.take 26)
  shared.add ((QM31.one.add (maskPower26 explicitLinear)).mul explicitG)

/-! ### The linear forms -/

section IndexSum
variable {R : Type*} [CommRing R]

/-- The entries times their indices, from a first index on. -/
def indexSum (k : ℕ) (l : List R) : R := ((l.zipIdx k).map fun e => (e.2 : R) * e.1).sum

theorem indexSum_cons (k : ℕ) (a : R) (l : List R) : indexSum k (a :: l) = k * a + indexSum (k + 1) l := by
  rw [indexSum, List.zipIdx_cons, List.map_cons, List.sum_cons]
  rfl

/-- Weights that are affine in the index. -/
theorem sum_affine_weights (a b : ℕ) (l : List R) (k : ℕ) :
    ((l.zipIdx k).map fun e => e.1 * ((a + b * e.2 : ℕ) : R)).sum = a * l.sum + b * indexSum k l := by
  induction l generalizing k with
  | nil => simp [indexSum]
  | cons z l ih =>
    rw [List.zipIdx_cons, List.map_cons, List.sum_cons, ih, List.sum_cons, indexSum_cons]
    push_cast
    ring

end IndexSum

theorem denotes_scalar {n : ℕ} (h : n < 2147483647) : (⟨UInt32.ofNat n⟩ : M31).Denotes (n : BaseField) := by
  apply M31.denotes_of_mod
  rw [UInt32.toNat_ofNat', Nat.mod_eq_of_lt (by omega), Nat.mod_eq_of_lt h]

theorem lift_natCast (n : ℕ) : lift (n : BaseField) = (n : QuarticField) := map_natCast _ n

/-- The values of the coordinates. -/
def coordinates (point : Vector QM31 10) : List QuarticField := point.toList.map QM31.value

section Linears
variable {point : Vector QM31 10}

theorem maskLinear_denotes (hpoint : ∀ z ∈ point, z.Canonical) {family : ℕ} (hfamily : family ≤ 16) :
    (maskLinear family point).Denotes (((3 + 17 * family : ℕ) : QuarticField) * (coordinates point).sum +
      ((22 + 8 * family : ℕ) : QuarticField) * indexSum 0 (coordinates point)) := by
  have hstep : ∀ e ∈ point.toList.zipIdx, ∀ (sum : QM31) (v : QuarticField), sum.Denotes v →
      (sum.add (e.1.mulM31 ⟨UInt32.ofNat (3 + 22 * e.2 + family * (17 + 8 * e.2))⟩)).Denotes
        (v + e.1.value * ((3 + 17 * family + (22 + 8 * family) * e.2 : ℕ) : QuarticField)) := by
    intro e he sum v hv
    obtain ⟨-, hlt, hmem⟩ := List.mem_zipIdx he
    rw [Vector.length_toList] at hlt
    have hz : e.1.Canonical := by
      rw [hmem]
      exact hpoint _ (Vector.mem_toList_iff.mp (List.getElem_mem _))
    have hscalar : 3 + 22 * e.2 + family * (17 + 8 * e.2) = 3 + 17 * family + (22 + 8 * family) * e.2 := by ring
    have hbound : 3 + 17 * family + (22 + 8 * family) * e.2 < 2147483647 := by
      have hle : (22 + 8 * family) * e.2 ≤ 150 * 10 := Nat.mul_le_mul (by omega) (by omega)
      omega
    rw [hscalar, ← lift_natCast]
    exact hv.add (denotes_mulM31 hz.denotes (denotes_scalar hbound))
  have hfold := foldl_accumulates hstep QM31.denotes_zero
  rw [zero_add] at hfold
  rw [coordinates, ← sum_affine_weights, List.zipIdx_map, List.map_map]
  exact hfold

theorem runningSums_tail {l : List QM31} (h : ∀ z ∈ l, z.Canonical) (j : ℕ) :
    ∃ w, ((l.zipIdx (j + 1)).foldr (fun entry sums =>
        (sums.1.add entry.1, if entry.2 ≠ 0 then sums.2.add (sums.1.add entry.1) else sums.2))
          (QM31.zero, QM31.zero)).1.Denotes (l.map QM31.value).sum ∧
      ((l.zipIdx (j + 1)).foldr (fun entry sums =>
        (sums.1.add entry.1, if entry.2 ≠ 0 then sums.2.add (sums.1.add entry.1) else sums.2))
          (QM31.zero, QM31.zero)).2.Denotes w ∧
      w + j * (l.map QM31.value).sum = indexSum (j + 1) (l.map QM31.value) := by
  induction l generalizing j with
  | nil => exact ⟨0, QM31.denotes_zero, QM31.denotes_zero, by simp [indexSum]⟩
  | cons z l ih =>
    obtain ⟨w, hsuffix, hweighted, hsum⟩ := ih (fun z' hz' => h z' (List.mem_cons_of_mem z hz')) (j + 1)
    have hz := (h z List.mem_cons_self).denotes
    rw [List.zipIdx_cons, List.foldr_cons, if_pos (Nat.succ_ne_zero j), List.map_cons, List.sum_cons, indexSum_cons,
      ← hsum, add_comm z.value]
    refine ⟨w + ((l.map QM31.value).sum + z.value), hsuffix.add hz, hweighted.add (hsuffix.add hz), ?_⟩
    push_cast
    ring

theorem runningSums_denotes (hpoint : ∀ z ∈ point, z.Canonical) :
    (runningSums point).1.Denotes (coordinates point).sum ∧
      (runningSums point).2.Denotes (indexSum 0 (coordinates point)) := by
  have hlength : point.toList.length = 10 := Vector.length_toList
  have hcanonical : ∀ z ∈ point.toList, z.Canonical := fun z hz => hpoint z (Vector.mem_toList_iff.mp hz)
  unfold runningSums coordinates
  rw [List.foldl_reverse]
  cases hl : point.toList with
  | nil => rw [hl] at hlength; cases hlength
  | cons z l =>
    rw [hl] at hcanonical
    obtain ⟨w, hsuffix, hweighted, hsum⟩ := runningSums_tail (fun z' hz' => hcanonical z' (List.mem_cons_of_mem z hz')) 0
    rw [Nat.cast_zero, zero_mul, add_zero] at hsum
    rw [List.zipIdx_cons, List.foldr_cons, List.map_cons, List.sum_cons, indexSum_cons, Nat.cast_zero, zero_mul, zero_add,
      add_comm z.value, ← hsum]
    refine ⟨hsuffix.add (hcanonical z List.mem_cons_self).denotes, ?_⟩
    dsimp only
    rw [if_neg (not_not_intro rfl), zero_add]
    exact hweighted

/-- The running sums give both linear forms. -/
theorem selectedMaskLinears_eq (hpoint : ∀ z ∈ point, z.Canonical) :
    selectedMaskLinears point = (maskLinear 0 point, maskLinear EXPLICIT_FACTOR_FAMILY point) := by
  obtain ⟨hsuffix, hweighted⟩ := runningSums_denotes hpoint
  have hform : ∀ {a b : ℕ}, a < 2147483647 → b < 2147483647 →
      (((runningSums point).1.mulM31 ⟨UInt32.ofNat a⟩).add ((runningSums point).2.mulM31 ⟨UInt32.ofNat b⟩)).Denotes
        ((a : QuarticField) * (coordinates point).sum + (b : QuarticField) * indexSum 0 (coordinates point)) := by
    intro a b ha hb
    rw [mul_comm (a : QuarticField), mul_comm (b : QuarticField), ← lift_natCast, ← lift_natCast]
    exact (denotes_mulM31 hsuffix (denotes_scalar ha)).add (denotes_mulM31 hweighted (denotes_scalar hb))
  apply Prod.ext
  · exact (hform (by decide) (by decide)).eq (maskLinear_denotes hpoint (by decide))
  · exact (hform (by decide) (by decide)).eq (maskLinear_denotes hpoint (by decide))

end Linears

/-! ### Factors and coefficients -/

/-- `1, i, u, iu`. -/
def towerBasis : Fin 4 → QuarticField := ![1, ⟨⟨0, 1⟩, 0⟩, ⟨0, 1⟩, ⟨0, ⟨0, 1⟩⟩]

theorem mulTowerBasis_denotes {x : QM31} {v : QuarticField} (hx : x.Denotes v) (coordinate : Fin 4) :
    (mulTowerBasis x coordinate).Denotes (towerBasis coordinate * v) := by
  match coordinate with
  | 0 =>
    have hmul : towerBasis 0 * v = v := one_mul v
    rw [hmul]
    exact hx
  | 1 =>
    have hmul : towerBasis 1 * v = ⟨⟨0, 1⟩ * v.re, ⟨0, 1⟩ * v.im⟩ := by
      apply QuadraticAlgebra.ext
      · rw [QuadraticAlgebra.re_mul]
        simp [towerBasis]
      · rw [QuadraticAlgebra.im_mul]
        simp [towerBasis]
    rw [hmul]
    exact ⟨hx.c0.mulI, hx.c1.mulI⟩
  | 2 =>
    have hmul : towerBasis 2 * v = ⟨⟨2, 1⟩ * v.im, v.re⟩ := by
      apply QuadraticAlgebra.ext
      · rw [QuadraticAlgebra.re_mul]
        simp [towerBasis]
      · rw [QuadraticAlgebra.im_mul]
        simp [towerBasis]
    rw [hmul]
    exact ⟨hx.c1.mulByR, hx.c0⟩
  | 3 =>
    have hmul : towerBasis 3 * v = ⟨⟨0, 1⟩ * (⟨2, 1⟩ * v.im), ⟨0, 1⟩ * v.re⟩ := by
      apply QuadraticAlgebra.ext
      · have hre : (towerBasis 3).re = 0 ∧ (towerBasis 3).im = ⟨0, 1⟩ := ⟨rfl, rfl⟩
        rw [QuadraticAlgebra.re_mul, hre.1, hre.2]
        ring
      · rw [QuadraticAlgebra.im_mul]
        simp [towerBasis]
    rw [hmul]
    exact ⟨hx.c1.mulByR.mulI, hx.c0.mulI⟩

theorem sharedFactorPower_denotes {linear : QM31} {v : QuarticField} (h : linear.Denotes v) :
    ∀ exponent, (sharedFactorPower linear exponent).Denotes (v ^ exponent)
  | 0 => by
    rw [pow_zero]
    exact QM31.denotes_one
  | 1 => by
    rw [pow_one]
    exact h
  | exponent + 2 => by
    rw [pow_succ]
    exact (sharedFactorPower_denotes h (exponent + 1)).mul h

theorem maskPower26_denotes {x : QM31} {v : QuarticField} (h : x.Denotes v) : (maskPower26 x).Denotes (v ^ 26) := by
  have h2 := h.square
  have h4 := h2.square
  have h8 := h4.square
  have h16 := h8.square
  have hpow : v * v * (v * v) * (v * v * (v * v)) * (v * v * (v * v) * (v * v * (v * v))) *
      (v * v * (v * v) * (v * v * (v * v))) * (v * v) = v ^ 26 := by ring
  rw [← hpow]
  exact (h16.mul h8).mul h2

/-- What the columns of a schedule add to the mask. -/
def columnTerms {n : ℕ} (exponents : Vector (Fin 27) n) (columns : Vector QM31 n) (v : QuarticField) : QuarticField :=
  ((List.finRange n).map fun column =>
    towerBasis (Fin.ofNat 4 column.val) * columns[column].value * v ^ exponents[column].val).sum

theorem forall₂_set {α β : Type*} {R : α → β → Prop} {l : List α} {l' : List β} (h : List.Forall₂ R l l') {a : α} {b : β}
    (hab : R a b) (i : ℕ) : List.Forall₂ R (l.set i a) (l'.set i b) := by
  induction h generalizing i with
  | nil => exact List.Forall₂.nil
  | cons hhead htail ih =>
    cases i with
    | zero => exact List.Forall₂.cons hab htail
    | succ i => exact List.Forall₂.cons hhead (ih i)

section Columns
variable {n : ℕ} {exponents : Vector (Fin 27) n} {columns : Vector QM31 n} {linear : QM31} {v : QuarticField}

theorem addColumns_denotes (hcolumns : ∀ c ∈ columns, c.Canonical) (hlinear : linear.Denotes v) {start : QM31}
    {w : QuarticField} (hstart : start.Denotes w) :
    (addColumns start columns (columnFactors exponents (Vector.ofFn fun e => sharedFactorPower linear e.val))).Denotes
      (w + columnTerms exponents columns v) := by
  have hzip : columns.toList.zip (columnFactors exponents (Vector.ofFn fun e => sharedFactorPower linear e.val)).toList =
      (List.finRange n).map fun column =>
        (columns[column], mulTowerBasis (sharedFactorPower linear exponents[column].val) (Fin.ofNat 4 column.val)) := by
    apply List.ext_getElem
    · simp
    · intro i hi hi'
      simp [columnFactors]
  rw [addColumns, hzip, List.foldl_map, columnTerms]
  refine foldl_accumulates ?_ hstart
  intro column _ sum u hsum
  have hfactor := mulTowerBasis_denotes (sharedFactorPower_denotes hlinear exponents[column].val) (Fin.ofNat 4 column.val)
  have hvalue := (hcolumns columns[column] (Vector.getElem_mem _)).denotes
  have hterm := hsum.add (hfactor.mul hvalue)
  rw [mul_right_comm] at hterm
  exact hterm

/-- The writes of a schedule, in the order of the columns. -/
def columnWrites (exponents : Vector (Fin 27) n) (columns : Vector QM31 n) : List (ℕ × QuarticField) :=
  (List.finRange n).map fun column =>
    (exponents[column].val, towerBasis (Fin.ofNat 4 column.val) * columns[column].value)

theorem sum_columnWrites (v : QuarticField) :
    ((columnWrites exponents columns).map fun w => w.2 * v ^ w.1).sum = columnTerms exponents columns v := by
  rw [columnWrites, List.map_map]
  rfl

/-- The values of the coefficients after the writes of a schedule. -/
theorem writeColumns_denotes (hcolumns : ∀ c ∈ columns, c.Canonical) {coefficients : Vector QM31 27}
    {vs : List QuarticField} (h : List.Forall₂ QM31.Denotes coefficients.toList vs) :
    List.Forall₂ QM31.Denotes (writeColumns exponents columns coefficients).toList
      ((columnWrites exponents columns).foldl (fun l w => l.set w.1 w.2) vs) := by
  rw [writeColumns, columnWrites, List.foldl_map]
  generalize List.finRange n = order
  induction order generalizing coefficients vs with
  | nil => exact h
  | cons column order ih =>
    rw [List.foldl_cons, List.foldl_cons]
    apply ih
    rw [Vector.toList_set]
    exact forall₂_set h (mulTowerBasis_denotes (hcolumns columns[column] (Vector.getElem_mem _)).denotes _) _

end Columns

section Value
variable {c1 : Vector QM31 16} {maskOnlyC1 : Vector QM31 10} {explicitG : QM31} {point : Vector QM31 10}

/-- The exponents of all columns are distinct. -/
theorem exponents_nodup : ((List.finRange 16).map (fun column => FACTOR_EXPONENTS[column].val) ++
    (List.finRange 10).map fun column => MASK_ONLY_FACTOR_EXPONENTS[column].val).Nodup := by decide

/-- The written coefficients are those of the mask's polynomial in the shared form. -/
theorem written_coefficients (hc1 : ∀ c ∈ c1, c.Canonical) (hmask : ∀ c ∈ maskOnlyC1, c.Canonical) (v : QuarticField) :
    ∃ vs, List.Forall₂ QM31.Denotes (writeColumns MASK_ONLY_FACTOR_EXPONENTS maskOnlyC1
        (writeColumns FACTOR_EXPONENTS c1 (Vector.replicate 27 .zero))).toList vs ∧
      powerSum v vs = columnTerms FACTOR_EXPONENTS c1 v + columnTerms MASK_ONLY_FACTOR_EXPONENTS maskOnlyC1 v := by
  have hzero : List.Forall₂ QM31.Denotes (Vector.replicate 27 QM31.zero).toList (List.replicate 27 0) := by
    have hvalues : List.replicate 27 (0 : QuarticField) = (List.replicate 27 QM31.zero).map QM31.value := by
      rw [List.map_replicate, QM31.denotes_zero.value_eq]
    rw [Vector.toList_replicate, hvalues, List.forall₂_map_right_iff, List.forall₂_same]
    intro c hc
    rw [List.eq_of_mem_replicate hc]
    exact QM31.denotes_zero.canonical.denotes
  refine ⟨_, writeColumns_denotes hmask (writeColumns_denotes hc1 hzero), ?_⟩
  rw [← List.foldl_append, powerSum_foldl_set]
  · rw [powerSum_replicate_zero, zero_add, List.map_append, List.sum_append, sum_columnWrites, sum_columnWrites]
  · rw [List.map_append, columnWrites, columnWrites, List.map_map, List.map_map]
    exact exponents_nodup
  · intro w hw
    rw [List.length_replicate]
    have hlt : w.1 < 27 := by
      rcases List.mem_append.mp hw with hw | hw
      · obtain ⟨column, -, rfl⟩ := List.mem_map.mp hw
        exact Fin.isLt _
      · obtain ⟨column, -, rfl⟩ := List.mem_map.mp hw
        exact Fin.isLt _
    exact ⟨hlt, by rw [List.getD_eq_getElem?_getD, List.getElem?_replicate, if_pos hlt, Option.getD_some]⟩

/-- The Horner form of the mask is the form with the factor table. -/
theorem selected_mask_value_eq_factor_table (hpoint : ∀ z ∈ point, z.Canonical) (hc1 : ∀ c ∈ c1, c.Canonical)
    (hmask : ∀ c ∈ maskOnlyC1, c.Canonical) (hexplicit : explicitG.Canonical) :
    stateOnlySelectedMaskValue c1 maskOnlyC1 explicitG point =
      stateOnlySelectedMaskValueWithFactors c1 maskOnlyC1 explicitG (stateOnlyMaskFactors point) := by
  have hlinear := maskLinear_denotes hpoint (show 0 ≤ 16 by decide)
  have hform := maskLinear_denotes hpoint (show EXPLICIT_FACTOR_FAMILY ≤ 16 by decide)
  set v := ((3 + 17 * 0 : ℕ) : QuarticField) * (coordinates point).sum +
    ((22 + 8 * 0 : ℕ) : QuarticField) * indexSum 0 (coordinates point)
  set u := ((3 + 17 * EXPLICIT_FACTOR_FAMILY : ℕ) : QuarticField) * (coordinates point).sum +
    ((22 + 8 * EXPLICIT_FACTOR_FAMILY : ℕ) : QuarticField) * indexSum 0 (coordinates point)
  obtain ⟨vs, hvs, hsum⟩ := written_coefficients hc1 hmask v
  have hshared := hornerFold_vector_denotes (fun c hc => canonical_of_denotes hvs c (Vector.mem_toList_iff.mpr hc)) hlinear
  rw [map_value_of_denotes hvs, hsum] at hshared
  have hhorner := hshared.add ((QM31.denotes_one.add (maskPower26_denotes hform)).mul hexplicit.denotes)
  have hfactor := QM31.denotes_one.add (hform.pow EXPLICIT_FACTOR_EXPONENT)
  have hcolumns := @addColumns_denotes 16 FACTOR_EXPONENTS c1 _ v hc1 hlinear _ _ QM31.denotes_zero
  have htable := @addColumns_denotes 10 MASK_ONLY_FACTOR_EXPONENTS maskOnlyC1 _ v hmask hlinear _ _
    (hcolumns.add (hfactor.mul hexplicit.denotes))
  have hvalue : 0 + columnTerms FACTOR_EXPONENTS c1 v + (1 + u ^ EXPLICIT_FACTOR_EXPONENT.toNat) * explicitG.value +
      columnTerms MASK_ONLY_FACTOR_EXPONENTS maskOnlyC1 v =
        columnTerms FACTOR_EXPONENTS c1 v + columnTerms MASK_ONLY_FACTOR_EXPONENTS maskOnlyC1 v +
          (1 + u ^ 26) * explicitG.value := by
    rw [zero_add, add_right_comm]
    rfl
  rw [hvalue] at htable
  have heq := hhorner.eq htable
  unfold stateOnlySelectedMaskValue
  rw [selectedMaskLinears_eq hpoint]
  exact heq

/-- The two forms at a point with a nonzero coordinate. -/
theorem selected_mask_value_eq_factor_table_sample :
    stateOnlySelectedMaskValue (Vector.replicate 16 .one) (Vector.replicate 10 ⟨⟨⟨5⟩, ⟨7⟩⟩, .one⟩) .one
        (Vector.replicate 10 ⟨⟨⟨2⟩, ⟨3⟩⟩, .zero⟩) =
      stateOnlySelectedMaskValueWithFactors (Vector.replicate 16 .one) (Vector.replicate 10 ⟨⟨⟨5⟩, ⟨7⟩⟩, .one⟩) .one
        (stateOnlyMaskFactors (Vector.replicate 10 ⟨⟨⟨2⟩, ⟨3⟩⟩, .zero⟩)) :=
  selected_mask_value_eq_factor_table (fun z hz => by rw [Vector.eq_of_mem_replicate hz]; decide)
    (fun c hc => by rw [Vector.eq_of_mem_replicate hc]; decide)
    (fun c hc => by rw [Vector.eq_of_mem_replicate hc]; decide) (by decide)

end Value

end Aspis.Core
