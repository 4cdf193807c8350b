import Aspis.Core.RoundPolynomial

/-! The inner product of an accumulator with a vector. At four weights the lines are summed first, in
raw 64-bit words of up to four products, with their halvings brought to a common number. -/

namespace Aspis.Core

open Aspis.Lib.DualFold Aspis.Lib.Accumulate
open scoped Widths

/-! ### One weight after the other -/

theorem sum_zipIdx (values : List QM31) (w : ℕ → QuarticField) :
    (values.zipIdx.map fun entry => entry.1.value * w entry.2).sum = pairing values.length w (entryAt values) := by
  have hlen : (values.zipIdx.map fun entry => entry.1.value * w entry.2).length = values.length := by
    rw [List.length_map, List.length_zipIdx]
  rw [← sum_range_getD, hlen, ← Finset.range_eq_Ico]
  refine Finset.sum_congr rfl fun i hi => ?_
  have hi' : i < values.length := Finset.mem_range.mp hi
  rw [entryAt, List.getD_eq_getElem?_getD, List.getD_eq_getElem?_getD, List.getElem?_map, List.getElem?_zipIdx,
    List.getElem?_eq_getElem hi', Nat.zero_add]
  rfl

variable {weights : WeightAccumulator}

theorem dot_by_weight (h : weights.Shape) {values : List QM31} (hvalues : ∀ v ∈ values, v.Canonical)
    (hlen : values.length = 2 ^ weights.logLen) :
    ∃ q, values.zipIdx.foldlM (fun sum entry => do
      let weight ← weights.weightAt (entry.2 % 2 ^ 32)
      return sum.add (entry.1.mul weight)) QM31.zero = some q ∧
      q.Denotes (pairing (2 ^ weights.logLen) weights.covector (entryAt values)) := by
  have hpow : 2 ^ weights.logLen < 2 ^ 32 := Nat.pow_lt_pow_right (by decide) h.small
  have hsum := @foldlM_accumulates _ _ _ _ QM31.Denotes (fun sum (entry : QM31 × ℕ) => do
    let weight ← weights.weightAt (entry.2 % 2 ^ 32)
    return sum.add (entry.1.mul weight)) (fun entry => entry.1.value * weights.covector entry.2) values.zipIdx ?_
    QM31.zero 0 QM31.denotes_zero
  · rw [zero_add, sum_zipIdx, hlen] at hsum
    exact hsum
  · intro entry hentry x v hx
    obtain ⟨i, hi, hget⟩ := List.getElem_of_mem hentry
    rw [List.length_zipIdx] at hi
    rw [List.getElem_zipIdx, Nat.zero_add] at hget
    subst hget
    obtain ⟨weight, hweight, hd⟩ := @WeightAccumulator.weightAt_denotes weights h i (by omega)
    have hindex : i % 2 ^ 32 = i := Nat.mod_eq_of_lt (by omega)
    refine ⟨x.add (values[i].mul weight), ?_, hx.add ((hvalues _ (List.getElem_mem hi)).denotes.mul hd)⟩
    dsimp only
    rw [hindex, hweight]
    rfl

/-! ### Four weights -/

theorem pairing_four (w v : ℕ → QuarticField) : pairing 4 w v = v 0 * w 0 + v 1 * w 1 + v 2 * w 2 + v 3 * w 3 := by
  simp only [pairing, Finset.sum_range_succ, Finset.sum_range_zero, zero_add]

theorem Represents.pairing_eq {logLen : ℕ} {component : WeightComponent} {w : ℕ → QuarticField}
    (h : Represents logLen component w) (v : ℕ → QuarticField) :
    pairing (2 ^ logLen) (component.covector logLen) v = pairing (2 ^ logLen) w v := by
  refine Finset.sum_congr rfl fun i hi => ?_
  rw [h.covector_eq (Finset.mem_range.mp hi)]

theorem bitProduct_two (f : ℕ → Bool → QuarticField) (i : ℕ) :
    bitProduct f 2 i = f 0 (i.testBit 0) * f 1 (i.testBit 1) := by
  rw [bitProduct, Finset.prod_range_succ, Finset.prod_range_one]

theorem pairing_bitProduct (s : QuarticField) (f : ℕ → Bool → QuarticField) (v : ℕ → QuarticField) :
    pairing 4 (fun i => s * bitProduct f 2 i) v = s * (v 0 * (f 0 false * f 1 false) + v 1 * (f 0 true * f 1 false) +
      v 2 * (f 0 false * f 1 true) + v 3 * (f 0 true * f 1 true)) := by
  have hbits : Nat.testBit 0 0 = false ∧ Nat.testBit 0 1 = false ∧ Nat.testBit 1 0 = true ∧ Nat.testBit 1 1 = false ∧
      Nat.testBit 2 0 = false ∧ Nat.testBit 2 1 = true ∧ Nat.testBit 3 0 = true ∧ Nat.testBit 3 1 = true := by decide
  obtain ⟨b00, b01, b10, b11, b20, b21, b30, b31⟩ := hbits
  rw [pairing_four]
  simp only [bitProduct_two]
  rw [b00, b01, b10, b11, b20, b21, b30, b31]
  ring

/-- The factors of two items. -/
theorem factorsOf_pair {β : Type} (f : β → Bool → QuarticField) (high low : β) (bit : Bool) :
    factorsOf f [high, low] 0 bit = f low bit ∧ factorsOf f [high, low] 1 bit = f high bit := ⟨rfl, rfl⟩

variable {values : Fin 4 → QM31} {v : ℕ → QuarticField}

/-- Four entries of a table against the four values. -/
theorem foldlM_four_denotes (hv : ∀ k : Fin 4, (values k).Denotes (v k.val)) {read : ℕ → Option QM31}
    {w : ℕ → QuarticField} (hread : ∀ i < 4, ∃ q, read i = some q ∧ q.Denotes (w i)) :
    ∃ q, (List.finRange 4).foldlM (fun sum index => do
      let weight ← read index.val
      return sum.add ((values index).mul weight)) QM31.zero = some q ∧ q.Denotes (pairing 4 w v) := by
  have hsum := @foldlM_accumulates _ _ _ _ QM31.Denotes (fun sum (index : Fin 4) => do
    let weight ← read index.val
    return sum.add ((values index).mul weight)) (fun index => v index.val * w index.val) (List.finRange 4) ?_
    QM31.zero 0 QM31.denotes_zero
  · have hinner : pairing 4 w v = ((List.finRange 4).map fun index => v index.val * w index.val).sum := by
      rw [← Fin.sum_univ_def, pairing, Finset.sum_range]
    rw [zero_add, ← hinner] at hsum
    exact hsum
  · intro index _ x s hx
    obtain ⟨weight, hweight, hd⟩ := hread index.val index.isLt
    refine ⟨x.add ((values index).mul weight), ?_, hx.add ((hv index).mul hd)⟩
    rw [hweight]
    rfl

theorem dotFour_dense {table : List QM31} (h : WeightComponent.Shape 2 (.dense table))
    (hv : ∀ k : Fin 4, (values k).Denotes (v k.val)) :
    ∃ q, WeightComponent.dotFour values (.dense table) = some q ∧
      q.Denotes (pairing 4 (WeightComponent.covector 2 (.dense table)) v) := by
  have hrep := h.covector (by decide)
  have hread : ∀ i < 4, ∃ q, table[i]? = some q ∧ q.Denotes (WeightComponent.covector 2 (.dense table) i) :=
    fun i hi => hrep i hi
  rw [WeightComponent.dotFour]
  exact foldlM_four_denotes hv hread

theorem dotFour_deferred {rowGroups : List ℕ} {groupMasks : List UInt16} {firstAlpha : Option QM31}
    {groupValues : List QM31}
    (h : WeightComponent.Shape 2 (.grouped64x16BinaryDeferred rowGroups groupMasks firstAlpha groupValues))
    (hv : ∀ k : Fin 4, (values k).Denotes (v k.val)) :
    ∃ q, WeightComponent.dotFour values (.grouped64x16BinaryDeferred rowGroups groupMasks firstAlpha groupValues) = some q ∧
      q.Denotes (pairing 4 (WeightComponent.covector 2
        (.grouped64x16BinaryDeferred rowGroups groupMasks firstAlpha groupValues)) v) := by
  have hrep := h.covector (by decide)
  have hread : ∀ i < 4, ∃ q, (rowGroups[i]?.bind fun group => groupValues[group]?) = some q ∧ q.Denotes
      (WeightComponent.covector 2 (.grouped64x16BinaryDeferred rowGroups groupMasks firstAlpha groupValues) i) :=
    fun i hi => hrep i hi
  obtain ⟨q, hq, hd⟩ := foldlM_four_denotes hv hread
  refine ⟨q, ?_, hd⟩
  simp only [Option.bind_eq_bind, Option.bind_assoc] at hq
  rw [WeightComponent.dotFour]
  exact hq

theorem dotFour_geometric {scale base : QM31} (hs : scale.Canonical) (hb : base.Canonical)
    (h0 : (values 0).Denotes (v 0)) (h1 : (values 1).Denotes (v 1)) (h2 : (values 2).Denotes (v 2))
    (h3 : (values 3).Denotes (v 3)) :
    ∃ q, WeightComponent.dotFour values (.geometric scale base) = some q ∧
      q.Denotes (pairing 4 (WeightComponent.covector 2 (.geometric scale base)) v) := by
  have hrep := @geometric_represents scale base 2 hs hb (by decide)
  have hpair : pairing 4 (WeightComponent.covector 2 (.geometric scale base)) v =
      pairing 4 (fun i => scale.value * base.value ^ i) v := hrep.pairing_eq v
  have hvalue := hs.denotes.mul (((h0.add (hb.denotes.mul h1)).add (hb.denotes.square.mul h2)).add
    ((hb.denotes.square.mul hb.denotes).mul h3))
  have hsum : scale.value * (v 0 + base.value * v 1 + base.value * base.value * v 2 +
      base.value * base.value * base.value * v 3) = v 0 * (scale.value * base.value ^ 0) +
      v 1 * (scale.value * base.value ^ 1) + v 2 * (scale.value * base.value ^ 2) +
      v 3 * (scale.value * base.value ^ 3) := by ring
  rw [hpair, pairing_four, ← hsum]
  exact ⟨_, rfl, hvalue⟩

theorem dotFour_multilinear {scale z0 z1 : QM31} (hs : scale.Canonical) (hz0 : z0.Canonical) (hz1 : z1.Canonical)
    (h0 : (values 0).Denotes (v 0)) (h1 : (values 1).Denotes (v 1)) (h2 : (values 2).Denotes (v 2))
    (h3 : (values 3).Denotes (v 3)) :
    ∃ q, WeightComponent.dotFour values (.multilinear scale [z0, z1]) = some q ∧
      q.Denotes (pairing 4 (WeightComponent.covector 2 (.multilinear scale [z0, z1])) v) := by
  have hrep := @multilinear_represents scale [z0, z1] hs (by simp [hz0, hz1])
  have hpair : pairing 4 (WeightComponent.covector 2 (.multilinear scale [z0, z1])) v =
      pairing 4 (fun i => scale.value * bitProduct (factorsOf multilinearFactor [z0, z1]) 2 i) v := hrep.pairing_eq v
  have hlow := h0.add (hz1.denotes.mul (h1.sub h0))
  have hhigh := h2.add (hz1.denotes.mul (h3.sub h2))
  have hvalue := hs.denotes.mul (hlow.add (hz0.denotes.mul (hhigh.sub hlow)))
  have hsum : pairing 4 (fun i => scale.value * bitProduct (factorsOf multilinearFactor [z0, z1]) 2 i) v =
      scale.value * (v 0 + z1.value * (v 1 - v 0) + z0.value * (v 2 + z1.value * (v 3 - v 2) -
        (v 0 + z1.value * (v 1 - v 0)))) := by
    rw [pairing_bitProduct]
    simp only [factorsOf_pair, multilinearFactor, if_true, Bool.false_eq_true, if_false]
    ring
  rw [hpair, hsum]
  exact ⟨_, rfl, hvalue⟩

theorem dotFour_tensor {scale f0 f1 : QM31} (hs : scale.Canonical) (hf0 : f0.Canonical) (hf1 : f1.Canonical)
    (h0 : (values 0).Denotes (v 0)) (h1 : (values 1).Denotes (v 1)) (h2 : (values 2).Denotes (v 2))
    (h3 : (values 3).Denotes (v 3)) :
    ∃ q, WeightComponent.dotFour values (.tensor scale [f0, f1]) = some q ∧
      q.Denotes (pairing 4 (WeightComponent.covector 2 (.tensor scale [f0, f1])) v) := by
  have hrep := @tensor_represents scale [f0, f1] hs (by simp [hf0, hf1])
  have hpair : pairing 4 (WeightComponent.covector 2 (.tensor scale [f0, f1])) v =
      pairing 4 (fun i => scale.value * bitProduct (factorsOf tensorFactor [f0, f1]) 2 i) v := hrep.pairing_eq v
  have hvalue := hs.denotes.mul ((h0.add (hf1.denotes.mul h1)).add (hf0.denotes.mul (h2.add (hf1.denotes.mul h3))))
  have hsum : pairing 4 (fun i => scale.value * bitProduct (factorsOf tensorFactor [f0, f1]) 2 i) v =
      scale.value * (v 0 + f1.value * v 1 + f0.value * (v 2 + f1.value * v 3)) := by
    rw [pairing_bitProduct]
    simp only [factorsOf_pair, tensorFactor, if_true, Bool.false_eq_true, if_false]
    ring
  rw [hpair, hsum]
  exact ⟨_, rfl, hvalue⟩

theorem dotFour_product {scale : QM31} {p0 p1 : QM31 × QM31} (hs : scale.Canonical)
    (hp0 : p0.1.Canonical ∧ p0.2.Canonical) (hp1 : p1.1.Canonical ∧ p1.2.Canonical)
    (h0 : (values 0).Denotes (v 0)) (h1 : (values 1).Denotes (v 1)) (h2 : (values 2).Denotes (v 2))
    (h3 : (values 3).Denotes (v 3)) :
    ∃ q, WeightComponent.dotFour values (.product scale [p0, p1]) = some q ∧
      q.Denotes (pairing 4 (WeightComponent.covector 2 (.product scale [p0, p1])) v) := by
  have hrep := @product_represents scale [p0, p1] hs (by
    intro pair hpair
    rcases List.mem_pair.mp hpair with rfl | rfl
    · exact hp0
    · exact hp1)
  have hpair : pairing 4 (WeightComponent.covector 2 (.product scale [p0, p1])) v =
      pairing 4 (fun i => scale.value * bitProduct (factorsOf productFactor [p0, p1]) 2 i) v := hrep.pairing_eq v
  have hvalue := hs.denotes.mul ((((h0.mul (hp0.1.denotes.mul hp1.1.denotes)).add
    (h1.mul (hp0.1.denotes.mul hp1.2.denotes))).add (h2.mul (hp0.2.denotes.mul hp1.1.denotes))).add
    (h3.mul (hp0.2.denotes.mul hp1.2.denotes)))
  have hsum : pairing 4 (fun i => scale.value * bitProduct (factorsOf productFactor [p0, p1]) 2 i) v =
      scale.value * (v 0 * (p0.1.value * p1.1.value) + v 1 * (p0.1.value * p1.2.value) +
        v 2 * (p0.2.value * p1.1.value) + v 3 * (p0.2.value * p1.2.value)) := by
    rw [pairing_bitProduct]
    simp only [factorsOf_pair, productFactor, if_true, Bool.false_eq_true, if_false]
    ring
  rw [hpair, hsum]
  exact ⟨_, rfl, hvalue⟩

def WeightComponent.isLine : WeightComponent → Bool
  | .lineM31Tensor _ _ => true
  | .lineM31Batch _ _ _ => true
  | _ => false

/-- A component that is not a line, at four weights. -/
theorem dotFour_denotes {component : WeightComponent} (h : component.Shape 2) (hline : component.isLine = false)
    (hv : ∀ k : Fin 4, (values k).Denotes (v k.val)) :
    ∃ q, component.dotFour values = some q ∧ q.Denotes (pairing 4 (component.covector 2) v) := by
  cases component with
  | geometric scale base => exact dotFour_geometric h.1 h.2 (hv 0) (hv 1) (hv 2) (hv 3)
  | multilinear scale point =>
    obtain ⟨hs, hp, hlen⟩ := h
    obtain ⟨z0, z1, rfl⟩ := List.length_eq_two.mp hlen
    exact dotFour_multilinear hs (hp z0 (by simp)) (hp z1 (by simp)) (hv 0) (hv 1) (hv 2) (hv 3)
  | tensor scale factors =>
    obtain ⟨hs, hf, hlen⟩ := h
    obtain ⟨f0, f1, rfl⟩ := List.length_eq_two.mp hlen
    exact dotFour_tensor hs (hf f0 (by simp)) (hf f1 (by simp)) (hv 0) (hv 1) (hv 2) (hv 3)
  | lineM31Tensor scale x => cases hline
  | lineM31Batch scales xs halvings => cases hline
  | product scale pairs =>
    obtain ⟨hs, hp, hlen⟩ := h
    obtain ⟨p0, p1, rfl⟩ := List.length_eq_two.mp hlen
    exact dotFour_product hs (hp p0 (by simp)) (hp p1 (by simp)) (hv 0) (hv 1) (hv 2) (hv 3)
  | dense weights => exact dotFour_dense h hv
  | grouped64x16 rowGroups groupValues lowWidth =>
    obtain ⟨hwidth, _⟩ := h
    omega
  | grouped64x16BinaryDeferred rowGroups groupMasks firstAlpha groupValues => exact dotFour_deferred h hv
  | grouped128x16 rowGroups groupValues lowWidth =>
    obtain ⟨hwidth, _⟩ := h
    omega

/-! ### Lines -/

theorem doubleQm31_denotes {value : QM31} {x : QuarticField} (h : value.Denotes x) (count : ℕ) :
    (doubleQm31 value count).Denotes (x * 2 ^ count) := by
  induction count generalizing value x with
  | zero =>
    rw [pow_zero, mul_one]
    exact h
  | succ count ih =>
    have hnext := ih (h.add h)
    rw [← mul_two, mul_assoc, ← pow_succ'] at hnext
    exact hnext

theorem limbs_canonical {x : QM31} (hx : x.Canonical) (limb : Fin 4) : (limbs x limb).Canonical :=
  limbScheme.left_canonical x hx limb

theorem limbPart_scale (x : QM31) (f : BaseField) :
    limbPart (fun limb => (limbs x limb).value * f) = x.value * lift f := by
  have hscale : limbPart (fun limb => (limbs x limb).value * f) = f • x.value := by
    apply QuadraticAlgebra.ext
    · exact QuadraticAlgebra.ext (mul_comm _ _) (mul_comm _ _)
    · exact QuadraticAlgebra.ext (mul_comm _ _) (mul_comm _ _)
  rw [hscale, Algebra.smul_def, mul_comm]
  rfl

/-- What the line sums stand for: the number of lines, the sum of their scales, and the sums of their scales
times each of the three factors. -/
abbrev LineTotals := ℕ × (Fin 4 → BaseField) × (Fin 3 × Fin 4 → BaseField)

structure LineSums.Holds (state : LineSums) (totals : LineTotals) : Prop where
  count : state.count = totals.1
  constant : ∀ limb, (state.constant limb).Denotes (totals.2.1 limb)
  canonical : ∀ c, (state.sums c).Canonical
  sums : ∀ c, (state.sums c).value + ((state.raw c).toNat : BaseField) = totals.2.2 c
  bound : ∀ c, (state.raw c).toNat ≤ state.count % 4 * (2147483646 * 2147483646)

theorem LineSums.holds_zero : LineSums.zero.Holds 0 :=
  ⟨rfl, fun _ => M31.denotes_zero, fun _ => M31.denotes_zero.canonical, fun _ => by
    show M31.zero.value + (((0 : UInt64).toNat : ℕ) : BaseField) = 0
    rw [M31.denotes_zero.value_eq, UInt64.toNat_zero, Nat.cast_zero, add_zero], fun _ => Nat.zero_le _⟩

theorem flush_denotes {state : LineSums} (hc : ∀ c, (state.sums c).Canonical) {g : Fin 3 × Fin 4 → BaseField}
    (hs : ∀ c, (state.sums c).value + ((state.raw c).toNat : BaseField) = g c) (c : Fin 3 × Fin 4) :
    (state.flush.sums c).Denotes (g c) := by
  rw [← hs c]
  exact (hc c).denotes.add (M31.denotes_reduceU64 _)

/-- The factors of a line at the three upper positions. -/
def lineFactors (x : BaseField) : Fin 3 → BaseField := ![x, lineMap x, x * lineMap x]

/-- What a line adds. -/
def lineTerm (halvings : ℕ) (line : QM31 × M31 × ℕ) : LineTotals :=
  (1, fun limb => (limbs (doubleQm31 line.1 (halvings - line.2.2)) limb).value, fun c =>
    (limbs (doubleQm31 line.1 (halvings - line.2.2)) c.2).value * lineFactors line.2.1.value c.1)

theorem accumulateLine_holds {halvings : ℕ} {state : LineSums} {totals : LineTotals} {line : QM31 × M31 × ℕ}
    (h : state.Holds totals) (hs : line.1.Canonical) (hx : line.2.1.Canonical) :
    ∃ next, state.accumulateLine halvings line = some next ∧ next.Holds (totals + lineTerm halvings line) := by
  have hscale := (doubleQm31_denotes hs.denotes (halvings - line.2.2)).canonical
  have hhigh := denotes_doubleXM31 hx.denotes
  have hfactors : ∀ j : Fin 3, ((![line.2.1, doubleXM31 line.2.1, line.2.1.mul (doubleXM31 line.2.1)] : Fin 3 → M31)
      j).Denotes (lineFactors line.2.1.value j) := by
    intro j
    fin_cases j
    · exact hx.denotes
    · exact hhigh
    · exact hx.denotes.mul hhigh
  have hproduct : ∀ c : Fin 3 × Fin 4, ((limbs (doubleQm31 line.1 (halvings - line.2.2)) c.2).val.toUInt64 *
      ((![line.2.1, doubleXM31 line.2.1, line.2.1.mul (doubleXM31 line.2.1)] : Fin 3 → M31) c.1).val.toUInt64).toNat ≤
        2147483646 * 2147483646 ∧
      ((((limbs (doubleQm31 line.1 (halvings - line.2.2)) c.2).val.toUInt64 *
      ((![line.2.1, doubleXM31 line.2.1, line.2.1.mul (doubleXM31 line.2.1)] : Fin 3 → M31) c.1).val.toUInt64).toNat : ℕ) :
        BaseField) = (lineTerm halvings line).2.2 c := by
    intro c
    have hleft := (limbs_canonical hscale c.2).lt
    have hright := (hfactors c.1).canonical.lt
    rw [M31.toNat_mul_words, Nat.cast_mul]
    refine ⟨Nat.mul_le_mul (by omega) (by omega), ?_⟩
    show (limbs _ c.2).value * M31.value _ = _
    rw [(hfactors c.1).value_eq]
    rfl
  obtain ⟨raw, hraw, hsum⟩ := @addWords_of_lt _ _ state.raw (fun c : Fin 3 × Fin 4 =>
    (limbs (doubleQm31 line.1 (halvings - line.2.2)) c.2).val.toUInt64 *
      ((![line.2.1, doubleXM31 line.2.1, line.2.1.mul (doubleXM31 line.2.1)] : Fin 3 → M31) c.1).val.toUInt64) (by
    intro c
    have hbound := h.bound c
    have hterm := (hproduct c).1
    have hmod : state.count % 4 ≤ 3 := by omega
    have hmul := Nat.mul_le_mul_right (2147483646 * 2147483646) hmod
    omega)
  have hvalue : ∀ c, (state.sums c).value + ((raw c).toNat : BaseField) = (totals + lineTerm halvings line).2.2 c := by
    intro c
    rw [hsum, Nat.cast_add, ← add_assoc, h.sums, (hproduct c).2]
    rfl
  have hconstant : ∀ limb, ((state.constant limb).add (limbs (doubleQm31 line.1 (halvings - line.2.2)) limb)).Denotes
      ((totals + lineTerm halvings line).2.1 limb) := fun limb =>
    (h.constant limb).add (limbs_canonical hscale limb).denotes
  have hflushed := @flush_denotes ⟨state.count + 1, fun limb => (state.constant limb).add
    (limbs (doubleQm31 line.1 (halvings - line.2.2)) limb), raw, state.sums⟩ h.canonical _ hvalue
  refine ⟨_, congrArg (fun kernel : Option (Fin 3 × Fin 4 → UInt64) => kernel.bind fun raw => some
    (if (state.count + 1) % 4 = 0 then LineSums.flush ⟨state.count + 1, fun limb => (state.constant limb).add
      (limbs (doubleQm31 line.1 (halvings - line.2.2)) limb), raw, state.sums⟩
      else ⟨state.count + 1, fun limb => (state.constant limb).add
      (limbs (doubleQm31 line.1 (halvings - line.2.2)) limb), raw, state.sums⟩)) hraw, ?_⟩
  by_cases hfull : (state.count + 1) % 4 = 0
  · rw [if_pos hfull]
    refine ⟨congrArg (· + 1) h.count, hconstant, fun c => (hflushed c).canonical, ?_, fun c => Nat.zero_le _⟩
    intro c
    rw [(hflushed c).value_eq]
    show _ + (((0 : UInt64).toNat : ℕ) : BaseField) = _
    rw [UInt64.toNat_zero, Nat.cast_zero, add_zero]
  · rw [if_neg hfull]
    refine ⟨congrArg (· + 1) h.count, hconstant, h.canonical, hvalue, ?_⟩
    intro c
    have hbound := h.bound c
    have hterm := (hproduct c).1
    show (raw c).toNat ≤ (state.count + 1) % 4 * (2147483646 * 2147483646)
    rw [hsum, show (state.count + 1) % 4 = state.count % 4 + 1 by omega, Nat.add_mul, Nat.one_mul]
    omega

/-- The weights of one line with its halvings. -/
def lineWeight (line : QM31 × M31 × ℕ) (i : ℕ) : QuarticField :=
  line.1.value * bitProduct (lineFactor line.2.1.value) 2 i / 2 ^ line.2.2

/-- The scale of a line with the common number of halvings. -/
def commonScale (halvings : ℕ) (line : QM31 × M31 × ℕ) : QuarticField := line.1.value * 2 ^ (halvings - line.2.2)

/-- A position of the four, summed over the lines. -/
def linePart (j : Fin 3) : LineTotals →+ QuarticField :=
  AddMonoidHom.mk' (fun totals => limbPart fun limb => totals.2.2 (j, limb)) fun x y =>
    map_add limbPart (fun limb => x.2.2 (j, limb)) fun limb => y.2.2 (j, limb)

def constantPart : LineTotals →+ QuarticField :=
  AddMonoidHom.mk' (fun totals => limbPart totals.2.1) fun x y => map_add limbPart x.2.1 y.2.1

theorem constantPart_lineTerm (halvings : ℕ) {line : QM31 × M31 × ℕ} (hs : line.1.Canonical) :
    constantPart (lineTerm halvings line) = commonScale halvings line :=
  (doubleQm31_denotes hs.denotes (halvings - line.2.2)).value_eq

theorem linePart_lineTerm (halvings : ℕ) (j : Fin 3) {line : QM31 × M31 × ℕ} (hs : line.1.Canonical) :
    linePart j (lineTerm halvings line) = commonScale halvings line * lift (lineFactors line.2.1.value j) := by
  have hscale := (doubleQm31_denotes hs.denotes (halvings - line.2.2)).value_eq
  have hpart : linePart j (lineTerm halvings line) = limbPart fun limb =>
      (limbs (doubleQm31 line.1 (halvings - line.2.2)) limb).value * lineFactors line.2.1.value j := rfl
  rw [hpart, limbPart_scale, hscale]
  rfl

/-- One line against the four values, over the common denominator. -/
theorem pairing_lineWeight {halvings : ℕ} {line : QM31 × M31 × ℕ} (hle : line.2.2 ≤ halvings) (v : ℕ → QuarticField) :
    pairing 4 (lineWeight line) v = commonScale halvings line * (v 0 + lift (lineFactors line.2.1.value 0) * v 1 +
      lift (lineFactors line.2.1.value 1) * v 2 + lift (lineFactors line.2.1.value 2) * v 3) / 2 ^ halvings := by
  have hpow : (2 : QuarticField) ^ halvings = 2 ^ (halvings - line.2.2) * 2 ^ line.2.2 := by
    rw [← pow_add, Nat.sub_add_cancel hle]
  have hne : (2 : QuarticField) ^ (halvings - line.2.2) ≠ 0 := pow_ne_zero _ two_ne_zero
  have hweight : lineWeight line = fun i =>
      line.1.value / 2 ^ line.2.2 * bitProduct (lineFactor line.2.1.value) 2 i := by
    funext i
    rw [lineWeight]
    ring
  have h0 : lineFactors line.2.1.value 0 = line.2.1.value := rfl
  have h1 : lineFactors line.2.1.value 1 = lineMap line.2.1.value := rfl
  have h2 : lineFactors line.2.1.value 2 = line.2.1.value * lineMap line.2.1.value := rfl
  rw [hweight, pairing_bitProduct, hpow, commonScale, h0, h1, h2, lift_mul]
  simp only [lineFactor, if_true, Bool.false_eq_true, if_false, Function.iterate_zero, id_eq, Function.iterate_one]
  rw [mul_assoc line.1.value, mul_left_comm line.1.value, mul_div_mul_left _ _ hne]
  ring

theorem LineSums.Holds.finish {state : LineSums} {totals : LineTotals} (h : state.Holds totals) :
    ∃ last, (if state.count % 4 ≠ 0 then state.flush else state) = last ∧ last.count = totals.1 ∧
      (∀ limb, (last.constant limb).Denotes (totals.2.1 limb)) ∧ ∀ c, (last.sums c).Denotes (totals.2.2 c) := by
  by_cases hrest : state.count % 4 ≠ 0
  · rw [if_pos hrest]
    exact ⟨_, rfl, h.count, h.constant, flush_denotes h.canonical h.sums⟩
  · rw [if_neg hrest]
    refine ⟨_, rfl, h.count, h.constant, fun c => ⟨h.canonical c, ?_⟩⟩
    have hbound := h.bound c
    have hraw : (state.raw c).toNat = 0 := by
      rw [not_not.mp hrest, Nat.zero_mul] at hbound
      omega
    rw [← h.sums c, hraw, Nat.cast_zero, add_zero]

theorem sum_products4 {x y : Fin 4 → QM31} {u w : Fin 4 → QuarticField} (hx : ∀ k, (x k).Denotes (u k))
    (hy : ∀ k, (y k).Denotes (w k)) : ∃ q, qm31SumProducts4 #v[x 0, x 1, x 2, x 3] #v[y 0, y 1, y 2, y 3] = some q ∧
      q.Denotes (u 0 * w 0 + u 1 * w 1 + u 2 * w 2 + u 3 * w 3) := by
  have hkernel := @sumProductsSmall_exact 4 #v[x 0, x 1, x 2, x 3] #v[y 0, y 1, y 2, y 3]
    (by simp [(hx 0).canonical, (hx 1).canonical, (hx 2).canonical, (hx 3).canonical])
    (by simp [(hy 0).canonical, (hy 1).canonical, (hy 2).canonical, (hy 3).canonical]) (by decide)
  refine ⟨_, hkernel, ?_⟩
  have hsum := (((QM31.denotes_zero.add ((hx 0).mul (hy 0))).add ((hx 1).mul (hy 1))).add ((hx 2).mul (hy 2))).add
    ((hx 3).mul (hy 3))
  rw [zero_add] at hsum
  exact hsum

/-- The lines summed first, and one product of four terms. -/
theorem lineDot_denotes {components : List WeightComponent}
    (hlines : ∀ line ∈ components.flatMap WeightComponent.lines, line.1.Canonical ∧ line.2.1.Canonical ∧
      line.2.2 ≤ (components.filterMap WeightComponent.batchHalvings).foldl max 0)
    (hv : ∀ k : Fin 4, (values k).Denotes (v k.val)) :
    ∃ q, lineDot components values = some q ∧
      q.Denotes ((components.flatMap WeightComponent.lines).map fun line => pairing 4 (lineWeight line) v).sum := by
  rw [lineDot]
  generalize (components.filterMap WeightComponent.batchHalvings).foldl max 0 = halvings at hlines ⊢
  generalize components.flatMap WeightComponent.lines = lines at hlines ⊢
  have hfold := @foldlM_accumulates _ _ _ _ LineSums.Holds (LineSums.accumulateLine halvings) (lineTerm halvings) lines
    (fun line hline state totals h => accumulateLine_holds h (hlines line hline).1 (hlines line hline).2.1)
    LineSums.zero 0 LineSums.holds_zero
  obtain ⟨state, hstate, hholds⟩ := hfold
  rw [zero_add] at hholds
  have hpairings : ((lines.map fun line => pairing 4 (lineWeight line) v)).sum =
      (constantPart (lines.map (lineTerm halvings)).sum * v 0 + linePart 0 (lines.map (lineTerm halvings)).sum * v 1 +
        linePart 1 (lines.map (lineTerm halvings)).sum * v 2 + linePart 2 (lines.map (lineTerm halvings)).sum * v 3) /
        2 ^ halvings := by
    clear hstate hholds
    induction lines with
    | nil => simp
    | cons line lines ih =>
      have hline := hlines line List.mem_cons_self
      rw [List.map_cons, List.map_cons, List.sum_cons, List.sum_cons, map_add, map_add, map_add, map_add,
        ih fun l hl => hlines l (List.mem_cons_of_mem line hl), constantPart_lineTerm halvings hline.1,
        linePart_lineTerm halvings 0 hline.1, linePart_lineTerm halvings 1 hline.1, linePart_lineTerm halvings 2 hline.1,
        pairing_lineWeight hline.2.2]
      ring
  obtain ⟨last, hlast, hcount, hconstant, hsums⟩ := hholds.finish
  have hlength : (lines.map (lineTerm halvings)).sum.1 = lines.length := by
    clear * -
    induction lines with
    | nil => rfl
    | cons line lines ih =>
      rw [List.map_cons, List.sum_cons, Prod.fst_add, ih, List.length_cons, add_comm]
      rfl
  rw [hstate, Option.bind_eq_bind, Option.bind_some, hlast]
  by_cases hzero : last.count = 0
  · have hempty : lines = [] := List.length_eq_zero_iff.mp (by rw [← hlength, ← hcount, hzero])
    rw [if_pos hzero, hempty]
    exact ⟨_, rfl, QM31.denotes_zero⟩
  · rw [if_neg hzero]
    have hleft : ∀ k : Fin 4, ((![quarticOfLimbs last.constant, quarticOfLimbs fun limb => last.sums (0, limb),
        quarticOfLimbs fun limb => last.sums (1, limb), quarticOfLimbs fun limb => last.sums (2, limb)] : Fin 4 → QM31)
          k).Denotes ((![constantPart (lines.map (lineTerm halvings)).sum, linePart 0 (lines.map (lineTerm halvings)).sum,
            linePart 1 (lines.map (lineTerm halvings)).sum, linePart 2 (lines.map (lineTerm halvings)).sum] :
            Fin 4 → QuarticField) k) := by
      intro k
      fin_cases k
      · exact limbScheme.finish_denotes _ _ hconstant
      · exact limbScheme.finish_denotes _ _ fun limb => hsums (0, limb)
      · exact limbScheme.finish_denotes _ _ fun limb => hsums (1, limb)
      · exact limbScheme.finish_denotes _ _ fun limb => hsums (2, limb)
    obtain ⟨product, hproduct, hd⟩ := sum_products4 hleft hv
    refine ⟨halveQm31 product halvings, ?_, ?_⟩
    · exact congrArg (fun kernel : Option QM31 => kernel.bind fun product => some (halveQm31 product halvings)) hproduct
    · rw [hpairings]
      exact halveQm31_denotes hd halvings

/-! ### The whole inner product -/

theorem pairing_sum {β : Type} (n : ℕ) (f : β → ℕ → QuarticField) (v : ℕ → QuarticField) : ∀ l : List β,
    pairing n (fun i => (l.map fun b => f b i).sum) v = (l.map fun b => pairing n (f b) v).sum
  | [] => by simp [pairing]
  | b :: l => by
    simp only [List.map_cons, List.sum_cons]
    rw [← pairing_sum n f v l]
    simp only [pairing, mul_add, Finset.sum_add_distrib]

/-- The covector of a line component is the sum of its lines. -/
theorem covector_lines {component : WeightComponent} (h : component.Shape 2) (hline : component.isLine = true) {i : ℕ}
    (hi : i < 4) : component.covector 2 i = (component.lines.map fun line => lineWeight line i).sum := by
  cases component with
  | lineM31Tensor scale x =>
    have hrep := (@lineM31Tensor_represents scale x 2 h.1 h.2).covector_eq hi
    rw [hrep, WeightComponent.lines, List.map_singleton, List.sum_singleton, lineWeight, pow_zero, div_one]
  | lineM31Batch scales xs halvings =>
    have hrep := (@lineM31Batch_represents scales xs halvings 2 h.1).covector_eq hi
    have hterm : ∀ line : QM31 × M31, lineWeight (line.1, line.2, halvings) i =
        line.1.value * bitProduct (lineFactor line.2.value) 2 i * (2 ^ halvings)⁻¹ := by
      intro line
      rw [lineWeight, div_eq_mul_inv]
    rw [hrep, WeightComponent.lines, List.map_map, lineSum, div_eq_mul_inv, ← List.sum_map_mul_right]
    refine congrArg List.sum (List.map_congr_left fun line _ => ?_)
    rw [Function.comp_apply, hterm]
  | _ => cases hline

theorem lines_of_not_line {component : WeightComponent} (h : component.isLine = false) : component.lines = [] := by
  cases component with
  | lineM31Tensor scale x => cases h
  | lineM31Batch scales xs halvings => cases h
  | _ => rfl

theorem le_foldl_max {x : ℕ} : ∀ {l : List ℕ} {m : ℕ}, (x ≤ m ∨ x ∈ l) → x ≤ l.foldl max m
  | [], m, h => by
    rcases h with h | h
    · exact h
    · cases h
  | y :: l, m, h => by
    rw [List.foldl_cons]
    apply le_foldl_max
    rcases h with h | h
    · exact Or.inl (le_trans h (le_max_left m y))
    · rcases List.mem_cons.mp h with rfl | hmem
      · exact Or.inl (le_max_right m x)
      · exact Or.inr hmem

theorem lines_canonical {components : List WeightComponent} (h : ∀ component ∈ components, component.Shape 2) :
    ∀ line ∈ components.flatMap WeightComponent.lines, line.1.Canonical ∧ line.2.1.Canonical ∧
      line.2.2 ≤ (components.filterMap WeightComponent.batchHalvings).foldl max 0 := by
  intro line hline
  obtain ⟨component, hcomponent, hmem⟩ := List.mem_flatMap.mp hline
  have hshape := h component hcomponent
  cases component with
  | lineM31Tensor scale x =>
    obtain rfl := List.mem_singleton.mp hmem
    exact ⟨hshape.1, hshape.2, Nat.zero_le _⟩
  | lineM31Batch scales xs halvings =>
    obtain ⟨pair, hpair, rfl⟩ := List.mem_map.mp hmem
    refine ⟨(hshape.1 pair hpair).1, (hshape.1 pair hpair).2, le_foldl_max (Or.inr ?_)⟩
    exact List.mem_filterMap.mpr ⟨_, hcomponent, rfl⟩
  | _ => cases hmem

theorem dotFour_of_line {component : WeightComponent} (h : component.isLine = true) :
    component.dotFour values = some QM31.zero := by
  cases component with
  | lineM31Tensor scale x => rfl
  | lineM31Batch scales xs halvings => rfl
  | _ => cases h

/-- The lines of all components and the other components, each once. -/
theorem sum_lines_and_rest {components : List WeightComponent} (h : ∀ component ∈ components, component.Shape 2)
    (v : ℕ → QuarticField) :
    ((components.flatMap WeightComponent.lines).map fun line => pairing 4 (lineWeight line) v).sum +
        (components.map fun component => if component.isLine then 0 else pairing 4 (component.covector 2) v).sum =
      (components.map fun component => pairing 4 (component.covector 2) v).sum := by
  induction components with
  | nil => simp
  | cons component components ih =>
    have hrest := ih fun c hc => h c (List.mem_cons_of_mem component hc)
    have hfirst : (component.lines.map fun line => pairing 4 (lineWeight line) v).sum +
        (if component.isLine then 0 else pairing 4 (component.covector 2) v) = pairing 4 (component.covector 2) v := by
      cases hline : component.isLine with
      | false =>
        rw [lines_of_not_line hline, if_neg Bool.false_ne_true, List.map_nil, List.sum_nil, zero_add]
      | true =>
        rw [if_pos rfl, add_zero, ← pairing_sum]
        refine Finset.sum_congr rfl fun i hi => ?_
        rw [covector_lines (h component List.mem_cons_self) hline (Finset.mem_range.mp hi)]
    rw [List.flatMap_cons, List.map_append, List.sum_append, List.map_cons, List.sum_cons, List.map_cons, List.sum_cons,
      ← hrest]
    linear_combination hfirst

/-- The inner product of the covector with the values. -/
theorem WeightAccumulator.Shape.dot_denotes (h : weights.Shape) {values : List QM31} (hvalues : ∀ v ∈ values, v.Canonical)
    (hlen : values.length = 2 ^ weights.logLen) :
    ∃ q, weights.dot values = some q ∧
      q.Denotes (pairing (2 ^ weights.logLen) weights.covector (entryAt values)) := by
  rw [WeightAccumulator.dot, if_neg (not_not.mpr hlen)]
  by_cases htwo : weights.logLen = 2
  · rw [if_pos htwo]
    have hshape : ∀ component ∈ weights.components, component.Shape 2 := by
      intro component hcomponent
      rw [← htwo]
      exact h.components component hcomponent
    have hfour : ∀ k : Fin 4, (values.getD k.val QM31.zero).Denotes (entryAt values k.val) := by
      intro k
      have hk : k.val < values.length := by
        rw [hlen, htwo]
        exact k.isLt
      obtain ⟨q, hq, hd⟩ := getElem?_entryAt hvalues hk
      rw [List.getD_eq_getElem?_getD, hq]
      exact hd
    obtain ⟨total, htotal, hd⟩ := lineDot_denotes (lines_canonical hshape) hfour
    have hrest := @foldlM_accumulates _ _ _ _ QM31.Denotes (fun total (component : WeightComponent) => do
      let contribution ← component.dotFour fun index => values.getD index.val QM31.zero
      return total.add contribution) (fun component => if component.isLine then 0
        else pairing 4 (component.covector 2) (entryAt values)) weights.components ?_ total _ hd
    · obtain ⟨q, hq, hqd⟩ := hrest
      rw [sum_lines_and_rest hshape, ← pairing_sum] at hqd
      refine ⟨q, ?_, ?_⟩
      · dsimp only
        rw [htotal]
        exact hq
      · have hcovector : weights.covector = fun i => (weights.components.map fun c => c.covector 2 i).sum := by
          funext i
          rw [WeightAccumulator.covector, htwo]
        rw [hcovector, htwo]
        exact hqd
    · intro component hcomponent x s hx
      cases hline : component.isLine with
      | false =>
        obtain ⟨q, hq, hqd⟩ := dotFour_denotes (hshape component hcomponent) hline hfour
        refine ⟨x.add q, ?_, hx.add hqd⟩
        rw [hq]
        rfl
      | true =>
        refine ⟨x.add QM31.zero, ?_, hx.add QM31.denotes_zero⟩
        rw [dotFour_of_line hline]
        rfl
  · rw [if_neg htwo]
    exact dot_by_weight h hvalues hlen

end Aspis.Core
