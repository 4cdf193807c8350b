import Aspis.Core.WeightFold
import Aspis.Core.DotProducts
import Aspis.Lib.DualFold

/-! The components of a weight accumulator as covectors over the field. Each representation stands for
a covector, and its rule stands for the dual fold of it. -/

namespace Aspis.Core

open Aspis.Lib.DualFold Aspis.Lib.Accumulate

/-- The component returns the weights of a covector of length `2 ^ logLen`. -/
def Represents (logLen : ℕ) (component : WeightComponent) (w : ℕ → QuarticField) : Prop :=
  ∀ i < 2 ^ logLen, ∃ q, component.weightAt logLen i = some q ∧ q.Denotes (w i)

theorem Represents.unique {logLen : ℕ} {component : WeightComponent} {w w' : ℕ → QuarticField}
    (h : Represents logLen component w) (h' : Represents logLen component w') : ∀ i < 2 ^ logLen, w i = w' i := by
  intro i hi
  obtain ⟨q, hq, hd⟩ := h i hi
  obtain ⟨q', hq', hd'⟩ := h' i hi
  rw [hq] at hq'
  cases hq'
  exact hd.value_eq.symm.trans hd'.value_eq

theorem Represents.congr {logLen : ℕ} {component : WeightComponent} {w w' : ℕ → QuarticField}
    (h : Represents logLen component w) (heq : ∀ i < 2 ^ logLen, w i = w' i) : Represents logLen component w' := by
  intro i hi
  rw [← heq i hi]
  exact h i hi

theorem four_mul_two_pow {logLen : ℕ} (h : 2 ≤ logLen) : 4 * 2 ^ (logLen - 2) = 2 ^ logLen := by
  have hpow := pow_add 2 2 (logLen - 2)
  rw [Nat.add_sub_cancel' h] at hpow
  rw [hpow]
  rfl

/-- What is shown of one covector the component stands for holds of any. -/
theorem represents_fold {logLen : ℕ} {component folded : WeightComponent} {a : QuarticField} {w₀ : ℕ → QuarticField}
    (hL : 2 ≤ logLen) (h₀ : Represents logLen component w₀) (hfold : Represents (logLen - 2) folded (foldWeights a w₀))
    {w : ℕ → QuarticField} (h : Represents logLen component w) : Represents (logLen - 2) folded (foldWeights a w) := by
  have hpow := four_mul_two_pow hL
  apply hfold.congr
  intro j hj
  apply foldWeights_congr
  intro i hle hlt
  exact h₀.unique h i (by omega)

/-- A challenge with its powers, as the folds use them. -/
structure Challenge (a : QuarticField) (alpha alpha2 alpha3 : QM31) : Prop where
  one : alpha.Denotes a
  two : alpha2.Denotes (a ^ 2)
  three : alpha3.Denotes (a ^ 3)

theorem denotes_quarter {x : QM31} {v : QuarticField} (h : x.Denotes v) : x.half.half.Denotes (v / 4) := by
  have hfour : v / 2 / 2 = v / 4 := by
    rw [div_div]
    norm_num
  rw [← hfour]
  exact h.half.half

/-- The product kernels the folds use. -/
theorem sum_products2_prepared {x y u v : QM31} (hx : x.Canonical) (hy : y.Canonical) (hu : u.Canonical)
    (hv : v.Canonical) : ∃ q, qm31SumProducts2Prepared #v[.new x, .new y] #v[u, v] = some q ∧
      q.Denotes (x.value * u.value + y.value * v.value) := by
  have hkernel := @sumProductsPrepared_exact 2 #v[x, y] #v[u, v] (by simp [hx, hy]) (by simp [hu, hv]) (by decide)
  have hmap : (#v[x, y]).map PreparedQm31Multiplier.new = #v[.new x, .new y] := by simp
  rw [hmap] at hkernel
  refine ⟨_, hkernel, ?_⟩
  have hsum := (QM31.denotes_zero.add (hx.denotes.mul hu.denotes)).add (hy.denotes.mul hv.denotes)
  rw [zero_add] at hsum
  exact hsum

theorem sum_m31_products3 {x y z : QM31} {u v w : M31} (hx : x.Canonical) (hy : y.Canonical) (hz : z.Canonical)
    (hu : u.Canonical) (hv : v.Canonical) (hw : w.Canonical) :
    ∃ q, qm31M31SumProducts3 #v[x, y, z] #v[u, v, w] = some q ∧
      q.Denotes (x.value * lift u.value + y.value * lift v.value + z.value * lift w.value) := by
  have hkernel := @m31SumProducts3_exact #v[x, y, z] #v[u, v, w] (by simp [hx, hy, hz]) (by simp [hu, hv, hw])
  refine ⟨_, hkernel, ?_⟩
  have hsum := ((QM31.denotes_zero.add (denotes_mulM31 hx.denotes hu.denotes)).add
    (denotes_mulM31 hy.denotes hv.denotes)).add (denotes_mulM31 hz.denotes hw.denotes)
  rw [zero_add] at hsum
  exact hsum

/-! ### Products over the bits -/

/-- The factor of each bit: the last item of the list belongs to the lowest bit. -/
def factorsOf {β : Type} (f : β → Bool → QuarticField) (items : List β) (b : ℕ) (bit : Bool) : QuarticField :=
  (items.reverse[b]?.map fun item => f item bit).getD 1

theorem bitProduct_factorsOf_cons {β : Type} (f : β → Bool → QuarticField) (item : β) (rest : List β) (i : ℕ) :
    bitProduct (factorsOf f (item :: rest)) (rest.length + 1) i =
      f item (i.testBit rest.length) * bitProduct (factorsOf f rest) rest.length i := by
  have hlast : factorsOf f (item :: rest) rest.length (i.testBit rest.length) = f item (i.testBit rest.length) := by
    simp [factorsOf]
  unfold bitProduct
  rw [Finset.prod_range_succ, hlast, mul_comm]
  congr 1
  refine Finset.prod_congr rfl fun b hb => ?_
  have hb' : b < rest.reverse.length := by
    rw [List.length_reverse]
    exact Finset.mem_range.mp hb
  rw [factorsOf, List.reverse_cons, List.getElem?_append_left hb', factorsOf]

theorem bigEndianLoop_denotes {β : Type} {step : QM31 → β → Bool → QM31} {f : β → Bool → QuarticField} {good : β → Prop}
    (hstep : ∀ value item bit v, good item → value.Denotes v → (step value item bit).Denotes (v * f item bit))
    (index : ℕ) :
    ∀ {items : List β} {value : QM31} {v : QuarticField}, (∀ item ∈ items, good item) → value.Denotes v →
      (bigEndianLoop step index items value).Denotes (v * bitProduct (factorsOf f items) items.length index)
  | [], value, v, _, h => by
    rw [bigEndianLoop, List.length_nil, bitProduct, Finset.prod_range_zero, mul_one]
    exact h
  | item :: rest, value, v, hitems, h => by
    have hnext := bigEndianLoop_denotes hstep index (fun i hi => hitems i (List.mem_cons_of_mem item hi))
      (hstep value item (index.testBit rest.length) v (hitems item List.mem_cons_self) h)
    rw [List.length_cons, bitProduct_factorsOf_cons, ← mul_assoc]
    exact hnext

theorem split_last_two {β : Type} {items : List β} (h : 2 ≤ items.length) :
    ∃ rest high low, items = rest ++ [high, low] ∧ items.take (items.length - 2) = rest ∧
      items[items.length - 2]? = some high ∧ items[items.length - 2 + 1]? = some low := by
  have hdrop : (items.drop (items.length - 2)).length = 2 := by
    rw [List.length_drop]
    omega
  obtain ⟨high, low, hpair⟩ := List.length_eq_two.mp hdrop
  have hitems := List.take_append_drop (items.length - 2) items
  rw [hpair] at hitems
  have hlen : (items.take (items.length - 2)).length = items.length - 2 := by
    rw [List.length_take]
    omega
  refine ⟨items.take (items.length - 2), high, low, hitems.symm, rfl, ?_, ?_⟩
  · have hget : (items.drop (items.length - 2))[0]? = some high := by rw [hpair]; rfl
    rwa [List.getElem?_drop, Nat.add_zero] at hget
  · have hget : (items.drop (items.length - 2))[1]? = some low := by rw [hpair]; rfl
    rwa [List.getElem?_drop] at hget

/-- The covector of a product with two more coordinates, folded. -/
theorem foldWeights_factorsOf {β : Type} (a scale : QuarticField) (f : β → Bool → QuarticField) (rest : List β)
    (high low : β) :
    foldWeights a (fun i => scale * bitProduct (factorsOf f (rest ++ [high, low])) (rest.length + 2) i) = fun j =>
      scale * ((f low false * f high false + a ^ 3 * (f low true * f high false) +
        a ^ 2 * (f low false * f high true) + a * (f low true * f high true)) / 4) *
        bitProduct (factorsOf f rest) rest.length j := by
  have h0 : ∀ bit, factorsOf f (rest ++ [high, low]) 0 bit = f low bit := by
    intro bit
    simp [factorsOf]
  have h1 : ∀ bit, factorsOf f (rest ++ [high, low]) 1 bit = f high bit := by
    intro bit
    simp [factorsOf]
  have hrest : (fun b => factorsOf f (rest ++ [high, low]) (b + 2)) = factorsOf f rest := by
    funext b bit
    simp [factorsOf]
  rw [foldWeights_bitProduct, hrest]
  simp only [h0, h1]

/-! ### Points, factors and pairs -/

def multilinearFactor (z : QM31) (bit : Bool) : QuarticField := if bit then z.value else 1 - z.value

def tensorFactor (factor : QM31) (bit : Bool) : QuarticField := if bit then factor.value else 1

def productFactor (pair : QM31 × QM31) (bit : Bool) : QuarticField := if bit then pair.2.value else pair.1.value

theorem multilinearStep_denotes (value z : QM31) (bit : Bool) (v : QuarticField) (hz : z.Canonical)
    (h : value.Denotes v) : (multilinearStep value z bit).Denotes (v * multilinearFactor z bit) := by
  cases bit with
  | false => exact h.mul (QM31.denotes_one.sub hz.denotes)
  | true => exact h.mul hz.denotes

theorem tensorStep_denotes (value factor : QM31) (bit : Bool) (v : QuarticField) (hf : factor.Canonical)
    (h : value.Denotes v) : (tensorStep value factor bit).Denotes (v * tensorFactor factor bit) := by
  cases bit with
  | false =>
    have hone : v * tensorFactor factor false = v := mul_one v
    rw [hone]
    exact h
  | true => exact h.mul hf.denotes

theorem productStep_denotes (value : QM31) (pair : QM31 × QM31) (bit : Bool) (v : QuarticField)
    (hp : pair.1.Canonical ∧ pair.2.Canonical) (h : value.Denotes v) :
    (productStep value pair bit).Denotes (v * productFactor pair bit) := by
  cases bit with
  | false => exact h.mul hp.1.denotes
  | true => exact h.mul hp.2.denotes

theorem multilinear_represents {scale : QM31} {point : List QM31} (hs : scale.Canonical)
    (hp : ∀ z ∈ point, z.Canonical) : Represents point.length (.multilinear scale point) fun i =>
      scale.value * bitProduct (factorsOf multilinearFactor point) point.length i := fun i _ =>
  ⟨_, rfl, bigEndianLoop_denotes multilinearStep_denotes i hp hs.denotes⟩

theorem tensor_represents {scale : QM31} {factors : List QM31} (hs : scale.Canonical)
    (hf : ∀ z ∈ factors, z.Canonical) : Represents factors.length (.tensor scale factors) fun i =>
      scale.value * bitProduct (factorsOf tensorFactor factors) factors.length i := fun i _ =>
  ⟨_, rfl, bigEndianLoop_denotes tensorStep_denotes i hf hs.denotes⟩

theorem product_represents {scale : QM31} {pairs : List (QM31 × QM31)} (hs : scale.Canonical)
    (hp : ∀ pair ∈ pairs, pair.1.Canonical ∧ pair.2.Canonical) : Represents pairs.length (.product scale pairs) fun i =>
      scale.value * bitProduct (factorsOf productFactor pairs) pairs.length i := fun i _ =>
  ⟨_, rfl, bigEndianLoop_denotes productStep_denotes i hp hs.denotes⟩

section
open scoped Widths

/-- The scalar by which two coordinates fold. -/
def pairFold {β : Type} (a : QuarticField) (f : β → Bool → QuarticField) (high low : β) : QuarticField :=
  (f low false * f high false + a ^ 3 * (f low true * f high false) + a ^ 2 * (f low false * f high true) +
    a * (f low true * f high true)) / 4

/-- The map of the line coordinate over the base field. -/
def lineMap (x : BaseField) : BaseField := 2 * x ^ 2 - 1

end

/-- A component that is a product over its items folds to the remaining items and a scalar. -/
theorem represents_product_fold {β : Type} {make : QM31 → List β → WeightComponent} {step : QM31 → β → Bool → QM31}
    {f : β → Bool → QuarticField} {good : β → Prop}
    (hweight : ∀ logLen i scale items, (make scale items).weightAt logLen i = some (bigEndianLoop step i items scale))
    (hstep : ∀ value item bit v, good item → value.Denotes v → (step value item bit).Denotes (v * f item bit))
    {scale factor : QM31} {rest : List β} {high low : β} {a : QuarticField} (hs : scale.Canonical)
    (hrest : ∀ item ∈ rest, good item) (hfactor : factor.Denotes (pairFold a f high low)) :
    Represents rest.length (make (scale.mul factor) rest) (foldWeights a fun i =>
      scale.value * bitProduct (factorsOf f (rest ++ [high, low])) (rest.length + 2) i) := by
  rw [foldWeights_factorsOf]
  intro j _
  exact ⟨_, hweight _ j _ rest, bigEndianLoop_denotes hstep j hrest (hs.denotes.mul hfactor)⟩

theorem multilinear_fold {scale : QM31} {point : List QM31} {a : QuarticField} {alpha alpha2 alpha3 : QM31}
    (hs : scale.Canonical) (hp : ∀ z ∈ point, z.Canonical) (hlen : 2 ≤ point.length)
    (ha : Challenge a alpha alpha2 alpha3) :
    ∃ scale' rest, foldMultilinearArity4 scale point alpha alpha2 alpha3 = some (.multilinear scale' rest) ∧
      scale'.Canonical ∧ (∀ z ∈ rest, z.Canonical) ∧ rest.length = point.length - 2 ∧
      Represents (point.length - 2) (.multilinear scale' rest)
        (foldWeights a fun i => scale.value * bitProduct (factorsOf multilinearFactor point) point.length i) := by
  obtain ⟨rest, z0, z1, hpoint, htake, hget0, hget1⟩ := split_last_two hlen
  have hz0 : z0.Canonical := hp z0 (by rw [hpoint]; simp)
  have hz1 : z1.Canonical := hp z1 (by rw [hpoint]; simp)
  have hrest : ∀ z ∈ rest, z.Canonical := fun z hz => hp z (by rw [hpoint]; exact List.mem_append_left _ hz)
  have hrestLen : point.length = rest.length + 2 := by rw [hpoint, List.length_append]; rfl
  have hlow := QM31.denotes_one.add ((ha.three.sub QM31.denotes_one).mul hz1.denotes)
  have hhigh := ha.two.add ((ha.one.sub ha.two).mul hz1.denotes)
  have hfactor := denotes_quarter (hlow.add (hz0.denotes.mul (hhigh.sub hlow)))
  have hvalue : (1 + (a ^ 3 - 1) * z1.value + z0.value * (a ^ 2 + (a - a ^ 2) * z1.value -
      (1 + (a ^ 3 - 1) * z1.value))) / 4 = pairFold a multilinearFactor z0 z1 := by
    simp only [pairFold, multilinearFactor, if_true, Bool.false_eq_true, if_false]
    ring
  rw [hvalue] at hfactor
  refine ⟨_, rest, ?_, (hs.denotes.mul hfactor).canonical, hrest, by omega, ?_⟩
  · rw [foldMultilinearArity4, if_neg (by omega)]
    dsimp only
    rw [hget0, hget1, htake]
    rfl
  · have hfold := @represents_product_fold _ .multilinear _ _ _ (fun _ _ _ _ => rfl) multilinearStep_denotes _ _ _ _ _ _ hs hrest
      hfactor
    rw [← hpoint, ← hrestLen, show rest.length = point.length - 2 by omega] at hfold
    exact hfold

theorem tensor_fold {scale : QM31} {factors : List QM31} {a : QuarticField} {alpha alpha2 alpha3 : QM31}
    (hs : scale.Canonical) (hf : ∀ z ∈ factors, z.Canonical) (hlen : 2 ≤ factors.length)
    (ha : Challenge a alpha alpha2 alpha3) :
    ∃ scale' rest, foldTensorArity4 scale factors alpha3 (.new alpha) (.new alpha2) = some (.tensor scale' rest) ∧
      scale'.Canonical ∧ (∀ z ∈ rest, z.Canonical) ∧ rest.length = factors.length - 2 ∧
      Represents (factors.length - 2) (.tensor scale' rest)
        (foldWeights a fun i => scale.value * bitProduct (factorsOf tensorFactor factors) factors.length i) := by
  obtain ⟨rest, high, low, hfactors, htake, hget0, hget1⟩ := split_last_two hlen
  have hhigh : high.Canonical := hf high (by rw [hfactors]; simp)
  have hlow : low.Canonical := hf low (by rw [hfactors]; simp)
  have hrest : ∀ z ∈ rest, z.Canonical := fun z hz => hf z (by rw [hfactors]; exact List.mem_append_left _ hz)
  have hrestLen : factors.length = rest.length + 2 := by rw [hfactors, List.length_append]; rfl
  have hcross := ha.three.add (prepared_mul_denotes ha.one hhigh.denotes)
  have hkernel := sum_products2_prepared ha.two.canonical hlow hhigh hcross.canonical
  obtain ⟨products, hproducts, hvalue⟩ := hkernel
  rw [hcross.value_eq, ha.two.value_eq] at hvalue
  have hfactor := denotes_quarter (QM31.denotes_one.add hvalue)
  have hpair : (1 + (a ^ 2 * high.value + low.value * (a ^ 3 + a * high.value))) / 4 = pairFold a tensorFactor high low := by
    simp only [pairFold, tensorFactor, if_true, Bool.false_eq_true, if_false]
    ring
  rw [hpair] at hfactor
  refine ⟨_, rest, ?_, (hs.denotes.mul hfactor).canonical, hrest, by omega, ?_⟩
  · rw [foldTensorArity4, if_neg (by omega)]
    dsimp only
    rw [hget0, hget1, htake, Option.bind_eq_bind, Option.bind_some, Option.bind_some]
    exact congrArg (fun kernel : Option QM31 => kernel.bind fun products =>
      some (WeightComponent.tensor (scale.mul (QM31.one.add products).half.half) rest)) hproducts
  · have hfold := @represents_product_fold _ .tensor _ _ _ (fun _ _ _ _ => rfl) tensorStep_denotes _ _ _ _ _ _ hs hrest hfactor
    rw [← hfactors, ← hrestLen, show rest.length = factors.length - 2 by omega] at hfold
    exact hfold

theorem product_fold {scale : QM31} {pairs : List (QM31 × QM31)} {a : QuarticField} {alpha alpha2 alpha3 : QM31}
    (hs : scale.Canonical) (hp : ∀ pair ∈ pairs, pair.1.Canonical ∧ pair.2.Canonical) (hlen : 2 ≤ pairs.length)
    (ha : Challenge a alpha alpha2 alpha3) :
    ∃ scale' rest, foldProductArity4 scale pairs alpha alpha2 alpha3 = some (.product scale' rest) ∧
      scale'.Canonical ∧ (∀ pair ∈ rest, pair.1.Canonical ∧ pair.2.Canonical) ∧ rest.length = pairs.length - 2 ∧
      Represents (pairs.length - 2) (.product scale' rest)
        (foldWeights a fun i => scale.value * bitProduct (factorsOf productFactor pairs) pairs.length i) := by
  obtain ⟨rest, high, low, hpairs, htake, hget0, hget1⟩ := split_last_two hlen
  have hhigh := hp high (by rw [hpairs]; simp)
  have hlow := hp low (by rw [hpairs]; simp)
  have hrest : ∀ pair ∈ rest, pair.1.Canonical ∧ pair.2.Canonical := fun z hz =>
    hp z (by rw [hpairs]; exact List.mem_append_left _ hz)
  have hrestLen : pairs.length = rest.length + 2 := by rw [hpairs, List.length_append]; rfl
  have hfactor := denotes_quarter ((((hhigh.1.denotes.mul hlow.1.denotes).add
    (ha.three.mul (hhigh.1.denotes.mul hlow.2.denotes))).add (ha.two.mul (hhigh.2.denotes.mul hlow.1.denotes))).add
    (ha.one.mul (hhigh.2.denotes.mul hlow.2.denotes)))
  have hpair : (high.1.value * low.1.value + a ^ 3 * (high.1.value * low.2.value) +
      a ^ 2 * (high.2.value * low.1.value) + a * (high.2.value * low.2.value)) / 4 =
      pairFold a productFactor high low := by
    simp only [pairFold, productFactor, if_true, Bool.false_eq_true, if_false]
    ring
  rw [hpair] at hfactor
  refine ⟨_, rest, ?_, (hs.denotes.mul hfactor).canonical, hrest, by omega, ?_⟩
  · rw [foldProductArity4, if_neg (by omega)]
    dsimp only
    rw [hget0, hget1, htake]
    rfl
  · have hfold := @represents_product_fold _ .product _ _ _ (fun _ _ _ _ => rfl) productStep_denotes _ _ _ _ _ _ hs hrest hfactor
    rw [← hpairs, ← hrestLen, show rest.length = pairs.length - 2 by omega] at hfold
    exact hfold

/-! ### Powers of one base -/

theorem geometric_represents {scale base : QM31} {logLen : ℕ} (hs : scale.Canonical) (hb : base.Canonical)
    (hL : logLen < 32) : Represents logLen (.geometric scale base) fun i => scale.value * base.value ^ i := by
  intro i hi
  refine ⟨_, rfl, ?_⟩
  have hlt : i < 2 ^ 64 := lt_trans hi (lt_trans (Nat.pow_lt_pow_right (by decide) hL) (by decide))
  have hpow := hs.denotes.mul (hb.denotes.pow (UInt64.ofNat i))
  rw [UInt64.toNat_ofNat_of_lt' hlt] at hpow
  exact hpow

theorem geometric_fold {scale base : QM31} {a : QuarticField} {alpha alpha2 alpha3 : QM31} {logLen : ℕ}
    (hs : scale.Canonical) (hb : base.Canonical) (hL : logLen < 32) (ha : Challenge a alpha alpha2 alpha3) :
    ∃ scale' base', foldGeometricArity4 scale base alpha alpha2 alpha3 = .geometric scale' base' ∧
      scale'.Canonical ∧ base'.Canonical ∧
      Represents (logLen - 2) (.geometric scale' base') (foldWeights a fun i => scale.value * base.value ^ i) := by
  have hb2 := hb.denotes.square
  have hb3 := hb2.mul hb.denotes
  have hfactor := denotes_quarter (((QM31.denotes_one.add (ha.three.mul hb.denotes)).add (ha.two.mul hb2)).add
    (ha.one.mul hb3))
  have hscale := hs.denotes.mul hfactor
  have hbase := hb2.square
  refine ⟨_, _, rfl, hscale.canonical, hbase.canonical, ?_⟩
  have hrep := @geometric_represents _ _ (logLen - 2) hscale.canonical hbase.canonical (by omega)
  apply hrep.congr
  intro j _
  have hpow : ∀ k, base.value ^ (4 * j + k) = (base.value * base.value * (base.value * base.value)) ^ j * base.value ^ k := by
    intro k
    rw [pow_add, pow_mul]
    ring
  have h0 := hpow 0
  rw [Nat.add_zero, pow_zero, mul_one] at h0
  rw [hscale.value_eq, hbase.value_eq]
  simp only [foldWeights, hpow, h0]
  ring

/-! ### Lines -/

theorem denotes_doubleXM31 {x : M31} {v : BaseField} (h : x.Denotes v) : (doubleXM31 x).Denotes (2 * v ^ 2 - 1) := by
  rw [pow_two]
  exact (h.mul h).double.sub M31.denotes_one

def lineFactor (x : BaseField) (b : ℕ) (bit : Bool) : QuarticField := if bit then lift (lineMap^[b] x) else 1

theorem lineLoop_denotes {scale : QM31} {x : M31} {s : QuarticField} {v : BaseField} (hs : scale.Denotes s)
    (hx : x.Denotes v) (index logLen : ℕ) :
    (lineLoop logLen index scale x).Denotes (s * bitProduct (lineFactor v) logLen index) := by
  have hstate : ∀ k, (((List.range k).foldl (fun (state : QM31 × M31) bit =>
      (if index.testBit bit then state.1.mulM31 state.2 else state.1, doubleXM31 state.2)) (scale, x)).1).Denotes
        (s * bitProduct (lineFactor v) k index) ∧
      (((List.range k).foldl (fun (state : QM31 × M31) bit =>
      (if index.testBit bit then state.1.mulM31 state.2 else state.1, doubleXM31 state.2)) (scale, x)).2).Denotes
        (lineMap^[k] v) := by
    intro k
    induction k with
    | zero =>
      rw [bitProduct, Finset.prod_range_zero, mul_one]
      exact ⟨hs, hx⟩
    | succ k ih =>
      rw [List.range_succ, List.foldl_append]
      dsimp only [List.foldl_cons, List.foldl_nil]
      rw [bitProduct, Finset.prod_range_succ, ← mul_assoc, Function.iterate_succ_apply']
      refine ⟨?_, denotes_doubleXM31 ih.2⟩
      by_cases hbit : index.testBit k = true
      · rw [if_pos hbit, hbit, lineFactor, if_pos rfl]
        exact denotes_mulM31 ih.1 ih.2
      · rw [if_neg hbit, Bool.eq_false_of_not_eq_true hbit, lineFactor, if_neg Bool.false_ne_true, mul_one]
        exact ih.1
  exact (hstate logLen).1

theorem lineM31Tensor_represents {scale : QM31} {x : M31} {logLen : ℕ} (hs : scale.Canonical) (hx : x.Canonical) :
    Represents logLen (.lineM31Tensor scale x) fun i => scale.value * bitProduct (lineFactor x.value) logLen i :=
  fun i _ => ⟨_, rfl, lineLoop_denotes hs.denotes hx.denotes i logLen⟩

/-- The scalar by which a line folds. -/
def lineFold (a : QuarticField) (x : BaseField) : QuarticField :=
  1 + (a ^ 3 * lift x + a ^ 2 * lift (lineMap x) + a * lift (lineMap x * x))

theorem lineFoldFactor_denotes {x : M31} {v : BaseField} {a : QuarticField} {alpha alpha2 alpha3 : QM31}
    (hx : x.Denotes v) (ha : Challenge a alpha alpha2 alpha3) :
    ∃ factor, lineFoldFactor x alpha alpha2 alpha3 = some factor ∧ factor.Denotes (lineFold a v) := by
  have hhigh := denotes_doubleXM31 hx
  have hcross := hhigh.mul hx
  obtain ⟨mixed, hmixed, hvalue⟩ := sum_m31_products3 ha.three.canonical ha.two.canonical ha.one.canonical hx.canonical
    hhigh.canonical hcross.canonical
  rw [ha.three.value_eq, ha.two.value_eq, ha.one.value_eq, hx.value_eq, hhigh.value_eq, hcross.value_eq] at hvalue
  refine ⟨QM31.one.add mixed, ?_, QM31.denotes_one.add hvalue⟩
  exact congrArg (fun kernel : Option QM31 => kernel.bind fun mixed => some (QM31.one.add mixed)) hmixed

theorem foldWeights_line (a s : QuarticField) (x : BaseField) (bits : ℕ) :
    foldWeights a (fun i => s * bitProduct (lineFactor x) (bits + 2) i) = fun j =>
      s * (lineFold a x / 4) * bitProduct (lineFactor (lineMap (lineMap x))) bits j := by
  have hshift : (fun b => lineFactor x (b + 2)) = lineFactor (lineMap (lineMap x)) := by
    funext b bit
    rw [lineFactor, lineFactor, Function.iterate_add_apply]
    rfl
  rw [foldWeights_bitProduct, hshift]
  funext j
  congr 2
  simp only [lineFactor, lineFold, if_true, Bool.false_eq_true, if_false, Function.iterate_zero, id_eq,
    Function.iterate_one, lift_mul]
  ring

theorem lineM31Tensor_fold {scale : QM31} {x : M31} {a : QuarticField} {alpha alpha2 alpha3 : QM31} {logLen : ℕ}
    (hs : scale.Canonical) (hx : x.Canonical) (hL : 2 ≤ logLen) (ha : Challenge a alpha alpha2 alpha3) :
    ∃ scale' x', foldLineM31TensorArity4 scale x alpha alpha2 alpha3 = some (.lineM31Tensor scale' x') ∧
      scale'.Canonical ∧ x'.Canonical ∧
      Represents (logLen - 2) (.lineM31Tensor scale' x')
        (foldWeights a fun i => scale.value * bitProduct (lineFactor x.value) logLen i) := by
  obtain ⟨factor, hfactor, hvalue⟩ := lineFoldFactor_denotes hx.denotes ha
  have hscale := hs.denotes.mul (denotes_quarter hvalue)
  have hnext := denotes_doubleXM31 (denotes_doubleXM31 hx.denotes)
  refine ⟨_, _, ?_, hscale.canonical, hnext.canonical, ?_⟩
  · rw [foldLineM31TensorArity4, hfactor]
    rfl
  · obtain ⟨bits, rfl⟩ : ∃ bits, logLen = bits + 2 := ⟨logLen - 2, by omega⟩
    rw [foldWeights_line]
    intro j _
    exact ⟨_, rfl, lineLoop_denotes hscale hnext j bits⟩

theorem halveQm31_denotes {value : QM31} {v : QuarticField} (h : value.Denotes v) (count : ℕ) :
    (halveQm31 value count).Denotes (v / 2 ^ count) := by
  induction count generalizing value v with
  | zero =>
    rw [pow_zero, div_one]
    exact h
  | succ count ih =>
    have hnext := ih h.half
    rw [div_div, ← pow_succ'] at hnext
    exact hnext

theorem zip_map_fst_map_snd {β γ : Type} : ∀ l : List (β × γ), (l.map Prod.fst).zip (l.map Prod.snd) = l
  | [] => rfl
  | entry :: l => by
    rw [List.map_cons, List.map_cons, List.zip_cons_cons, zip_map_fst_map_snd l]

/-- A list of steps that return values in a relation to their arguments. -/
theorem mapM_related {β γ : Type} {f : β → Option γ} {R : β → γ → Prop} :
    ∀ {l : List β}, (∀ b ∈ l, ∃ c, f b = some c ∧ R b c) → ∃ cs, l.mapM f = some cs ∧ List.Forall₂ R l cs
  | [], _ => ⟨[], rfl, .nil⟩
  | b :: l, h => by
    obtain ⟨c, hc, hR⟩ := h b List.mem_cons_self
    obtain ⟨cs, hcs, hRs⟩ := mapM_related fun b' hb' => h b' (List.mem_cons_of_mem b hb')
    refine ⟨c :: cs, ?_, .cons hR hRs⟩
    rw [List.mapM_cons, hc, hcs]
    rfl

/-- The weights of several lines. -/
def lineSum (logLen : ℕ) (lines : List (QM31 × M31)) (i : ℕ) : QuarticField :=
  (lines.map fun line => line.1.value * bitProduct (lineFactor line.2.value) logLen i).sum

def CanonicalLine (line : QM31 × M31) : Prop := line.1.Canonical ∧ line.2.Canonical

theorem lineSum_denotes {lines : List (QM31 × M31)} (h : ∀ line ∈ lines, CanonicalLine line) (logLen index : ℕ) :
    (lines.foldl (fun sum line => sum.add (lineLoop logLen index line.1 line.2)) QM31.zero).Denotes
      (lineSum logLen lines index) := by
  have hsum := @foldl_accumulates _ _ _ _ QM31.Denotes (fun sum line => sum.add (lineLoop logLen index line.1 line.2))
    (fun line => line.1.value * bitProduct (lineFactor line.2.value) logLen index) lines
    (fun line hline _ _ hx => hx.add (lineLoop_denotes (h line hline).1.denotes (h line hline).2.denotes index logLen))
    QM31.zero 0 QM31.denotes_zero
  rwa [zero_add] at hsum

theorem lineM31Batch_represents {scales : List QM31} {xs : List M31} {halvings logLen : ℕ}
    (h : ∀ line ∈ scales.zip xs, CanonicalLine line) :
    Represents logLen (.lineM31Batch scales xs halvings) fun i => lineSum logLen (scales.zip xs) i / 2 ^ halvings :=
  fun i _ => ⟨_, rfl, halveQm31_denotes (lineSum_denotes h logLen i) halvings⟩

/-- What a line becomes before its halvings. -/
def FoldedLine (a : QuarticField) (line folded : QM31 × M31) : Prop :=
  folded.1.Denotes (line.1.value * lineFold a line.2.value) ∧ folded.2.Denotes (lineMap (lineMap line.2.value))

theorem lineSum_folded {a : QuarticField} {lines folded : List (QM31 × M31)}
    (h : List.Forall₂ (FoldedLine a) lines folded) (bits : ℕ) :
    foldWeights a (lineSum (bits + 2) lines) = fun j => lineSum bits folded j / 4 := by
  induction h with
  | nil =>
    have hzero : lineSum (bits + 2) [] = fun _ => 0 := rfl
    rw [hzero, foldWeights_zero]
    funext j
    rw [lineSum, List.map_nil, List.sum_nil, zero_div]
  | cons hline _ ih =>
    rename_i line folded lines rest _
    have hsplit : lineSum (bits + 2) (line :: lines) = fun i =>
        line.1.value * bitProduct (lineFactor line.2.value) (bits + 2) i + lineSum (bits + 2) lines i := by
      funext i
      rw [lineSum, List.map_cons, List.sum_cons]
      rfl
    rw [hsplit, foldWeights_add, foldWeights_line, ih]
    funext j
    have hcons : lineSum bits (folded :: rest) j = folded.1.value * bitProduct (lineFactor folded.2.value) bits j +
        lineSum bits rest j := by
      rw [lineSum, List.map_cons, List.sum_cons]
      rfl
    rw [hcons, hline.1.value_eq, hline.2.value_eq]
    ring

theorem lineM31Batch_fold {scales : List QM31} {xs : List M31} {halvings logLen : ℕ} {a : QuarticField}
    {alpha alpha2 alpha3 : QM31} (h : ∀ line ∈ scales.zip xs, CanonicalLine line) (hlen : scales.length = xs.length)
    (hL : 2 ≤ logLen) (ha : Challenge a alpha alpha2 alpha3) :
    ∃ folded : List (QM31 × M31), foldLineM31BatchArity4 scales xs halvings alpha alpha2 alpha3 =
        some (.lineM31Batch (folded.map Prod.fst) (folded.map Prod.snd) (halvings + 2)) ∧
      (∀ line ∈ folded, CanonicalLine line) ∧
      Represents (logLen - 2) (.lineM31Batch (folded.map Prod.fst) (folded.map Prod.snd) (halvings + 2))
        (foldWeights a fun i => lineSum logLen (scales.zip xs) i / 2 ^ halvings) := by
  have hstep : ∀ line ∈ scales.zip xs, ∃ out, (do
      let factor ← lineFoldFactor line.2 alpha alpha2 alpha3
      return (line.1.mul factor, doubleXM31 (doubleXM31 line.2))) = some out ∧ FoldedLine a line out := by
    intro line hline
    obtain ⟨factor, hfactor, hvalue⟩ := lineFoldFactor_denotes (h line hline).2.denotes ha
    refine ⟨(line.1.mul factor, doubleXM31 (doubleXM31 line.2)), ?_, (h line hline).1.denotes.mul hvalue,
      denotes_doubleXM31 (denotes_doubleXM31 (h line hline).2.denotes)⟩
    rw [hfactor]
    rfl
  obtain ⟨folded, hfolded, hrelated⟩ := mapM_related hstep
  have hcanonical : ∀ line ∈ folded, CanonicalLine line := by
    intro line hline
    obtain ⟨i, hi, hget⟩ := List.getElem_of_mem hline
    have hpair := hrelated.get (i := i) (by rw [hrelated.length_eq]; exact hi) hi
    rw [List.get_eq_getElem, List.get_eq_getElem, hget] at hpair
    exact ⟨hpair.1.canonical, hpair.2.canonical⟩
  refine ⟨folded, ?_, hcanonical, ?_⟩
  · rw [foldLineM31BatchArity4, if_neg (not_not.mpr hlen), hfolded]
    rfl
  · obtain ⟨bits, rfl⟩ : ∃ bits, logLen = bits + 2 := ⟨logLen - 2, by omega⟩
    have hzip := zip_map_fst_map_snd folded
    have hrep := @lineM31Batch_represents (folded.map Prod.fst) (folded.map Prod.snd) (halvings + 2) bits
      (by rw [hzip]; exact hcanonical)
    rw [hzip] at hrep
    apply hrep.congr
    intro j _
    rw [foldWeights_div, lineSum_folded hrelated]
    dsimp only
    rw [div_div, pow_add]
    norm_num
    ring

end Aspis.Core
