import Aspis.Core.DotProducts
import Aspis.Lib.BatchInverse
import Aspis.Lib.PowerSum

/-! Tables of powers, the evaluation of a polynomial of degree 72 and the inversion of a list of
elements. The evaluation by blocks of eight delays the reductions inside a block; the inversion of
a list inverts one product. -/

namespace Aspis.Core

open Aspis.Lib.BatchInverse Aspis.Lib.PowerSum

/-! ### Tables of powers -/

/-- The entries from `index` on: each takes the power, which is advanced unless the entry is the last. -/
def powerEntries (gamma : PreparedQm31Multiplier) (N : ℕ) : ℕ → ℕ → QM31 → List QM31
  | 0, _, _ => []
  | count + 1, index, power =>
    power :: powerEntries gamma N count (index + 1) (if index + 1 ≠ N then gamma.mul power else power)

/-- The powers of `gamma` with exponents below `N`. -/
def qm31PowerTable (N : ℕ) (gamma : QM31) : List QM31 := powerEntries (.new gamma) N N 0 .one

theorem powerEntries_denotes {gamma : QM31} (hgamma : gamma.Canonical) (N : ℕ) : ∀ (count index : ℕ) (power : QM31),
    index + count = N → power.Denotes (gamma.value ^ index) →
      List.Forall₂ QM31.Denotes (powerEntries (.new gamma) N count index power)
        ((List.range' index count).map (gamma.value ^ ·))
  | 0, _, _, _, _ => List.Forall₂.nil
  | count + 1, index, power, hcount, hpower => by
    rw [powerEntries, List.range'_succ, List.map_cons]
    apply List.Forall₂.cons hpower
    by_cases hlast : index + 1 = N
    · obtain rfl : count = 0 := by omega
      exact List.Forall₂.nil
    · rw [if_pos hlast]
      apply powerEntries_denotes hgamma N count (index + 1) _ (by omega)
      rw [pow_succ']
      exact prepared_mul_denotes hgamma.denotes hpower

theorem qm31PowerTable_denotes {gamma : QM31} (hgamma : gamma.Canonical) (N : ℕ) :
    List.Forall₂ QM31.Denotes (qm31PowerTable N gamma) ((List.range N).map (gamma.value ^ ·)) := by
  rw [List.range_eq_range']
  apply powerEntries_denotes hgamma N N 0 _ (Nat.zero_add N)
  rw [pow_zero]
  exact QM31.denotes_one

/-! ### Evaluation -/

/-- Horner's rule with a prepared point, for coefficients in ascending order below a leading one. -/
def hornerFold (x : QM31) (leading : QM31) (coefficients : List QM31) : QM31 :=
  coefficients.reverse.foldl (fun accumulator coefficient => ((PreparedQm31Multiplier.new x).mul accumulator).add coefficient)
    leading

theorem hornerFold_denotes {x leading : QM31} {v w : QuarticField} (hx : x.Denotes v) (hleading : leading.Denotes w)
    {coefficients : List QM31} (hcanonical : ∀ c ∈ coefficients, c.Canonical) :
    (hornerFold x leading coefficients).Denotes (powerSum v (coefficients.map QM31.value ++ [w])) := by
  rw [hornerFold, List.foldl_reverse]
  induction coefficients with
  | nil =>
    rw [List.map_nil, List.nil_append, powerSum_cons, powerSum_nil, mul_zero, add_zero]
    exact hleading
  | cons c coefficients ih =>
    rw [List.foldr_cons, List.map_cons, List.cons_append, powerSum_cons, add_comm]
    have hrest := ih fun c' hc' => hcanonical c' (List.mem_cons_of_mem c hc')
    exact (prepared_mul_denotes hx hrest).add (hcanonical c List.mem_cons_self).denotes

/-- Horner's rule over a whole vector, its last entry leading. -/
theorem hornerFold_vector_denotes {n : ℕ} {coefficients : Vector QM31 (n + 1)} {x : QM31} {v : QuarticField}
    (hcanonical : ∀ c ∈ coefficients, c.Canonical) (hx : x.Denotes v) :
    (hornerFold x coefficients[n] (coefficients.toList.take n)).Denotes
      (powerSum v (coefficients.toList.map QM31.value)) := by
  have hlower : ∀ c ∈ coefficients.toList.take n, c.Canonical := fun c hc =>
    hcanonical c (Vector.mem_toList_iff.mp (List.mem_of_mem_take hc))
  have hfold := hornerFold_denotes hx (hcanonical coefficients[n] (Vector.getElem_mem _)).denotes hlower
  have hlist : (coefficients.toList.take n).map QM31.value ++ [(coefficients[n]).value] =
      coefficients.toList.map QM31.value := by
    rw [← List.map_singleton, ← List.map_append]
    congr 1
    have hlt : n < coefficients.toList.length := by rw [Vector.length_toList]; exact n.lt_succ_self
    have htake := List.take_succ_eq_append_getElem hlt
    rw [List.take_of_length_le (by rw [Vector.length_toList])] at htake
    exact htake.symm
  rw [hlist] at hfold
  exact hfold

def qm31EvaluateDegree72Horner (coefficients : Vector QM31 73) (x : QM31) : QM31 :=
  hornerFold x coefficients[72] (coefficients.toList.take 72)

/-- The first seven powers of a point, by four squares and three products. -/
def blockPowers (x : QM31) : Vector QM31 7 :=
  let preparedX := PreparedQm31Multiplier.new x
  let x2 := x.square
  let x3 := preparedX.mul x2
  let x4 := x2.square
  let x5 := preparedX.mul x4
  let x6 := x3.square
  let x7 := preparedX.mul x6
  #v[x, x2, x3, x4, x5, x6, x7]

/-- A block of eight coefficients at the point. -/
def radix8Block (coefficients : Vector QM31 73) (preparedPowers : Vector PreparedQm31Multiplier 7) (block : Fin 9) :
    Option QM31 := do
  let start := 8 * block.val
  let values : Vector QM31 7 := Vector.ofFn fun offset => coefficients[start + 1 + offset.val]
  let products ← qm31Dot7Prepared preparedPowers values
  return coefficients[start].add products

def qm31EvaluateDegree72Radix8 (coefficients : Vector QM31 73) (x : QM31) : Option QM31 :=
  let preparedPowers := (blockPowers x).map PreparedQm31Multiplier.new
  let preparedX8 := PreparedQm31Multiplier.new x.square.square.square
  (List.finRange 9).reverse.foldlM (fun accumulator block => do
    let blockValue ← radix8Block coefficients preparedPowers block
    return (preparedX8.mul accumulator).add blockValue) coefficients[72]

/-- The plain sum of products of quartic factors. -/
theorem sumProducts_mul_denotes {weights values : List QM31} (h : CanonicalFactors QM31.Canonical weights values) :
    (sumProducts QM31.mul weights values).Denotes
      (List.zipWith (· * ·) (weights.map QM31.value) (values.map QM31.value)).sum := by
  rw [← zero_add (List.sum _)]
  apply foldl_add_denotes _ _ _ QM31.denotes_zero
  obtain ⟨hw, hv, hlength⟩ := h
  induction weights generalizing values with
  | nil => exact List.Forall₂.nil
  | cons w weights ih =>
    cases values with
    | nil => cases hlength
    | cons v values =>
      apply List.Forall₂.cons
      · exact (hw w List.mem_cons_self).denotes.mul (hv v List.mem_cons_self).denotes
      · exact ih (fun w' hw' => hw w' (List.mem_cons_of_mem w hw')) (fun v' hv' => hv v' (List.mem_cons_of_mem v hv'))
          (Nat.succ.inj hlength)

theorem geometric_seven (v : QuarticField) :
    geometric v v 7 = [v, v * v, v * (v * v), v * v * (v * v), v * (v * v * (v * v)), v * (v * v) * (v * (v * v)),
      v * (v * (v * v) * (v * (v * v)))] := by
  simp only [geometric, mul_assoc]

/-- A vector from a place on: the entry there, the next `k` entries and the rest. -/
theorem drop_eq_block {α : Type*} {n : ℕ} (v : Vector α n) (k start : ℕ) (h : start + 1 + k ≤ n) :
    v.toList.drop start = v[start] ::
      ((Vector.ofFn fun i : Fin k => v[start + 1 + i.val]).toList ++ v.toList.drop (start + 1 + k)) := by
  have hblock : (v.toList.drop (start + 1)).take k = (Vector.ofFn fun i : Fin k => v[start + 1 + i.val]).toList := by
    apply List.ext_getElem
    · simp
      omega
    · intro i hi hi'
      simp
  have hrest : v.toList.drop (start + 1 + k) = (v.toList.drop (start + 1)).drop k := List.drop_drop.symm
  have hstart : start < v.toList.length := by rw [Vector.length_toList]; omega
  rw [List.drop_eq_getElem_cons hstart, ← hblock, hrest, List.take_append_drop, Vector.getElem_toList]

section Radix8
variable {coefficients : Vector QM31 73} {x : QM31}

theorem blockPowers_denotes (hx : x.Canonical) :
    List.Forall₂ QM31.Denotes (blockPowers x).toList (geometric x.value x.value 7) := by
  have h1 := hx.denotes
  have h2 := h1.square
  have h3 := prepared_mul_denotes h1 h2
  have h4 := h2.square
  have h5 := prepared_mul_denotes h1 h4
  have h6 := h3.square
  have h7 := prepared_mul_denotes h1 h6
  have hlist : (blockPowers x).toList = [x, x.square, (PreparedQm31Multiplier.new x).mul x.square, x.square.square,
      (PreparedQm31Multiplier.new x).mul x.square.square, ((PreparedQm31Multiplier.new x).mul x.square).square,
      (PreparedQm31Multiplier.new x).mul ((PreparedQm31Multiplier.new x).mul x.square).square] := by
    simp only [blockPowers, Vector.toList_mk]
  rw [geometric_seven, hlist]
  simp only [List.forall₂_cons, List.Forall₂.nil, and_true]
  exact ⟨h1, h2, h3, h4, h5, h6, h7⟩

theorem map_value_of_denotes {l : List QM31} {vs : List QuarticField} (h : List.Forall₂ QM31.Denotes l vs) :
    l.map QM31.value = vs := by
  induction h with
  | nil => rfl
  | cons hv _ ih => rw [List.map_cons, hv.value_eq, ih]

theorem canonical_of_denotes {l : List QM31} {vs : List QuarticField} (h : List.Forall₂ QM31.Denotes l vs) :
    ∀ c ∈ l, c.Canonical := by
  induction h with
  | nil => simp
  | cons hv _ ih =>
    rw [List.forall_mem_cons]
    exact ⟨hv.canonical, ih⟩

/-- A block stands for its eight terms, and what follows is a multiple of the eighth power. -/
theorem radix8Block_denotes (hcanonical : ∀ c ∈ coefficients, c.Canonical) (hx : x.Canonical) (block : Fin 9) :
    ∃ q, radix8Block coefficients ((blockPowers x).map .new) block = some q ∧ q.Canonical ∧
      powerSum x.value ((coefficients.toList.map QM31.value).drop (8 * block.val)) =
        q.value + x.value ^ 8 * powerSum x.value ((coefficients.toList.map QM31.value).drop (8 * (block.val + 1))) := by
  have hget : ∀ {i : ℕ} (hi : i < 73), (coefficients[i]).Canonical := fun hi => hcanonical _ (Vector.getElem_mem hi)
  set values : Vector QM31 7 := Vector.ofFn fun offset => coefficients[8 * block.val + 1 + offset.val] with hvalues
  have hvaluesCanonical : ∀ c ∈ values, c.Canonical := by
    intro c hc
    obtain ⟨i, rfl⟩ := Vector.mem_ofFn.mp hc
    exact hget _
  have hpowers := blockPowers_denotes hx
  have hpowersCanonical : ∀ w ∈ blockPowers x, w.Canonical := fun w hw =>
    canonical_of_denotes hpowers w (Vector.mem_toList_iff.mpr hw)
  have hdot : qm31Dot7Prepared ((blockPowers x).map .new) values =
      some (sumProducts QM31.mul (blockPowers x).toList values.toList) :=
    groups_exact 4 hpowersCanonical hvaluesCanonical (by decide) (by decide) (by decide)
  have hproducts := sumProducts_mul_denotes (canonicalFactors_arrays hpowersCanonical hvaluesCanonical)
  have hlength : (values.toList.map QM31.value).length = 7 := by rw [List.length_map, Vector.length_toList]
  have hgeometric := sum_zipWith_geometric x.value (values.toList.map QM31.value) x.value
  rw [hlength] at hgeometric
  rw [map_value_of_denotes hpowers, hgeometric] at hproducts
  have hstart : 8 * block.val < 73 := by omega
  have hsum := (hget hstart).denotes.add hproducts
  refine ⟨_, by rw [radix8Block, ← hvalues, hdot]; rfl, hsum.canonical, ?_⟩
  have hdrop : (coefficients.toList.map QM31.value).drop (8 * block.val) =
      (coefficients[8 * block.val]).value ::
        (values.toList.map QM31.value ++ (coefficients.toList.map QM31.value).drop (8 * (block.val + 1))) := by
    rw [← List.map_drop, drop_eq_block coefficients 7 (8 * block.val) (by omega), ← hvalues, List.map_cons,
      List.map_append, List.map_drop]
    rfl
  rw [hdrop, powerSum_cons, powerSum_append, hlength, hsum.value_eq]
  ring

theorem radix8_blocks (hcanonical : ∀ c ∈ coefficients, c.Canonical) (hx : x.Canonical) :
    ∀ (n : ℕ) {accumulator : QM31}, n ≤ 9 →
      accumulator.Denotes (powerSum x.value ((coefficients.toList.map QM31.value).drop (8 * n))) →
      ∃ q, ((List.finRange 9).take n).reverse.foldlM (fun accumulator block => do
        let blockValue ← radix8Block coefficients ((blockPowers x).map .new) block
        return ((PreparedQm31Multiplier.new x.square.square.square).mul accumulator).add blockValue) accumulator = some q ∧
        q.Denotes (powerSum x.value (coefficients.toList.map QM31.value))
  | 0, accumulator, _, h => ⟨accumulator, rfl, h⟩
  | n + 1, accumulator, hn, h => by
    have hlt : n < (List.finRange 9).length := by rw [List.length_finRange]; omega
    obtain ⟨value, hvalue, hvalueCanonical, hsum⟩ := radix8Block_denotes hcanonical hx ⟨n, by omega⟩
    have hnext := (prepared_mul_denotes hx.denotes.square.square.square h).add hvalueCanonical.denotes
    have heq : x.value * x.value * (x.value * x.value) * (x.value * x.value * (x.value * x.value)) *
        powerSum x.value ((coefficients.toList.map QM31.value).drop (8 * (n + 1))) + value.value =
          powerSum x.value ((coefficients.toList.map QM31.value).drop (8 * n)) := by
      rw [hsum]
      ring
    rw [heq] at hnext
    have hblock : (List.finRange 9)[n] = ⟨n, by omega⟩ := List.getElem_finRange _
    rw [List.take_succ_eq_append_getElem hlt, List.reverse_append, List.reverse_singleton, List.singleton_append,
      List.foldlM_cons, hblock, hvalue]
    exact radix8_blocks hcanonical hx n (by omega) hnext

theorem qm31EvaluateDegree72Horner_denotes (hcanonical : ∀ c ∈ coefficients, c.Canonical) (hx : x.Canonical) :
    (qm31EvaluateDegree72Horner coefficients x).Denotes (powerSum x.value (coefficients.toList.map QM31.value)) :=
  hornerFold_vector_denotes hcanonical hx.denotes

/-- The evaluation by blocks returns the value of Horner's rule. -/
theorem qm31EvaluateDegree72Radix8_eq (hcanonical : ∀ c ∈ coefficients, c.Canonical) (hx : x.Canonical) :
    qm31EvaluateDegree72Radix8 coefficients x = some (qm31EvaluateDegree72Horner coefficients x) := by
  have hstart : (coefficients[72]).Denotes
      (powerSum x.value ((coefficients.toList.map QM31.value).drop (8 * 9))) := by
    have hlast : (coefficients.toList.map QM31.value).drop (8 * 9) = [(coefficients[72]).value] := by
      rw [← List.map_drop, drop_eq_block coefficients 0 72 le_rfl, List.drop_eq_nil_of_le (by rw [Vector.length_toList])]
      rfl
    rw [hlast, powerSum_cons, powerSum_nil, mul_zero, add_zero]
    exact (hcanonical _ (Vector.getElem_mem _)).denotes
  obtain ⟨q, hq, hdenotes⟩ := radix8_blocks hcanonical hx 9 le_rfl hstart
  rw [List.take_of_length_le (by rw [List.length_finRange])] at hq
  rw [qm31EvaluateDegree72Radix8, hq, hdenotes.eq (qm31EvaluateDegree72Horner_denotes hcanonical hx)]

end Radix8

/-! ### Lists of inverses -/

def m31BatchInverseWith (values out : List M31) (inverse : M31 → Option M31) : Option (List M31) :=
  batchInverseWith M31.mul .one inverse values out

def m31BatchInverse (values out : List M31) : Option (List M31) := m31BatchInverseWith values out M31.inv

def CM31.invWith (x : CM31) (inverse : M31 → Option M31) : Option CM31 := do
  let norm := (x.a.mul x.a).add (x.b.mul x.b)
  let invNorm ← inverse norm
  return ⟨x.a.mul invNorm, x.b.neg.mul invNorm⟩

def cm31BatchInverseWith (values out : List CM31) (inverse : M31 → Option M31) : Option (List CM31) :=
  batchInverseWith CM31.mul .one (fun acc => acc.invWith inverse) values out

def cm31BatchInverse (values out : List CM31) : Option (List CM31) := cm31BatchInverseWith values out M31.inv

/-- A backend inverts every canonical element as the addition chain does, and does not return on zero. -/
def InversionBackend (inverse : M31 → Option M31) : Prop := ∀ x : M31, x.Canonical → inverse x = x.inv

theorem M31.inv_of_denotes_zero {x : M31} (h : x.Denotes 0) : x.inv = none := by
  rw [h.eq denotes_zero]
  exact inv_zero

theorem CM31.norm_denotes {x : CM31} {v : ComplexField} (h : x.Denotes v) :
    ((x.a.mul x.a).add (x.b.mul x.b)).Denotes (v.re * v.re + v.im * v.im) := (h.a.mul h.a).add (h.b.mul h.b)

theorem CM31.invWith_eq {x : CM31} (hx : x.Canonical) {inverse : M31 → Option M31} (h : InversionBackend inverse) :
    x.invWith inverse = x.inv := by
  rw [CM31.invWith, h _ (norm_denotes hx.denotes).canonical]
  rfl

theorem CM31.inv_of_denotes_zero {x : CM31} (h : x.Denotes 0) : x.inv = none := by
  have hnorm := norm_denotes h
  have hzero : (0 : ComplexField).re * (0 : ComplexField).re + (0 : ComplexField).im * (0 : ComplexField).im = 0 := by
    simp
  rw [hzero] at hnorm
  rw [CM31.inv, M31.inv_of_denotes_zero hnorm]
  rfl

/-- What an inversion of lists has to do: return the inverses when no element is zero, and not return otherwise. -/
structure InvertsBatches {α : Type} (canonical : α → Prop) (mul : α → α → α) (one zero : α) (inv : α → Option α)
    (batch : List α → List α → Option (List α)) : Prop where
  returns : ∀ values out : List α, (∀ v ∈ values, canonical v) → (∀ v ∈ values, v ≠ zero) → values.length = out.length →
    ∃ result, batch values out = some result ∧ List.Forall₂ (fun v r => inv v = some r ∧ mul v r = one) values result
  stops : ∀ values out : List α, (∀ v ∈ values, canonical v) → zero ∈ values → batch values out = none

section Batches
variable {α : Type} {K : Type*} [Field K] {R : α → K → Prop} {value : α → K} {canonical : α → Prop} {mul : α → α → α}
  {one zero : α} {inv inverse : α → Option α}

/-- The passes of a representation of a field invert lists. -/
theorem invertsBatches (hvalue : ∀ {x}, canonical x → R x (value x)) (hcanonical : ∀ {x v}, R x v → canonical x)
    (hvalueEq : ∀ {x v}, R x v → value x = v) (hunique : ∀ {x y v}, R x v → R y v → x = y) (hmul : ∀ {x y v w}, R x v → R y w → R (mul x y) (v * w))
    (hone : R one 1) (hzero : R zero 0) (hinv : ∀ {x v}, R x v → v ≠ 0 → ∃ y, inv x = some y ∧ R y v⁻¹)
    (hnone : ∀ {x}, R x 0 → inv x = none) (hinverse : ∀ {x}, canonical x → inverse x = inv x) :
    InvertsBatches canonical mul one zero inv (batchInverseWith mul one inverse) where
  returns values out hall hne hlength := by
    have hrelated : List.Forall₂ R values (values.map value) := by
      rw [List.forall₂_map_right_iff, List.forall₂_same]
      exact fun v hv => hvalue (hall v hv)
    have hvalues : ∀ v ∈ values.map value, v ≠ 0 := by
      intro w hw hw0
      obtain ⟨v, hv, rfl⟩ := List.mem_map.mp hw
      have hR := hvalue (hall v hv)
      rw [hw0] at hR
      exact hne v hv (hunique hR hzero)
    have hbackend : ∀ {x v}, R x v → v ≠ 0 → ∃ y, inverse x = some y ∧ R y v⁻¹ := by
      intro x v hx hv
      rw [hinverse (hcanonical hx)]
      exact hinv hx hv
    obtain ⟨result, hresult, hinverses⟩ := batchInverseWith_related hmul hone hbackend hrelated hvalues hlength
    refine ⟨result, hresult, ?_⟩
    rw [List.map_map, List.forall₂_map_right_iff, List.forall₂_iff_zip] at hinverses
    refine List.forall₂_iff_zip.mpr ⟨hinverses.1.symm, ?_⟩
    intro v r hzip
    have hv := (List.of_mem_zip hzip).1
    have hr : R r (value v)⁻¹ := hinverses.2 (by
      rw [← List.zip_swap]
      exact List.mem_map_of_mem hzip)
    have hR := hvalue (hall v hv)
    have hv0 := hvalues _ (List.mem_map_of_mem hv)
    obtain ⟨y, hy, hyR⟩ := hinv hR hv0
    have hprod := hmul hR hr
    rw [mul_inv_cancel₀ hv0] at hprod
    exact ⟨hy.trans (congrArg some (hunique hyR hr)), hunique hprod hone⟩
  stops values out hall hmem := by
    have hrelated : List.Forall₂ R values (values.map value) := by
      rw [List.forall₂_map_right_iff, List.forall₂_same]
      exact fun v hv => hvalue (hall v hv)
    have hnoneBackend : ∀ {x}, R x 0 → inverse x = none := by
      intro x hx
      rw [hinverse (hcanonical hx), hnone hx]
    have hzeroMem : (0 : K) ∈ values.map value := List.mem_map.mpr ⟨zero, hmem, hvalueEq hzero⟩
    exact batchInverseWith_eq_none hmul hone hnoneBackend hrelated hzeroMem

end Batches

theorem m31BatchInverseWith_inverts {inverse : M31 → Option M31} (h : InversionBackend inverse) :
    InvertsBatches M31.Canonical M31.mul .one .zero M31.inv fun values out => m31BatchInverseWith values out inverse :=
  invertsBatches M31.Canonical.denotes (fun h => h.canonical) (fun h => h.value_eq) M31.Denotes.eq M31.Denotes.mul
    M31.denotes_one M31.denotes_zero M31.Denotes.inv M31.inv_of_denotes_zero (fun hx => h _ hx)

theorem cm31BatchInverseWith_inverts {inverse : M31 → Option M31} (h : InversionBackend inverse) :
    InvertsBatches CM31.Canonical CM31.mul .one .zero CM31.inv fun values out => cm31BatchInverseWith values out inverse :=
  invertsBatches CM31.Canonical.denotes CM31.Denotes.canonical CM31.Denotes.value_eq CM31.Denotes.eq CM31.Denotes.mul
    CM31.denotes_one CM31.denotes_zero CM31.Denotes.inv CM31.inv_of_denotes_zero fun hx => CM31.invWith_eq hx h

theorem inversionBackend_inv : InversionBackend M31.inv := fun _ _ => rfl

/-- The evaluation by blocks is Horner's rule, the table holds the powers, and the inversions of lists return the inverses
exactly when no element is zero, with the chain of the source or any backend that agrees with it. -/
theorem power_kernels_exact :
    (∀ (coefficients : Vector QM31 73) (x : QM31), (∀ c ∈ coefficients, c.Canonical) → x.Canonical →
      qm31EvaluateDegree72Radix8 coefficients x = some (qm31EvaluateDegree72Horner coefficients x)) ∧
    (∀ (N : ℕ) (gamma : QM31), gamma.Canonical →
      List.Forall₂ QM31.Denotes (qm31PowerTable N gamma) ((List.range N).map (gamma.value ^ ·))) ∧
    InvertsBatches M31.Canonical M31.mul .one .zero M31.inv m31BatchInverse ∧
    InvertsBatches CM31.Canonical CM31.mul .one .zero CM31.inv cm31BatchInverse ∧
    ∀ inverse, InversionBackend inverse →
      InvertsBatches M31.Canonical M31.mul .one .zero M31.inv (fun values out => m31BatchInverseWith values out inverse) ∧
      InvertsBatches CM31.Canonical CM31.mul .one .zero CM31.inv
        (fun values out => cm31BatchInverseWith values out inverse) :=
  ⟨fun _ _ => qm31EvaluateDegree72Radix8_eq, fun N _ hgamma => qm31PowerTable_denotes hgamma N,
    m31BatchInverseWith_inverts inversionBackend_inv, cm31BatchInverseWith_inverts inversionBackend_inv,
    fun _ h => ⟨m31BatchInverseWith_inverts h, cm31BatchInverseWith_inverts h⟩⟩

/-- Inversion of `2, 3` and of a list with a zero. -/
theorem power_kernels_exact_sample :
    (∃ result, m31BatchInverse [⟨2⟩, ⟨3⟩] [.zero, .zero] = some result ∧
      List.Forall₂ (fun v r => M31.inv v = some r ∧ M31.mul v r = .one) [⟨2⟩, ⟨3⟩] result) ∧
    cm31BatchInverse [.one, .zero] [.one, .one] = none ∧
    qm31EvaluateDegree72Radix8 (Vector.replicate 73 .one) .one =
      some (qm31EvaluateDegree72Horner (Vector.replicate 73 .one) .one) :=
  ⟨power_kernels_exact.2.2.1.returns _ _ (by decide) (by decide) rfl,
    power_kernels_exact.2.2.2.1.stops _ _ (by decide) (by decide),
    power_kernels_exact.1 _ _ (fun c hc => by rw [Vector.eq_of_mem_replicate hc]; decide) (by decide)⟩

end Aspis.Core
