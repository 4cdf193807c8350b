import Aspis.Core.WeightRounds

/-! The round polynomial of the sumcheck: its coefficients over all chunks, its sum over the boundary
and its value at a challenge. -/

namespace Aspis.Core

open Aspis.Lib.DualFold Aspis.Lib.Accumulate

theorem four_ne_zero_quartic : (4 : QuarticField) ≠ 0 := by
  have h : (4 : QuarticField) = 2 * 2 := by norm_num
  rw [h]
  exact mul_ne_zero two_ne_zero two_ne_zero

theorem denotes_quarter_m31 : M31_QUARTER.Denotes (1 / 4) := by
  refine ⟨by decide, ?_⟩
  rw [eq_div_iff (by decide)]
  decide

theorem lift_quarter : lift (1 / 4) = 1 / 4 := by
  rw [lift, map_div₀, map_one, map_ofNat]

/-- A polynomial whose coefficients stand for the given ones. -/
def DenotesAll (polynomial : SumcheckPolynomial) (f : Fin 7 → QuarticField) : Prop :=
  ∀ d, (polynomial.get d).Denotes (f d)

theorem DenotesAll.set_add {polynomial : SumcheckPolynomial} {f : Fin 7 → QuarticField} (h : DenotesAll polynomial f)
    {k : ℕ} (hk : k < 7) {x : QM31} {v : QuarticField} (hx : x.Denotes v) :
    DenotesAll (polynomial.set k ((polynomial.get ⟨k, hk⟩).add x) hk)
      (f + fun d => if d.val = k then v else 0) := by
  intro d
  show (polynomial.set k ((polynomial.get ⟨k, hk⟩).add x) hk)[d.val].Denotes (f d + if d.val = k then v else 0)
  by_cases hd : d.val = k
  · obtain rfl : d = ⟨k, hk⟩ := Fin.ext hd
    rw [if_pos rfl, Vector.getElem_set_self]
    exact (h _).add hx
  · rw [if_neg hd, add_zero, Vector.getElem_set_ne _ _ (fun hne => hd hne.symm)]
    exact h d

theorem accumulateChunk_denotes {output : SumcheckPolynomial} {f : Fin 7 → QuarticField} {values weights : Fin 4 → QM31}
    {v w : Fin 4 → QuarticField} (h : DenotesAll output f) (hv : ∀ a, (values a).Denotes (v a))
    (hw : ∀ b, (weights b).Denotes (w b)) : DenotesAll (accumulateChunk output values weights) (f + chunkCoeff v w) := by
  have hdual : ∀ b, ((![weights 0, weights 3, weights 2, weights 1] : Fin 4 → QM31) b).Denotes
      ((![w 0, w 3, w 2, w 1] : Fin 4 → QuarticField) b) := by
    intro b
    fin_cases b
    · exact hw 0
    · exact hw 3
    · exact hw 2
    · exact hw 1
  have hterm : ∀ a b, (((values a).mul ((![weights 0, weights 3, weights 2, weights 1] : Fin 4 → QM31) b)).mulM31
      M31_QUARTER).Denotes (v a * (![w 0, w 3, w 2, w 1] : Fin 4 → QuarticField) b / 4) := by
    intro a b
    have hproduct := denotes_mulM31 ((hv a).mul (hdual b)) denotes_quarter_m31
    rw [lift_quarter, mul_one_div] at hproduct
    exact hproduct
  have hinner : ∀ (a : Fin 4) (output : SumcheckPolynomial) (f : Fin 7 → QuarticField), DenotesAll output f →
      DenotesAll ((List.finRange 4).foldl (fun output b =>
        output.set (a.val + b.val) ((output.get ⟨a.val + b.val, by omega⟩).add (((values a).mul
          ((![weights 0, weights 3, weights 2, weights 1] : Fin 4 → QM31) b)).mulM31 M31_QUARTER)) (by omega)) output)
        (f + ((List.finRange 4).map (productAt v w a)).sum) := by
    intro a output f hf
    exact foldl_accumulates (fun b _ output f hf => hf.set_add (by omega) (hterm a b)) hf
  have hall := foldl_accumulates (fun a (_ : a ∈ List.finRange 4) output f hf => hinner a output f hf) h
  have hsum : ((List.finRange 4).map fun a => ((List.finRange 4).map (productAt v w a)).sum).sum = chunkCoeff v w := by
    funext d
    rw [← Fin.sum_univ_def, Finset.sum_apply, ← sum_productAt]
    refine Finset.sum_congr rfl fun a _ => ?_
    rw [← Fin.sum_univ_def, Finset.sum_apply]
  rw [hsum] at hall
  exact hall

variable {weights : WeightAccumulator}

theorem accumulateChunks_denotes (h : weights.Shape) {v : ℕ → QuarticField} :
    ∀ (rest : List QM31) (chunkIndex : ℕ) (output : SumcheckPolynomial), 4 * chunkIndex + rest.length = 2 ^ weights.logLen →
      4 ∣ rest.length → DenotesAll output (roundCoeff chunkIndex weights.covector v) →
      (∀ (k : ℕ) (q : QM31), rest[k]? = some q → q.Denotes (v (4 * chunkIndex + k))) →
      ∃ out, accumulateChunks weights rest chunkIndex output = some out ∧
        DenotesAll out (roundCoeff (2 ^ weights.logLen / 4) weights.covector v)
  | v0 :: v1 :: v2 :: v3 :: rest, chunkIndex, output, hlen, hdvd, hout, hvalues => by
    have hpow : 2 ^ weights.logLen < 2 ^ 32 := Nat.pow_lt_pow_right (by decide) h.small
    simp only [List.length_cons] at hlen hdvd
    have hbase : chunkIndex * 4 % 2 ^ 32 = 4 * chunkIndex := by omega
    obtain ⟨w0, h0, hd0⟩ := @WeightAccumulator.weightAt_denotes weights h (4 * chunkIndex) (by omega)
    obtain ⟨w1, h1, hd1⟩ := @WeightAccumulator.weightAt_denotes weights h (4 * chunkIndex + 1) (by omega)
    obtain ⟨w2, h2, hd2⟩ := @WeightAccumulator.weightAt_denotes weights h (4 * chunkIndex + 2) (by omega)
    obtain ⟨w3, h3, hd3⟩ := @WeightAccumulator.weightAt_denotes weights h (4 * chunkIndex + 3) (by omega)
    have hchunk : DenotesAll (accumulateChunk output ![v0, v1, v2, v3] ![w0, w1, w2, w3])
        (roundCoeff (chunkIndex + 1) weights.covector v) := by
      have hstep : roundCoeff (chunkIndex + 1) weights.covector v =
          roundCoeff chunkIndex weights.covector v + chunkCoeff (chunk v chunkIndex) (chunk weights.covector chunkIndex) := by
        funext d
        exact roundCoeff_succ chunkIndex _ _ d
      rw [hstep]
      apply accumulateChunk_denotes hout
      · intro a
        fin_cases a
        · exact hvalues 0 v0 rfl
        · exact hvalues 1 v1 rfl
        · exact hvalues 2 v2 rfl
        · exact hvalues 3 v3 rfl
      · intro b
        fin_cases b
        · exact hd0
        · exact hd1
        · exact hd2
        · exact hd3
    obtain ⟨out, hfold, hfinal⟩ := accumulateChunks_denotes h rest (chunkIndex + 1) _ (by omega) (by omega) hchunk
      fun k q hq => by
        have hshift := hvalues (k + 4) q hq
        rwa [show 4 * chunkIndex + (k + 4) = 4 * (chunkIndex + 1) + k by omega] at hshift
    refine ⟨out, ?_, hfinal⟩
    rw [accumulateChunks, hbase, h0, h1, h2, h3]
    exact hfold
  | [], chunkIndex, output, hlen, _, hout, _ => by
    rw [List.length_nil] at hlen
    refine ⟨output, rfl, ?_⟩
    rw [show 2 ^ weights.logLen / 4 = chunkIndex by omega]
    exact hout
  | [_], _, _, _, hdvd, _, _ => absurd hdvd (by simp)
  | [_, _], _, _, _, hdvd, _, _ => absurd hdvd (by simp)
  | [_, _, _], _, _, _, hdvd, _, _ => absurd hdvd (by simp)

theorem getElem?_denotes {values : List QM31} (hvalues : ∀ v ∈ values, v.Canonical) (k : ℕ) (q : QM31)
    (h : values[k]? = some q) : q.Denotes (entryAt values k) := by
  obtain ⟨hk, rfl⟩ := List.getElem?_eq_some_iff.mp h
  obtain ⟨q', hq', hd⟩ := getElem?_entryAt hvalues hk
  rw [h] at hq'
  cases hq'
  exact hd

/-- The round polynomial of canonical values and weights of the right shape. -/
theorem polynomialForExtension_denotes (h : weights.Shape) (hlow : 2 ≤ weights.logLen) {values : List QM31}
    (hvalues : ∀ v ∈ values, v.Canonical) (hlen : values.length = 2 ^ weights.logLen) :
    ∃ polynomial, polynomialForExtension values weights = some polynomial ∧
      DenotesAll polynomial (roundCoeff (2 ^ weights.logLen / 4) weights.covector (entryAt values)) := by
  have hpow := four_mul_two_pow hlow
  have hzero : DenotesAll (Vector.replicate 7 QM31.zero) (roundCoeff 0 weights.covector (entryAt values)) := by
    intro d
    show (Vector.replicate 7 QM31.zero)[d.val].Denotes _
    rw [Vector.getElem_replicate]
    have hempty : roundCoeff 0 weights.covector (entryAt values) d = 0 := by simp [roundCoeff]
    rw [hempty]
    exact QM31.denotes_zero
  obtain ⟨out, hfold, hout⟩ := accumulateChunks_denotes h values 0 _ (by rw [Nat.mul_zero, Nat.zero_add, hlen])
    (by rw [hlen]; exact ⟨_, hpow.symm⟩) hzero fun k q hq => by
      rw [Nat.mul_zero, Nat.zero_add]
      exact getElem?_denotes hvalues k q hq
  refine ⟨out, ?_, hout⟩
  rw [polynomialForExtension, if_neg (not_not.mpr hlen)]
  exact hfold

theorem boundarySum_denotes {polynomial : SumcheckPolynomial} {f : Fin 7 → QuarticField} (h : DenotesAll polynomial f) :
    (boundarySum polynomial).Denotes (4 * (f 0 + f 4)) := by
  have hfour : (⟨4⟩ : M31).Denotes 4 := ⟨by decide, by decide⟩
  have hsum := denotes_mulM31 ((h 0).add (h 4)) hfour
  rw [lift, map_ofNat, mul_comm] at hsum
  exact hsum

theorem evaluate_denotes {polynomial : SumcheckPolynomial} {f : Fin 7 → QuarticField} {alpha : QM31} {a : QuarticField}
    (h : DenotesAll polynomial f) (ha : alpha.Denotes a) :
    (evaluate polynomial alpha).Denotes (∑ d : Fin 7, f d * a ^ d.val) := by
  have hhorner := (((((((((((h 6).mul ha).add (h 5)).mul ha).add (h 4)).mul ha).add (h 3)).mul ha).add (h 2)).mul ha).add
    (h 1)).mul ha |>.add (h 0)
  have hsum : ∑ d : Fin 7, f d * a ^ d.val =
      (((((f 6 * a + f 5) * a + f 4) * a + f 3) * a + f 2) * a + f 1) * a + f 0 := by
    simp only [Fin.sum_univ_succ]
    simp
    ring
  rw [hsum]
  exact hhorner

/-! ### The fold of the values -/

theorem length_foldAdjacentNaturalArity4 (alpha : QM31) (values : List QM31) :
    (foldAdjacentNaturalArity4 alpha values).length = values.length / 4 := by
  fun_induction foldAdjacentNaturalArity4 alpha values with
  | case1 v0 v1 v2 v3 rest ih =>
    rw [List.length_cons, ih]
    simp only [List.length_cons]
    omega
  | case2 values h =>
    match values with
    | v0 :: v1 :: v2 :: v3 :: rest => exact absurd rfl (h v0 v1 v2 v3 rest)
    | [] => simp
    | [_] => simp
    | [_, _] => simp
    | [_, _, _] => simp

theorem foldAdjacentNaturalArity4_denotes {alpha : QM31} {a : QuarticField} (ha : alpha.Denotes a) :
    ∀ {values : List QM31}, (∀ v ∈ values, v.Canonical) → ∀ (j : ℕ) (q : QM31),
      (foldAdjacentNaturalArity4 alpha values)[j]? = some q →
      q.Denotes (foldValues a (entryAt values) j) := by
  have hpowers := challenge_powers ha
  intro values
  fun_induction foldAdjacentNaturalArity4 alpha values with
  | case1 v0 v1 v2 v3 rest ih =>
    intro h j q hget
    cases j with
    | zero =>
      have h0 := (h v0 (by simp)).denotes
      have h1 := (h v1 (by simp)).denotes
      have h2 := (h v2 (by simp)).denotes
      have h3 := (h v3 (by simp)).denotes
      have hq : ((v0.add (alpha.mul v1)).add (alpha.square.mul v2)).add ((alpha.square.mul alpha).mul v3) = q :=
        Option.some.inj hget
      have hfold := ((h0.add (hpowers.one.mul h1)).add (hpowers.two.mul h2)).add (hpowers.three.mul h3)
      rw [hq] at hfold
      exact hfold
    | succ j =>
      have hrest := ih (fun v hv => h v (by simp [hv])) j q hget
      have hshift : ∀ k, entryAt (v0 :: v1 :: v2 :: v3 :: rest) (4 * (j + 1) + k) = entryAt rest (4 * j + k) := by
        intro k
        rw [show 4 * (j + 1) + k = 4 * j + k + 4 by omega]
        rfl
      have h0 := hshift 0
      rw [Nat.add_zero, Nat.add_zero] at h0
      rw [foldValues, h0, hshift, hshift, hshift]
      exact hrest
  | case2 values hshort =>
    intro _ j q hget
    cases hget

end Aspis.Core
