import Aspis.Core.DotSums

/-! Every kernel for dot products returns the plain sum of its products. The kernels that close a
window into a canonical sum do so for slices of any length. The two kernels by base words that
keep their outer sums as 64-bit values do so up to `2 ^ 33 + 8` blocks or windows; one more
can wrap. -/

namespace Aspis.Core

open Aspis.Lib.Accumulate

/-! ### Prepared factors -/

section Prepared

variable {ι β γ δ : Type}

theorem termsAt_map (left : β → ι → M31) (right : γ → ι → M31) (prepare : δ → β) (weights : List δ)
    (values : List γ) :
    termsAt left right (weights.map prepare) values = termsAt (fun w => left (prepare w)) right weights values := by
  funext index
  unfold termsAt
  rw [List.getElem?_map]
  cases weights[index]? <;> rfl

theorem preparedTerms_new {N : ℕ} (left right : Vector QM31 N) :
    preparedTerms (left.map PreparedQm31Multiplier.new) right =
      termsAt quarticChannels quarticChannels left.toList right.toList := by
  unfold preparedTerms
  rw [Vector.toList_map, termsAt_map]
  rfl

end Prepared

/-- The factors of two arrays. -/
theorem canonicalFactors_arrays {β : Type} {canonical : β → Prop} {N : ℕ} {left : Vector QM31 N} {right : Vector β N}
    (hl : ∀ w ∈ left, w.Canonical) (hr : ∀ v ∈ right, canonical v) :
    CanonicalFactors canonical left.toList right.toList where
  weights_canonical w hw := hl w (Vector.mem_toList_iff.mp hw)
  values_canonical v hv := hr v (Vector.mem_toList_iff.mp hv)
  length_eq := by rw [Vector.length_toList, Vector.length_toList]

theorem prepared_mul {x y : QM31} (hx : x.Canonical) (hy : y.Canonical) :
    (PreparedQm31Multiplier.new x).mul y = x.mul y := by
  have hxs := hx.1.denotes.add hx.2.denotes
  have hys := hy.1.denotes.add hy.2.denotes
  have hpart : ∀ {v w : CM31} {f g : ComplexField}, v.Denotes f → w.Denotes g →
      (⟨(v.a.mul w.a).sub (v.b.mul w.b),
        (((v.a.add v.b).mul (w.a.add w.b)).sub (v.a.mul w.a)).sub (v.b.mul w.b)⟩ : CM31).Denotes (f * g) := by
    intro v w f g hv hw
    exact CM31.denotes_of_parts (hv.a.mul hw.a) (hv.b.mul hw.b) ((hv.a.add hv.b).mul (hw.a.add hw.b))
  have hmul : ((PreparedQm31Multiplier.new x).mul y).Denotes (x.value * y.value) :=
    QM31.denotes_of_parts (hpart hx.1.denotes hy.1.denotes) (hpart hx.2.denotes hy.2.denotes) (hpart hxs hys)
  exact hmul.eq (hx.denotes.mul hy.denotes)

theorem prepared_mul_denotes {x y : QM31} {v w : QuarticField} (hx : x.Denotes v) (hy : y.Denotes w) :
    ((PreparedQm31Multiplier.new x).mul y).Denotes (v * w) := by
  have hmul : (PreparedQm31Multiplier.new x).mul y = x.mul y := prepared_mul hx.canonical hy.canonical
  rw [hmul]
  exact hx.mul hy

/-! ### Fixed numbers of products -/

section Fixed

variable {N : ℕ} {left right : Vector QM31 N}

theorem sumProductsSmall_exact (hl : ∀ w ∈ left, w.Canonical) (hr : ∀ v ∈ right, v.Canonical) (hN : N ≤ 4) :
    qm31SumProductsSmall left right = some (sumProducts QM31.mul left.toList right.toList) := by
  have hfactors : CanonicalFactors quarticScheme.canonical left.toList right.toList := canonicalFactors_arrays hl hr
  obtain ⟨sums, hsums, hfinish⟩ := small_row hfactors (by rw [Vector.length_toList]; exact hN)
  rw [Vector.length_toList] at hsums
  unfold qm31SumProductsSmall
  have hsums' : sumRange (termsAt quarticChannels quarticChannels left.toList right.toList) 0 N = some sums := hsums
  rw [hsums']
  exact congrArg some hfinish

theorem sumProductsPrepared_exact (hl : ∀ w ∈ left, w.Canonical) (hr : ∀ v ∈ right, v.Canonical) (hN : N ≤ 4) :
    (do
      let sums ← sumRange (preparedTerms (left.map PreparedQm31Multiplier.new) right) 0 N
      return qm31FromKaratsubaChannelSums sums) = some (sumProducts QM31.mul left.toList right.toList) := by
  rw [preparedTerms_new]
  exact sumProductsSmall_exact hl hr hN

theorem m31SumProducts3_exact {left : Vector QM31 3} {right : Vector M31 3} (hl : ∀ w ∈ left, w.Canonical)
    (hr : ∀ v ∈ right, v.Canonical) :
    qm31M31SumProducts3 left right = some (sumProducts QM31.mulM31 left.toList right.toList) := by
  have hfactors : CanonicalFactors limbScheme.canonical left.toList right.toList := canonicalFactors_arrays hl hr
  obtain ⟨sums, hsums, hfinish⟩ := small_row hfactors (by rw [Vector.length_toList]; decide)
  rw [Vector.length_toList] at hsums
  have hsums' : sumRange (termsAt limbs (fun value _ => value) left.toList right.toList) 0 3 = some sums := hsums
  unfold qm31M31SumProducts3
  rw [hsums']
  exact congrArg some hfinish

/-- The channels of a constant are small, and linear in them stands the constant. -/
theorem constantChannels_value {constant : QM31} (hc : constant.Canonical) :
    (∀ c, (constantChannels constant c).toNat ≤ 4 * 2147483646) ∧
      quarticPart (fun c => ((constantChannels constant c).toNat : BaseField)) = constant.value := by
  obtain ⟨⟨ha0, hb0⟩, ⟨ha1, hb1⟩⟩ := hc
  have h0 := ha0.lt
  have h1 := hb0.lt
  have h2 := ha1.lt
  have h3 := hb1.lt
  have hs0 : (constant.c0.a.val.toUInt64 + constant.c0.b.val.toUInt64).toNat =
      constant.c0.a.val.toNat + constant.c0.b.val.toNat := CM31.toNat_add_words ha0 hb0
  have hs1 : (constant.c0.a.val.toUInt64 + constant.c1.a.val.toUInt64).toNat =
      constant.c0.a.val.toNat + constant.c1.a.val.toNat := CM31.toNat_add_words ha0 ha1
  have hs2 : (constant.c0.a.val.toUInt64 + constant.c1.a.val.toUInt64 + constant.c0.b.val.toUInt64 +
      constant.c1.b.val.toUInt64).toNat = constant.c0.a.val.toNat + constant.c1.a.val.toNat +
        constant.c0.b.val.toNat + constant.c1.b.val.toNat := by
    rw [UInt64.toNat_add, UInt64.toNat_add, hs1, UInt32.toNat_toUInt64, UInt32.toNat_toUInt64]
    omega
  have ha : constant.c0.a.val.toUInt64.toNat = constant.c0.a.val.toNat := UInt32.toNat_toUInt64 _
  constructor
  · rintro ⟨k, j⟩
    fin_cases k <;> fin_cases j <;> (simp [constantChannels, hs0, hs1, hs2]; try omega)
  · apply QuadraticAlgebra.ext
    · show complexPart _ + ⟨2, 1⟩ * complexPart _ = constant.c0.value
      apply QuadraticAlgebra.ext
      · simp [complexPart, constantChannels, hs0, CM31.value, M31.value]
      · simp [complexPart, constantChannels, hs0, CM31.value, M31.value]
    · show complexPart _ - complexPart _ - complexPart _ = constant.c1.value
      apply QuadraticAlgebra.ext
      · simp [complexPart, constantChannels, hs0, hs1, hs2, CM31.value, M31.value]
      · simp [complexPart, constantChannels, hs0, hs1, hs2, CM31.value, M31.value]
        ring

theorem addSumProducts3Prepared_exact {constant : QM31} {left right : Vector QM31 3} (hc : constant.Canonical)
    (hl : ∀ w ∈ left, w.Canonical) (hr : ∀ v ∈ right, v.Canonical) :
    qm31AddSumProducts3Prepared constant (left.map PreparedQm31Multiplier.new) right =
      some (constant.add (sumProducts QM31.mul left.toList right.toList)) := by
  have hfactors : CanonicalFactors quarticScheme.canonical left.toList right.toList := canonicalFactors_arrays hl hr
  obtain ⟨sums, hsums, hval⟩ := (termsAt_products hfactors).block 0 3 (by decide)
    (by rw [Vector.length_toList]) (by decide)
  have hsums' : sumRange (termsAt quarticChannels quarticChannels left.toList right.toList) 0 3 = some sums := hsums
  obtain ⟨hsmall, hvalue⟩ := constantChannels_value hc
  have hfits : ∀ c, (sums c).toNat + (constantChannels constant c).toNat < 2 ^ 64 := by
    intro c
    have h1 := (hval c).2
    have h2 := hsmall c
    omega
  obtain ⟨total, htotal, hsum⟩ := addWords_of_lt hfits
  unfold qm31AddSumProducts3Prepared
  rw [preparedTerms_new, hsums', Option.bind_eq_bind, Option.bind_some, htotal, Option.bind_some]
  -- the value of the channels is the value of the products plus the value of the constant
  have hchannels : ∀ c, (reduceAll total c).Denotes
      (((quarticScheme.elements left.toList right.toList).sum +
        fun c => ((constantChannels constant c).toNat : BaseField)) c) := by
    intro c
    have hc := M31.denotes_reduceU64 (total c)
    rw [hsum c, Nat.cast_add, (hval c).1] at hc
    have hlen := @sum_elements _ _ quarticScheme left.toList right.toList c hfactors.length_eq
    rw [Vector.length_toList] at hlen
    rw [Pi.add_apply, ← hlen]
    exact hc
  have hresult := quarticScheme.finish_denotes _ _ hchannels
  rw [map_add] at hresult
  have hexpected := hc.denotes.add (sumProducts_denotes hfactors)
  rw [add_comm, ← hvalue] at hexpected
  exact congrArg some (hresult.eq hexpected)

/-- Two groups of at most four products each. -/
theorem groups_exact (size : ℕ) (hl : ∀ w ∈ left, w.Canonical) (hr : ∀ v ∈ right, v.Canonical) (hsize : size ≤ 4)
    (hpos : 0 < size) (hN : N ≤ 2 * size) :
    (do
      let sums ← sumRange (groupTerms size (preparedTerms (left.map PreparedQm31Multiplier.new) right)) 0 N
      return quarticOfChannels (reduceGroups sums)) = some (sumProducts QM31.mul left.toList right.toList) := by
  have hfactors : CanonicalFactors quarticScheme.canonical left.toList right.toList := canonicalFactors_arrays hl hr
  obtain ⟨t, ht⟩ := termsAt_products hfactors
  rw [Vector.length_toList] at ht
  have hgroup : ∀ i, 0 ≤ i → i < N → groupTerms size (preparedTerms (left.map PreparedQm31Multiplier.new) right) i =
      some fun c => if c.1.val = i / size then t i c.2 else 0 := by
    intro i _ hi
    have hi' : termsAt quarticChannels quarticChannels left.toList right.toList i = some (t i) := (ht i hi).1
    rw [preparedTerms_new, groupTerms, hi', Option.map_some]
  have hselect : ∀ (g : Fin 2) (c : Fin 3 × Fin 3),
      ∑ i ∈ Finset.Ico 0 N, (if g.val = i / size then t i c else 0).toNat =
        ∑ i ∈ (Finset.Ico 0 N).filter (fun i => g.val = i / size), (t i c).toNat := by
    intro g c
    rw [Finset.sum_filter]
    apply Finset.sum_congr rfl
    intro i _
    split_ifs <;> rfl
  have hfits : ∀ gc : Fin 2 × Fin 3 × Fin 3,
      ∑ i ∈ Finset.Ico 0 N, (if gc.1.val = i / size then t i gc.2 else 0).toNat < 2 ^ 64 := by
    rintro ⟨g, c⟩
    show ∑ i ∈ Finset.Ico 0 N, (if g.val = i / size then t i c else 0).toNat < 2 ^ 64
    rw [hselect]
    have hcard : ((Finset.Ico 0 N).filter (fun i => g.val = i / size)).card ≤ size := by
      have hsub : (Finset.Ico 0 N).filter (fun i => g.val = i / size) ⊆ Finset.Ico (g.val * size) (g.val * size + size) := by
        intro i hi
        have hdiv := (Finset.mem_filter.mp hi).2
        rw [Finset.mem_Ico, hdiv]
        have h1 := Nat.div_mul_le_self i size
        have h2 := Nat.lt_div_mul_add hpos (a := i)
        omega
      have := Finset.card_le_card hsub
      rw [Nat.card_Ico] at this
      omega
    have hle := Finset.sum_le_card_nsmul ((Finset.Ico 0 N).filter (fun i => g.val = i / size)) (fun i => (t i c).toNat)
      (2147483646 * 2147483647) (by
        intro i hi
        exact ((ht i (Finset.mem_Ico.mp (Finset.mem_filter.mp hi).1).2).2 c).1)
    rw [smul_eq_mul] at hle
    have := Nat.mul_le_mul_right (2147483646 * 2147483647) (hcard.trans hsize)
    omega
  obtain ⟨sums, hsums, hval⟩ := sumRange_of_lt (Nat.zero_le N) hgroup hfits
  rw [hsums, Option.bind_eq_bind, Option.bind_some]
  refine congrArg some (finish_eq_sumProducts hfactors ?_)
  intro c
  have hadd := (M31.denotes_reduceU64 (sums (0, c))).add (M31.denotes_reduceU64 (sums (1, c)))
  rw [← Nat.cast_add, hval, hval, ← Finset.sum_add_distrib] at hadd
  -- every index lies in one of the two groups
  have hsum : ((∑ i ∈ Finset.Ico 0 N, ((if (0 : Fin 2).val = i / size then t i c else 0).toNat +
      (if (1 : Fin 2).val = i / size then t i c else 0).toNat) : ℕ) : BaseField) =
        (quarticScheme.elements left.toList right.toList).sum c := by
    have hlen := @sum_elements _ _ quarticScheme left.toList right.toList c hfactors.length_eq
    rw [Vector.length_toList] at hlen
    rw [← hlen, Nat.cast_sum]
    apply Finset.sum_congr rfl
    intro i hi
    have hiN := (Finset.mem_Ico.mp hi).2
    have hdiv : i / size = 0 ∨ i / size = 1 :=
      Nat.le_one_iff_eq_zero_or_eq_one.mp (Nat.le_of_lt_succ (Nat.div_lt_of_lt_mul (by omega)))
    have hvalue : ((t i c).toNat : BaseField) = (quarticScheme.elements left.toList right.toList).getD i 0 c :=
      ((ht i hiN).2 c).2
    rw [← hvalue]
    rcases hdiv with hdiv | hdiv <;> simp [hdiv]
  rw [hsum] at hadd
  exact hadd

end Fixed

/-! ### Slices -/

theorem qm31Dot_exact {weights values : List QM31} (h : CanonicalFactors QM31.Canonical weights values) :
    qm31Dot weights values = some (sumProducts QM31.mul weights values) := by
  have hfactors : CanonicalFactors quarticScheme.canonical weights values := h
  unfold qm31Dot
  rw [if_neg (not_not.mpr h.length_eq)]
  by_cases hshort : weights.length ≤ 16
  · rw [if_pos hshort]
    obtain ⟨m, hm, hfinish⟩ := eager_row hfactors
    have hm' : eagerBlocks (termsAt quarticChannels quarticChannels weights values) weights.length = some m := hm
    rw [hm']
    exact congrArg some hfinish
  · rw [if_neg hshort]
    obtain ⟨m, hm, hfinish⟩ := windowed_row hfactors
    have hm' : windowedBlocks (termsAt quarticChannels quarticChannels weights values) weights.length = some m := hm
    rw [hm']
    exact congrArg some hfinish

theorem qm31Dot3_exact {weights : List QM31} {values : Fin 3 → List QM31}
    (h : ∀ row, CanonicalFactors QM31.Canonical weights (values row)) :
    qm31Dot3 weights values = some fun row => sumProducts QM31.mul weights (values row) := by
  have hfactors : ∀ row, CanonicalFactors quarticScheme.canonical weights (values row) := h
  have hlen : ¬ ∃ row, weights.length ≠ (values row).length := by
    rintro ⟨row, hrow⟩
    exact hrow (h row).length_eq
  obtain ⟨m, hm, hfinish⟩ := windowed_rows hfactors
  have hm' : windowedBlocks (rowTerms fun row => termsAt quarticChannels quarticChannels weights (values row))
      weights.length = some m := hm
  unfold qm31Dot3
  rw [if_neg hlen]
  dsimp only
  rw [hm']
  exact congrArg some (funext hfinish)

theorem qm31Cm31Dot_exact {weights : List QM31} {values : List CM31}
    (h : CanonicalFactors CM31.Canonical weights values) :
    qm31Cm31Dot weights values = some (sumProducts QM31.mulCm31 weights values) := by
  have hfactors : CanonicalFactors mixedScheme.canonical weights values := h
  obtain ⟨m, hm, hfinish⟩ := eager_row hfactors
  have hm' : eagerBlocks (termsAt mixedChannels (fun value c => karatsubaParts value c.2) weights values)
      weights.length = some m := hm
  unfold qm31Cm31Dot
  rw [if_neg (not_not.mpr h.length_eq)]
  dsimp only
  rw [hm']
  exact congrArg some hfinish

theorem qm31Cm31Dot4_exact {weights : List QM31} {values : Fin 4 → List CM31}
    (h : ∀ slot, CanonicalFactors CM31.Canonical weights (values slot)) :
    qm31Cm31Dot4 weights values = some fun slot => sumProducts QM31.mulCm31 weights (values slot) := by
  have hfactors : ∀ slot, CanonicalFactors mixedScheme.canonical weights (values slot) := h
  have hlen : ¬ ∃ slot, weights.length ≠ (values slot).length := by
    rintro ⟨slot, hslot⟩
    exact hslot (h slot).length_eq
  obtain ⟨m, hm, hfinish⟩ := windowed_rows hfactors
  have hm' : windowedBlocks (rowTerms fun slot =>
      termsAt mixedChannels (fun value c => karatsubaParts value c.2) weights (values slot)) weights.length =
        some m := hm
  unfold qm31Cm31Dot4
  rw [if_neg hlen]
  dsimp only
  rw [hm']
  exact congrArg some (funext hfinish)

theorem qm31Cm31Dot4Prepared_exact {N : ℕ} {weights : Vector QM31 N} {values : Fin 4 → Vector CM31 N}
    (hw : ∀ w ∈ weights, w.Canonical) (hv : ∀ slot, ∀ v ∈ values slot, v.Canonical) :
    qm31Cm31Dot4Prepared (.new weights) values =
      some fun slot => sumProducts QM31.mulCm31 weights.toList (values slot).toList := by
  have hfactors : ∀ slot, CanonicalFactors mixedScheme.canonical weights.toList (values slot).toList :=
    fun slot => canonicalFactors_arrays hw (hv slot)
  obtain ⟨m, hm, hfinish⟩ := windowed_rows hfactors
  rw [Vector.length_toList] at hm
  have hterms : (fun slot => termsAt id (fun value c => karatsubaParts value c.2)
      (PreparedQm31Cm31Weights.new weights).components.toList (values slot).toList) =
        fun slot => termsAt mixedChannels (fun value c => karatsubaParts value c.2) weights.toList
          (values slot).toList := by
    funext slot
    unfold PreparedQm31Cm31Weights.new
    rw [Vector.toList_map, termsAt_map]
    rfl
  have hm' : windowedBlocks (rowTerms fun slot =>
      termsAt mixedChannels (fun value c => karatsubaParts value c.2) weights.toList (values slot).toList) N =
        some m := hm
  unfold qm31Cm31Dot4Prepared
  dsimp only
  rw [hterms, hm']
  exact congrArg some (funext hfinish)

theorem qm31M31DotEagerOuter_exact {weights : List QM31} {values : List M31}
    (h : CanonicalFactors M31.Canonical weights values) :
    qm31M31DotEagerOuter weights values = some (sumProducts QM31.mulM31 weights values) := by
  have hfactors : CanonicalFactors limbScheme.canonical weights values := h
  obtain ⟨m, hm, hfinish⟩ := eager_row hfactors
  have hm' : eagerBlocks (termsAt limbs (fun value _ => value) weights values) weights.length = some m := hm
  unfold qm31M31DotEagerOuter
  rw [if_neg (not_not.mpr h.length_eq), hm']
  exact congrArg some hfinish

theorem qm31M31Dot_exact {weights : List QM31} {values : List M31}
    (h : CanonicalFactors M31.Canonical weights values) (hlen : weights.length ≤ 4 * (2 ^ 33 + 8)) :
    qm31M31Dot weights values = some (sumProducts QM31.mulM31 weights values) := by
  have hfactors : CanonicalFactors limbScheme.canonical weights values := h
  unfold qm31M31Dot
  rw [if_neg (not_not.mpr h.length_eq)]
  by_cases hshort : weights.length ≤ 4
  · rw [if_pos hshort]
    obtain ⟨sums, hsums, hfinish⟩ := small_row hfactors hshort
    have hsums' : sumRange (termsAt limbs (fun value _ => value) weights values) 0 weights.length = some sums := hsums
    rw [hsums']
    exact congrArg some hfinish
  · rw [if_neg hshort]
    obtain ⟨sums, hsums, hfinish⟩ := lazy_row hfactors hlen
    have hsums' : lazyBlocks (termsAt limbs (fun value _ => value) weights values) 0 weights.length =
        some sums := hsums
    rw [hsums']
    exact congrArg some hfinish

theorem qm31M31Dot4_exact {weights : List QM31} {values : Fin 4 → List M31}
    (h : ∀ slot, CanonicalFactors M31.Canonical weights (values slot))
    (hwindows : weights.length ≤ 256 * (2 ^ 33 + 8)) :
    qm31M31Dot4 weights values = some fun slot => sumProducts QM31.mulM31 weights (values slot) := by
  have hfactors : ∀ slot, CanonicalFactors limbScheme.canonical weights (values slot) := h
  have hlen : ¬ ∃ slot, weights.length ≠ (values slot).length := by
    rintro ⟨slot, hslot⟩
    exact hslot (h slot).length_eq
  obtain ⟨sums, hsums, hfinish⟩ := lazy_rows hfactors hwindows
  have hsums' : lazyWindows (rowTerms fun slot => termsAt limbs (fun value _ => value) weights (values slot))
      weights.length = some sums := hsums
  unfold qm31M31Dot4
  rw [if_neg hlen]
  dsimp only
  rw [hsums']
  exact congrArg some (funext hfinish)

/-! ### Sums of 128 bits -/

theorem toNat_wideProducts (weight : QM31) (value : M31) (c : Fin 4) :
    (wideProducts weight value c).toNat = (limbs weight c).val.toNat * value.val.toNat := by
  have hw : (limbs weight c).val.toNat < 2 ^ 32 := (limbs weight c).val.toNat_lt
  have hv : value.val.toNat < 2 ^ 32 := value.val.toNat_lt
  have hlt := Nat.mul_lt_mul'' hw hv
  have hwmod : (limbs weight c).val.toNat % 2 ^ 128 = (limbs weight c).val.toNat := Nat.mod_eq_of_lt (by omega)
  have hvmod : value.val.toNat % 2 ^ 128 = value.val.toNat := Nat.mod_eq_of_lt (by omega)
  show ((limbs weight c).val.toBitVec.setWidth 128 * value.val.toBitVec.setWidth 128).toNat = _
  rw [BitVec.toNat_mul, BitVec.toNat_setWidth, BitVec.toNat_setWidth, UInt32.toNat_toBitVec, UInt32.toNat_toBitVec,
    hwmod, hvmod]
  exact Nat.mod_eq_of_lt (by omega)

/-- The sums of a slice that is short enough stay below the word size. -/
theorem wideSums_exact {weights : List QM31} {values : List M31}
    (h : CanonicalFactors M31.Canonical weights values) (sums : Fin 4 → BitVec 128)
    (hfits : ∀ c, (sums c).toNat + weights.length * (2147483646 * 2147483646) < 2 ^ 128) :
    ∃ total, (weights.zip values).foldlM (fun sums pair => addWide sums (wideProducts pair.1 pair.2)) sums = some total ∧
      ∀ c, ((total c).toNat : BaseField) = (sums c).toNat + (limbScheme.elements weights values).sum c := by
  induction weights generalizing values sums with
  | nil => exact ⟨sums, rfl, fun c => (add_zero _).symm⟩
  | cons w weights ih =>
    cases values with
    | nil => cases h.length_eq
    | cons v values =>
      have hw := h.weights_canonical w List.mem_cons_self
      have hv := h.values_canonical v List.mem_cons_self
      have hrest : CanonicalFactors M31.Canonical weights values :=
        ⟨fun w' hw' => h.weights_canonical w' (List.mem_cons_of_mem _ hw'),
          fun v' hv' => h.values_canonical v' (List.mem_cons_of_mem _ hv'), Nat.succ.inj h.length_eq⟩
      have hterm : ∀ c, (wideProducts w v c).toNat ≤ 2147483646 * 2147483646 := by
        intro c
        rw [toNat_wideProducts]
        exact Nat.mul_le_mul (Nat.le_of_lt_succ (limbScheme.left_canonical w hw c).lt) (Nat.le_of_lt_succ hv.lt)
      have hstep : ∀ c, (sums c).toNat + (wideProducts w v c).toNat < 2 ^ 128 := by
        intro c
        have h1 := hfits c
        have h2 := hterm c
        rw [List.length_cons] at h1
        omega
      have hnat : ∀ c, (sums c + wideProducts w v c).toNat = (sums c).toNat + (wideProducts w v c).toNat := by
        intro c
        rw [BitVec.toNat_add]
        exact Nat.mod_eq_of_lt (hstep c)
      obtain ⟨total, htotal, hval⟩ := ih hrest (fun c => sums c + wideProducts w v c) (by
        intro c
        have h1 := hfits c
        have h2 := hterm c
        rw [List.length_cons] at h1
        rw [hnat c]
        omega)
      refine ⟨total, ?_, ?_⟩
      · rw [List.zip_cons_cons, List.foldlM_cons, addWide, if_pos hstep]
        exact htotal
      · intro c
        have hc := hval c
        rw [hnat c, Nat.cast_add, toNat_wideProducts, Nat.cast_mul, add_assoc] at hc
        exact hc

/-- A slice has fewer than `2 ^ 64` entries, so its 128-bit sums cannot wrap. -/
theorem qm31M31DotU128_exact {weights : List QM31} {values : List M31}
    (h : CanonicalFactors M31.Canonical weights values) (hlen : weights.length < 2 ^ 64) :
    qm31M31DotU128 weights values = some (sumProducts QM31.mulM31 weights values) := by
  have hfactors : CanonicalFactors limbScheme.canonical weights values := h
  have hzero : (0 : BitVec 128).toNat = 0 := rfl
  obtain ⟨total, htotal, hval⟩ := wideSums_exact h (fun _ => 0) (by
    intro c
    rw [hzero]
    omega)
  have hfinish : limbScheme.finish (fun c => M31.reduceU128 (total c)) = sumProducts limbScheme.mul weights values := by
    apply finish_eq_sumProducts hfactors
    intro c
    have hc := M31.denotes_reduceU128 (total c)
    rw [hval c, hzero, Nat.cast_zero, zero_add] at hc
    exact hc
  unfold qm31M31DotU128
  rw [if_neg (not_not.mpr h.length_eq), htotal]
  exact congrArg some hfinish

/-! ### The kernels together -/

/-- A word whose four-fold is one less than the prime. -/
def minusQuarter : M31 := ⟨1610612735⟩

/-- A slice of `2 ^ 33 + 9` blocks, each of which reduces to the largest word. -/
def longWeights : List QM31 := List.replicate (4 * (2 ^ 33 + 9)) QM31.one

def longValues : List M31 := List.replicate (4 * (2 ^ 33 + 9)) minusQuarter

theorem long_canonical : CanonicalFactors M31.Canonical longWeights longValues where
  weights_canonical w hw := by
    rw [List.eq_of_mem_replicate hw]
    decide
  values_canonical v hv := by
    rw [List.eq_of_mem_replicate hv]
    decide
  length_eq := by
    unfold longWeights longValues
    rw [List.length_replicate, List.length_replicate]

theorem long_length : longWeights.length = 4 * (2 ^ 33 + 9) := List.length_replicate

/-- The first channel of each of the blocks. -/
theorem long_block {i : ℕ} (hi : i + 4 ≤ 4 * (2 ^ 33 + 9)) : ∃ raw,
    sumRange (termsAt limbs (fun value _ => value) longWeights longValues) i (i + 4) = some raw ∧
      (wordsOf (reduceAll raw) 0).toNat = 2147483646 := by
  have hterm : ∀ j, i ≤ j → j < i + 4 → termsAt limbs (fun value _ => value) longWeights longValues j =
      some (products (limbs QM31.one) fun _ => minusQuarter) := by
    intro j _ hj
    unfold termsAt longWeights longValues
    rw [List.getElem?_replicate, List.getElem?_replicate, if_pos (by omega), if_pos (by omega)]
    rfl
  have hle : ∀ c, (products (limbs QM31.one) (fun _ => minusQuarter) c).toNat ≤ 1610612735 := by decide
  obtain ⟨raw, hraw, hval⟩ := sumRange_of_lt (Nat.le_add_right i 4) hterm (by
    intro c
    rw [Finset.sum_const, Nat.card_Ico, Nat.add_sub_cancel_left, smul_eq_mul]
    have := hle c
    omega)
  refine ⟨raw, hraw, ?_⟩
  have h0 := hval 0
  rw [Finset.sum_const, Nat.card_Ico, Nat.add_sub_cancel_left, smul_eq_mul] at h0
  have hproduct : (products (limbs QM31.one) (fun _ => minusQuarter) 0).toNat = 1610612735 := by decide
  rw [toNat_wordsOf]
  show (reduceU64 (raw 0)).toNat = _
  rw [toNat_reduceU64, h0, hproduct]

/-- One block more than fits: the kernel by base words wraps on canonical slices. -/
theorem qm31M31Dot_wraps : CanonicalFactors M31.Canonical longWeights longValues ∧
    qm31M31Dot longWeights longValues = none := by
  refine ⟨long_canonical, ?_⟩
  have hnone : lazyBlocks (termsAt limbs (fun value _ => value) longWeights longValues) 0 longWeights.length = none := by
    by_contra hsome
    obtain ⟨sums, hsums⟩ := Option.ne_none_iff_exists'.mp hsome
    rw [long_length] at hsums
    have hinv := @stepLoop_of_some _ 4 _ (4 * (2 ^ 33 + 9)) (by decide)
      (fun i (outer : Fin 4 → UInt64) => i % 4 = 0 ∧ (outer 0).toNat = i / 4 * 2147483646) (by
        intro i outer next hi hinv hbody
        have hmin : min (i + 4) (4 * (2 ^ 33 + 9)) = i + 4 := by omega
        rw [hmin] at hbody ⊢
        obtain ⟨raw, hraw, hword⟩ := long_block (i := i) (by omega)
        rw [hraw] at hbody
        have hsum := addWords_eq_some hbody 0
        rw [hword, hinv.2] at hsum
        refine ⟨by omega, ?_⟩
        rw [hsum]
        omega) 0 (fun _ => 0) sums (Nat.zero_le _) (by simp) hsums
    have hlt := (sums 0).toNat_lt
    omega
  unfold qm31M31Dot
  rw [if_neg (not_not.mpr long_canonical.length_eq), if_neg (by rw [long_length]; decide), hnone]
  rfl

/-- The kernels over slices return the plain sum and no sum of theirs wraps: those that close their windows for any
length, those with 64-bit sums to the end up to `2 ^ 33 + 8` blocks or windows. -/
structure SliceKernelsExact : Prop where
  qm31_dot : ∀ weights values, CanonicalFactors QM31.Canonical weights values →
    qm31Dot weights values = some (sumProducts QM31.mul weights values)
  qm31_dot3 : ∀ weights values, (∀ row, CanonicalFactors QM31.Canonical weights (values row)) →
    qm31Dot3 weights values = some fun row => sumProducts QM31.mul weights (values row)
  qm31_cm31_dot : ∀ weights values, CanonicalFactors CM31.Canonical weights values →
    qm31Cm31Dot weights values = some (sumProducts QM31.mulCm31 weights values)
  qm31_cm31_dot4 : ∀ weights values, (∀ slot, CanonicalFactors CM31.Canonical weights (values slot)) →
    qm31Cm31Dot4 weights values = some fun slot => sumProducts QM31.mulCm31 weights (values slot)
  qm31_cm31_dot4_prepared : ∀ (N : ℕ) (weights : Vector QM31 N) (values : Fin 4 → Vector CM31 N),
    (∀ w ∈ weights, w.Canonical) → (∀ slot, ∀ v ∈ values slot, v.Canonical) →
      qm31Cm31Dot4Prepared (.new weights) values =
        some fun slot => sumProducts QM31.mulCm31 weights.toList (values slot).toList
  qm31_m31_dot_eager_outer : ∀ weights values, CanonicalFactors M31.Canonical weights values →
    qm31M31DotEagerOuter weights values = some (sumProducts QM31.mulM31 weights values)
  qm31_m31_dot : ∀ weights values, CanonicalFactors M31.Canonical weights values →
    weights.length ≤ 4 * (2 ^ 33 + 8) → qm31M31Dot weights values = some (sumProducts QM31.mulM31 weights values)
  qm31_m31_dot4 : ∀ weights values, (∀ slot, CanonicalFactors M31.Canonical weights (values slot)) →
    weights.length ≤ 256 * (2 ^ 33 + 8) →
      qm31M31Dot4 weights values = some fun slot => sumProducts QM31.mulM31 weights (values slot)
  qm31_m31_dot_u128 : ∀ weights values, CanonicalFactors M31.Canonical weights values → weights.length < 2 ^ 64 →
    qm31M31DotU128 weights values = some (sumProducts QM31.mulM31 weights values)

/-- The kernels for a fixed number of products return the plain sum and no sum of theirs wraps. -/
structure FixedKernelsExact : Prop where
  sum_products2 : ∀ left right : Vector QM31 2, (∀ w ∈ left, w.Canonical) → (∀ v ∈ right, v.Canonical) →
    qm31SumProducts2 left right = some (sumProducts QM31.mul left.toList right.toList) ∧
      qm31SumProducts2Prepared (left.map .new) right = some (sumProducts QM31.mul left.toList right.toList)
  sum_products3 : ∀ left right : Vector QM31 3, (∀ w ∈ left, w.Canonical) → (∀ v ∈ right, v.Canonical) →
    qm31SumProducts3 left right = some (sumProducts QM31.mul left.toList right.toList) ∧
      qm31SumProducts3Prepared (left.map .new) right = some (sumProducts QM31.mul left.toList right.toList)
  sum_products4 : ∀ left right : Vector QM31 4, (∀ w ∈ left, w.Canonical) → (∀ v ∈ right, v.Canonical) →
    qm31SumProducts4 left right = some (sumProducts QM31.mul left.toList right.toList)
  m31_sum_products3 : ∀ (left : Vector QM31 3) (right : Vector M31 3), (∀ w ∈ left, w.Canonical) →
    (∀ v ∈ right, v.Canonical) → qm31M31SumProducts3 left right = some (sumProducts QM31.mulM31 left.toList right.toList)
  add_sum_products3 : ∀ (constant : QM31) (left right : Vector QM31 3), constant.Canonical →
    (∀ w ∈ left, w.Canonical) → (∀ v ∈ right, v.Canonical) →
      qm31AddSumProducts3Prepared constant (left.map .new) right =
        some (constant.add (sumProducts QM31.mul left.toList right.toList))
  dot6 : ∀ weights values : Vector QM31 6, (∀ w ∈ weights, w.Canonical) → (∀ v ∈ values, v.Canonical) →
    qm31Dot6Prepared (weights.map .new) values = some (sumProducts QM31.mul weights.toList values.toList)
  dot7 : ∀ weights values : Vector QM31 7, (∀ w ∈ weights, w.Canonical) → (∀ v ∈ values, v.Canonical) →
    qm31Dot7Prepared (weights.map .new) values = some (sumProducts QM31.mul weights.toList values.toList)
  prepared_mul : ∀ x y : QM31, x.Canonical → y.Canonical → (PreparedQm31Multiplier.new x).mul y = x.mul y

theorem dot_kernels_exact : SliceKernelsExact ∧ FixedKernelsExact := by
  constructor
  · exact
      { qm31_dot := fun _ _ => qm31Dot_exact
        qm31_dot3 := fun _ _ => qm31Dot3_exact
        qm31_cm31_dot := fun _ _ => qm31Cm31Dot_exact
        qm31_cm31_dot4 := fun _ _ => qm31Cm31Dot4_exact
        qm31_cm31_dot4_prepared := fun _ _ _ => qm31Cm31Dot4Prepared_exact
        qm31_m31_dot_eager_outer := fun _ _ => qm31M31DotEagerOuter_exact
        qm31_m31_dot := fun _ _ => qm31M31Dot_exact
        qm31_m31_dot4 := fun _ _ => qm31M31Dot4_exact
        qm31_m31_dot_u128 := fun _ _ => qm31M31DotU128_exact }
  · exact
      { sum_products2 := fun _ _ hl hr => ⟨sumProductsSmall_exact hl hr (by decide),
          sumProductsPrepared_exact hl hr (by decide)⟩
        sum_products3 := fun _ _ hl hr => ⟨sumProductsSmall_exact hl hr (by decide),
          sumProductsPrepared_exact hl hr (by decide)⟩
        sum_products4 := fun _ _ hl hr => sumProductsSmall_exact hl hr (by decide)
        m31_sum_products3 := fun _ _ => m31SumProducts3_exact
        add_sum_products3 := fun _ _ _ => addSumProducts3Prepared_exact
        dot6 := fun _ _ hl hr => groups_exact 3 hl hr (by decide) (by decide) (by decide)
        dot7 := fun _ _ hl hr => groups_exact 4 hl hr (by decide) (by decide) (by decide)
        prepared_mul := fun _ _ => prepared_mul }

/-- The kernel by base words at 300 products with the largest words. -/
theorem dot_kernels_exact_sample :
    qm31M31Dot (List.replicate 300 ⟨⟨⟨2147483646⟩, ⟨1⟩⟩, ⟨⟨2⟩, ⟨3⟩⟩⟩) (List.replicate 300 ⟨2147483646⟩) =
      some (sumProducts QM31.mulM31 (List.replicate 300 ⟨⟨⟨2147483646⟩, ⟨1⟩⟩, ⟨⟨2⟩, ⟨3⟩⟩⟩)
        (List.replicate 300 ⟨2147483646⟩)) := by
  apply dot_kernels_exact.1.qm31_m31_dot
  · constructor
    · intro w hw
      rw [List.eq_of_mem_replicate hw]
      decide
    · intro v hv
      rw [List.eq_of_mem_replicate hv]
      decide
    · rw [List.length_replicate, List.length_replicate]
  · rw [List.length_replicate]
    decide

end Aspis.Core
