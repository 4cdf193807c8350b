import Aspis.Core.DotKernels
import Aspis.Core.FieldTower

/-! The dot products of the tower are the plain sums of products. A kernel is followed in two
steps: its sums are the sums of the products modulo the prime, whatever its blocks are, and
no sum wraps, as long as the blocks of one sum are few enough; the value it builds of its sums
is linear in them, so it is the sum of the values of the products. -/

namespace Aspis.Core

open Aspis.Lib.Accumulate
open scoped Widths

/-! ### Sums over blocks -/

section Blocks

variable {ι : Type} [Fintype ι]

/-- The words at every index are products of a word below the prime and one at most the prime, and stand for `f`. -/
def ProductTerms (terms : ℕ → Option (ι → UInt64)) (len : ℕ) (f : ℕ → ι → BaseField) : Prop :=
  ∃ t : ℕ → ι → UInt64, ∀ i < len, terms i = some (t i) ∧
    ∀ c, (t i c).toNat ≤ 2147483646 * 2147483647 ∧ ((t i c).toNat : BaseField) = f i c

variable {terms : ℕ → Option (ι → UInt64)} {len : ℕ} {f : ℕ → ι → BaseField}

/-- Four products of canonical words fit into 64 bits. -/
theorem ProductTerms.block (h : ProductTerms terms len f) (start stop : ℕ) (hle : start ≤ stop) (hlen : stop ≤ len)
    (hfour : stop ≤ start + 4) : ∃ raw, sumRange terms start stop = some raw ∧
      ∀ c, ((raw c).toNat : BaseField) = ∑ i ∈ Finset.Ico start stop, f i c ∧
        (raw c).toNat ≤ (stop - start) * (2147483646 * 2147483647) := by
  obtain ⟨t, ht⟩ := h
  have hcard : ∀ c, ∑ i ∈ Finset.Ico start stop, (t i c).toNat ≤ (stop - start) * (2147483646 * 2147483647) := by
    intro c
    rw [← Nat.card_Ico]
    apply Finset.sum_le_card_nsmul
    intro i hi
    exact ((ht i (by have := Finset.mem_Ico.mp hi; omega)).2 c).1
  have hsum : ∀ c, ∑ i ∈ Finset.Ico start stop, (t i c).toNat < 2 ^ 64 := by
    intro c
    have := hcard c
    omega
  obtain ⟨raw, hraw, hval⟩ := sumRange_of_lt hle (fun i _ hi => (ht i (by omega)).1) hsum
  refine ⟨raw, hraw, ?_⟩
  intro c
  rw [hval c]
  refine ⟨?_, hcard c⟩
  rw [Nat.cast_sum]
  apply Finset.sum_congr rfl
  intro i hi
  exact ((ht i (by have := Finset.mem_Ico.mp hi; omega)).2 c).2

/-- Joins the sum of a block to the sum before it. -/
theorem sum_block {M : Type*} [AddCommMonoid M] (g : ℕ → M) {start i : ℕ} (width stop : ℕ) (hstart : start ≤ i)
    (hi : i < stop) : ∑ j ∈ Finset.Ico start i, g j + ∑ j ∈ Finset.Ico i (min (i + width) stop), g j =
      ∑ j ∈ Finset.Ico start (min (i + width) stop), g j :=
  Finset.sum_Ico_consecutive g hstart (by omega)

omit [Fintype ι] in
theorem toNat_wordsOf (reduced : ι → M31) (c : ι) : (wordsOf reduced c).toNat = (reduced c).val.toNat :=
  UInt32.toNat_toUInt64 _

theorem eagerBlocks_sum (h : ProductTerms terms len f) : ∃ sums, eagerBlocks terms len = some sums ∧
    ∀ c, (sums c).Denotes (∑ i ∈ Finset.Ico 0 len, f i c) := by
  refine stepLoop_invariant (by decide)
    (fun i (sums : ι → M31) => ∀ c, (sums c).Denotes (∑ j ∈ Finset.Ico 0 i, f j c)) ?_ (Nat.zero_le _) ?_
  · intro i sums hi hinv
    obtain ⟨raw, hraw, hval⟩ := h.block i (min (i + 4) len) (by omega) (by omega) (by omega)
    refine ⟨fun c => (sums c).add (M31.reduceU64 (raw c)), by rw [hraw]; rfl, ?_⟩
    intro c
    have hadd := (hinv c).add (M31.denotes_reduceU64 (raw c))
    rw [(hval c).1, sum_block (fun j => f j c) 4 len (Nat.zero_le i) hi] at hadd
    exact hadd
  · intro c
    rw [Finset.Ico_self, Finset.sum_empty]
    exact M31.denotes_zero

/-- Up to `2 ^ 33 + 8` reduced blocks fit into 64 bits. -/
theorem lazyBlocks_sum (h : ProductTerms terms len f) (start stop : ℕ) (hle : start ≤ stop) (hlen : stop ≤ len)
    (hblocks : stop ≤ start + 4 * (2 ^ 33 + 8)) : ∃ sums, lazyBlocks terms start stop = some sums ∧
      ∀ c, ((sums c).toNat : BaseField) = ∑ i ∈ Finset.Ico start stop, f i c := by
  have hloop := @stepLoop_invariant (ι → UInt64) 4 (fun outer start stop => do
    let raw ← sumRange terms start stop
    addWords outer (wordsOf (reduceAll raw))) stop (by decide)
    (fun i sums => (start ≤ i ∧ (i = stop ∨ (i - start) % 4 = 0)) ∧ ∀ c,
      ((sums c).toNat : BaseField) = ∑ j ∈ Finset.Ico start i, f j c ∧
      (sums c).toNat ≤ (i - start + 3) / 4 * 2147483646) ?_ start (fun _ => 0) hle ?_
  · obtain ⟨sums, hsums, -, hval⟩ := hloop
    exact ⟨sums, hsums, fun c => (hval c).1⟩
  · intro i sums hi hinv
    obtain ⟨raw, hraw, hval⟩ := h.block i (min (i + 4) stop) (by omega) (by omega) (by omega)
    have hword : ∀ c, (wordsOf (reduceAll raw) c).toNat ≤ 2147483646 := by
      intro c
      rw [toNat_wordsOf]
      exact Nat.le_of_lt_succ (M31.denotes_reduceU64 (raw c)).canonical.lt
    have hcount : (min (i + 4) stop - start + 3) / 4 = (i - start + 3) / 4 + 1 := by omega
    have hlt : ∀ c, (sums c).toNat + (wordsOf (reduceAll raw) c).toNat ≤
        ((i - start + 3) / 4 + 1) * 2147483646 := by
      intro c
      have hs := (hinv.2 c).2
      have hw := hword c
      omega
    have hfits : ∀ c, (sums c).toNat + (wordsOf (reduceAll raw) c).toNat < 2 ^ 64 := by
      intro c
      have := hlt c
      omega
    obtain ⟨total, htotal, hsum⟩ := addWords_of_lt hfits
    refine ⟨total, by rw [hraw]; exact htotal, ⟨by omega, by omega⟩, ?_⟩
    intro c
    constructor
    · have hreduced := (M31.denotes_reduceU64 (raw c)).value_eq
      rw [hsum c, Nat.cast_add, (hinv.2 c).1, toNat_wordsOf]
      rw [← sum_block (fun j => f j c) 4 stop hinv.1.1 hi, ← (hval c).1, ← hreduced]
      rfl
    · rw [hsum c, hcount]
      exact hlt c
  · simp

theorem windowedBlocks_sum (h : ProductTerms terms len f) : ∃ sums, windowedBlocks terms len = some sums ∧
    ∀ c, (sums c).Denotes (∑ i ∈ Finset.Ico 0 len, f i c) := by
  refine stepLoop_invariant (by decide)
    (fun i (sums : ι → M31) => ∀ c, (sums c).Denotes (∑ j ∈ Finset.Ico 0 i, f j c)) ?_ (Nat.zero_le _) ?_
  · intro i sums hi hinv
    have hwindow : min (i + OUTER_COLUMNS) len ≤ i + 256 := Nat.min_le_left _ _
    obtain ⟨outer, houter, hval⟩ := lazyBlocks_sum h i (min (i + OUTER_COLUMNS) len)
      (Nat.le_min.mpr ⟨Nat.le_add_right _ _, hi.le⟩) (Nat.min_le_right _ _) (by omega)
    refine ⟨fun c => (sums c).add (M31.reduceU64 (outer c)), by rw [houter]; rfl, ?_⟩
    intro c
    have hadd := (hinv c).add (M31.denotes_reduceU64 (outer c))
    rw [hval c, sum_block (fun j => f j c) OUTER_COLUMNS len (Nat.zero_le i) hi] at hadd
    exact hadd
  · intro c
    rw [Finset.Ico_self, Finset.sum_empty]
    exact M31.denotes_zero

/-- Up to `2 ^ 33 + 8` reduced windows fit into 64 bits. -/
theorem lazyWindows_sum (h : ProductTerms terms len f) (hwindows : len ≤ 256 * (2 ^ 33 + 8)) :
    ∃ sums, lazyWindows terms len = some sums ∧
      ∀ c, ((sums c).toNat : BaseField) = ∑ i ∈ Finset.Ico 0 len, f i c := by
  have hloop := @stepLoop_invariant (ι → UInt64) 256 (fun sums start stop => do
    let outer ← lazyBlocks terms start stop
    addWords sums (wordsOf (reduceAll outer))) len (by decide)
    (fun i sums => (i = len ∨ i % 256 = 0) ∧ ∀ c,
      ((sums c).toNat : BaseField) = ∑ j ∈ Finset.Ico 0 i, f j c ∧
      (sums c).toNat ≤ (i + 255) / 256 * 2147483646) ?_ 0 (fun _ => 0) (Nat.zero_le _) ?_
  · obtain ⟨sums, hsums, -, hval⟩ := hloop
    exact ⟨sums, hsums, fun c => (hval c).1⟩
  · intro i sums hi hinv
    obtain ⟨outer, houter, hval⟩ := lazyBlocks_sum h i (min (i + 256) len) (by omega) (by omega)
      (by omega)
    have hword : ∀ c, (wordsOf (reduceAll outer) c).toNat ≤ 2147483646 := by
      intro c
      rw [toNat_wordsOf]
      exact Nat.le_of_lt_succ (M31.denotes_reduceU64 (outer c)).canonical.lt
    have hcount : (min (i + 256) len + 255) / 256 = (i + 255) / 256 + 1 := by omega
    have hlt : ∀ c, (sums c).toNat + (wordsOf (reduceAll outer) c).toNat ≤ ((i + 255) / 256 + 1) * 2147483646 := by
      intro c
      have hs := (hinv.2 c).2
      have hw := hword c
      omega
    have hfits : ∀ c, (sums c).toNat + (wordsOf (reduceAll outer) c).toNat < 2 ^ 64 := by
      intro c
      have := hlt c
      omega
    obtain ⟨total, htotal, hsum⟩ := addWords_of_lt hfits
    refine ⟨total, by rw [houter]; exact htotal, by omega, ?_⟩
    intro c
    constructor
    · have hreduced := (M31.denotes_reduceU64 (outer c)).value_eq
      rw [hsum c, Nat.cast_add, (hinv.2 c).1, toNat_wordsOf]
      rw [← sum_block (fun j => f j c) 256 len (Nat.zero_le i) hi, ← hval c, ← hreduced]
      rfl
    · rw [hsum c, hcount]
      exact hlt c
  · simp

omit [Fintype ι] in
/-- Several rows of terms, each with its own products. -/
theorem ProductTerms.rows {n : ℕ} {terms : Fin n → ℕ → Option (ι → UInt64)} {f : Fin n → ℕ → ι → BaseField}
    (h : ∀ row, ProductTerms (terms row) len (f row)) :
    ProductTerms (rowTerms terms) len fun i c => f c.1 i c.2 := by
  choose t ht using h
  refine ⟨fun i c => t c.1 i c.2, ?_⟩
  intro i hi
  refine ⟨?_, fun c => (ht c.1 i hi).2 c.2⟩
  have hsome : ∀ row, (terms row i).isSome := fun row => by rw [(ht row i hi).1]; rfl
  unfold rowTerms
  rw [dif_pos hsome]
  congr 1
  funext c
  have hget : some ((terms c.1 i).get (hsome c.1)) = some (t c.1 i) := by
    rw [Option.some_get, (ht c.1 i hi).1]
  rw [Option.some.inj hget]

end Blocks

/-! ### Values of channels -/

/-- A way to multiply a quartic factor by another one in channels: the products of the channels of the two
factors determine the product of the factors, linearly. -/
structure Channels (ι β : Type) where
  left : QM31 → ι → M31
  right : β → ι → M31
  finish : (ι → M31) → QM31
  mul : QM31 → β → QM31
  canonical : β → Prop
  linear : (ι → BaseField) →+ QuarticField
  left_canonical : ∀ w, w.Canonical → ∀ c, (left w c).Canonical
  right_canonical : ∀ v, canonical v → ∀ c, (right v c).Canonical
  finish_denotes : ∀ m f, (∀ c, (m c).Denotes (f c)) → (finish m).Denotes (linear f)
  mul_denotes : ∀ w v, w.Canonical → canonical v →
    (mul w v).Denotes (linear fun c => (left w c).value * (right v c).value)

def complexPart (f : Fin 3 → BaseField) : ComplexField := ⟨f 0 - f 1, f 2 - f 0 - f 1⟩

theorem componentOf_denotes {m : Fin 3 → M31} {f : Fin 3 → BaseField} (h : ∀ c, (m c).Denotes (f c)) :
    (componentOf m).Denotes (complexPart f) := ⟨(h 0).sub (h 1), ((h 2).sub (h 0)).sub (h 1)⟩

theorem complexPart_add (f g : Fin 3 → BaseField) : complexPart (f + g) = complexPart f + complexPart g := by
  ext
  · simp only [complexPart, Pi.add_apply, QuadraticAlgebra.re_add]
    ring
  · simp only [complexPart, Pi.add_apply, QuadraticAlgebra.im_add]
    ring

/-- The parts of two complex factors multiply to the parts of their product. -/
theorem complexPart_mul {x y : CM31} (hx : x.Canonical) (hy : y.Canonical) :
    complexPart (fun c => (karatsubaParts x c).value * (karatsubaParts y c).value) = x.value * y.value := by
  have hxs : (x.a.add x.b).value = x.a.value + x.b.value := (hx.1.denotes.add hx.2.denotes).value_eq
  have hys : (y.a.add y.b).value = y.a.value + y.b.value := (hy.1.denotes.add hy.2.denotes).value_eq
  show complexPart (fun c => (![x.a, x.b, x.a.add x.b] c).value * (![y.a, y.b, y.a.add y.b] c).value) = _
  ext
  · simp only [complexPart, CM31.value, QuadraticAlgebra.re_mul, Matrix.cons_val_zero, Matrix.cons_val_one]
    ring
  · simp only [complexPart, CM31.value, QuadraticAlgebra.im_mul, Matrix.cons_val_zero, Matrix.cons_val_one,
      Matrix.cons_val, hxs, hys]
    ring

theorem karatsubaParts_canonical {x : CM31} (hx : x.Canonical) (c : Fin 3) : (karatsubaParts x c).Canonical := by
  fin_cases c
  · exact hx.1
  · exact hx.2
  · exact (hx.1.denotes.add hx.2.denotes).canonical

theorem quarticChannels_canonical {x : QM31} (hx : x.Canonical) (c : Fin 3 × Fin 3) :
    (quarticChannels x c).Canonical := by
  obtain ⟨k, j⟩ := c
  fin_cases k
  · exact karatsubaParts_canonical hx.1 j
  · exact karatsubaParts_canonical hx.2 j
  · exact karatsubaParts_canonical (hx.1.denotes.add hx.2.denotes).canonical j

/-- The quartic value of nine channels. -/
def quarticPart : (Fin 3 × Fin 3 → BaseField) →+ QuarticField :=
  AddMonoidHom.mk' (fun f =>
    ⟨complexPart (fun c => f (0, c)) + ⟨2, 1⟩ * complexPart (fun c => f (1, c)),
      complexPart (fun c => f (2, c)) - complexPart (fun c => f (0, c)) - complexPart (fun c => f (1, c))⟩) (by
    intro f g
    have hadd : ∀ k : Fin 3, complexPart (fun c => (f + g) (k, c)) =
        complexPart (fun c => f (k, c)) + complexPart (fun c => g (k, c)) := fun k => complexPart_add _ _
    apply QuadraticAlgebra.ext
    · rw [QuadraticAlgebra.re_add]
      simp only [hadd]
      ring
    · rw [QuadraticAlgebra.im_add]
      simp only [hadd]
      ring)

/-- Both factors quartic: nine channels. -/
def quarticScheme : Channels (Fin 3 × Fin 3) QM31 where
  left := quarticChannels
  right := quarticChannels
  finish := quarticOfChannels
  mul := QM31.mul
  canonical := QM31.Canonical
  linear := quarticPart
  left_canonical w hw c := quarticChannels_canonical hw c
  right_canonical v hv c := quarticChannels_canonical hv c
  finish_denotes m f h := by
    have h0 : (componentOf fun c => m (0, c)).Denotes (complexPart fun c => f (0, c)) :=
      componentOf_denotes fun c => h (0, c)
    have h1 : (componentOf fun c => m (1, c)).Denotes (complexPart fun c => f (1, c)) :=
      componentOf_denotes fun c => h (1, c)
    have h2 : (componentOf fun c => m (2, c)).Denotes (complexPart fun c => f (2, c)) :=
      componentOf_denotes fun c => h (2, c)
    exact ⟨h0.add h1.mulByR, (h2.sub h0).sub h1⟩
  mul_denotes w v hw hv := by
    have hws := hw.1.denotes.add hw.2.denotes
    have hvs := hv.1.denotes.add hv.2.denotes
    have hmul : w.value * v.value =
        quarticPart fun c => (quarticChannels w c).value * (quarticChannels v c).value := by
      have h0 := complexPart_mul hw.1 hv.1
      have h1 := complexPart_mul hw.2 hv.2
      have h2 := complexPart_mul hws.canonical hvs.canonical
      rw [hws.value_eq, hvs.value_eq] at h2
      apply QuadraticAlgebra.ext
      · show _ = complexPart _ + ⟨2, 1⟩ * complexPart _
        rw [QuadraticAlgebra.re_mul]
        refine Eq.trans ?_ (congrArg₂ (fun p q => p + ⟨2, 1⟩ * q) h0 h1).symm
        simp only [QM31.value]
        ring
      · show _ = complexPart _ - complexPart _ - complexPart _
        rw [QuadraticAlgebra.im_mul]
        refine Eq.trans ?_ (congr (congrArg₂ (fun p q r => p - q - r) h2 h0) h1).symm
        simp only [QM31.value]
        ring
    rw [← hmul]
    exact hw.denotes.mul hv.denotes

/-- The quartic value of six channels. -/
def mixedPart : (Fin 2 × Fin 3 → BaseField) →+ QuarticField :=
  AddMonoidHom.mk' (fun f => ⟨complexPart fun c => f (0, c), complexPart fun c => f (1, c)⟩)
    fun f g => QuadraticAlgebra.ext (complexPart_add (fun c => f (0, c)) fun c => g (0, c))
      (complexPart_add (fun c => f (1, c)) fun c => g (1, c))

/-- A quartic and a complex factor: six channels. -/
def mixedScheme : Channels (Fin 2 × Fin 3) CM31 where
  left := mixedChannels
  right value c := karatsubaParts value c.2
  finish := quarticOfMixed
  mul := QM31.mulCm31
  canonical := CM31.Canonical
  linear := mixedPart
  left_canonical w hw c := by
    obtain ⟨k, j⟩ := c
    fin_cases k
    · exact karatsubaParts_canonical hw.1 j
    · exact karatsubaParts_canonical hw.2 j
  right_canonical v hv c := karatsubaParts_canonical hv c.2
  finish_denotes m f h := by
    have h0 : (componentOf fun c => m (0, c)).Denotes (complexPart fun c => f (0, c)) :=
      componentOf_denotes fun c => h (0, c)
    have h1 : (componentOf fun c => m (1, c)).Denotes (complexPart fun c => f (1, c)) :=
      componentOf_denotes fun c => h (1, c)
    exact ⟨h0, h1⟩
  mul_denotes w v hw hv := by
    have hmul : v.value • w.value =
        mixedPart fun c => (mixedChannels w c).value * (karatsubaParts v c.2).value := by
      apply QuadraticAlgebra.ext
      · show v.value * w.c0.value = complexPart fun c => (karatsubaParts w.c0 c).value * (karatsubaParts v c).value
        rw [complexPart_mul hw.1 hv, mul_comm]
      · show v.value * w.c1.value = complexPart fun c => (karatsubaParts w.c1 c).value * (karatsubaParts v c).value
        rw [complexPart_mul hw.2 hv, mul_comm]
    rw [← hmul]
    exact hw.denotes.mulCm31 hv.denotes

/-- The quartic value of four words. -/
def limbPart : (Fin 4 → BaseField) →+ QuarticField :=
  AddMonoidHom.mk' (fun f => ⟨⟨f 0, f 1⟩, ⟨f 2, f 3⟩⟩) fun _ _ => rfl

/-- A quartic and a base factor: four channels. -/
def limbScheme : Channels (Fin 4) M31 where
  left := limbs
  right value _ := value
  finish := quarticOfLimbs
  mul := QM31.mulM31
  canonical := M31.Canonical
  linear := limbPart
  left_canonical w hw c := by
    fin_cases c
    · exact hw.1.1
    · exact hw.1.2
    · exact hw.2.1
    · exact hw.2.2
  right_canonical _ hv _ := hv
  finish_denotes m f h := ⟨⟨h 0, h 1⟩, ⟨h 2, h 3⟩⟩
  mul_denotes w v hw hv := by
    have hmul : v.value • w.value = limbPart fun c => (limbs w c).value * v.value := by
      apply QuadraticAlgebra.ext
      · exact QuadraticAlgebra.ext (mul_comm _ _) (mul_comm _ _)
      · exact QuadraticAlgebra.ext (mul_comm _ _) (mul_comm _ _)
    rw [← hmul]
    exact hw.denotes.mulM31 hv.denotes

/-! ### The plain sum -/

/-- The products of two slices, added one after the other. -/
def sumProducts {β : Type} (mul : QM31 → β → QM31) (weights : List QM31) (values : List β) : QM31 :=
  (List.zipWith mul weights values).foldl QM31.add QM31.zero

/-- Two slices of canonical factors of one length. -/
structure CanonicalFactors {β : Type} (canonical : β → Prop) (weights : List QM31) (values : List β) : Prop where
  weights_canonical : ∀ w ∈ weights, w.Canonical
  values_canonical : ∀ v ∈ values, canonical v
  length_eq : weights.length = values.length

section Sums

variable {ι β : Type} (s : Channels ι β)

/-- The elements in the channels of each product. -/
def Channels.elements (weights : List QM31) (values : List β) : List (ι → BaseField) :=
  List.zipWith (fun w v c => (s.left w c).value * (s.right v c).value) weights values

theorem foldl_add_denotes (l : List QM31) (g : List QuarticField) (h : List.Forall₂ QM31.Denotes l g) {x : QM31}
    {v : QuarticField} (hx : x.Denotes v) : (l.foldl QM31.add x).Denotes (v + g.sum) := by
  induction h generalizing x v with
  | nil =>
    rw [List.sum_nil, add_zero]
    exact hx
  | cons hhead _ ih =>
    rw [List.sum_cons, ← add_assoc]
    exact ih (hx.add hhead)

variable {s} {weights : List QM31} {values : List β}

theorem sumProducts_denotes (h : CanonicalFactors s.canonical weights values) :
    (sumProducts s.mul weights values).Denotes (s.linear (s.elements weights values).sum) := by
  rw [map_list_sum, ← zero_add (List.sum _)]
  apply foldl_add_denotes _ _ _ QM31.denotes_zero
  obtain ⟨hw, hv, hlen⟩ := h
  unfold Channels.elements
  induction weights generalizing values with
  | nil => exact List.Forall₂.nil
  | cons w weights ih =>
    cases values with
    | nil => cases hlen
    | cons v values =>
      apply List.Forall₂.cons
      · exact s.mul_denotes w v (hw w List.mem_cons_self) (hv v List.mem_cons_self)
      · exact ih (fun w' hw' => hw w' (List.mem_cons_of_mem _ hw')) (fun v' hv' => hv v' (List.mem_cons_of_mem _ hv'))
          (Nat.succ.inj hlen)

/-- Channels that stand for the sums of all products give the plain sum. -/
theorem finish_eq_sumProducts (h : CanonicalFactors s.canonical weights values) {m : ι → M31}
    (hm : ∀ c, (m c).Denotes ((s.elements weights values).sum c)) : s.finish m = sumProducts s.mul weights values :=
  (s.finish_denotes m _ hm).eq (sumProducts_denotes h)

theorem sum_range_getD {M : Type*} [AddCommMonoid M] (l : List M) :
    ∑ i ∈ Finset.Ico 0 l.length, l.getD i 0 = l.sum := by
  rw [← Finset.range_eq_Ico, Finset.sum_range, ← Fin.sum_univ_getElem]
  apply Finset.sum_congr rfl
  intro i _
  simp

/-- The words at every index of two canonical slices are products of canonical words. -/
theorem termsAt_products (h : CanonicalFactors s.canonical weights values) :
    ProductTerms (termsAt s.left s.right weights values) weights.length
      fun i => (s.elements weights values).getD i 0 := by
  obtain ⟨hw, hv, hlen⟩ := h
  refine ⟨fun i => (termsAt s.left s.right weights values i).getD fun _ => 0, ?_⟩
  intro i hi
  show _ = some ((termsAt s.left s.right weights values i).getD fun _ => 0) ∧ ∀ c,
    ((termsAt s.left s.right weights values i).getD (fun _ => 0) c).toNat ≤ _ ∧
    (((termsAt s.left s.right weights values i).getD (fun _ => 0) c).toNat : BaseField) = _
  have hvi : i < values.length := hlen ▸ hi
  have hterm : termsAt s.left s.right weights values i =
      some (products (s.left weights[i]) (s.right values[i])) := by
    unfold termsAt
    rw [List.getElem?_eq_getElem hi, List.getElem?_eq_getElem hvi]
    rfl
  rw [hterm, Option.getD_some]
  refine ⟨rfl, ?_⟩
  intro c
  have hwc := s.left_canonical _ (hw _ (List.getElem_mem hi)) c
  have hvc := s.right_canonical _ (hv _ (List.getElem_mem hvi)) c
  have hnat : (products (s.left weights[i]) (s.right values[i]) c).toNat =
      (s.left weights[i] c).val.toNat * (s.right values[i] c).val.toNat := M31.toNat_mul_words _ _
  constructor
  · rw [hnat]
    exact Nat.mul_le_mul (Nat.le_of_lt_succ hwc.lt) hvc.lt.le
  · have helem : (s.elements weights values).getD i 0 = fun c => (s.left weights[i] c).value * (s.right values[i] c).value := by
      unfold Channels.elements
      rw [List.getD_eq_getElem?_getD, List.getElem?_zipWith, List.getElem?_eq_getElem hi, List.getElem?_eq_getElem hvi]
      rfl
    show _ = (s.elements weights values).getD i 0 c
    rw [hnat, helem, Nat.cast_mul]
    rfl

/-- What one row of products needs of its loop: sums that stand for the sums of all products. -/
theorem sum_elements (c : ι) (hlen : weights.length = values.length) :
    ∑ i ∈ Finset.Ico 0 weights.length, (s.elements weights values).getD i 0 c = (s.elements weights values).sum c := by
  have hl : (s.elements weights values).length = weights.length := by
    unfold Channels.elements
    rw [List.length_zipWith, hlen, Nat.min_self]
  rw [← sum_range_getD, Finset.sum_apply, hl]

variable [Fintype ι]

/-- The eager, the windowed and, for short slices, the lazy sums of one row stand for the sums of its products. -/
theorem eager_row (h : CanonicalFactors s.canonical weights values) :
    ∃ m, eagerBlocks (termsAt s.left s.right weights values) weights.length = some m ∧
      s.finish m = sumProducts s.mul weights values := by
  obtain ⟨m, hm, hval⟩ := eagerBlocks_sum (termsAt_products h)
  refine ⟨m, hm, finish_eq_sumProducts h ?_⟩
  intro c
  rw [← sum_elements c h.length_eq]
  exact hval c

theorem windowed_row (h : CanonicalFactors s.canonical weights values) :
    ∃ m, windowedBlocks (termsAt s.left s.right weights values) weights.length = some m ∧
      s.finish m = sumProducts s.mul weights values := by
  obtain ⟨m, hm, hval⟩ := windowedBlocks_sum (termsAt_products h)
  refine ⟨m, hm, finish_eq_sumProducts h ?_⟩
  intro c
  rw [← sum_elements c h.length_eq]
  exact hval c

omit [Fintype ι] in
/-- Sums of words that are congruent to the sums of the products finish to the plain sum. -/
theorem reduce_row (h : CanonicalFactors s.canonical weights values) {sums : ι → UInt64}
    (hsums : ∀ c, ((sums c).toNat : BaseField) =
      ∑ i ∈ Finset.Ico 0 weights.length, (s.elements weights values).getD i 0 c) :
    s.finish (reduceAll sums) = sumProducts s.mul weights values := by
  apply finish_eq_sumProducts h
  intro c
  have hc := M31.denotes_reduceU64 (sums c)
  rw [hsums c, sum_elements c h.length_eq] at hc
  exact hc

theorem lazy_row (h : CanonicalFactors s.canonical weights values) (hlen : weights.length ≤ 4 * (2 ^ 33 + 8)) :
    ∃ sums, lazyBlocks (termsAt s.left s.right weights values) 0 weights.length = some sums ∧
      s.finish (reduceAll sums) = sumProducts s.mul weights values := by
  obtain ⟨sums, hsums, hval⟩ := lazyBlocks_sum (termsAt_products h) 0 weights.length (Nat.zero_le _) le_rfl (by omega)
  exact ⟨sums, hsums, reduce_row h hval⟩

/-- Up to four products need no block. -/
theorem small_row (h : CanonicalFactors s.canonical weights values) (hlen : weights.length ≤ 4) :
    ∃ sums, sumRange (termsAt s.left s.right weights values) 0 weights.length = some sums ∧
      s.finish (reduceAll sums) = sumProducts s.mul weights values := by
  obtain ⟨sums, hsums, hval⟩ := (termsAt_products h).block 0 weights.length (Nat.zero_le _) le_rfl (by omega)
  exact ⟨sums, hsums, reduce_row h fun c => (hval c).1⟩

section Rows

variable {n : ℕ} {rows : Fin n → List β}

/-- The windowed sums of several rows with the same weights. -/
theorem windowed_rows (h : ∀ row, CanonicalFactors s.canonical weights (rows row)) :
    ∃ m, windowedBlocks (rowTerms fun row => termsAt s.left s.right weights (rows row)) weights.length = some m ∧
      ∀ row, s.finish (fun c => m (row, c)) = sumProducts s.mul weights (rows row) := by
  obtain ⟨m, hm, hval⟩ := windowedBlocks_sum (ProductTerms.rows fun row => termsAt_products (h row))
  refine ⟨m, hm, ?_⟩
  intro row
  apply finish_eq_sumProducts (h row)
  intro c
  rw [← sum_elements c (h row).length_eq]
  exact hval (row, c)

theorem lazy_rows (h : ∀ row, CanonicalFactors s.canonical weights (rows row))
    (hlen : weights.length ≤ 256 * (2 ^ 33 + 8)) :
    ∃ sums, lazyWindows (rowTerms fun row => termsAt s.left s.right weights (rows row)) weights.length = some sums ∧
      ∀ row, s.finish (reduceAll fun c => sums (row, c)) = sumProducts s.mul weights (rows row) := by
  obtain ⟨sums, hsums, hval⟩ := lazyWindows_sum (ProductTerms.rows fun row => termsAt_products (h row)) hlen
  refine ⟨sums, hsums, ?_⟩
  intro row
  exact reduce_row (h row) fun c => hval (row, c)

end Rows

end Sums

end Aspis.Core
