import Aspis.Core.DotBytes
import Aspis.Core.DotProducts

/-! What the dot products over bytes return. A flagged loop runs as the loop without the flag does,
and its flag is set exactly when some word it read is outside the field; so a kernel returns
the dot products of the words it decodes if all of them are canonical, and none otherwise. The
kernels for a fixed width are the generic one with its loop cut differently. -/

namespace Aspis.Core

open Aspis.Lib Aspis.Lib.Accumulate

/-! ### Flags -/

/-- The flag after the words from `start` up to `stop`. -/
def FlagAfter (bad : ℕ → Bool) (invalid : Bool) (start stop : ℕ) (flag : Bool) : Prop :=
  flag = true ↔ invalid = true ∨ ∃ i, start ≤ i ∧ i < stop ∧ bad i = true

theorem flagAfter_refl (bad : ℕ → Bool) (invalid : Bool) (start : ℕ) : FlagAfter bad invalid start start invalid := by
  constructor
  · exact Or.inl
  · rintro (h | ⟨i, h1, h2, -⟩)
    · exact h
    · omega

theorem FlagAfter.trans {bad : ℕ → Bool} {invalid flag flag' : Bool} {start mid stop : ℕ} (hle : start ≤ mid)
    (hle' : mid ≤ stop) (h : FlagAfter bad invalid start mid flag) (h' : FlagAfter bad flag mid stop flag') :
    FlagAfter bad invalid start stop flag' := by
  unfold FlagAfter at h h' ⊢
  rw [h', h]
  constructor
  · rintro ((hinvalid | ⟨i, h1, h2, hbad⟩) | ⟨i, h1, h2, hbad⟩)
    · exact Or.inl hinvalid
    · exact Or.inr ⟨i, h1, by omega, hbad⟩
    · exact Or.inr ⟨i, by omega, h2, hbad⟩
  · rintro (hinvalid | ⟨i, h1, h2, hbad⟩)
    · exact Or.inl (Or.inl hinvalid)
    · by_cases hi : i < mid
      · exact Or.inl (Or.inr ⟨i, h1, hi, hbad⟩)
      · exact Or.inr ⟨i, by omega, h2, hbad⟩

theorem flagAfter_step {bad : ℕ → Bool} (flag : Bool) (i : ℕ) : FlagAfter bad flag i (i + 1) (flag || bad i) := by
  unfold FlagAfter
  rw [Bool.or_eq_true]
  constructor
  · rintro (h | h)
    · exact Or.inl h
    · exact Or.inr ⟨i, le_rfl, Nat.lt_succ_self i, h⟩
  · rintro (h | ⟨j, h1, h2, hbad⟩)
    · exact Or.inl h
    · have hj : j = i := by omega
      exact Or.inr (hj ▸ hbad)

section Loops

variable {ι : Type} [Fintype ι] {terms : ℕ → Option (Bool × (ι → UInt64))} {len : ℕ} {bad : ℕ → Bool}
  {t : ℕ → ι → UInt64}

omit [Fintype ι] in
/-- The words at every index, and whether they are outside the field. -/
def Reads (terms : ℕ → Option (Bool × (ι → UInt64))) (len : ℕ) (bad : ℕ → Bool) (t : ℕ → ι → UInt64) : Prop :=
  ∀ i < len, terms i = some (bad i, t i)

theorem Reads.sumRange (h : Reads terms len bad t) (start stop : ℕ) (hle : start ≤ stop) (hlen : stop ≤ len)
    (invalid : Bool) {raw : ι → UInt64} (hraw : sumRange (fun i => some (t i)) start stop = some raw) :
    ∃ flag, sumRangeFlagged terms start stop invalid = some (flag, raw) ∧ FlagAfter bad invalid start stop flag := by
  have hloop := @stepLoop_refines _ _ 1 _ (fun state index _ => do
    let term ← terms index
    let raw ← addWords state.2 term.2
    return (state.1 || term.1, raw)) stop Nat.one_pos
    (fun i sums (state : Bool × (ι → UInt64)) =>
      start ≤ i ∧ state.2 = sums ∧ FlagAfter bad invalid start i state.1) (by
      rintro i sums ⟨flag, sums'⟩ next hi ⟨hstart, hsums, hflag⟩ hnext
      have hmin : min (i + 1) stop = i + 1 := by omega
      have hsums' : sums' = sums := hsums
      subst hsums'
      have hadd : addWords sums' (t i) = some next := hnext
      rw [hmin, h i (by omega)]
      refine ⟨(flag || bad i, next), ?_, by omega, rfl, hflag.trans hstart (Nat.le_succ i) (flagAfter_step flag i)⟩
      rw [Option.bind_eq_bind, Option.bind_some, hadd]
      rfl) start (fun _ => 0) raw (invalid, fun _ => 0) hle ⟨le_rfl, rfl, flagAfter_refl _ _ _⟩ hraw
  obtain ⟨⟨flag, sums⟩, hsome, -, hsums, hflag⟩ := hloop
  exact ⟨flag, hsome.trans (by rw [show sums = raw from hsums]), hflag⟩

theorem Reads.blocks (h : Reads terms len bad t) (start stop : ℕ) (hle : start ≤ stop) (hlen : stop ≤ len)
    (invalid : Bool) {sums : ι → UInt64} (hsums : lazyBlocks (fun i => some (t i)) start stop = some sums) :
    ∃ flag, flaggedBlocks terms start stop invalid = some (flag, sums) ∧ FlagAfter bad invalid start stop flag := by
  have hloop := @stepLoop_refines _ _ 4 _ (closeBlock terms) stop (by decide)
    (fun i sums (state : Bool × (ι → UInt64)) =>
      start ≤ i ∧ state.2 = sums ∧ FlagAfter bad invalid start i state.1) (by
      rintro i sums ⟨flag, sums'⟩ next hi ⟨hstart, hsums, hflag⟩ hnext
      have hsums' : sums' = sums := hsums
      subst hsums'
      obtain ⟨raw, hraw, hadd⟩ := Option.bind_eq_some_iff.mp hnext
      obtain ⟨flag', hblock, hflag'⟩ := h.sumRange i (min (i + 4) stop) (by omega) (by omega) flag hraw
      refine ⟨(flag', next), ?_, by omega, rfl, hflag.trans hstart (by omega) hflag'⟩
      unfold closeBlock
      rw [hblock, Option.bind_eq_bind, Option.bind_some, hadd]
      rfl) start (fun _ => 0) sums (invalid, fun _ => 0) hle ⟨le_rfl, rfl, flagAfter_refl _ _ _⟩ hsums
  obtain ⟨⟨flag, sums'⟩, hsome, -, hsums', hflag⟩ := hloop
  exact ⟨flag, hsome.trans (by rw [show sums' = sums from hsums']), hflag⟩

theorem Reads.windows (h : Reads terms len bad t) {sums : ι → M31}
    (hsums : windowedBlocks (fun i => some (t i)) len = some sums) :
    ∃ flag, flaggedWindows terms len = some (flag, sums) ∧ FlagAfter bad false 0 len flag := by
  have hloop := @stepLoop_refines _ _ OUTER_COLUMNS _ (fun state start stop => do
    let outer ← flaggedBlocks terms start stop state.1
    return (outer.1, fun c => (state.2 c).add (M31.reduceU64 (outer.2 c)))) len (by decide)
    (fun i sums (state : Bool × (ι → M31)) => state.2 = sums ∧ FlagAfter bad false 0 i state.1) (by
      rintro i sums ⟨flag, sums'⟩ next hi ⟨hsums, hflag⟩ hnext
      have hsums' : sums' = sums := hsums
      subst hsums'
      obtain ⟨outer, houter, hreturn⟩ := Option.bind_eq_some_iff.mp hnext
      obtain ⟨flag', hblock, hflag'⟩ := h.blocks i (min (i + OUTER_COLUMNS) len)
        (Nat.le_min.mpr ⟨Nat.le_add_right _ _, hi.le⟩) (Nat.min_le_right _ _) flag houter
      refine ⟨(flag', next), ?_, rfl, hflag.trans (Nat.zero_le _)
        (Nat.le_min.mpr ⟨Nat.le_add_right _ _, hi.le⟩) hflag'⟩
      rw [hblock, Option.bind_eq_bind, Option.bind_some, ← Option.some.inj hreturn]
      rfl) 0 (fun _ => M31.zero) sums (false, fun _ => M31.zero) (Nat.zero_le _) ⟨rfl, flagAfter_refl _ _ _⟩ hsums
  obtain ⟨⟨flag, sums'⟩, hsome, hsums', hflag⟩ := hloop
  exact ⟨flag, hsome.trans (by rw [show sums' = sums from hsums']), hflag⟩

end Loops

/-! ### Words of the bytes -/

/-- The word number `k`. -/
def wordAt (bytes : Bytes) (k : ℕ) : UInt32 := UInt32.ofNat (leNat (slice (k * 4) 4 bytes))

theorem limbAt_eq {bytes : Bytes} {k offset : ℕ} (hoffset : offset = k * 4) (h : k * 4 + 4 ≤ bytes.length) :
    limbAt bytes offset = some (wordAt bytes k) := by
  rw [hoffset, limbAt, if_pos h]
  rfl

/-- A string of exactly that many words, all of them below the prime. -/
def CanonicalBytes (bytes : Bytes) (count : ℕ) : Prop := bytes.length = 4 * count ∧ ∀ k < count, wordAt bytes k < P

instance (bytes : Bytes) (count : ℕ) : Decidable (CanonicalBytes bytes count) :=
  inferInstanceAs (Decidable (_ ∧ ∀ k < count, _))

theorem outside_eq_false {value : UInt32} : outside value = false ↔ value < P := by
  rw [outside, decide_eq_false_iff_not, UInt32.not_le]

theorem mask_le (value : UInt32) : (value &&& P).toNat ≤ 2147483647 := by
  rw [UInt32.toNat_and, toNat_P]
  exact Nat.and_le_right

theorem mask_eq {value : UInt32} (h : value < P) : value &&& P = value := by
  have hlt : value.toNat < 2147483647 := h
  apply UInt32.toNat_inj.mp
  rw [UInt32.toNat_and, toNat_P, show 2147483647 = 2 ^ 31 - 1 from rfl, Nat.and_two_pow_sub_one_eq_mod]
  omega

/-- The values of one slot. -/
def slotWords (bytes : Bytes) (N slot : ℕ) : List M31 :=
  (List.range N).map fun index => ⟨wordAt bytes (slot * N + index)⟩

theorem length_slotWords (bytes : Bytes) (N slot : ℕ) : (slotWords bytes N slot).length = N := by
  rw [slotWords, List.length_map, List.length_range]

section BaseWords

variable {N : ℕ} {weights : Vector QM31 N} {bytes : Bytes}

/-- The products of one slot with their masked words. -/
def maskedProducts (weights : Vector QM31 N) (bytes : Bytes) (slot index : ℕ) : Fin 4 → UInt64 := fun c =>
  (limbs (weights.toList.getD index QM31.zero) c).val.toUInt64 * (wordAt bytes (slot * N + index) &&& P).toUInt64

theorem getElem?_weights {index : ℕ} (hindex : index < N) :
    weights.toList[index]? = some (weights.toList.getD index QM31.zero) := by
  have hlt : index < weights.toList.length := by rwa [Vector.length_toList]
  rw [List.getD_eq_getElem?_getD, List.getElem?_eq_getElem hlt]
  rfl

theorem limbTerm_reads (hlen : bytes.length = 4 * N * 4) {slot : ℕ} (hslot : slot < 4) :
    Reads (limbTerm (limbTable weights) bytes slot) N (fun index => outside (wordAt bytes (slot * N + index)))
      (maskedProducts weights bytes slot) := by
  intro index hindex
  have hword : slot * N + index < 4 * N := by
    have : (slot + 1) * N ≤ 4 * N := Nat.mul_le_mul_right N hslot
    rw [Nat.succ_mul] at this
    omega
  have htable : (limbTable weights)[index]? = some fun c => (limbs (weights.toList.getD index QM31.zero) c).val := by
    unfold limbTable
    rw [Vector.getElem?_map, ← Vector.getElem?_toList, getElem?_weights hindex]
    rfl
  unfold limbTerm
  rw [htable, limbAt_eq rfl (by omega)]
  rfl

/-- Masked products never let a block wrap, whatever the bytes are. -/
theorem maskedProducts_le (hw : ∀ w ∈ weights, w.Canonical) (bytes : Bytes) (slot : ℕ) {index : ℕ} (hindex : index < N)
    (c : Fin 4) : (maskedProducts weights bytes slot index c).toNat ≤ 2147483646 * 2147483647 := by
  have hmem : weights.toList.getD index QM31.zero ∈ weights :=
    Vector.mem_toList_iff.mp (List.mem_of_getElem? (getElem?_weights hindex))
  unfold maskedProducts
  rw [M31.toNat_mul_words]
  exact Nat.mul_le_mul (Nat.le_of_lt_succ (limbScheme.left_canonical _ (hw _ hmem) c).lt) (mask_le _)

theorem maskedProducts_terms (hw : ∀ w ∈ weights, w.Canonical) (bytes : Bytes) (slot : ℕ) :
    ProductTerms (fun index => some (maskedProducts weights bytes slot index)) N
      fun index c => ((maskedProducts weights bytes slot index c).toNat : BaseField) :=
  ⟨maskedProducts weights bytes slot, fun _ hindex => ⟨rfl, fun c => ⟨maskedProducts_le hw bytes slot hindex c, rfl⟩⟩⟩

theorem slotWords_factors (hw : ∀ w ∈ weights, w.Canonical) {slot : ℕ}
    (hwords : ∀ index < N, wordAt bytes (slot * N + index) < P) :
    CanonicalFactors limbScheme.canonical weights.toList (slotWords bytes N slot) where
  weights_canonical w hmem := hw w (Vector.mem_toList_iff.mp hmem)
  values_canonical v hv := by
    unfold slotWords at hv
    obtain ⟨index, hindex, rfl⟩ := List.mem_map.mp hv
    exact hwords index (List.mem_range.mp hindex)
  length_eq := by rw [Vector.length_toList, length_slotWords]

/-- Where the words are canonical, sums of the masked products finish to the dot product of the slot. -/
theorem slotValue_eq (hw : ∀ w ∈ weights, w.Canonical) {slot : ℕ}
    (hwords : ∀ index < N, wordAt bytes (slot * N + index) < P) {sums : Fin 4 → UInt64}
    (hsums : ∀ c, ((sums c).toNat : BaseField) =
      ∑ index ∈ Finset.Ico 0 N, ((maskedProducts weights bytes slot index c).toNat : BaseField)) :
    slotValue sums = sumProducts QM31.mulM31 weights.toList (slotWords bytes N slot) := by
  have hfactors := slotWords_factors hw hwords
  have hfinish : limbScheme.finish (reduceAll sums) = sumProducts limbScheme.mul weights.toList
      (slotWords bytes N slot) := by
    apply reduce_row hfactors
    intro c
    obtain ⟨t, ht⟩ := termsAt_products hfactors
    rw [hsums c, Vector.length_toList]
    apply Finset.sum_congr rfl
    intro index hindex
    have hlt := (Finset.mem_Ico.mp hindex).2
    obtain ⟨hterm, hval⟩ := ht index (by rw [Vector.length_toList]; exact hlt)
    refine Eq.trans ?_ (hval c).2
    have hproducts : termsAt limbScheme.left limbScheme.right weights.toList (slotWords bytes N slot) index =
        some (maskedProducts weights bytes slot index) := by
      have hvalue : (slotWords bytes N slot)[index]? = some ⟨wordAt bytes (slot * N + index)⟩ := by
        rw [slotWords, List.getElem?_map, List.getElem?_range hlt]
        rfl
      unfold termsAt
      rw [getElem?_weights hlt, hvalue]
      show some (products _ _) = some _
      congr 1
      funext c
      unfold products maskedProducts
      rw [mask_eq (hwords index hlt)]
      rfl
    rw [Option.some.inj (hproducts.symm.trans hterm)]
  exact hfinish

/-- One slot of the generic kernel. -/
theorem slot_exact (hw : ∀ w ∈ weights, w.Canonical) (hN : N ≤ 4 * (2 ^ 33 + 8)) (hlen : bytes.length = 4 * N * 4)
    {slot : ℕ} (hslot : slot < 4) : ∃ sums, (∀ invalid, ∃ flag,
      flaggedBlocks (limbTerm (limbTable weights) bytes slot) 0 N invalid = some (flag, sums) ∧
        FlagAfter (fun index => outside (wordAt bytes (slot * N + index))) invalid 0 N flag) ∧
      ((∀ index < N, wordAt bytes (slot * N + index) < P) →
        slotValue sums = sumProducts QM31.mulM31 weights.toList (slotWords bytes N slot)) := by
  obtain ⟨sums, hsums, hval⟩ := lazyBlocks_sum (maskedProducts_terms hw bytes slot) 0 N (Nat.zero_le _) le_rfl
    (by omega)
  refine ⟨sums, ?_, fun hwords => slotValue_eq hw hwords hval⟩
  intro invalid
  exact (limbTerm_reads hlen hslot).blocks 0 N (Nat.zero_le _) le_rfl invalid hsums

/-- The dot products of the decoded slots, for canonical bytes of the right length. -/
def slotDots (weights : Vector QM31 N) (bytes : Bytes) : Option (Fin 4 → QM31) :=
  if CanonicalBytes bytes (4 * N) then
    some fun slot => sumProducts QM31.mulM31 weights.toList (slotWords bytes N slot)
  else none

/-- Four slots whose flags tell exactly of their own words. -/
theorem slotResults_eq {slotResult : Fin 4 → Bool → Option (Bool × QM31)} {bad : Fin 4 → Prop} {value : Fin 4 → QM31}
    (h : ∀ slot invalid, ∃ flag, slotResult slot invalid = some (flag, value slot) ∧
      (flag = true ↔ invalid = true ∨ bad slot)) [Decidable (∃ slot, bad slot)] :
    slotResults slotResult = some (if ∃ slot, bad slot then none else some value) := by
  obtain ⟨flag0, h0, hflag0⟩ := h 0 false
  obtain ⟨flag1, h1, hflag1⟩ := h 1 flag0
  obtain ⟨flag2, h2, hflag2⟩ := h 2 flag1
  obtain ⟨flag3, h3, hflag3⟩ := h 3 flag2
  have hbad : flag3 = true ↔ ∃ slot, bad slot := by
    rw [hflag3, hflag2, hflag1, hflag0, Fin.exists_fin_succ, Fin.exists_fin_succ, Fin.exists_fin_succ,
      Fin.exists_fin_succ]
    simp [or_assoc]
  have hvalue : (![value 0, value 1, value 2, value 3] : Fin 4 → QM31) = value := by
    funext slot
    fin_cases slot <;> rfl
  unfold slotResults
  rw [h0, Option.bind_eq_bind, Option.bind_some, h1, Option.bind_some, h2, Option.bind_some, h3, Option.bind_some]
  show some (if flag3 = true then none else some ![value 0, value 1, value 2, value 3]) = _
  rw [hvalue]
  by_cases hb : ∃ slot, bad slot
  · rw [if_pos hb, if_pos (hbad.mpr hb)]
  · rw [if_neg hb, if_neg (fun hflag => hb (hbad.mp hflag))]

/-- The words of the string, slot by slot. -/
theorem canonicalBytes_slots (hlen : bytes.length = 4 * N * 4) :
    CanonicalBytes bytes (4 * N) ↔ ∀ slot : Fin 4, ∀ index < N, wordAt bytes (slot * N + index) < P := by
  constructor
  · rintro ⟨-, hwords⟩ slot index hindex
    apply hwords
    have : (slot.val + 1) * N ≤ 4 * N := Nat.mul_le_mul_right N slot.isLt
    rw [Nat.succ_mul] at this
    omega
  · intro h
    refine ⟨by omega, ?_⟩
    intro k hk
    have hpos : 0 < N := by omega
    have hword := h ⟨k / N, Nat.div_lt_of_lt_mul (by rwa [Nat.mul_comm] at hk)⟩ (k % N) (Nat.mod_lt k hpos)
    have hsplit : k / N * N + k % N = k := by
      rw [Nat.mul_comm]
      exact Nat.div_add_mod k N
    rwa [hsplit] at hword

/-- Results whose flags tell of the words of their slots are the dot products of the decoded slots. -/
theorem slotDots_of_slots (hlen : bytes.length = 4 * N * 4) {value : Fin 4 → QM31}
    (hvalue : ∀ slot : Fin 4, (∀ index < N, wordAt bytes (slot * N + index) < P) →
      value slot = sumProducts QM31.mulM31 weights.toList (slotWords bytes N slot))
    [Decidable (∃ slot : Fin 4, ∃ index < N, outside (wordAt bytes (slot * N + index)) = true)] :
    (if ∃ slot : Fin 4, ∃ index < N, outside (wordAt bytes (slot * N + index)) = true then none else some value) =
      slotDots weights bytes := by
  have hiff := canonicalBytes_slots hlen
  unfold slotDots
  by_cases hcanonical : CanonicalBytes bytes (4 * N)
  · have hgood := hiff.mp hcanonical
    rw [if_pos hcanonical, if_neg]
    · congr 1
      funext slot
      exact hvalue slot (hgood slot)
    · rintro ⟨slot, index, hindex, hbad⟩
      have hfalse := outside_eq_false.mpr (hgood slot index hindex)
      rw [hbad] at hfalse
      cases hfalse
  · rw [if_neg hcanonical, if_pos]
    by_contra hnone
    apply hcanonical
    apply hiff.mpr
    intro slot index hindex
    apply outside_eq_false.mp
    rw [← Bool.not_eq_true]
    exact fun hbad => hnone ⟨slot, index, hindex, hbad⟩

theorem slotDots_of_length (hlen : bytes.length ≠ 4 * N * 4) : slotDots weights bytes = none := by
  unfold slotDots
  rw [if_neg]
  rintro ⟨h, -⟩
  omega

/-- The generic kernel, for every string of bytes. -/
theorem limbsBytes_exact (hw : ∀ w ∈ weights, w.Canonical) (hN : N ≤ 4 * (2 ^ 33 + 8)) (bytes : Bytes) :
    qm31M31Dot4PreparedLimbsBytes (limbTable weights) bytes = some (slotDots weights bytes) := by
  unfold qm31M31Dot4PreparedLimbsBytes
  by_cases hlen : bytes.length = 4 * N * 4
  · rw [if_neg (not_not.mpr hlen)]
    choose sums hsums hvalue using fun slot : Fin 4 => slot_exact hw hN hlen slot.isLt
    have hslots := @slotResults_eq (fun slot invalid => do
        let sums ← flaggedBlocks (limbTerm (limbTable weights) bytes slot) 0 N invalid
        return (sums.1, slotValue sums.2))
      (fun slot : Fin 4 => ∃ index < N, outside (wordAt bytes (slot * N + index)) = true)
      (fun slot => slotValue (sums slot)) (fun slot invalid => by
        obtain ⟨flag, hflag, hafter⟩ := hsums slot invalid
        refine ⟨flag, by rw [hflag]; rfl, ?_⟩
        unfold FlagAfter at hafter
        rw [hafter]
        simp) inferInstance
    rw [hslots, slotDots_of_slots hlen hvalue]
  · rw [if_pos hlen, slotDots_of_length hlen]

end BaseWords

/-! ### Fixed widths -/

section FixedWidths

variable {N : ℕ}

/-- The generic loop is a number of complete blocks and a shorter one. -/
theorem completeBlocks_tail {ι : Type} [Fintype ι] (terms : ℕ → Option (Bool × (ι → UInt64))) (invalid : Bool) {r : ℕ}
    (hr : N % 4 = r) (hpos : 0 < r) : flaggedBlocks terms 0 N invalid =
      (completeBlocks terms (N / 4) invalid).bind fun state => closeBlock terms state (N - r) N := by
  have hmid : 0 + N / 4 * 4 = N - r := by omega
  unfold flaggedBlocks completeBlocks
  rw [stepLoop_split (closeBlock terms) (by decide) (N / 4) (by omega), rangeLoop_blocks, hmid]
  have hcount : N / 4 * 4 = N - r := by omega
  rw [hcount]
  congr 1
  funext state
  have hmin : min (N - r + 4) N = N := by omega
  rw [stepLoop, if_pos ⟨by omega, by decide⟩, hmin]
  have hend : ∀ state, stepLoop 4 (closeBlock terms) (N - r + 4) N state = some state := by
    intro state
    rw [stepLoop, if_neg (by omega)]
  rw [funext hend]
  exact Option.bind_fun_some _

theorem completeBlocks_all {ι : Type} [Fintype ι] (terms : ℕ → Option (Bool × (ι → UInt64))) (invalid : Bool)
    (hr : N % 4 = 0) : flaggedBlocks terms 0 N invalid = completeBlocks terms (N / 4) invalid := by
  have hcount : N / 4 * 4 = N := by omega
  unfold flaggedBlocks completeBlocks
  rw [rangeLoop_blocks, hcount]

variable (weightLimbs : Vector (Fin 4 → UInt32) N) (bytes : Bytes)

theorem limbs4b1_eq_generic (hN : N % 4 = 1) :
    qm31M31Dot4PreparedLimbs4b1Bytes weightLimbs bytes = qm31M31Dot4PreparedLimbsBytes weightLimbs bytes := by
  unfold qm31M31Dot4PreparedLimbs4b1Bytes qm31M31Dot4PreparedLimbsBytes
  have hcond : (N = 0 ∨ N % 4 ≠ 1 ∨ bytes.length ≠ 4 * N * 4) ↔ bytes.length ≠ 4 * N * 4 := by omega
  simp only [hcond, completeBlocks_tail _ _ hN Nat.one_pos, Option.bind_eq_bind, Option.bind_assoc]

theorem limbs4b_eq_generic (hN : N % 4 = 0) (hpos : N ≠ 0) :
    qm31M31Dot4PreparedLimbs4bBytes weightLimbs bytes = qm31M31Dot4PreparedLimbsBytes weightLimbs bytes := by
  unfold qm31M31Dot4PreparedLimbs4bBytes qm31M31Dot4PreparedLimbsBytes
  have hcond : (N = 0 ∨ N % 4 ≠ 0 ∨ bytes.length ≠ 4 * N * 4) ↔ bytes.length ≠ 4 * N * 4 := by omega
  simp only [hcond, completeBlocks_all _ _ hN]

theorem limbs4b2_eq_generic (hN : N % 4 = 2) :
    qm31M31Dot4PreparedLimbs4b2Bytes weightLimbs bytes = qm31M31Dot4PreparedLimbsBytes weightLimbs bytes := by
  unfold qm31M31Dot4PreparedLimbs4b2Bytes qm31M31Dot4PreparedLimbsBytes
  have hcond : (N < 2 ∨ N % 4 ≠ 2 ∨ bytes.length ≠ 4 * N * 4) ↔ bytes.length ≠ 4 * N * 4 := by omega
  simp only [hcond, completeBlocks_tail _ _ hN two_pos, Option.bind_eq_bind, Option.bind_assoc]

theorem limbs49_eq_generic (weightLimbs : Vector (Fin 4 → UInt32) 49) (bytes : Bytes) :
    qm31M31Dot4PreparedLimbs49Bytes weightLimbs bytes = qm31M31Dot4PreparedLimbsBytes weightLimbs bytes := by
  have htail : ∀ (terms : ℕ → Option (Bool × (Fin 4 → UInt64))) (invalid : Bool), flaggedBlocks terms 0 49 invalid =
      (completeBlocks terms 12 invalid).bind fun state => closeBlock terms state 48 49 :=
    fun terms invalid => @completeBlocks_tail 49 _ _ terms invalid 1 rfl Nat.one_pos
  unfold qm31M31Dot4PreparedLimbs49Bytes qm31M31Dot4PreparedLimbsBytes
  simp only [htail, Option.bind_eq_bind, Option.bind_assoc]

end FixedWidths

/-! ### Two rows -/

section TwoRows

variable {N : ℕ} {weights : Vector QM31 N} {bytes : Bytes}

theorem twoRowTerm_reads (hlen : bytes.length = 4 * N * 4) {firstSlot : ℕ} (hslot : firstSlot + 1 < 4) :
    Reads (twoRowTerm (limbTable weights) bytes firstSlot) N
      (fun index => outside (wordAt bytes (firstSlot * N + index)) || outside (wordAt bytes ((firstSlot + 1) * N + index)))
      fun index c => maskedProducts weights bytes (firstSlot + c.1) index c.2 := by
  intro index hindex
  have hfirst : limbTerm (limbTable weights) bytes firstSlot index = some _ :=
    limbTerm_reads hlen (Nat.lt_of_succ_lt hslot) index hindex
  have hsecond : limbTerm (limbTable weights) bytes (firstSlot + 1) index = some _ :=
    limbTerm_reads hlen hslot index hindex
  unfold twoRowTerm
  rw [hfirst, hsecond]
  show some (_, _) = some (_, _)
  congr 2
  funext ⟨row, c⟩
  fin_cases row <;> rfl

/-- Both rows of a pair. -/
theorem pair_exact (hw : ∀ w ∈ weights, w.Canonical) (hN : N ≤ 4 * (2 ^ 33 + 8)) (hlen : bytes.length = 4 * N * 4)
    (firstSlot : ℕ) (hslot : firstSlot + 1 < 4) (invalid : Bool) : ∃ sums flag,
      flaggedBlocks (twoRowTerm (limbTable weights) bytes firstSlot) 0 N invalid = some (flag, sums) ∧
      (flag = true ↔ invalid = true ∨ ∃ row : Fin 2, ∃ index < N,
        outside (wordAt bytes ((firstSlot + row) * N + index)) = true) ∧
      ∀ row : Fin 2, (∀ index < N, wordAt bytes ((firstSlot + row) * N + index) < P) →
        slotValue (fun c => sums (row, c)) =
          sumProducts QM31.mulM31 weights.toList (slotWords bytes N (firstSlot + row)) := by
  have hterms : ProductTerms
      (fun index => some fun c : Fin 2 × Fin 4 => maskedProducts weights bytes (firstSlot + c.1) index c.2) N
      fun index c => ((maskedProducts weights bytes (firstSlot + c.1) index c.2).toNat : BaseField) := by
    refine ⟨fun index c => maskedProducts weights bytes (firstSlot + c.1) index c.2, ?_⟩
    intro index hindex
    exact ⟨rfl, fun c => ⟨maskedProducts_le hw bytes (firstSlot + c.1) hindex c.2, rfl⟩⟩
  obtain ⟨sums, hsums, hval⟩ := lazyBlocks_sum hterms 0 N (Nat.zero_le _) le_rfl (by omega)
  obtain ⟨flag, hflag, hafter⟩ := (twoRowTerm_reads hlen hslot).blocks 0 N (Nat.zero_le _) le_rfl invalid hsums
  refine ⟨sums, flag, hflag, ?_, ?_⟩
  · unfold FlagAfter at hafter
    rw [hafter]
    apply or_congr Iff.rfl
    constructor
    · rintro ⟨index, -, hindex, hbad⟩
      rcases Bool.or_eq_true_iff.mp hbad with hbad | hbad
      · exact ⟨0, index, hindex, hbad⟩
      · exact ⟨1, index, hindex, hbad⟩
    · rintro ⟨row, index, hindex, hbad⟩
      refine ⟨index, Nat.zero_le _, hindex, ?_⟩
      rw [Bool.or_eq_true]
      fin_cases row
      · exact Or.inl hbad
      · exact Or.inr hbad
  · intro row hwords
    exact slotValue_eq hw hwords fun c => hval (row, c)

theorem twoRows_exact {weights : Vector QM31 49} (hw : ∀ w ∈ weights, w.Canonical) (bytes : Bytes) :
    qm31M31Dot4PreparedLimbs49BytesTwoRows (limbTable weights) bytes = some (slotDots weights bytes) := by
  unfold qm31M31Dot4PreparedLimbs49BytesTwoRows
  by_cases hlen : bytes.length = 4 * 49 * 4
  · rw [if_neg (not_not.mpr hlen)]
    have htail : ∀ (terms : ℕ → Option (Bool × (Fin 2 × Fin 4 → UInt64))) (invalid : Bool),
        ((completeBlocks terms 12 invalid).bind fun state => closeBlock terms state 48 49) =
          flaggedBlocks terms 0 49 invalid :=
      fun terms invalid => (@completeBlocks_tail 49 _ _ terms invalid 1 rfl Nat.one_pos).symm
    obtain ⟨low, flag, hlow, hflag, hlowValue⟩ := pair_exact hw (by decide) hlen 0 (by decide) false
    obtain ⟨high, flag', hhigh, hflag', hhighValue⟩ := pair_exact hw (by decide) hlen 2 (by decide) flag
    simp only [Option.bind_eq_bind, htail, hlow, hhigh, Option.bind_some]
    have hvalue : ∀ slot : Fin 4, (∀ index < 49, wordAt bytes (slot * 49 + index) < P) →
        (![slotValue fun c => low (0, c), slotValue fun c => low (1, c), slotValue fun c => high (0, c),
          slotValue fun c => high (1, c)] : Fin 4 → QM31) slot =
            sumProducts QM31.mulM31 weights.toList (slotWords bytes 49 slot) := by
      intro slot hwords
      fin_cases slot
      · exact hlowValue 0 hwords
      · exact hlowValue 1 hwords
      · exact hhighValue 0 hwords
      · exact hhighValue 1 hwords
    rw [← slotDots_of_slots hlen hvalue]
    have hbad : flag' = true ↔ ∃ slot : Fin 4, ∃ index < 49, outside (wordAt bytes (slot * 49 + index)) = true := by
      rw [hflag', hflag]
      constructor
      · rintro ((h | ⟨row, hrow⟩) | ⟨row, hrow⟩)
        · cases h
        · fin_cases row
          · exact ⟨0, hrow⟩
          · exact ⟨1, hrow⟩
        · fin_cases row
          · exact ⟨2, hrow⟩
          · exact ⟨3, hrow⟩
      · rintro ⟨slot, hslot⟩
        fin_cases slot
        · exact Or.inl (Or.inr ⟨0, hslot⟩)
        · exact Or.inl (Or.inr ⟨1, hslot⟩)
        · exact Or.inr ⟨0, hslot⟩
        · exact Or.inr ⟨1, hslot⟩
    show some (if flag' = true then none else some _) = some _
    congr 1
    exact if_congr hbad rfl rfl
  · rw [if_pos hlen, slotDots_of_length hlen]

end TwoRows

/-! ### Complex words -/

section ComplexWords

variable {N : ℕ} {weights : Vector QM31 N} {bytes : Bytes}

/-- The value at one index of one slot, as it stands in the bytes. -/
def complexWord (bytes : Bytes) (N slot index : ℕ) : CM31 :=
  ⟨⟨wordAt bytes ((slot * N + index) * 2)⟩, ⟨wordAt bytes ((slot * N + index) * 2 + 1)⟩⟩

def maskWord (value : CM31) : CM31 := ⟨⟨value.a.val &&& P⟩, ⟨value.b.val &&& P⟩⟩

def outsideWord (value : CM31) : Bool := outside value.a.val || outside value.b.val

theorem outsideWord_eq_false {value : CM31} : outsideWord value = false ↔ value.Canonical := by
  rw [outsideWord, Bool.or_eq_false_iff, outside_eq_false, outside_eq_false]
  rfl

theorem maskWord_eq {value : CM31} (h : value.Canonical) : maskWord value = value := by
  unfold maskWord
  rw [mask_eq h.1, mask_eq h.2]

/-- The parts of a masked value are at most the prime. -/
theorem karatsubaParts_maskWord_le (value : CM31) (c : Fin 3) :
    (karatsubaParts (maskWord value) c).val.toNat ≤ 2147483647 := by
  have ha := mask_le value.a.val
  have hb := mask_le value.b.val
  fin_cases c
  · exact ha
  · exact hb
  · show (if P ≤ (value.a.val &&& P) + (value.b.val &&& P) then (value.a.val &&& P) + (value.b.val &&& P) - P
      else (value.a.val &&& P) + (value.b.val &&& P)).toNat ≤ 2147483647
    have hsum : ((value.a.val &&& P) + (value.b.val &&& P)).toNat =
        (value.a.val &&& P).toNat + (value.b.val &&& P).toNat := by
      rw [UInt32.toNat_add]
      omega
    by_cases hle : P ≤ (value.a.val &&& P) + (value.b.val &&& P)
    · rw [if_pos hle, UInt32.toNat_sub_of_le _ _ hle, hsum, toNat_P]
      omega
    · rw [if_neg hle]
      rw [UInt32.le_iff_toNat_le, toNat_P] at hle
      omega

theorem complexAt_eq (hlen : bytes.length = 4 * N * 8) {slot index : ℕ} (hslot : slot < 4) (hindex : index < N) :
    complexAt (N := N) bytes slot index =
      some (outsideWord (complexWord bytes N slot index), maskWord (complexWord bytes N slot index)) := by
  have hword : slot * N + index < 4 * N := by
    have : (slot + 1) * N ≤ 4 * N := Nat.mul_le_mul_right N hslot
    rw [Nat.succ_mul] at this
    omega
  have ha : limbAt bytes ((slot * N + index) * 8) = some (wordAt bytes ((slot * N + index) * 2)) :=
    limbAt_eq (by omega) (by omega)
  have hb : limbAt bytes ((slot * N + index) * 8 + 4) = some (wordAt bytes ((slot * N + index) * 2 + 1)) :=
    limbAt_eq (by omega) (by omega)
  unfold complexAt
  dsimp only
  rw [ha, hb]
  rfl

/-- The products at one index of four slots with their masked values. -/
def maskedComplexProducts (weights : Vector QM31 N) (bytes : Bytes) (index : ℕ) (c : Fin 4 × Fin 2 × Fin 3) : UInt64 :=
  products (mixedChannels (weights.toList.getD index QM31.zero))
    (fun k => karatsubaParts (maskWord (complexWord bytes N c.1 index)) k.2) c.2

theorem complexTerm_reads (hlen : bytes.length = 4 * N * 8) :
    Reads (complexTerm (.new weights) bytes) N
      (fun index => outsideWord (complexWord bytes N 0 index) || outsideWord (complexWord bytes N 1 index) ||
        outsideWord (complexWord bytes N 2 index) || outsideWord (complexWord bytes N 3 index))
      (maskedComplexProducts weights bytes) := by
  intro index hindex
  have hweight : (PreparedQm31Cm31Weights.new weights).components[index]? =
      some (mixedChannels (weights.toList.getD index QM31.zero)) := by
    unfold PreparedQm31Cm31Weights.new
    rw [Vector.getElem?_map, ← Vector.getElem?_toList, getElem?_weights hindex]
    rfl
  unfold complexTerm
  rw [hweight, complexAt_eq hlen (by decide) hindex, complexAt_eq hlen (by decide) hindex,
    complexAt_eq hlen (by decide) hindex, complexAt_eq hlen (by decide) hindex]
  show some (_, _) = some (_, _)
  congr 2
  funext ⟨slot, c⟩
  fin_cases slot <;> rfl

theorem maskedComplexProducts_terms (hw : ∀ w ∈ weights, w.Canonical) (bytes : Bytes) :
    ProductTerms (fun index => some (maskedComplexProducts weights bytes index)) N
      fun index c => ((maskedComplexProducts weights bytes index c).toNat : BaseField) := by
  refine ⟨maskedComplexProducts weights bytes, ?_⟩
  intro index hindex
  refine ⟨rfl, fun c => ⟨?_, rfl⟩⟩
  have hmem : weights.toList.getD index QM31.zero ∈ weights :=
    Vector.mem_toList_iff.mp (List.mem_of_getElem? (getElem?_weights hindex))
  unfold maskedComplexProducts products
  rw [M31.toNat_mul_words]
  exact Nat.mul_le_mul (Nat.le_of_lt_succ (mixedScheme.left_canonical _ (hw _ hmem) c.2).lt)
    (karatsubaParts_maskWord_le _ _)

/-- The values of one slot. -/
def complexWords (bytes : Bytes) (N slot : ℕ) : List CM31 :=
  (List.range N).map fun index => complexWord bytes N slot index

/-- The dot products of the decoded slots, for canonical bytes of the right length. -/
def complexDots (weights : Vector QM31 N) (bytes : Bytes) : Option (Fin 4 → QM31) :=
  if CanonicalBytes bytes (8 * N) then
    some fun slot => sumProducts QM31.mulCm31 weights.toList (complexWords bytes N slot)
  else none

theorem canonicalBytes_complex (hlen : bytes.length = 4 * N * 8) :
    CanonicalBytes bytes (8 * N) ↔ ∀ slot : Fin 4, ∀ index < N, (complexWord bytes N slot index).Canonical := by
  constructor
  · rintro ⟨-, hwords⟩ slot index hindex
    have : (slot.val + 1) * N ≤ 4 * N := Nat.mul_le_mul_right N slot.isLt
    rw [Nat.succ_mul] at this
    exact ⟨hwords _ (by omega), hwords _ (by omega)⟩
  · intro h
    refine ⟨by omega, ?_⟩
    intro k hk
    have hpos : 0 < N := by omega
    have hslot : k / 2 / N < 4 := Nat.div_lt_of_lt_mul (by omega)
    have hword := h ⟨k / 2 / N, hslot⟩ (k / 2 % N) (Nat.mod_lt _ hpos)
    have hsplit : k / 2 / N * N + k / 2 % N = k / 2 := by
      rw [Nat.mul_comm]
      exact Nat.div_add_mod (k / 2) N
    unfold complexWord CM31.Canonical M31.Canonical at hword
    rw [hsplit] at hword
    rcases Nat.mod_two_eq_zero_or_one k with hk2 | hk2
    · have hk' : k / 2 * 2 = k := by omega
      rw [hk'] at hword
      exact hword.1
    · have hk' : k / 2 * 2 + 1 = k := by omega
      rw [hk'] at hword
      exact hword.2

/-- Where the values are canonical, sums of the masked products finish to the dot products. -/
theorem complexValue_eq (hw : ∀ w ∈ weights, w.Canonical) {slot : Fin 4}
    (hwords : ∀ index < N, (complexWord bytes N slot index).Canonical) {sums : Fin 2 × Fin 3 → M31}
    (hsums : ∀ c, (sums c).Denotes
      (∑ index ∈ Finset.Ico 0 N, ((maskedComplexProducts weights bytes index (slot, c)).toNat : BaseField))) :
    quarticOfMixed sums = sumProducts QM31.mulCm31 weights.toList (complexWords bytes N slot) := by
  have hlength : (complexWords bytes N slot).length = N := by
    rw [complexWords, List.length_map, List.length_range]
  have hfactors : CanonicalFactors mixedScheme.canonical weights.toList (complexWords bytes N slot) := by
    refine ⟨fun w hmem => hw w (Vector.mem_toList_iff.mp hmem), ?_, by rw [Vector.length_toList, hlength]⟩
    intro v hv
    unfold complexWords at hv
    obtain ⟨index, hindex, rfl⟩ := List.mem_map.mp hv
    exact hwords index (List.mem_range.mp hindex)
  have hfinish : mixedScheme.finish sums = sumProducts mixedScheme.mul weights.toList (complexWords bytes N slot) := by
    apply finish_eq_sumProducts hfactors
    intro c
    rw [← sum_elements c hfactors.length_eq, Vector.length_toList]
    have heq : ∑ index ∈ Finset.Ico 0 N, ((maskedComplexProducts weights bytes index (slot, c)).toNat : BaseField) =
        ∑ index ∈ Finset.Ico 0 N, (mixedScheme.elements weights.toList (complexWords bytes N slot)).getD index 0 c := by
      obtain ⟨t, ht⟩ := termsAt_products hfactors
      apply Finset.sum_congr rfl
      intro index hindex
      have hlt := (Finset.mem_Ico.mp hindex).2
      obtain ⟨hterm, hval⟩ := ht index (by rw [Vector.length_toList]; exact hlt)
      refine Eq.trans ?_ (hval c).2
      have hvalue : (complexWords bytes N slot)[index]? = some (complexWord bytes N slot index) := by
        rw [complexWords, List.getElem?_map, List.getElem?_range hlt]
        rfl
      have hproducts : termsAt mixedScheme.left mixedScheme.right weights.toList (complexWords bytes N slot) index =
          some fun c => maskedComplexProducts weights bytes index (slot, c) := by
        unfold termsAt
        rw [getElem?_weights hlt, hvalue]
        show some (products _ _) = some _
        congr 1
        funext c
        unfold maskedComplexProducts
        rw [maskWord_eq (hwords index hlt)]
        rfl
      rw [← Option.some.inj (hproducts.symm.trans hterm)]
    rw [← heq]
    exact hsums c
  exact hfinish

/-- The kernel with complex values, for every width and every string of bytes. -/
theorem complexBytes_exact (hw : ∀ w ∈ weights, w.Canonical) (bytes : Bytes) :
    qm31Cm31Dot4PreparedBytes (.new weights) bytes = some (complexDots weights bytes) := by
  unfold qm31Cm31Dot4PreparedBytes
  by_cases hlen : bytes.length = 4 * N * 8
  · rw [if_neg (not_not.mpr hlen)]
    obtain ⟨sums, hsums, hval⟩ := windowedBlocks_sum (maskedComplexProducts_terms hw bytes)
    have hreads : Reads (complexTerm (.new weights) bytes) N _ _ := complexTerm_reads hlen
    obtain ⟨flag, hflag, hafter⟩ := hreads.windows hsums
    rw [hflag, Option.bind_eq_bind, Option.bind_some]
    have hiff := canonicalBytes_complex hlen
    have hbad : flag = true ↔ ¬ CanonicalBytes bytes (8 * N) := by
      unfold FlagAfter at hafter
      rw [hafter, hiff]
      constructor
      · rintro (h | ⟨index, -, hindex, hbad⟩) hgood
        · cases h
        · have hfalse : ∀ slot : Fin 4, outsideWord (complexWord bytes N slot index) = false :=
            fun slot => outsideWord_eq_false.mpr (hgood slot index hindex)
          simp only [Bool.or_eq_true] at hbad
          rcases hbad with ((h | h) | h) | h
          · exact Bool.false_ne_true ((hfalse 0).symm.trans h)
          · exact Bool.false_ne_true ((hfalse 1).symm.trans h)
          · exact Bool.false_ne_true ((hfalse 2).symm.trans h)
          · exact Bool.false_ne_true ((hfalse 3).symm.trans h)
      · intro hnot
        refine Or.inr ?_
        by_contra hnone
        apply hnot
        intro slot index hindex
        apply outsideWord_eq_false.mp
        by_contra htrue
        rw [Bool.not_eq_false] at htrue
        apply hnone
        refine ⟨index, Nat.zero_le _, hindex, ?_⟩
        simp only [Bool.or_eq_true]
        fin_cases slot
        · exact Or.inl (Or.inl (Or.inl htrue))
        · exact Or.inl (Or.inl (Or.inr htrue))
        · exact Or.inl (Or.inr htrue)
        · exact Or.inr htrue
    unfold complexDots
    show some (if flag = true then none else some (finishQm31Cm31Dot4 sums)) = _
    congr 1
    by_cases hcanonical : CanonicalBytes bytes (8 * N)
    · rw [if_pos hcanonical, if_neg fun h => hbad.mp h hcanonical]
      have hvalue : ∀ slot : Fin 4, finishQm31Cm31Dot4 sums slot =
          sumProducts QM31.mulCm31 weights.toList (complexWords bytes N slot) := by
        intro slot
        apply complexValue_eq hw (hiff.mp hcanonical slot)
        intro c
        exact hval (slot, c)
      rw [funext hvalue]
    · rw [if_neg hcanonical, if_pos (hbad.mpr hcanonical)]
  · rw [if_pos hlen]
    unfold complexDots
    rw [if_neg]
    rintro ⟨h, -⟩
    omega

end ComplexWords

/-! ### One block too many -/

/-- A weight whose product with the word of four bytes 1 reduces to the largest word after four terms. -/
def wideWeight : QM31 := ⟨⟨⟨536870848⟩, .zero⟩, .zero⟩

def wideWeights : Vector QM31 (4 * (2 ^ 33 + 9)) := Vector.replicate _ wideWeight

def wideBytes : Bytes := List.replicate (4 * (4 * (2 ^ 33 + 9)) * 4) 1

theorem wideBytes_length : wideBytes.length = 4 * (4 * (2 ^ 33 + 9)) * 4 := List.length_replicate

theorem wordAt_wideBytes {k : ℕ} (hk : k < 4 * (4 * (2 ^ 33 + 9))) : wordAt wideBytes k = 16843009 := by
  have hslice : slice (k * 4) 4 wideBytes = [1, 1, 1, 1] := by
    unfold slice wideBytes
    rw [List.drop_replicate, List.take_replicate, Nat.min_eq_left (by omega)]
    rfl
  rw [wordAt, hslice]
  rfl

theorem wide_canonical : (∀ w ∈ wideWeights, w.Canonical) ∧ CanonicalBytes wideBytes (4 * (4 * (2 ^ 33 + 9))) := by
  refine ⟨?_, by rw [wideBytes_length]; rfl, ?_⟩
  · intro w hw
    rw [(Vector.mem_replicate.mp hw).2]
    decide
  · intro k hk
    rw [wordAt_wideBytes hk]
    decide

/-- The same products at every index. -/
theorem wide_reads : Reads (limbTerm (limbTable wideWeights) wideBytes 0) (4 * (2 ^ 33 + 9))
    (fun index => outside (wordAt wideBytes (0 * (4 * (2 ^ 33 + 9)) + index)))
    fun _ => products (limbs wideWeight) fun _ => ⟨16843009⟩ := by
  intro index hindex
  rw [limbTerm_reads wideBytes_length (by decide) index hindex]
  congr 2
  funext c
  have hweight : wideWeights.toList.getD index QM31.zero = wideWeight := by
    unfold wideWeights
    rw [Vector.toList_replicate, List.getD_eq_getElem?_getD, List.getElem?_replicate, if_pos hindex]
    rfl
  unfold maskedProducts products
  rw [hweight, wordAt_wideBytes (by omega)]
  rfl

/-- Each block adds the largest word to the first sum. -/
theorem wide_block {i : ℕ} (hi : i + 4 ≤ 4 * (2 ^ 33 + 9)) {state next : Bool × (Fin 4 → UInt64)}
    (h : closeBlock (limbTerm (limbTable wideWeights) wideBytes 0) state i (i + 4) = some next) :
    (next.2 0).toNat = (state.2 0).toNat + 2147483646 := by
  have hle : ∀ c, (products (limbs wideWeight) (fun _ => ⟨16843009⟩) c).toNat ≤ 536870848 * 16843009 := by decide
  have hproduct : (products (limbs wideWeight) (fun _ => ⟨16843009⟩) 0).toNat = 536870848 * 16843009 := by decide
  have hfits : ∀ c, ∑ _j ∈ Finset.Ico i (i + 4), (products (limbs wideWeight) (fun _ => ⟨16843009⟩) c).toNat < 2 ^ 64 := by
    intro c
    rw [Finset.sum_const, Nat.card_Ico, Nat.add_sub_cancel_left, smul_eq_mul]
    have := hle c
    omega
  obtain ⟨raw, hraw, hval⟩ := sumRange_of_lt (Nat.le_add_right i 4) (fun _ _ _ => rfl) hfits
  obtain ⟨flag, hblock, -⟩ := wide_reads.sumRange i (i + 4) (Nat.le_add_right i 4) hi state.1 hraw
  unfold closeBlock at h
  rw [hblock, Option.bind_eq_bind, Option.bind_some] at h
  obtain ⟨sums, hsums, hreturn⟩ := Option.bind_eq_some_iff.mp h
  have hnext : next.2 = sums := congrArg Prod.snd (Option.some.inj hreturn).symm
  have hword : (wordsOf (reduceAll raw) 0).toNat = 2147483646 := by
    rw [toNat_wordsOf]
    show (reduceU64 (raw 0)).toNat = _
    rw [toNat_reduceU64, hval 0, Finset.sum_const, Nat.card_Ico, Nat.add_sub_cancel_left, smul_eq_mul, hproduct]
  rw [hnext, addWords_eq_some hsums 0, hword]

/-- The kernel by base words wraps on canonical bytes that are wide enough. -/
theorem limbsBytes_wraps : (∀ w ∈ wideWeights, w.Canonical) ∧ CanonicalBytes wideBytes (4 * (4 * (2 ^ 33 + 9))) ∧
    qm31M31Dot4PreparedLimbsBytes (limbTable wideWeights) wideBytes = none := by
  refine ⟨wide_canonical.1, wide_canonical.2, ?_⟩
  have hnone : flaggedBlocks (limbTerm (limbTable wideWeights) wideBytes (0 : Fin 4)) 0 (4 * (2 ^ 33 + 9)) false = none := by
    by_contra hsome
    obtain ⟨sums, hsums⟩ := Option.ne_none_iff_exists'.mp hsome
    have hinv := @stepLoop_of_some _ 4 _ (4 * (2 ^ 33 + 9)) (by decide)
      (fun i (state : Bool × (Fin 4 → UInt64)) => i % 4 = 0 ∧ (state.2 0).toNat = i / 4 * 2147483646) (by
        intro i state next hi hinv hbody
        have hmin : min (i + 4) (4 * (2 ^ 33 + 9)) = i + 4 := by omega
        rw [hmin] at hbody ⊢
        have hnext := wide_block (by omega) hbody
        rw [hnext]
        omega) 0 (false, fun _ => 0) sums (Nat.zero_le _) (by simp) hsums
    have hlt := (sums.2 0).toNat_lt
    omega
  unfold qm31M31Dot4PreparedLimbsBytes
  rw [if_neg (not_not.mpr wideBytes_length)]
  unfold slotResults
  dsimp only
  rw [hnone]
  rfl

/-! ### The kernels together -/

/-- Every kernel over bytes returns the dot products of the decoded words, for canonical bytes of the right length,
and none for all others; so all kernels for one width agree. -/
structure ByteKernelsExact : Prop where
  cm31_dot4_prepared_bytes : ∀ (N : ℕ) (weights : Vector QM31 N) (bytes : Bytes), (∀ w ∈ weights, w.Canonical) →
    qm31Cm31Dot4PreparedBytes (.new weights) bytes = some (complexDots weights bytes)
  m31_dot4_prepared_bytes : ∀ (N : ℕ) (weights : Vector QM31 N) (bytes : Bytes), (∀ w ∈ weights, w.Canonical) →
    N ≤ 4 * (2 ^ 33 + 8) → qm31M31Dot4PreparedBytes weights bytes = some (slotDots weights bytes)
  limbs_bytes : ∀ (N : ℕ) (weights : Vector QM31 N) (bytes : Bytes), (∀ w ∈ weights, w.Canonical) →
    N ≤ 4 * (2 ^ 33 + 8) → qm31M31Dot4PreparedLimbsBytes (limbTable weights) bytes = some (slotDots weights bytes)
  limbs_4b_bytes : ∀ (N : ℕ) (weights : Vector QM31 N) (bytes : Bytes), (∀ w ∈ weights, w.Canonical) →
    N ≤ 4 * (2 ^ 33 + 8) → N % 4 = 0 → N ≠ 0 →
      qm31M31Dot4PreparedLimbs4bBytes (limbTable weights) bytes = some (slotDots weights bytes)
  limbs_4b1_bytes : ∀ (N : ℕ) (weights : Vector QM31 N) (bytes : Bytes), (∀ w ∈ weights, w.Canonical) →
    N ≤ 4 * (2 ^ 33 + 8) → N % 4 = 1 →
      qm31M31Dot4PreparedLimbs4b1Bytes (limbTable weights) bytes = some (slotDots weights bytes)
  limbs_4b2_bytes : ∀ (N : ℕ) (weights : Vector QM31 N) (bytes : Bytes), (∀ w ∈ weights, w.Canonical) →
    N ≤ 4 * (2 ^ 33 + 8) → N % 4 = 2 →
      qm31M31Dot4PreparedLimbs4b2Bytes (limbTable weights) bytes = some (slotDots weights bytes)
  limbs49_bytes : ∀ (weights : Vector QM31 49) (bytes : Bytes), (∀ w ∈ weights, w.Canonical) →
    qm31M31Dot4PreparedLimbs49Bytes (limbTable weights) bytes = some (slotDots weights bytes) ∧
      qm31M31Dot4PreparedLimbs49BytesTwoRows (limbTable weights) bytes = some (slotDots weights bytes)

theorem byte_kernels_exact : ByteKernelsExact where
  cm31_dot4_prepared_bytes _ _ bytes hw := complexBytes_exact hw bytes
  m31_dot4_prepared_bytes _ _ bytes hw hN := limbsBytes_exact hw hN bytes
  limbs_bytes _ _ bytes hw hN := limbsBytes_exact hw hN bytes
  limbs_4b_bytes _ _ bytes hw hN hmod hpos := by
    rw [limbs4b_eq_generic _ _ hmod hpos]
    exact limbsBytes_exact hw hN bytes
  limbs_4b1_bytes _ _ bytes hw hN hmod := by
    rw [limbs4b1_eq_generic _ _ hmod]
    exact limbsBytes_exact hw hN bytes
  limbs_4b2_bytes _ _ bytes hw hN hmod := by
    rw [limbs4b2_eq_generic _ _ hmod]
    exact limbsBytes_exact hw hN bytes
  limbs49_bytes _ bytes hw := by
    rw [limbs49_eq_generic]
    exact ⟨limbsBytes_exact hw (by decide) bytes, twoRows_exact hw bytes⟩

/-- Three columns: the last word of the string is the prime, so the kernel returns none. -/
theorem byte_kernels_exact_sample :
    qm31M31Dot4PreparedLimbsBytes (limbTable (Vector.replicate 3 QM31.one)) (zeros 44 ++ [255, 255, 255, 127]) =
      some none := by
  have h := byte_kernels_exact.limbs_bytes 3 (Vector.replicate 3 QM31.one) (zeros 44 ++ [255, 255, 255, 127]) (by
    intro w hw
    rw [(Vector.mem_replicate.mp hw).2]
    decide) (by decide)
  rw [h]
  unfold slotDots
  rw [if_neg (by decide)]

end Aspis.Core
