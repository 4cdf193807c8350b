import Aspis.Core.WeightKernels

/-! The prefix of the weights. Each component adds its covector to the output in its own way: by a tree
of products, by powers, by the lowest bit of the index or by its table. -/

namespace Aspis.Core

open Aspis.Lib.DualFold
open WeightAccumulator (trailingZeros)

/-- The list holds the first `n` values of a vector. -/
structure PrefixHolds (n : ℕ) (output : List QM31) (u : ℕ → QuarticField) : Prop where
  length : output.length = n
  entries : ∀ i < n, ∃ q, output[i]? = some q ∧ q.Denotes (u i)

theorem PrefixHolds.congr {n : ℕ} {output : List QM31} {u u' : ℕ → QuarticField} (h : PrefixHolds n output u)
    (heq : ∀ i < n, u i = u' i) : PrefixHolds n output u' := by
  refine ⟨h.length, fun i hi => ?_⟩
  rw [← heq i hi]
  exact h.entries i hi

theorem holds_zeros (n : ℕ) : PrefixHolds n (List.replicate n QM31.zero) fun _ => 0 := by
  refine ⟨List.length_replicate, fun i hi => ⟨QM31.zero, ?_, QM31.denotes_zero⟩⟩
  rw [List.getElem?_replicate, if_pos hi]

theorem PrefixHolds.set {n : ℕ} {output : List QM31} {u : ℕ → QuarticField} (h : PrefixHolds n output u) {index : ℕ}
    {value : QM31} {v : QuarticField} (hv : value.Denotes v) :
    PrefixHolds n (output.set index value) (Function.update u index v) := by
  refine ⟨by rw [List.length_set, h.length], fun i hi => ?_⟩
  by_cases heq : i = index
  · subst heq
    refine ⟨value, ?_, by rwa [Function.update_self]⟩
    rw [List.getElem?_set_self (by rw [h.length]; exact hi)]
  · rw [List.getElem?_set_ne (Ne.symm heq), Function.update_of_ne heq]
    exact h.entries i hi

theorem updateEach_holds {n : ℕ} {output : List QM31} {u u' : ℕ → QuarticField} {f : ℕ → QM31 → Option QM31}
    (h : PrefixHolds n output u) (hf : ∀ i < n, ∀ q : QM31, q.Denotes (u i) → ∃ q', f i q = some q' ∧ q'.Denotes (u' i)) :
    ∃ out, updateEach output f = some out ∧ PrefixHolds n out u' := by
  have hstep : ∀ entry ∈ output.zipIdx, ∃ q', f entry.2 entry.1 = some q' ∧ q'.Denotes (u' entry.2) := by
    intro entry hentry
    have hget := List.mem_zipIdx_iff_getElem?.mp hentry
    have hlt : entry.2 < n := by
      rw [← h.length]
      exact (List.getElem?_eq_some_iff.mp hget).1
    obtain ⟨q, hq, hd⟩ := h.entries entry.2 hlt
    rw [hget] at hq
    cases hq
    exact hf entry.2 hlt entry.1 hd
  obtain ⟨out, hout, hrelated⟩ := mapM_related hstep
  have hlength : out.length = n := by rw [← hrelated.length_eq, List.length_zipIdx, h.length]
  refine ⟨out, hout, hlength, fun i hi => ?_⟩
  have hi' : i < out.length := by rwa [hlength]
  have hidx : i < output.zipIdx.length := by rwa [List.length_zipIdx, h.length]
  have hpair := hrelated.get hidx hi'
  rw [List.get_eq_getElem, List.get_eq_getElem, List.getElem_zipIdx] at hpair
  dsimp only at hpair
  rw [Nat.zero_add] at hpair
  exact ⟨out[i], List.getElem?_eq_getElem hi', hpair⟩

/-- Adding the entries of one list to another. -/
theorem addValues_holds {n : ℕ} {output values : List QM31} {u w : ℕ → QuarticField} (h : PrefixHolds n output u)
    (hvalues : PrefixHolds n values w) :
    ∃ out, updateEach output (fun index old => (values[index]?).map old.add) = some out ∧
      PrefixHolds n out fun i => u i + w i := by
  apply updateEach_holds h
  intro i hi q hq
  obtain ⟨value, hvalue, hd⟩ := hvalues.entries i hi
  refine ⟨q.add value, ?_, hq.add hd⟩
  rw [hvalue]
  rfl

/-! ### Trees of products -/

theorem or_two_pow {k m : ℕ} : 2 ^ (k + 1) * m ||| 2 ^ k = 2 ^ (k + 1) * m + 2 ^ k :=
  (Nat.two_pow_add_eq_or_of_lt (Nat.pow_lt_pow_right (by decide) (Nat.lt_add_one k)) m).symm

theorem addProductPrefix_holds {n : ℕ} : ∀ {pairs : List (QM31 × QM31)} {m : ℕ} {value : QM31} {v : QuarticField}
    {output : List QM31} {u : ℕ → QuarticField}, (∀ pair ∈ pairs, pair.1.Canonical ∧ pair.2.Canonical) →
    value.Denotes v → 2 ^ pairs.length * m < n → PrefixHolds n output u →
    ∃ out, addProductPrefix n output pairs (2 ^ pairs.length * m) value = some out ∧
      PrefixHolds n out fun i =>
        if i / 2 ^ pairs.length = m then u i + v * bitProduct (factorsOf productFactor pairs) pairs.length i else u i
  | [], m, value, v, output, u, _, hv, hm, h => by
    rw [List.length_nil, pow_zero, one_mul] at hm ⊢
    obtain ⟨old, hold, hd⟩ := h.entries m hm
    refine ⟨output.set m (old.add value), ?_, ?_⟩
    · rw [addProductPrefix, hold]
      rfl
    · apply (h.set (hd.add hv)).congr
      intro i _
      rw [Nat.div_one]
      by_cases heq : i = m
      · rw [heq, Function.update_self, if_pos rfl, bitProduct, Finset.prod_range_zero, mul_one]
      · rw [Function.update_of_ne heq, if_neg heq]
  | pair :: rest, m, value, v, output, u, hpairs, hv, hm, h => by
    have hpair := hpairs pair List.mem_cons_self
    have hrest : ∀ p ∈ rest, p.1.Canonical ∧ p.2.Canonical := fun p hp => hpairs p (List.mem_cons_of_mem pair hp)
    have hindex : 2 ^ (rest.length + 1) * m = 2 ^ rest.length * (2 * m) := by rw [pow_succ, mul_assoc]
    have hone : 2 ^ rest.length * (2 * m) + 2 ^ rest.length = 2 ^ rest.length * (2 * m + 1) := by
      rw [Nat.mul_add, Nat.mul_one]
    rw [List.length_cons] at hm ⊢
    rw [hindex] at hm
    obtain ⟨mid, hmid, hzero⟩ := addProductPrefix_holds hrest (hv.mul hpair.1.denotes) hm h
    rw [addProductPrefix, or_two_pow, hindex, hone, hmid, Option.bind_eq_bind, Option.bind_some]
    dsimp only
    have hsplit : ∀ i, bitProduct (factorsOf productFactor (pair :: rest)) (rest.length + 1) i =
        productFactor pair (i.testBit rest.length) * bitProduct (factorsOf productFactor rest) rest.length i :=
      bitProduct_factorsOf_cons productFactor pair rest
    have hhalf : ∀ i, i / 2 ^ (rest.length + 1) = i / 2 ^ rest.length / 2 := by
      intro i
      rw [pow_succ, Nat.div_div_eq_div_mul]
    have hbit : ∀ i, i.testBit rest.length = decide (i / 2 ^ rest.length % 2 = 1) := by
      intro i
      rw [Nat.testBit_eq_decide_div_mod_eq]
    by_cases hlt : 2 ^ rest.length * (2 * m + 1) < n
    · rw [if_pos hlt]
      obtain ⟨out, hout, htotal⟩ := addProductPrefix_holds hrest (hv.mul hpair.2.denotes) hlt hzero
      refine ⟨out, hout, htotal.congr fun i _ => ?_⟩
      rw [hsplit, hhalf, hbit]
      by_cases heven : i / 2 ^ rest.length = 2 * m
      · rw [if_neg (by omega), if_pos heven, if_pos (by omega), productFactor, if_neg (by rw [heven]; simp)]
        ring
      · by_cases hodd : i / 2 ^ rest.length = 2 * m + 1
        · rw [if_pos hodd, if_neg heven, if_pos (by omega), productFactor, if_pos (by rw [hodd]; simp)]
          ring
        · rw [if_neg hodd, if_neg heven, if_neg (by omega)]
    · rw [if_neg hlt]
      refine ⟨mid, rfl, hzero.congr fun i hi => ?_⟩
      -- the positions of the branch not taken lie past the end
      have hbelow : i / 2 ^ rest.length < 2 * m + 1 := by
        rw [Nat.div_lt_iff_lt_mul (Nat.two_pow_pos _), mul_comm]
        omega
      rw [hsplit, hhalf, hbit]
      by_cases heven : i / 2 ^ rest.length = 2 * m
      · rw [if_pos heven, if_pos (by omega), productFactor, if_neg (by rw [heven]; simp)]
        ring
      · rw [if_neg heven, if_neg (by omega)]

/-- The whole tree adds the product over all bits. -/
theorem productPrefix_holds {n : ℕ} {pairs : List (QM31 × QM31)} {scale : QM31} {output : List QM31}
    {u : ℕ → QuarticField} (hpairs : ∀ pair ∈ pairs, pair.1.Canonical ∧ pair.2.Canonical) (hs : scale.Canonical)
    (hpos : 1 ≤ n) (hn : n ≤ 2 ^ pairs.length) (h : PrefixHolds n output u) :
    ∃ out, addProductPrefix n output pairs 0 scale = some out ∧
      PrefixHolds n out fun i => u i + scale.value * bitProduct (factorsOf productFactor pairs) pairs.length i := by
  obtain ⟨out, hout, hholds⟩ := @addProductPrefix_holds n pairs 0 scale _ output u hpairs hs.denotes
    (by rw [mul_zero]; exact hpos) h
  rw [mul_zero] at hout
  refine ⟨out, hout, hholds.congr fun i hi => ?_⟩
  rw [if_pos (Nat.div_eq_of_lt (hi.trans_le hn))]

/-! ### Powers -/

theorem addGeometricPrefix_holds {n : ℕ} {output : List QM31} {u : ℕ → QuarticField} {scale base : QM31}
    (hs : scale.Canonical) (hb : base.Canonical) (h : PrefixHolds n output u) :
    PrefixHolds n (addGeometricPrefix scale base output) fun i => u i + scale.value * base.value ^ i := by
  -- the positions done so far hold the sum, and the value beside them is the next power
  have hloop : ∀ k ≤ n, PrefixHolds k (((output.take k).foldl (fun (state : List QM31 × QM31) old =>
        (state.1 ++ [old.add state.2], state.2.mul base)) ([], scale)).1) (fun i => u i + scale.value * base.value ^ i) ∧
      (((output.take k).foldl (fun (state : List QM31 × QM31) old =>
        (state.1 ++ [old.add state.2], state.2.mul base)) ([], scale)).2).Denotes (scale.value * base.value ^ k) := by
    intro k
    induction k with
    | zero =>
      intro _
      rw [List.take_zero, pow_zero, mul_one]
      exact ⟨⟨rfl, fun i hi => absurd hi (Nat.not_lt_zero i)⟩, hs.denotes⟩
    | succ k ih =>
      intro hk
      obtain ⟨hdone, hvalue⟩ := ih (by omega)
      obtain ⟨q, hq, hd⟩ := h.entries k hk
      rw [List.take_add_one, hq, Option.toList_some, List.foldl_append]
      dsimp only [List.foldl_cons, List.foldl_nil]
      refine ⟨⟨by rw [List.length_append, hdone.length, List.length_singleton], fun i hi => ?_⟩, ?_⟩
      · by_cases heq : i = k
        · rw [heq]
          refine ⟨_, ?_, hd.add hvalue⟩
          rw [List.getElem?_append_right (by rw [hdone.length]), hdone.length, Nat.sub_self]
          rfl
        · have hlt : i < k := by omega
          rw [List.getElem?_append_left (by rw [hdone.length]; exact hlt)]
          exact hdone.entries i hlt
      · have hnext := hvalue.mul hb.denotes
        rwa [mul_assoc, ← pow_succ] at hnext
  have hall := (hloop n le_rfl).1
  rw [List.take_of_length_le (by rw [h.length])] at hall
  exact hall

/-! ### The lowest bit -/

theorem trailingZeros_lowest {n : ℕ} : n ≠ 0 →
    n.testBit (trailingZeros n) = true ∧ ∀ j < trailingZeros n, n.testBit j = false := by
  fun_induction trailingZeros n with
  | case1 => exact fun h => absurd rfl h
  | case2 n hn hodd =>
    intro _
    exact ⟨by rw [Nat.testBit_zero, hodd]; rfl, fun j hj => absurd hj (Nat.not_lt_zero j)⟩
  | case3 n hn heven ih =>
    intro _
    obtain ⟨hset, hlow⟩ := ih (by omega)
    refine ⟨by rwa [Nat.testBit_succ], fun j hj => ?_⟩
    cases j with
    | zero =>
      rw [Nat.testBit_zero]
      simp only [decide_eq_false_iff_not]
      exact heven
    | succ j =>
      rw [Nat.testBit_succ]
      exact hlow j (by omega)

theorem lt_of_testBit {i bit bits : ℕ} (hbit : i.testBit bit = true) (hi : i < 2 ^ bits) : bit < bits := by
  by_contra hge
  rw [Nat.testBit_lt_two_pow (hi.trans_le (Nat.pow_le_pow_right (by decide) (not_lt.mp hge)))] at hbit
  cases hbit

theorem testBit_xor_two_pow (i bit j : ℕ) :
    (i ^^^ 2 ^ bit).testBit j = if j = bit then !i.testBit j else i.testBit j := by
  rw [Nat.testBit_xor, Nat.testBit_two_pow]
  by_cases h : j = bit
  · simp [h]
  · rw [if_neg h, decide_eq_false (Ne.symm h), Bool.xor_false]

/-- Without its lowest bit an index is smaller. -/
theorem xor_two_pow_lt {i bit : ℕ} (hbit : i.testBit bit = true) : i ^^^ 2 ^ bit < i := by
  apply Nat.lt_of_testBit bit
  · rw [testBit_xor_two_pow, if_pos rfl, hbit]
    rfl
  · exact hbit
  · intro j hj
    rw [testBit_xor_two_pow, if_neg (by omega)]

/-- A product over the bits loses the factor of the bit that is cleared. -/
theorem bitProduct_clear {f : ℕ → Bool → QuarticField} {bits i bit : ℕ} (hzero : f bit false = 1)
    (hbit : i.testBit bit = true) (hlt : bit < bits) :
    bitProduct f bits i = bitProduct f bits (i ^^^ 2 ^ bit) * f bit true := by
  have hmem : bit ∈ Finset.range bits := Finset.mem_range.mpr hlt
  unfold bitProduct
  rw [← Finset.mul_prod_erase _ _ hmem, ← Finset.mul_prod_erase _ _ hmem, testBit_xor_two_pow, if_pos rfl, hbit]
  have hrest : ∏ b ∈ (Finset.range bits).erase bit, f b ((i ^^^ 2 ^ bit).testBit b) =
      ∏ b ∈ (Finset.range bits).erase bit, f b (i.testBit b) := by
    refine Finset.prod_congr rfl fun b hb => ?_
    rw [testBit_xor_two_pow, if_neg (Finset.ne_of_mem_erase hb)]
  rw [hrest, Bool.not_true, hzero, one_mul, mul_comm]

theorem bitProduct_zero_index {f : ℕ → Bool → QuarticField} {bits : ℕ} (hzero : ∀ b < bits, f b false = 1) :
    bitProduct f bits 0 = 1 := by
  unfold bitProduct
  refine Finset.prod_eq_one fun b hb => ?_
  rw [Nat.zero_testBit]
  exact hzero b (Finset.mem_range.mp hb)

theorem prefixValues_holds {n bits : ℕ} {scale : QM31} {step : QM31 → ℕ → Option QM31}
    {f : ℕ → Bool → QuarticField} (hs : scale.Canonical) (hzero : ∀ b < bits, f b false = 1)
    (hstep : ∀ (before : QM31) (x : QuarticField) (bit : ℕ), before.Denotes x → bit < bits →
      ∃ q, step before bit = some q ∧ q.Denotes (x * f bit true))
    (hpos : 1 ≤ n) (hn : n ≤ 2 ^ bits) :
    ∃ values, prefixValues n scale step = some values ∧ PrefixHolds n values fun i => scale.value * bitProduct f bits i := by
  -- after `k` steps the first `k + 1` values are in place
  have hloop : ∀ k, k + 1 ≤ n → ∃ values, (List.range' 1 k).foldlM (fun values index => do
        let bit := trailingZeros index
        let before ← values[index ^^^ 2 ^ bit]?
        let value ← step before bit
        return values.set index value) ((List.replicate n QM31.zero).set 0 scale) = some values ∧
      values.length = n ∧ PrefixHolds (k + 1) (values.take (k + 1)) fun i => scale.value * bitProduct f bits i := by
    intro k
    induction k with
    | zero =>
      intro _
      refine ⟨_, rfl, by rw [List.length_set, List.length_replicate], ?_, ?_⟩
      · rw [List.length_take, List.length_set, List.length_replicate]
        omega
      · intro i hi
        obtain rfl : i = 0 := by omega
        refine ⟨scale, ?_, ?_⟩
        · rw [List.getElem?_take_of_lt Nat.zero_lt_one,
            List.getElem?_set_self (by rw [List.length_replicate]; exact hpos)]
        · rw [bitProduct_zero_index hzero, mul_one]
          exact hs.denotes
    | succ k ih =>
      intro hk
      obtain ⟨values, hvalues, hlength, hdone⟩ := ih (by omega)
      obtain ⟨hset, -⟩ := trailingZeros_lowest (Nat.succ_ne_zero k)
      have hbit : trailingZeros (k + 1) < bits := lt_of_testBit hset (by omega)
      have hbefore := xor_two_pow_lt hset
      obtain ⟨before, hget, hd⟩ := hdone.entries _ hbefore
      rw [List.getElem?_take_of_lt hbefore] at hget
      obtain ⟨value, hvalue, hdvalue⟩ := hstep before _ _ hd hbit
      rw [mul_assoc, ← bitProduct_clear (hzero _ hbit) hset hbit] at hdvalue
      refine ⟨values.set (k + 1) value, ?_, by rw [List.length_set, hlength], ?_, ?_⟩
      · rw [List.range'_1_concat, List.foldlM_append, hvalues, Nat.add_comm 1 k]
        simp only [Option.bind_eq_bind, Option.bind_some, List.foldlM_cons, List.foldlM_nil]
        rw [hget]
        simp only [Option.bind_some]
        rw [hvalue]
        rfl
      · rw [List.length_take, List.length_set, hlength]
        omega
      · intro i hi
        rw [List.getElem?_take_of_lt hi]
        by_cases heq : i = k + 1
        · rw [heq, List.getElem?_set_self (by omega)]
          exact ⟨value, rfl, hdvalue⟩
        · have hlt : i < k + 1 := by omega
          obtain ⟨q, hq, hdq⟩ := hdone.entries i hlt
          rw [List.getElem?_take_of_lt hlt] at hq
          rw [List.getElem?_set_ne (Ne.symm heq)]
          exact ⟨q, hq, hdq⟩
  obtain ⟨values, hvalues, hlength, hdone⟩ := hloop (n - 1) (by omega)
  rw [Nat.sub_add_cancel hpos, List.take_of_length_le (by rw [hlength])] at hdone
  exact ⟨values, hvalues, hdone⟩

/-! ### The components -/

theorem lineFactorsM31_get {x : M31} {v : BaseField} (hx : x.Denotes v) :
    ∀ {count bit : ℕ}, bit < count → ∃ factor, (lineFactorsM31 x count)[bit]? = some factor ∧
      factor.Denotes (lineMap^[bit] v) := by
  intro count
  induction count generalizing x v with
  | zero => exact fun h => absurd h (Nat.not_lt_zero _)
  | succ count ih =>
    intro bit hbit
    cases bit with
    | zero => exact ⟨x, rfl, hx⟩
    | succ bit =>
      obtain ⟨factor, hget, hd⟩ := @ih _ _ (denotes_doubleXM31 hx) bit (Nat.lt_of_succ_lt_succ hbit)
      refine ⟨factor, ?_, hd⟩
      rw [lineFactorsM31, List.getElem?_cons_succ]
      exact hget

theorem linePrefix_holds {logLen n : ℕ} {scale : QM31} {x : M31} (hs : scale.Canonical) (hx : x.Canonical)
    (hpos : 1 ≤ n) (hn : n ≤ 2 ^ logLen) : ∃ values, linePrefix logLen n scale x = some values ∧
      PrefixHolds n values fun i => scale.value * bitProduct (lineFactor x.value) logLen i := by
  apply prefixValues_holds hs
  · intro b _
    exact if_neg Bool.false_ne_true
  · intro before v bit hbefore hbit
    obtain ⟨factor, hget, hd⟩ := lineFactorsM31_get hx.denotes hbit
    refine ⟨before.mulM31 factor, by rw [hget]; rfl, ?_⟩
    rw [lineFactor, if_pos rfl]
    exact denotes_mulM31 hbefore hd
  · exact hpos
  · exact hn

theorem tensorPrefix_holds {n : ℕ} {scale : QM31} {factors : List QM31} (hs : scale.Canonical)
    (hf : ∀ z ∈ factors, z.Canonical) (hpos : 1 ≤ n) (hn : n ≤ 2 ^ factors.length) :
    ∃ values, prefixValues n scale (fun before bit =>
        if factors.length < 1 + bit then none else (factors[factors.length - 1 - bit]?).map before.mul) = some values ∧
      PrefixHolds n values fun i => scale.value * bitProduct (factorsOf tensorFactor factors) factors.length i := by
  apply prefixValues_holds hs
  · intro b _
    rw [factorsOf]
    cases factors.reverse[b]? with
    | none => rfl
    | some z => rfl
  · intro before v bit hbefore hbit
    have hlt : factors.length - 1 - bit < factors.length := by omega
    refine ⟨before.mul factors[factors.length - 1 - bit], ?_, ?_⟩
    · rw [if_neg (by omega), List.getElem?_eq_getElem hlt]
      rfl
    · rw [factorsOf, List.getElem?_reverse hbit, List.getElem?_eq_getElem hlt]
      exact hbefore.mul (hf _ (List.getElem_mem hlt)).denotes
  · exact hpos
  · exact hn

/-- The sums of a batch, line by line. -/
theorem batchPrefix_holds {logLen n : ℕ} (hpos : 1 ≤ n) (hn : n ≤ 2 ^ logLen) :
    ∀ {lines : List (QM31 × M31)} {sums : List QM31} {u : ℕ → QuarticField},
      (∀ line ∈ lines, CanonicalLine line) → PrefixHolds n sums u →
      ∃ out, lines.foldlM (fun sums line => do
          let values ← linePrefix logLen n line.1 line.2
          updateEach sums fun index old => (values[index]?).map old.add) sums = some out ∧
        PrefixHolds n out fun i => u i + lineSum logLen lines i
  | [], sums, u, _, h => by
    refine ⟨sums, rfl, h.congr fun i _ => ?_⟩
    rw [lineSum, List.map_nil, List.sum_nil, add_zero]
  | line :: lines, sums, u, hlines, h => by
    have hline := hlines line List.mem_cons_self
    obtain ⟨values, hvalues, hholds⟩ := linePrefix_holds hline.1 hline.2 hpos hn
    obtain ⟨next, hnext, hsum⟩ := addValues_holds h hholds
    obtain ⟨out, hout, htotal⟩ := batchPrefix_holds hpos hn (fun l hl => hlines l (List.mem_cons_of_mem line hl)) hsum
    refine ⟨out, ?_, htotal.congr fun i _ => ?_⟩
    · rw [List.foldlM_cons, hvalues, Option.bind_eq_bind, Option.bind_some, hnext]
      exact hout
    · rw [lineSum, lineSum, List.map_cons, List.sum_cons, add_assoc]

/-- A loop that adds at each position a value which denotes the covector. -/
theorem updateEach_represents {logLen n : ℕ} {component : WeightComponent} {w u : ℕ → QuarticField}
    {output : List QM31} {f : ℕ → QM31 → Option QM31} (hrep : Represents logLen component w) (hn : n ≤ 2 ^ logLen)
    (h : PrefixHolds n output u)
    (hf : ∀ i < n, ∀ old value, component.weightAt logLen i = some value → f i old = some (old.add value)) :
    ∃ out, updateEach output f = some out ∧ PrefixHolds n out fun i => u i + w i := by
  apply updateEach_holds h
  intro i hi old hold
  obtain ⟨value, hvalue, hd⟩ := hrep i (hi.trans_le hn)
  exact ⟨old.add value, hf i hi old value hvalue, hold.add hd⟩

/-- Both grouped tables read the same entry: the width is a power of two. -/
theorem groupedPrefix_step {rowGroups : List ℕ} {groupValues : List QM31} {k i : ℕ} (old value : QM31)
    (h : groupedWeightAt rowGroups groupValues (2 ^ k) i = some value) :
    (do
      let group ← rowGroups[i / 2 ^ k]?
      let value ← groupValues[group * 2 ^ k + i % 2 ^ k]?
      return old.add value) = some (old.add value) := by
  rw [groupedWeightAt, Nat.and_two_pow_sub_one_eq_mod] at h
  obtain ⟨group, hgroup, hvalue⟩ := Option.bind_eq_some_iff.mp h
  rw [hgroup, Option.bind_eq_bind, Option.bind_some, hvalue]
  rfl

theorem deferredPrefix_holds {logLen n : ℕ} {rowGroups : List ℕ} {groupMasks : List UInt16} {firstAlpha : Option QM31}
    {groupValues output : List QM31} {u w : ℕ → QuarticField}
    (h : DeferredShape logLen rowGroups groupMasks firstAlpha groupValues)
    (hrep : Represents logLen (.grouped64x16BinaryDeferred rowGroups groupMasks firstAlpha groupValues) w)
    (hn : n ≤ 2 ^ logLen) (hout : PrefixHolds n output u) :
    ∃ out, addDeferredPrefix logLen rowGroups groupMasks firstAlpha groupValues output = some out ∧
      PrefixHolds n out fun i => u i + w i := by
  rcases h with ⟨rfl, rfl, hmasks⟩ | ⟨rfl, ⟨alpha, rfl, ha⟩, hmasks⟩ | ⟨hL, rfl, htable⟩
  · -- a bit that is not set leaves the output as it is
    rw [addDeferredPrefix]
    apply updateEach_holds hout
    intro i hi old hold
    obtain ⟨hgroup, hmask⟩ := @MaskShape.get _ _ hmasks (i / 16) (by omega)
    obtain ⟨value, hvalue, hd⟩ := hrep i (hi.trans_le hn)
    rw [WeightComponent.weightAt, grouped64x16BinaryDeferredWeightAtLog10, hgroup, Option.bind_eq_bind,
      Option.bind_some, hmask] at hvalue
    rw [hgroup, Option.bind_eq_bind, Option.bind_some, hmask]
    refine ⟨_, rfl, ?_⟩
    obtain rfl := Option.some.inj hvalue
    split
    · rename_i hbit
      rw [if_pos hbit] at hd
      exact hold.add hd
    · rename_i hbit
      rw [if_neg hbit] at hd
      have hzero : w i = 0 := hd.value_eq.symm.trans QM31.denotes_zero.value_eq
      rw [hzero, add_zero]
      exact hold
  · rw [addDeferredPrefix, Option.bind_eq_bind, Option.bind_some]
    apply updateEach_represents hrep hn hout
    intro i hi old value hvalue
    obtain ⟨hgroup, hmask⟩ := @MaskShape.get _ _ hmasks (i / 4) (by omega)
    rw [WeightComponent.weightAt, Option.bind_eq_bind, Option.bind_some, hgroup, Option.bind_eq_bind, Option.bind_some,
      hmask] at hvalue
    obtain rfl := Option.some.inj hvalue
    rw [hgroup, Option.bind_eq_bind, Option.bind_some, hmask]
    rfl
  · have hread : ∀ i < n, ∀ old value : QM31,
        WeightComponent.weightAt logLen i (.grouped64x16BinaryDeferred rowGroups groupMasks none groupValues) = some value →
        (do
          let group ← rowGroups[i]?
          let value ← groupValues[group]?
          return old.add value) = some (old.add value) := by
      intro i _ old value hvalue
      have hlookup : (rowGroups[i]?.bind fun group => groupValues[group]?) = some value := by
        rcases hL with rfl | rfl | rfl <;> exact hvalue
      obtain ⟨group, hgroup, hentry⟩ := Option.bind_eq_some_iff.mp hlookup
      rw [hgroup, Option.bind_eq_bind, Option.bind_some, hentry]
      rfl
    rcases hL with rfl | rfl | rfl <;> exact updateEach_represents hrep hn hout hread

theorem multilinearPairs_canonical {point : List QM31} (hp : ∀ z ∈ point, z.Canonical) :
    ∀ pair ∈ point.map fun z => (QM31.one.sub z, z), pair.1.Canonical ∧ pair.2.Canonical := by
  intro pair hpair
  obtain ⟨z, hz, rfl⟩ := List.mem_map.mp hpair
  exact ⟨(QM31.denotes_one.sub (hp z hz).denotes).canonical, hp z hz⟩

/-- The pairs of a point have the factors of the point. -/
theorem factorsOf_multilinearPairs {point : List QM31} (hp : ∀ z ∈ point, z.Canonical) (b : ℕ) (bit : Bool) :
    factorsOf productFactor (point.map fun z => (QM31.one.sub z, z)) b bit = factorsOf multilinearFactor point b bit := by
  rw [factorsOf, factorsOf, ← List.map_reverse, List.getElem?_map]
  cases hget : point.reverse[b]? with
  | none => rw [Option.map_none, Option.map_none, Option.map_none]
  | some z =>
    have hz := hp z (List.mem_reverse.mp (List.mem_of_getElem? hget))
    have hsub : (QM31.one.sub z).value = 1 - z.value := (QM31.denotes_one.sub hz.denotes).value_eq
    rw [Option.map_some, Option.map_some, Option.map_some, Option.getD_some, Option.getD_some, productFactor,
      multilinearFactor, hsub]

theorem bitProduct_multilinearPairs {point : List QM31} (hp : ∀ z ∈ point, z.Canonical) (i : ℕ) :
    bitProduct (factorsOf productFactor (point.map fun z => (QM31.one.sub z, z)))
      (point.map fun z => (QM31.one.sub z, z)).length i = bitProduct (factorsOf multilinearFactor point) point.length i := by
  rw [List.length_map, bitProduct, bitProduct]
  exact Finset.prod_congr rfl fun b _ => factorsOf_multilinearPairs hp b _

/-- Each component adds its covector to the output. -/
theorem WeightComponent.Shape.addPrefix_holds {logLen n : ℕ} {component : WeightComponent} (hL : logLen < 32)
    (h : component.Shape logLen) (hpos : 1 ≤ n) (hn : n ≤ 2 ^ logLen) {output : List QM31} {u : ℕ → QuarticField}
    (hout : PrefixHolds n output u) : ∃ out, component.addPrefix logLen n output = some out ∧
      PrefixHolds n out fun i => u i + component.covector logLen i := by
  have hrep := h.covector hL
  -- what is shown of a covector the component stands for holds of its own
  have hgoal : ∀ w, Represents logLen component w → (∃ out, component.addPrefix logLen n output = some out ∧
      PrefixHolds n out fun i => u i + w i) → ∃ out, component.addPrefix logLen n output = some out ∧
      PrefixHolds n out fun i => u i + component.covector logLen i := by
    rintro w hw ⟨out, hadded, hholds⟩
    refine ⟨out, hadded, hholds.congr fun i hi => ?_⟩
    rw [hw.covector_eq (hi.trans_le hn)]
  cases component with
  | geometric scale base =>
    exact hgoal _ (geometric_represents h.1 h.2 hL) ⟨_, rfl, addGeometricPrefix_holds h.1 h.2 hout⟩
  | multilinear scale point =>
    obtain ⟨hs, hp, rfl⟩ := h
    apply hgoal _ (multilinear_represents hs hp)
    obtain ⟨out, hadded, hholds⟩ := productPrefix_holds (multilinearPairs_canonical hp) hs hpos
      (by rwa [List.length_map]) hout
    refine ⟨out, hadded, hholds.congr fun i _ => ?_⟩
    rw [bitProduct_multilinearPairs hp]
  | tensor scale factors =>
    obtain ⟨hs, hf, rfl⟩ := h
    apply hgoal _ (tensor_represents hs hf)
    obtain ⟨values, hvalues, hholds⟩ := tensorPrefix_holds hs hf hpos hn
    rw [WeightComponent.addPrefix, hvalues]
    exact addValues_holds hout hholds
  | lineM31Tensor scale x =>
    apply hgoal _ (lineM31Tensor_represents h.1 h.2)
    obtain ⟨values, hvalues, hholds⟩ := linePrefix_holds h.1 h.2 hpos hn
    rw [WeightComponent.addPrefix, hvalues]
    exact addValues_holds hout hholds
  | lineM31Batch scales xs halvings =>
    apply hgoal _ (lineM31Batch_represents h.1)
    obtain ⟨sums, hsums, hholds⟩ := batchPrefix_holds hpos hn h.1 (holds_zeros n)
    rw [WeightComponent.addPrefix, hsums, Option.bind_eq_bind, Option.bind_some]
    apply updateEach_holds hout
    intro i hi old hold
    obtain ⟨sum, hsum, hd⟩ := hholds.entries i hi
    rw [zero_add] at hd
    refine ⟨_, by rw [hsum]; rfl, hold.add (halveQm31_denotes hd halvings)⟩
  | product scale pairs =>
    obtain ⟨hs, hp, rfl⟩ := h
    exact hgoal _ (product_represents hs hp) (productPrefix_holds hp hs hpos hn hout)
  | dense values =>
    rw [WeightComponent.addPrefix]
    apply updateEach_represents hrep hn hout
    intro i _ old value hvalue
    have hget : values[i]? = some value := hvalue
    rw [hget]
    rfl
  | grouped64x16 rowGroups groupValues lowWidth =>
    obtain ⟨⟨rfl, rfl⟩ | ⟨rfl, rfl⟩, -⟩ := h
    · exact updateEach_represents hrep hn hout fun i _ old value hvalue => @groupedPrefix_step _ _ 4 i old value hvalue
    · exact updateEach_represents hrep hn hout fun i _ old value hvalue => @groupedPrefix_step _ _ 2 i old value hvalue
  | grouped64x16BinaryDeferred rowGroups groupMasks firstAlpha groupValues =>
    exact deferredPrefix_holds h hrep hn hout
  | grouped128x16 rowGroups groupValues lowWidth =>
    obtain ⟨⟨rfl, rfl⟩ | ⟨rfl, rfl⟩, -⟩ := h
    · exact updateEach_represents hrep hn hout fun i _ old value hvalue => @groupedPrefix_step _ _ 4 i old value hvalue
    · exact updateEach_represents hrep hn hout fun i _ old value hvalue => @groupedPrefix_step _ _ 2 i old value hvalue

theorem addPrefixes_hold {logLen n : ℕ} (hL : logLen < 32) (hpos : 1 ≤ n) (hn : n ≤ 2 ^ logLen) :
    ∀ {components : List WeightComponent} {output : List QM31} {u : ℕ → QuarticField},
      (∀ component ∈ components, component.Shape logLen) → PrefixHolds n output u →
      ∃ out, components.foldlM (fun output component => component.addPrefix logLen n output) output = some out ∧
        PrefixHolds n out fun i => u i + (components.map fun component => component.covector logLen i).sum
  | [], output, u, _, h => by
    refine ⟨output, rfl, h.congr fun i _ => ?_⟩
    rw [List.map_nil, List.sum_nil, add_zero]
  | component :: components, output, u, hshape, h => by
    obtain ⟨mid, hmid, hholds⟩ := (hshape component List.mem_cons_self).addPrefix_holds hL hpos hn h
    obtain ⟨out, hout, htotal⟩ := addPrefixes_hold hL hpos hn
      (fun c hc => hshape c (List.mem_cons_of_mem component hc)) hholds
    refine ⟨out, ?_, htotal.congr fun i _ => ?_⟩
    · rw [List.foldlM_cons, hmid]
      exact hout
    · rw [List.map_cons, List.sum_cons, add_assoc]

/-- The prefix is the list of the first weights. -/
theorem WeightAccumulator.Shape.weightPrefix_eq {weights : WeightAccumulator} (h : weights.Shape) {n : ℕ}
    (hpos : 1 ≤ n) (hn : n ≤ 2 ^ weights.logLen) :
    ∃ values, weights.weightPrefix n = some values ∧ values.length = n ∧
      ∀ i < n, ∃ q, values[i]? = some q ∧ weights.weightAt i = some q := by
  obtain ⟨values, hvalues, hholds⟩ := addPrefixes_hold h.small hpos hn h.components (holds_zeros n)
  refine ⟨values, hvalues, hholds.length, fun i hi => ?_⟩
  obtain ⟨q, hq, hd⟩ := hholds.entries i hi
  obtain ⟨weight, hweight, hdweight⟩ := weightAt_denotes h (hi.trans_le hn)
  rw [zero_add] at hd
  rw [← hd.eq hdweight] at hweight
  exact ⟨q, hq, hweight⟩

end Aspis.Core
