import Aspis.Core.WeightPrefix

/-! An interval of indices as a union of aligned blocks. The block at a position is the largest power of
two that divides the position and fits into the rest, and its product is the indicator of the block. -/

namespace Aspis.Core

open Aspis.Lib.DualFold
open WeightAccumulator (trailingZeros fitBlock intervalBlock subcubePairs addIntervalFrom)

/-! ### Blocks -/

theorem fitBlock_two_pow {remaining : ℕ} (hpos : 1 ≤ remaining) :
    ∀ a, ∃ k ≤ a, fitBlock (2 ^ a) remaining = 2 ^ k ∧ 2 ^ k ≤ remaining
  | 0 => by
    refine ⟨0, le_rfl, ?_, hpos⟩
    rw [fitBlock, if_neg (by rw [pow_zero]; omega)]
  | a + 1 => by
    rw [fitBlock]
    by_cases hfit : remaining < 2 ^ (a + 1)
    · obtain ⟨k, hk, hblock, hle⟩ := fitBlock_two_pow hpos a
      refine ⟨k, by omega, ?_, hle⟩
      rw [if_pos ⟨hfit, Nat.two_pow_pos _⟩, pow_succ, Nat.mul_div_cancel _ (by decide)]
      exact hblock
    · exact ⟨a + 1, le_rfl, if_neg fun h => hfit h.1, not_lt.mp hfit⟩

theorem trailingZeros_two_pow : ∀ k, trailingZeros (2 ^ k) = k
  | 0 => by
    rw [trailingZeros]
    rfl
  | k + 1 => by
    have hpos := Nat.two_pow_pos k
    have hhalf : 2 ^ (k + 1) / 2 = 2 ^ k := by omega
    rw [trailingZeros, if_neg (by omega), if_neg (by omega), hhalf, trailingZeros_two_pow k]

theorem two_pow_trailingZeros_dvd {n : ℕ} (hn : n ≠ 0) : 2 ^ trailingZeros n ∣ n := by
  obtain ⟨-, hlow⟩ := trailingZeros_lowest hn
  rw [Nat.dvd_iff_mod_eq_zero]
  apply Nat.eq_of_testBit_eq
  intro j
  rw [Nat.testBit_mod_two_pow, Nat.zero_testBit]
  by_cases hj : j < trailingZeros n
  · rw [hlow j hj, Bool.and_false]
  · rw [decide_eq_false hj, Bool.false_and]

/-- Bits below the lowest one are set in the predecessor, bits above it are kept. -/
theorem testBit_pred {n j : ℕ} (hn : n ≠ 0) :
    (n - 1).testBit j = if j = trailingZeros n then false else if j < trailingZeros n then true else n.testBit j := by
  obtain ⟨hset, hlow⟩ := trailingZeros_lowest hn
  obtain ⟨m, hm⟩ := two_pow_trailingZeros_dvd hn
  generalize htz : trailingZeros n = k at *
  have hodd : n / 2 ^ k % 2 = 1 := by
    rw [Nat.testBit_eq_decide_div_mod_eq] at hset
    exact of_decide_eq_true hset
  have hpos := Nat.two_pow_pos k
  rw [hm, Nat.mul_div_cancel_left _ hpos] at hodd
  obtain ⟨t, rfl⟩ : ∃ t, m = 2 * t + 1 := ⟨m / 2, by omega⟩
  have hpred : n - 1 = 2 ^ (k + 1) * t + (2 ^ k - 1) := by
    rw [hm, pow_succ]
    have hexpand : 2 ^ k * (2 * t + 1) = 2 ^ k * 2 * t + 2 ^ k := by ring
    omega
  have hn' : n = 2 ^ (k + 1) * t + 2 ^ k := by
    rw [hm, pow_succ]
    ring
  have hsmall : 2 ^ k < 2 ^ (k + 1) := Nat.pow_lt_pow_right (by decide) (Nat.lt_add_one k)
  rw [hpred, Nat.testBit_two_pow_mul_add _ (by omega)]
  by_cases hj : j < k + 1
  · rw [if_pos hj, Nat.testBit_two_pow_sub_one]
    by_cases heq : j = k
    · rw [if_pos heq, heq, decide_eq_false (lt_irrefl k)]
    · rw [if_neg heq, if_pos (by omega), decide_eq_true (by omega)]
  · rw [if_neg hj, if_neg (by omega), if_neg (by omega), hn', Nat.testBit_two_pow_mul_add _ hsmall, if_neg hj]

/-- The lowest bit of a word by its negation. -/
theorem and_neg_word {n : ℕ} (hn : n ≠ 0) (hlt : n < 2 ^ 64) : n &&& (2 ^ 64 - n) = 2 ^ trailingZeros n := by
  obtain ⟨hset, hlow⟩ := trailingZeros_lowest hn
  have hsmall : n - 1 < 2 ^ 64 := by omega
  apply Nat.eq_of_testBit_eq
  intro j
  have hneg : (2 ^ 64 - n).testBit j = (decide (j < 64) && !(n - 1).testBit j) := by
    have h := Nat.testBit_two_pow_sub_succ hsmall j
    rwa [Nat.sub_add_cancel (Nat.one_le_iff_ne_zero.mpr hn)] at h
  rw [Nat.testBit_and, hneg, testBit_pred hn, Nat.testBit_two_pow]
  by_cases heq : j = trailingZeros n
  · have hbound : j < 64 := by
      rw [heq]
      exact lt_of_testBit hset hlt
    rw [if_pos heq, heq, hset, ← heq, decide_eq_true hbound, decide_eq_true rfl]
    rfl
  · rw [if_neg heq, decide_eq_false (Ne.symm heq)]
    by_cases hbelow : j < trailingZeros n
    · rw [hlow j hbelow, Bool.false_and]
    · rw [if_neg hbelow]
      cases n.testBit j
      · rfl
      · rw [Bool.not_true, Bool.and_false, Bool.and_false]

/-- The block at a position divides it and fits. -/
theorem intervalBlock_spec {cursor remaining : ℕ} (hcursor : cursor < 2 ^ 64) (hpos : 1 ≤ remaining) :
    ∃ k, intervalBlock cursor remaining = 2 ^ k ∧ 2 ^ k ∣ cursor ∧ 2 ^ k ≤ remaining := by
  rw [intervalBlock]
  by_cases hzero : cursor = 0
  · rw [if_pos hzero]
    obtain ⟨k, -, hblock, hle⟩ := fitBlock_two_pow hpos (Nat.log2 remaining)
    exact ⟨k, hblock, hzero ▸ dvd_zero _, hle⟩
  · rw [if_neg hzero, and_neg_word hzero hcursor]
    obtain ⟨k, hk, hblock, hle⟩ := fitBlock_two_pow hpos (trailingZeros cursor)
    exact ⟨k, hblock, (pow_dvd_pow 2 hk).trans (two_pow_trailingZeros_dvd hzero), hle⟩

/-! ### The product of a block -/

theorem length_subcubePairs {logLen cursor k : ℕ} (hk : k ≤ logLen) : (subcubePairs logLen cursor k).length = logLen := by
  rw [subcubePairs, List.length_append, List.length_map, List.length_range, List.length_replicate]
  omega

theorem factorsOf_subcubePairs {logLen cursor k b : ℕ} (hk : k ≤ logLen) (hb : b < logLen) (bit : Bool) :
    factorsOf productFactor (subcubePairs logLen cursor k) b bit =
      if b < k ∨ bit = cursor.testBit b then 1 else 0 := by
  have hone : QM31.one.value = 1 := QM31.denotes_one.value_eq
  have hzero : QM31.zero.value = 0 := QM31.denotes_zero.value_eq
  have hlength := @length_subcubePairs logLen cursor k hk
  rw [factorsOf, List.getElem?_reverse (by rw [hlength]; exact hb), hlength, subcubePairs]
  by_cases hfree : b < k
  · rw [List.getElem?_append_right (by rw [List.length_map, List.length_range]; omega), List.getElem?_replicate,
      List.length_map, List.length_range, if_pos (by omega), if_pos (Or.inl hfree)]
    cases bit with
    | false => exact hone
    | true => exact hone
  · rw [List.getElem?_append_left (by rw [List.length_map, List.length_range]; omega), List.getElem?_map,
      List.getElem?_range (by omega)]
    have hcoordinate : logLen - 1 - (logLen - 1 - b) = b := by omega
    simp only [Option.map_some, Option.getD_some, hcoordinate, hfree, false_or]
    cases bit with
    | false =>
      cases cursor.testBit b with
      | false => exact hone
      | true => exact hzero
    | true =>
      cases cursor.testBit b with
      | false => exact hzero
      | true => exact hone

/-- The product of a block is its indicator. -/
theorem bitProduct_subcubePairs {logLen cursor k i : ℕ} (hk : k ≤ logLen) (hcursor : cursor < 2 ^ logLen)
    (hi : i < 2 ^ logLen) :
    bitProduct (factorsOf productFactor (subcubePairs logLen cursor k)) logLen i =
      if i / 2 ^ k = cursor / 2 ^ k then 1 else 0 := by
  unfold bitProduct
  by_cases hsame : i / 2 ^ k = cursor / 2 ^ k
  · rw [if_pos hsame]
    refine Finset.prod_eq_one fun b hb => ?_
    rw [factorsOf_subcubePairs hk (Finset.mem_range.mp hb)]
    by_cases hfree : b < k
    · rw [if_pos (Or.inl hfree)]
    · have hbit := congrArg (fun m => Nat.testBit m (b - k)) hsame
      simp only [Nat.testBit_div_two_pow, Nat.add_sub_cancel' (not_lt.mp hfree), Nat.sub_add_cancel (not_lt.mp hfree)] at hbit
      rw [if_pos (Or.inr hbit)]
  · rw [if_neg hsame]
    -- some bit from `k` on differs
    obtain ⟨j, hj⟩ : ∃ j, (i / 2 ^ k).testBit j ≠ (cursor / 2 ^ k).testBit j := by
      by_contra hall
      push Not at hall
      exact hsame (Nat.eq_of_testBit_eq hall)
    rw [Nat.testBit_div_two_pow, Nat.testBit_div_two_pow] at hj
    have hlt : j + k < logLen := by
      by_contra hge
      have hle : 2 ^ logLen ≤ 2 ^ (j + k) := Nat.pow_le_pow_right (by decide) (not_lt.mp hge)
      rw [Nat.testBit_lt_two_pow (hi.trans_le hle), Nat.testBit_lt_two_pow (hcursor.trans_le hle)] at hj
      exact hj rfl
    refine Finset.prod_eq_zero (Finset.mem_range.mpr hlt) ?_
    rw [factorsOf_subcubePairs hk hlt, if_neg]
    rintro (hfree | hbit)
    · omega
    · exact hj hbit

/-! ### The loop -/

theorem WeightAccumulator.covector_push (weights : WeightAccumulator) (component : WeightComponent) (i : ℕ) :
    (weights.push component).covector i = weights.covector i + component.covector weights.logLen i := by
  rw [WeightAccumulator.covector, WeightAccumulator.push, List.map_append, List.sum_append]
  simp [WeightAccumulator.covector]

/-- The blocks from a position on add the indicator of the rest of the interval. -/
theorem addIntervalFrom_covector {scale : QM31} (hs : scale.Canonical) (stop : ℕ) :
    ∀ (fuel cursor : ℕ) {weights : WeightAccumulator}, weights.Shape → stop ≤ 2 ^ weights.logLen →
      stop ≤ cursor + fuel →
      ∃ next, addIntervalFrom scale stop weights cursor fuel = .ok next ∧ Extends weights next ∧
        ∀ i < 2 ^ weights.logLen, next.covector i =
          weights.covector i + if cursor ≤ i ∧ i < stop then scale.value else 0
  | 0, cursor, weights, h, _, hfuel => by
    refine ⟨weights, rfl, ⟨h, rfl⟩, fun i _ => ?_⟩
    rw [if_neg (by omega), add_zero]
  | fuel + 1, cursor, weights, h, hstop, hfuel => by
    rw [addIntervalFrom]
    by_cases hlt : cursor < stop
    · have hsmall : 2 ^ weights.logLen ≤ 2 ^ 64 := Nat.pow_le_pow_right (by decide) (by have := h.small; omega)
      obtain ⟨k, hblock, hdvd, hfits⟩ := @intervalBlock_spec cursor (stop - cursor) (by omega) (by omega)
      have hk : k ≤ weights.logLen := by
        apply (Nat.pow_le_pow_iff_right (by decide : 1 < 2)).mp
        omega
      have hpos := Nat.two_pow_pos k
      have hpairs := @length_subcubePairs weights.logLen cursor k hk
      have hadd : weights.addProductPairs scale (subcubePairs weights.logLen cursor k) =
          .ok (weights.push (.product scale (subcubePairs weights.logLen cursor k))) := by
        rw [WeightAccumulator.addProductPairs, if_neg (not_not.mpr hpairs)]
      have hextends := addProductPairs_extends h hs (subcubePairs_canonical _ _ _) hadd
      obtain ⟨next, hnext, hrest, hcovector⟩ := addIntervalFrom_covector hs stop fuel (cursor + 2 ^ k) hextends.shape
        (by rw [hextends.logLen]; exact hstop) (by omega)
      refine ⟨next, ?_, ⟨hrest.shape, hrest.logLen.trans hextends.logLen⟩, fun i hi => ?_⟩
      · rw [if_pos hlt]
        dsimp only
        rw [hblock, trailingZeros_two_pow, hadd]
        exact hnext
      · have hproduct := product_represents hs (subcubePairs_canonical weights.logLen cursor k)
        rw [hpairs] at hproduct
        have hcursor : cursor < 2 ^ weights.logLen := hlt.trans_le hstop
        rw [hcovector i (by rw [hextends.logLen]; exact hi), WeightAccumulator.covector_push, hproduct.covector_eq hi,
          bitProduct_subcubePairs hk hcursor hi, add_assoc]
        congr 1
        -- the block is the part of the interval that starts at the cursor
        have hinside : i / 2 ^ k = cursor / 2 ^ k ↔ cursor ≤ i ∧ i < cursor + 2 ^ k := by
          obtain ⟨m, rfl⟩ := hdvd
          rw [Nat.mul_div_cancel_left _ hpos, Nat.div_eq_iff hpos]
          have hcomm : m * 2 ^ k = 2 ^ k * m := mul_comm _ _
          constructor <;> intro hrange <;> constructor <;> omega
        by_cases hblockmem : i / 2 ^ k = cursor / 2 ^ k
        · have hrange := hinside.mp hblockmem
          rw [if_pos hblockmem, mul_one, if_neg (by omega), if_pos (by omega), add_zero]
        · have hrange := mt hinside.mpr hblockmem
          rw [if_neg hblockmem, mul_zero, zero_add]
          by_cases hafter : cursor + 2 ^ k ≤ i ∧ i < stop
          · rw [if_pos hafter, if_pos (by omega)]
          · rw [if_neg hafter, if_neg (by omega)]
    · rw [if_neg hlt]
      refine ⟨weights, rfl, ⟨h, rfl⟩, fun i _ => ?_⟩
      rw [if_neg (by omega), add_zero]

/-- Adding an interval adds its indicator; a malformed one is refused. -/
theorem WeightAccumulator.Shape.addIndexInterval_weights {weights : WeightAccumulator} (h : weights.Shape)
    {scale : QM31} (hs : scale.Canonical) {start stop : ℕ} (hstart : start < stop) (hstop : stop ≤ 2 ^ weights.logLen) :
    ∃ next, weights.addIndexInterval scale start stop = .ok next ∧ Extends weights next ∧
      ∀ i < 2 ^ weights.logLen, ∃ q, weights.weightAt i = some q ∧
        next.weightAt i = some (if start ≤ i ∧ i < stop then q.add scale else q) := by
  obtain ⟨next, hnext, hextends, hcovector⟩ := addIntervalFrom_covector hs stop (stop - start) start h hstop (by omega)
  refine ⟨next, ?_, hextends, fun i hi => ?_⟩
  · rw [WeightAccumulator.addIndexInterval, if_neg (by omega)]
    exact hnext
  · obtain ⟨q, hq, hd⟩ := weightAt_denotes h hi
    obtain ⟨q', hq', hd'⟩ := weightAt_denotes hextends.shape (i := i) (by rw [hextends.logLen]; exact hi)
    refine ⟨q, hq, ?_⟩
    rw [hq', hcovector i hi] at *
    congr 1
    by_cases hin : start ≤ i ∧ i < stop
    · rw [if_pos hin] at hd' ⊢
      exact hd'.eq (hd.add hs.denotes)
    · rw [if_neg hin, add_zero] at hd'
      rw [if_neg hin]
      exact hd'.eq hd

end Aspis.Core
