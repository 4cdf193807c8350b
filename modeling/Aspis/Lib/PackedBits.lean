import Aspis.Lib.Bytes
import Mathlib.Data.Nat.Bitwise

/-! Bits of little-endian bytes. A byte string is read as one number; its bytes, its slices and the
fields of bits in it are then digits of that number. -/

namespace Aspis.Lib

/-! ### Slices as digits -/

theorem leNat_take (k : ℕ) (d : Bytes) : leNat (d.take k) = leNat d % 256 ^ k := by
  by_cases hk : k ≤ d.length
  · have hlen : (d.take k).length = k := by
      rw [List.length_take]
      omega
    have hlt := leNat_lt (d.take k)
    rw [hlen] at hlt
    conv_rhs => rw [← List.take_append_drop k d, leNat_append, hlen, Nat.add_mul_mod_self_left]
    exact (Nat.mod_eq_of_lt hlt).symm
  · rw [List.take_of_length_le (by omega)]
    have hlt := leNat_lt d
    exact (Nat.mod_eq_of_lt (lt_of_lt_of_le hlt (Nat.pow_le_pow_right (by decide) (by omega)))).symm

theorem leNat_drop (k : ℕ) (d : Bytes) : leNat (d.drop k) = leNat d / 256 ^ k := by
  by_cases hk : k ≤ d.length
  · have hlen : (d.take k).length = k := by
      rw [List.length_take]
      omega
    have hlt := leNat_lt (d.take k)
    rw [hlen] at hlt
    conv_rhs => rw [← List.take_append_drop k d, leNat_append, hlen, Nat.add_mul_div_left _ _ (by positivity)]
    rw [Nat.div_eq_of_lt hlt, Nat.zero_add]
  · rw [List.drop_of_length_le (by omega)]
    have hlt := leNat_lt d
    exact (Nat.div_eq_of_lt (lt_of_lt_of_le hlt (Nat.pow_le_pow_right (by decide) (by omega)))).symm

theorem leNat_slice (off len : ℕ) (d : Bytes) : leNat (slice off len d) = leNat d / 256 ^ off % 256 ^ len := by
  rw [slice, leNat_take, leNat_drop]

theorem toNat_byteAt (i : ℕ) (d : Bytes) : (byteAt i d).toNat = leNat d / 256 ^ i % 256 := by
  by_cases hi : i < d.length
  · have h := leNat_slice i 1 d
    rw [slice_one hi, pow_one] at h
    rw [← h]
    simp [leNat]
  · have hlt := leNat_lt d
    rw [Nat.div_eq_of_lt (lt_of_lt_of_le hlt (Nat.pow_le_pow_right (by decide) (by omega)))]
    rw [byteAt, List.getD_eq_getElem?_getD, List.getElem?_eq_none (by omega)]
    rfl

/-! ### Bits -/

theorem pow_256 (k : ℕ) : 256 ^ k = 2 ^ (8 * k) := by
  rw [pow_mul]
  rfl

theorem testBit_leNat (d : Bytes) (j : ℕ) : (leNat d).testBit j = (byteAt (j / 8) d).toNat.testBit (j % 8) := by
  rw [toNat_byteAt, pow_256, show 256 = 2 ^ 8 from rfl, Nat.testBit_mod_two_pow, Nat.testBit_div_two_pow]
  have hlt : j % 8 < 8 := Nat.mod_lt _ (by decide)
  have hsum : j % 8 + 8 * (j / 8) = j := Nat.mod_add_div j 8
  rw [hsum]
  simp [hlt]

/-- The field of `width` bits from bit `start` on. -/
def bitField (n start width : ℕ) : ℕ := n / 2 ^ start % 2 ^ width

theorem bitField_lt (n start width : ℕ) : bitField n start width < 2 ^ width := Nat.mod_lt _ (by positivity)

theorem testBit_bitField (n start width j : ℕ) :
    (bitField n start width).testBit j = (decide (j < width) && n.testBit (start + j)) := by
  rw [bitField, Nat.testBit_mod_two_pow, Nat.testBit_div_two_pow, Nat.add_comm j]

/-- A field of a window that covers it is the field of the whole. -/
theorem bitField_bitField {n start width inner len : ℕ} (h : inner + len ≤ width) :
    bitField (bitField n start width) inner len = bitField n (start + inner) len := by
  apply Nat.eq_of_testBit_eq
  intro j
  rw [testBit_bitField, testBit_bitField, testBit_bitField, Nat.add_assoc]
  by_cases hj : j < len
  · have hin : inner + j < width := by omega
    simp [hj, hin]
  · simp [hj]

/-- A field is its low part and, above it, the rest. -/
theorem bitField_add (n start w v : ℕ) :
    bitField n start (w + v) = bitField n start w + bitField n (start + w) v * 2 ^ w := by
  rw [bitField, bitField, bitField, pow_add, Nat.mod_mul, Nat.div_div_eq_div_mul, ← pow_add, Nat.mul_comm (2 ^ w)]

theorem bitField_div {n start w v : ℕ} (h : w ≤ v) : bitField n start v / 2 ^ w = bitField n (start + w) (v - w) := by
  have hlt := bitField_lt n start w
  have hsplit := bitField_add n start w (v - w)
  rw [Nat.add_sub_cancel' h] at hsplit
  rw [hsplit, Nat.add_mul_div_right _ _ (by positivity), Nat.div_eq_of_lt hlt, Nat.zero_add]

theorem toNat_byteAt_bitField (i : ℕ) (d : Bytes) : (byteAt i d).toNat = bitField (leNat d) (8 * i) 8 := by
  rw [toNat_byteAt, pow_256]
  rfl

theorem leNat_slice_bitField (off len : ℕ) (d : Bytes) :
    leNat (slice off len d) = bitField (leNat d) (8 * off) (8 * len) := by
  rw [leNat_slice, pow_256, pow_256]
  rfl

/-- A number below `2 ^ (width * count)` is determined by its fields. -/
theorem eq_of_bitFields {m n width count : ℕ} (hwidth : 0 < width) (hm : m < 2 ^ (width * count))
    (hn : n < 2 ^ (width * count)) (h : ∀ i < count, bitField m (width * i) width = bitField n (width * i) width) :
    m = n := by
  apply Nat.eq_of_testBit_eq
  intro j
  by_cases hj : j < width * count
  · have hi : j / width < count := Nat.div_lt_of_lt_mul hj
    have hbit := congrArg (fun x => x.testBit (j % width)) (h _ hi)
    have hlt : j % width < width := Nat.mod_lt _ hwidth
    simpa [testBit_bitField, hlt, Nat.div_add_mod] using hbit
  · have hle : 2 ^ (width * count) ≤ 2 ^ j := Nat.pow_le_pow_right (by decide) (by omega)
    rw [Nat.testBit_lt_two_pow (lt_of_lt_of_le hm hle), Nat.testBit_lt_two_pow (lt_of_lt_of_le hn hle)]

/-- A number whose bits from `k` on are zero is below `2 ^ k`. -/
theorem lt_two_pow_of_bits {n k : ℕ} (h : ∀ j, k ≤ j → n.testBit j = false) : n < 2 ^ k :=
  Nat.lt_pow_two_of_testBit n h

/-- Two numbers with disjoint ranges of bits. -/
theorem or_shift_eq_add {a k : ℕ} (b : ℕ) (ha : a < 2 ^ k) : a ||| b * 2 ^ k = a + b * 2 ^ k := by
  rw [Nat.or_comm, Nat.mul_comm, ← Nat.two_pow_add_eq_or_of_lt ha, Nat.add_comm]

end Aspis.Lib
