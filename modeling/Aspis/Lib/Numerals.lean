import Aspis.Lib.Bytes
import Mathlib.Data.Nat.Digits.Lemmas

/-! Numbers as digit strings. A number has one shortest little-endian byte
image; a big-endian digit string is read by multiplying and adding; and how many
digits a number has in one base bounds how many it has in another. -/

namespace Aspis.Lib

open Nat (digits ofDigits)

theorem leNat_eq_ofDigits (d : Bytes) : leNat d = ofDigits 256 (d.map UInt8.toNat) := by
  induction d with
  | nil => rfl
  | cons b d ih => rw [leNat, List.map_cons, Nat.ofDigits_cons, ih]

theorem leNat_replicate_zero (n : ℕ) : leNat (List.replicate n 0) = 0 := by
  induction n with
  | zero => rfl
  | succ n ih => rw [List.replicate_succ, leNat, ih, UInt8.toNat_zero]

/-- How many bytes a number needs; zero needs none. -/
def byteLen (v : ℕ) : ℕ := (digits 256 v).length

/-- The shortest little-endian image of a number. -/
def leMin (v : ℕ) : Bytes := leBytes (byteLen v) v

@[simp] theorem byteLen_zero : byteLen 0 = 0 := by rw [byteLen, Nat.digits_zero, List.length_nil]

@[simp] theorem leMin_zero : leMin 0 = [] := by rw [leMin, byteLen_zero, leBytes]

@[simp] theorem length_leMin (v : ℕ) : (leMin v).length = byteLen v := length_leBytes _ _

theorem byteLen_le_iff {v n : ℕ} : byteLen v ≤ n ↔ v < 256 ^ n := Nat.digits_length_le_iff (by decide) v

theorem lt_byteLen_iff {v n : ℕ} : n < byteLen v ↔ 256 ^ n ≤ v := Nat.lt_digits_length_iff (by decide) v

theorem byteLen_mono {v w : ℕ} (h : v ≤ w) : byteLen v ≤ byteLen w := Nat.le_length_digits_le 256 v w h

@[simp] theorem leNat_leMin (v : ℕ) : leNat (leMin v) = v := leNat_leBytes_of_lt (byteLen_le_iff.mp le_rfl)

/-- A byte string of the right length and value is the shortest image. -/
theorem eq_leMin {d : Bytes} {v : ℕ} (hvalue : leNat d = v) (hlength : d.length = byteLen v) : d = leMin v := by
  rw [leMin, ← hlength, ← hvalue, leBytes_leNat]

theorem map_toNat_leMin (v : ℕ) : (leMin v).map UInt8.toNat = digits 256 v := by
  apply Nat.ofDigits_inj_of_len_eq (by decide : 1 < 256)
  · rw [List.length_map, length_leMin, byteLen]
  · intro x hx
    obtain ⟨b, -, rfl⟩ := List.mem_map.mp hx
    exact b.toNat_lt
  · exact fun x hx => Nat.digits_lt_base (by decide) hx
  · rw [← leNat_eq_ofDigits, leNat_leMin, Nat.ofDigits_digits]

/-- The shortest image does not end in a zero byte. -/
theorem getLast?_leMin (v : ℕ) : (leMin v).getLast? ≠ some 0 := by
  intro hlast
  have hdigits : (digits 256 v).getLast? = some 0 := by
    rw [← map_toNat_leMin, List.getLast?_map, hlast]
    rfl
  have hne : v ≠ 0 := by
    rintro rfl
    rw [Nat.digits_zero] at hdigits
    cases hdigits
  have hnonzero := Nat.getLast_digit_ne_zero 256 hne
  rw [List.getLast?_eq_getLast_of_ne_nil (Nat.digits_ne_nil_iff_ne_zero.mpr hne)] at hdigits
  exact hnonzero (Option.some.inj hdigits)

/-- A byte string that does not end in a zero byte is the shortest image of its value. -/
theorem leMin_leNat {d : Bytes} (h : d.getLast? ≠ some 0) : leMin (leNat d) = d := by
  refine (eq_leMin rfl ?_).symm
  rw [byteLen, leNat_eq_ofDigits, Nat.digits_ofDigits 256 (by decide), List.length_map]
  · intro x hx
    obtain ⟨b, -, rfl⟩ := List.mem_map.mp hx
    exact b.toNat_lt
  · intro hne hzero
    apply h
    have hd : d ≠ [] := fun hnil => hne (by rw [hnil, List.map_nil])
    rw [List.getLast_map] at hzero
    rw [List.getLast?_eq_getLast_of_ne_nil hd]
    exact congrArg some (UInt8.toNat.inj hzero)

/-! ### Reading big-endian digits -/

/-- The number written by `ds` after `v`. -/
def hornerDigits (b : ℕ) (v : ℕ) (ds : List ℕ) : ℕ := ds.foldl (fun v d => b * v + d) v

@[simp] theorem hornerDigits_cons (b v d : ℕ) (ds : List ℕ) :
    hornerDigits b v (d :: ds) = hornerDigits b (b * v + d) ds := rfl

theorem hornerDigits_eq (b v : ℕ) (ds : List ℕ) :
    hornerDigits b v ds = ofDigits b ds.reverse + b ^ ds.length * v := by
  induction ds generalizing v with
  | nil => simp [hornerDigits]
  | cons d ds ih =>
    rw [hornerDigits_cons, ih, List.reverse_cons, Nat.ofDigits_append, List.length_reverse, Nat.ofDigits_singleton,
      List.length_cons, pow_succ]
    ring

theorem le_hornerDigits {b : ℕ} (hb : 1 ≤ b) (v : ℕ) (ds : List ℕ) : v ≤ hornerDigits b v ds := by
  rw [hornerDigits_eq]
  calc v = 1 * v := (Nat.one_mul v).symm
    _ ≤ b ^ ds.length * v := Nat.mul_le_mul_right v (Nat.one_le_pow _ _ hb)
    _ ≤ ofDigits b ds.reverse + b ^ ds.length * v := Nat.le_add_left _ _

/-- Digits without a leading zero are the digits of the number they write. -/
theorem digits_hornerDigits {b : ℕ} (hb : 1 < b) {ds : List ℕ} (hlt : ∀ d ∈ ds, d < b) (hhead : ds.head? ≠ some 0) :
    digits b (hornerDigits b 0 ds) = ds.reverse := by
  rw [hornerDigits_eq, Nat.mul_zero, Nat.add_zero, Nat.digits_ofDigits b hb]
  · exact fun d hd => hlt d (List.mem_reverse.mp hd)
  · intro hne hzero
    apply hhead
    rw [List.getLast_reverse] at hzero
    rw [← hzero]
    exact List.head?_eq_some_head _

theorem hornerDigits_digits {b : ℕ} (v : ℕ) : hornerDigits b 0 (digits b v).reverse = v := by
  rw [hornerDigits_eq, Nat.mul_zero, Nat.add_zero, List.reverse_reverse, Nat.ofDigits_digits]

theorem head?_reverse_digits {b : ℕ} (v : ℕ) : (digits b v).reverse.head? ≠ some 0 := by
  intro hhead
  have hne : v ≠ 0 := by
    rintro rfl
    rw [Nat.digits_zero] at hhead
    cases hhead
  rw [List.head?_reverse, List.getLast?_eq_getLast_of_ne_nil (Nat.digits_ne_nil_iff_ne_zero.mpr hne)] at hhead
  exact Nat.getLast_digit_ne_zero b hne (Option.some.inj hhead)

/-- If `q` digits of base `c` say no more than `p` digits of base `b`, a number below `c ^ m` has at most
`p * m / q + 1` digits in base `b`. -/
theorem length_digits_le {b c p q m v : ℕ} (hb : 1 < b) (hq : 0 < q) (hpow : c ^ q ≤ b ^ p) (hv : v < c ^ m) :
    (digits b v).length ≤ p * m / q + 1 := by
  by_contra hlong
  have hle : b ^ (p * m / q + 1) ≤ v := (Nat.lt_digits_length_iff hb v).mp (by omega)
  have hexp : p * m ≤ q * (p * m / q + 1) := by
    have := Nat.div_add_mod (p * m) q
    have := Nat.mod_lt (p * m) hq
    rw [Nat.mul_succ]
    omega
  have : v ^ q < v ^ q := by
    calc v ^ q < (c ^ m) ^ q := Nat.pow_lt_pow_left hv hq.ne'
      _ = (c ^ q) ^ m := by rw [← pow_mul, ← pow_mul, Nat.mul_comm]
      _ ≤ (b ^ p) ^ m := Nat.pow_le_pow_left hpow m
      _ = b ^ (p * m) := (pow_mul b p m).symm
      _ ≤ b ^ (q * (p * m / q + 1)) := Nat.pow_le_pow_right hb.le hexp
      _ = (b ^ (p * m / q + 1)) ^ q := by rw [← pow_mul, Nat.mul_comm]
      _ ≤ v ^ q := Nat.pow_le_pow_left hle q
  exact absurd this (lt_irrefl _)

end Aspis.Lib
