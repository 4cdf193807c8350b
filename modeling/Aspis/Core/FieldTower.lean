import Aspis.Core.Field
import Mathlib.Algebra.QuadraticAlgebra.Basic
import Mathlib.NumberTheory.LegendreSymbol.QuadraticReciprocity
import Mathlib.NumberTheory.LucasLehmer
import Mathlib.Tactic.LinearCombination
import Mathlib.Tactic.FieldSimp

/-! The arithmetic of the field tower. The words of the code stand for elements of the
prime field, of its extension by `i` and of the extension of that one by `u`. A word
below `P` stands for exactly one element, and every operation on such words computes the
operation of the field and returns a word below `P` again. -/

namespace Aspis.Core

namespace Widths

/-! The numerals of the field, in the same way. -/

scoped instance atLeastTwo_two : Nat.AtLeastTwo 2 := ⟨by decide⟩

scoped instance atLeastTwo_four : Nat.AtLeastTwo 4 := ⟨by decide⟩

end Widths

/-! ### The tower -/

instance p_prime : Fact (Nat.Prime 2147483647) :=
  ⟨by
    have h : (mersenne 31).Prime := lucas_lehmer_sufficiency 31 (by norm_num) (by norm_num)
    have hm : mersenne 31 = 2147483647 := by decide
    rwa [hm] at h⟩

/-- `F_p` for `p = 2 ^ 31 - 1`. -/
abbrev BaseField := ZMod 2147483647

/-- `F_p[i] / (i² + 1)`. -/
abbrev ComplexField := QuadraticAlgebra BaseField (-1) 0

/-- `F_p[i][u] / (u² - (2 + i))`. -/
abbrev QuarticField := QuadraticAlgebra ComplexField ⟨2, 1⟩ 0

theorem neg_one_not_square : ¬ IsSquare (-1 : BaseField) := by
  rw [ZMod.exists_sq_eq_neg_one_iff]
  decide

/-- By reciprocity 5 is a square modulo the prime only if the prime is one modulo 5, and it is 2 there. -/
theorem five_not_square : ¬ IsSquare (5 : BaseField) := by
  have htwo : ¬ IsSquare (2 : ZMod 5) := by decide
  have hresidue : ((2147483647 : ℕ) : ZMod 5) = 2 := by decide
  have hprime : Fact (Nat.Prime 5) := ⟨by decide⟩
  have h := @ZMod.exists_sq_eq_prime_iff_of_mod_four_eq_one 5 2147483647 hprime _ rfl (by decide)
  rw [hresidue] at h
  intro hfive
  exact htwo (h.mpr (by exact_mod_cast hfive))

/-- A square of the complex field has a square norm, and the norm of `2 + i` is 5. -/
theorem two_add_i_not_square : ¬ IsSquare (⟨2, 1⟩ : ComplexField) := by
  intro h
  have hnorm : IsSquare (QuadraticAlgebra.norm (⟨2, 1⟩ : ComplexField)) := h.map QuadraticAlgebra.norm
  have hfive : QuadraticAlgebra.norm (⟨2, 1⟩ : ComplexField) = 5 := by
    rw [QuadraticAlgebra.norm_def]
    norm_num
  rw [hfive] at hnorm
  exact five_not_square hnorm

instance complex_irreducible : Fact (∀ r : BaseField, r ^ 2 ≠ -1 + 0 * r) :=
  ⟨fun r h => neg_one_not_square ⟨r, by linear_combination -h⟩⟩

instance quartic_irreducible : Fact (∀ r : ComplexField, r ^ 2 ≠ ⟨2, 1⟩ + 0 * r) :=
  ⟨fun r h => two_add_i_not_square ⟨r, by linear_combination -h⟩⟩

theorem two_ne_zero_base : (2 : BaseField) ≠ 0 := by decide

instance : NeZero (2 : BaseField) := ⟨two_ne_zero_base⟩

/-- Square and multiply computes a power, whatever relation the elements are read by. -/
theorem powLoop_related {α K : Type*} [CommMonoid K] {mul : α → α → α} {square : α → α} {R : α → K → Prop}
    (hmul : ∀ x y v w, R x v → R y w → R (mul x y) (v * w)) (hsquare : ∀ x v, R x v → R (square x) (v * v))
    (exp : ℕ) (base acc : α) (v w : K) (hbase : R base v) (hacc : R acc w) :
    R (powLoop mul square base acc exp) (w * v ^ exp) := by
  induction exp using Nat.strong_induction_on generalizing base acc v w with
  | h exp ih =>
    unfold powLoop
    by_cases hzero : exp = 0
    · rw [if_pos hzero, hzero, pow_zero, mul_one]
      exact hacc
    · rw [if_neg hzero]
      have hhalf : exp / 2 < exp := Nat.div_lt_self (Nat.pos_of_ne_zero hzero) (by decide)
      by_cases hodd : exp % 2 = 1
      · rw [if_pos hodd]
        have h := ih _ hhalf (square base) (mul acc base) (v * v) (w * v) (hsquare _ _ hbase)
          (hmul _ _ _ _ hacc hbase)
        have he : w * v * (v * v) ^ (exp / 2) = w * v ^ exp := by
          rw [← pow_two, ← pow_mul, mul_assoc, ← pow_succ']
          congr 2
          omega
        rwa [he] at h
      · rw [if_neg hodd]
        have h := ih _ hhalf (square base) acc (v * v) w (hsquare _ _ hbase) hacc
        have he : (v * v) ^ (exp / 2) = v ^ exp := by
          rw [← pow_two, ← pow_mul]
          congr 1
          omega
        rwa [he] at h

/-! ### Words and elements -/

@[simp] theorem toNat_P : P.toNat = 2147483647 := rfl

/-- The two folds and the subtraction return the remainder of any 64-bit value. -/
theorem toNat_reduceU64 (x : UInt64) : (reduceU64 x).toNat = x.toNat % 2147483647 := by
  have hP : P.toUInt64.toNat = 2 ^ 31 - 1 := rfl
  have hfold : ∀ y : UInt64, ((y &&& P.toUInt64) + (y >>> 31)).toNat = y.toNat % 2 ^ 31 + y.toNat / 2 ^ 31 := by
    intro y
    have hy := y.toNat_lt
    have hs : (y >>> 31).toNat = y.toNat / 2 ^ 31 := by
      rw [UInt64.toNat_shiftRight, Nat.shiftRight_eq_div_pow]
      rfl
    rw [UInt64.toNat_add, UInt64.toNat_and, hP, Nat.and_two_pow_sub_one_eq_mod, hs]
    omega
  have hx := x.toNat_lt
  unfold reduceU64
  simp only []
  generalize hy : (x &&& P.toUInt64) + (x >>> 31) = y
  have hyn := hfold x
  rw [hy] at hyn
  generalize hz : (y &&& P.toUInt64) + (y >>> 31) = z
  have hzn := hfold y
  rw [hz] at hzn
  have hz32 : z.toUInt32.toNat = z.toNat := by
    rw [UInt64.toNat_toUInt32]
    omega
  by_cases hle : P ≤ z.toUInt32
  · rw [if_pos hle, UInt32.toNat_sub_of_le _ _ hle, hz32, toNat_P]
    rw [UInt32.le_iff_toNat_le, hz32, toNat_P] at hle
    omega
  · rw [if_neg hle, hz32]
    rw [UInt32.le_iff_toNat_le, hz32, toNat_P] at hle
    omega

namespace M31

/-- The values the code keeps: words below `P`. -/
def Canonical (x : M31) : Prop := x.val < P

instance (x : M31) : Decidable x.Canonical := inferInstanceAs (Decidable (_ < _))

theorem Canonical.lt {x : M31} (h : x.Canonical) : x.val.toNat < 2147483647 := h

def value (x : M31) : BaseField := (x.val.toNat : BaseField)

/-- The word is canonical and stands for the given element. -/
structure Denotes (x : M31) (v : BaseField) : Prop where
  canonical : x.Canonical
  value_eq : x.value = v

theorem Canonical.denotes {x : M31} (h : x.Canonical) : x.Denotes x.value := ⟨h, rfl⟩

theorem value_injective {x y : M31} (hx : x.Canonical) (hy : y.Canonical) (h : x.value = y.value) : x = y := by
  have hmod := (ZMod.natCast_eq_natCast_iff' _ _ _).mp h
  rw [Nat.mod_eq_of_lt hx.lt, Nat.mod_eq_of_lt hy.lt] at hmod
  cases x with
  | mk x =>
    cases y with
    | mk y => exact congrArg M31.mk (UInt32.toNat_inj.mp hmod)

theorem Denotes.eq {x y : M31} {v : BaseField} (hx : x.Denotes v) (hy : y.Denotes v) : x = y :=
  value_injective hx.canonical hy.canonical (hx.value_eq.trans hy.value_eq.symm)

/-- Every element is denoted by a word. -/
theorem exists_denotes (v : BaseField) : ∃ x : M31, x.Denotes v := by
  have hv : v.val < 2147483647 := ZMod.val_lt v
  have hword : (UInt32.ofNat v.val).toNat = v.val := UInt32.toNat_ofNat_of_lt' (lt_trans hv (by decide))
  refine ⟨⟨UInt32.ofNat v.val⟩, ?_, ?_⟩
  · show (UInt32.ofNat v.val).toNat < 2147483647
    rw [hword]
    exact hv
  · show (((UInt32.ofNat v.val).toNat : ℕ) : BaseField) = v
    rw [hword, ZMod.natCast_zmod_val]

theorem value_bijOn : Set.BijOn value {x : M31 | x.Canonical} Set.univ := by
  refine ⟨fun _ _ => Set.mem_univ _, ?_, ?_⟩
  · intro x hx y hy h
    have hxd : x.Denotes y.value := h ▸ Canonical.denotes hx
    exact hxd.eq (Canonical.denotes hy)
  · intro v _
    obtain ⟨x, hx⟩ := exists_denotes v
    exact ⟨x, hx.canonical, hx.value_eq⟩

/-- The words that reduce a natural number denote its residue. -/
theorem denotes_of_mod {x : M31} {n : ℕ} (h : x.val.toNat = n % 2147483647) : x.Denotes (n : BaseField) := by
  constructor
  · show x.val.toNat < 2147483647
    rw [h]
    exact Nat.mod_lt _ (by decide)
  · show ((x.val.toNat : ℕ) : BaseField) = (n : BaseField)
    rw [h, ZMod.natCast_mod]

theorem denotes_reduceU64 (x : UInt64) : (M31.reduceU64 x).Denotes (x.toNat : BaseField) :=
  denotes_of_mod (toNat_reduceU64 x)

theorem denotes_zero : zero.Denotes 0 := ⟨by decide, by simp [value, zero]⟩

theorem denotes_one : one.Denotes 1 := ⟨by decide, by simp [value, one]⟩

section Operations

variable {x y : M31} {v w : BaseField}

/-- The last step of an addition or a subtraction. -/
theorem denotes_subtract_once {s : UInt32} (hs : s.toNat < 2 * 2147483647) :
    (⟨if P ≤ s then s - P else s⟩ : M31).Denotes (s.toNat : BaseField) := by
  apply denotes_of_mod
  show (if P ≤ s then s - P else s).toNat = s.toNat % 2147483647
  by_cases hle : P ≤ s
  · rw [if_pos hle, UInt32.toNat_sub_of_le _ _ hle, toNat_P]
    rw [UInt32.le_iff_toNat_le, toNat_P] at hle
    omega
  · rw [if_neg hle]
    rw [UInt32.le_iff_toNat_le, toNat_P] at hle
    omega

theorem Denotes.add (hx : x.Denotes v) (hy : y.Denotes w) : (x.add y).Denotes (v + w) := by
  have hxc : x.val.toNat < 2147483647 := hx.canonical.lt
  have hyc : y.val.toNat < 2147483647 := hy.canonical.lt
  have hsum : (x.val + y.val).toNat = x.val.toNat + y.val.toNat := by
    rw [UInt32.toNat_add]
    omega
  have h := denotes_subtract_once (s := x.val + y.val) (by omega)
  rw [hsum, Nat.cast_add] at h
  rw [← hx.value_eq, ← hy.value_eq]
  exact h

theorem Denotes.sub (hx : x.Denotes v) (hy : y.Denotes w) : (x.sub y).Denotes (v - w) := by
  have hxc : x.val.toNat < 2147483647 := hx.canonical.lt
  have hyc : y.val.toNat < 2147483647 := hy.canonical.lt
  have hsum : (x.val + P).toNat = x.val.toNat + 2147483647 := by
    rw [UInt32.toNat_add, toNat_P]
    omega
  have hle : y.val ≤ x.val + P := by
    rw [UInt32.le_iff_toNat_le, hsum]
    omega
  have hsub : (x.val + P - y.val).toNat = x.val.toNat + 2147483647 - y.val.toNat := by
    rw [UInt32.toNat_sub_of_le _ _ hle, hsum]
  have h := denotes_subtract_once (s := x.val + P - y.val) (by omega)
  rw [hsub, Nat.cast_sub (by omega), Nat.cast_add, ZMod.natCast_self, add_zero] at h
  rw [← hx.value_eq, ← hy.value_eq]
  exact h

theorem Denotes.neg (hx : x.Denotes v) : x.neg.Denotes (-v) := by
  have hxc : x.val.toNat < 2147483647 := hx.canonical.lt
  unfold M31.neg
  by_cases hz : x.val = 0
  · rw [if_pos hz]
    have hv : v = 0 := by
      rw [← hx.value_eq, value, hz]
      rfl
    rw [hv, neg_zero]
    exact denotes_zero
  · rw [if_neg hz]
    have hpos : x.val.toNat ≠ 0 := fun h => hz (UInt32.toNat_inj.mp h)
    have hle : x.val ≤ P := by
      rw [UInt32.le_iff_toNat_le, toNat_P]
      omega
    have hsub : (P - x.val).toNat = 2147483647 - x.val.toNat := by
      rw [UInt32.toNat_sub_of_le _ _ hle, toNat_P]
    constructor
    · show (P - x.val).toNat < 2147483647
      omega
    · show (((P - x.val).toNat : ℕ) : BaseField) = -v
      rw [hsub, Nat.cast_sub (by omega), ZMod.natCast_self, zero_sub, ← hx.value_eq]
      rfl

/-- A product of two 32-bit words fits into 64 bits. -/
theorem toNat_mul_words (a b : UInt32) : (a.toUInt64 * b.toUInt64).toNat = a.toNat * b.toNat := by
  have hle : a.toNat * b.toNat ≤ (2 ^ 32 - 1) * (2 ^ 32 - 1) :=
    Nat.mul_le_mul (Nat.le_sub_one_of_lt a.toNat_lt) (Nat.le_sub_one_of_lt b.toNat_lt)
  rw [UInt64.toNat_mul, UInt32.toNat_toUInt64, UInt32.toNat_toUInt64]
  exact Nat.mod_eq_of_lt (lt_of_le_of_lt hle (by norm_num))

theorem Denotes.mul (hx : x.Denotes v) (hy : y.Denotes w) : (x.mul y).Denotes (v * w) := by
  have h := denotes_reduceU64 (x.val.toUInt64 * y.val.toUInt64)
  rw [toNat_mul_words, Nat.cast_mul] at h
  rw [← hx.value_eq, ← hy.value_eq]
  exact h

theorem Denotes.double (hx : x.Denotes v) : x.double.Denotes (2 * v) := by
  rw [two_mul]
  exact hx.add hx

/-- The rotation by one bit within 31 bits is the even one of `x` and `x + P`, halved. -/
theorem toNat_half (x : M31) (hx : x.Canonical) :
    2 * x.half.val.toNat = x.val.toNat + (x.val.toNat % 2) * 2147483647 := by
  have hxc : x.val.toNat < 2147483647 := hx.lt
  have hlow : (x.val >>> 1).toNat = x.val.toNat / 2 := by
    rw [UInt32.toNat_shiftRight, Nat.shiftRight_eq_div_pow]
    rfl
  have hbit : ((x.val &&& 1) <<< 30).toNat = 2 ^ 30 * (x.val.toNat % 2) := by
    rw [UInt32.toNat_shiftLeft, UInt32.toNat_and, UInt32.toNat_one, Nat.and_one_is_mod, Nat.shiftLeft_eq]
    show x.val.toNat % 2 * 2 ^ 30 % 2 ^ 32 = 2 ^ 30 * (x.val.toNat % 2)
    omega
  have hhalf : x.half.val.toNat = x.val.toNat / 2 + 2 ^ 30 * (x.val.toNat % 2) := by
    show ((x.val >>> 1) ||| ((x.val &&& 1) <<< 30)).toNat = _
    rw [UInt32.toNat_or, hlow, hbit, Nat.or_comm, ← Nat.two_pow_add_eq_or_of_lt (by omega), Nat.add_comm]
  omega

theorem Denotes.half (hx : x.Denotes v) : x.half.Denotes (v / 2) := by
  have hxc : x.val.toNat < 2147483647 := hx.canonical.lt
  have hnat := toNat_half x hx.canonical
  constructor
  · show x.half.val.toNat < 2147483647
    omega
  · have hcast := congrArg (Nat.cast : ℕ → BaseField) hnat
    rw [Nat.cast_mul, Nat.cast_add, Nat.cast_mul, ZMod.natCast_self, mul_zero, add_zero, Nat.cast_two] at hcast
    rw [← hx.value_eq, eq_div_iff two_ne_zero, mul_comm]
    exact hcast

theorem Denotes.mulPow2 (hx : x.Denotes v) {shift : UInt8} (hshift : shift.toNat ≤ 30) :
    (x.mulPow2 shift).Denotes (v * 2 ^ shift.toNat) := by
  have hxc : x.val.toNat < 2147483647 := hx.canonical.lt
  have h := denotes_reduceU64 (x.val.toUInt64 <<< shift.toUInt64)
  have hpow : 2 ^ shift.toNat ≤ 2 ^ 30 := Nat.pow_le_pow_right (by decide) hshift
  have hprod : x.val.toNat * 2 ^ shift.toNat ≤ (2147483647 - 1) * 2 ^ 30 := Nat.mul_le_mul (by omega) hpow
  have hnat : (x.val.toUInt64 <<< shift.toUInt64).toNat = x.val.toNat * 2 ^ shift.toNat := by
    have hmod : shift.toNat % 64 = shift.toNat := Nat.mod_eq_of_lt (by omega)
    rw [UInt64.toNat_shiftLeft, UInt32.toNat_toUInt64, UInt8.toNat_toUInt64, hmod, Nat.shiftLeft_eq]
    exact Nat.mod_eq_of_lt (lt_of_le_of_lt hprod (by norm_num))
  rw [hnat, Nat.cast_mul, Nat.cast_pow, Nat.cast_two] at h
  rw [← hx.value_eq]
  exact h

theorem denotes_reduceU128 (value : BitVec 128) : (reduceU128 value).Denotes (value.toNat : BaseField) := by
  have hfold : ∀ y : BitVec 128, ((y &&& (0x7fffffff : BitVec 128)) + (y >>> 31)).toNat =
      y.toNat % 2 ^ 31 + y.toNat / 2 ^ 31 := by
    intro y
    have hy := y.isLt
    have hs : (y >>> 31).toNat = y.toNat / 2 ^ 31 := by
      rw [BitVec.toNat_ushiftRight, Nat.shiftRight_eq_div_pow]
    have hmask : (0x7fffffff : BitVec 128).toNat = 2 ^ 31 - 1 := rfl
    rw [BitVec.toNat_add, BitVec.toNat_and, hmask, Nat.and_two_pow_sub_one_eq_mod, hs]
    omega
  have hv := value.isLt
  unfold reduceU128
  simp only []
  generalize ha : (value &&& (0x7fffffff : BitVec 128)) + (value >>> 31) = a
  generalize hb : (a &&& (0x7fffffff : BitVec 128)) + (a >>> 31) = b
  generalize hc : (b &&& (0x7fffffff : BitVec 128)) + (b >>> 31) = c
  generalize hd : (c &&& (0x7fffffff : BitVec 128)) + (c >>> 31) = d
  have han := hfold value
  have hbn := hfold a
  have hcn := hfold b
  have hdn := hfold c
  rw [ha] at han
  rw [hb] at hbn
  rw [hc] at hcn
  rw [hd] at hdn
  have hd32 : (UInt32.ofBitVec (d.truncate 32)).toNat = d.toNat := by
    show (d.truncate 32).toNat = d.toNat
    rw [BitVec.truncate, BitVec.toNat_setWidth]
    omega
  have hd : (d.toNat : BaseField) = (value.toNat : BaseField) := by
    rw [ZMod.natCast_eq_natCast_iff']
    omega
  rw [← hd, ← hd32]
  apply denotes_subtract_once
  omega

theorem Denotes.pow (hx : x.Denotes v) (exp : UInt64) : (x.pow exp).Denotes (v ^ exp.toNat) := by
  have h := powLoop_related (fun _ _ _ _ hx hy => Denotes.mul hx hy) (fun _ _ hx => Denotes.mul hx hx) exp.toNat
    x one v 1 hx denotes_one
  rw [one_mul] at h
  exact h

theorem Denotes.squareN (hx : x.Denotes v) (count : ℕ) : (M31.squareN x count).Denotes (v ^ 2 ^ count) := by
  induction count generalizing x v with
  | zero =>
    rw [pow_zero, pow_one]
    exact hx
  | succ count ih =>
    have h := ih (hx.mul hx)
    rw [← pow_two, ← pow_mul, ← pow_succ'] at h
    exact h

/-- One link of the addition chain: `n` squarings of `v ^ k`, times `v ^ j`. -/
theorem Denotes.chain {k j : ℕ} (hx : x.Denotes (v ^ k)) (hy : y.Denotes (v ^ j)) (count : ℕ) :
    ((M31.squareN x count).mul y).Denotes (v ^ (k * 2 ^ count + j)) := by
  have h := (hx.squareN count).mul hy
  rw [← pow_mul, ← pow_add] at h
  exact h

theorem value_eq_zero_iff (hx : x.Canonical) : x.value = 0 ↔ x.val = 0 := by
  constructor
  · intro h
    have hzero := value_injective hx denotes_zero.canonical (h.trans denotes_zero.value_eq.symm)
    exact congrArg M31.val hzero
  · intro h
    rw [value, h]
    rfl

theorem isZero_iff (hx : x.Denotes v) : x.isZero = true ↔ v = 0 := by
  rw [isZero, beq_iff_eq, ← value_eq_zero_iff hx.canonical, hx.value_eq]

/-- Fermat: the power with exponent `p - 2` is the inverse. -/
theorem pow_sub_two (hv : v ≠ 0) : v ^ 2147483645 = v⁻¹ := by
  have hone : v ^ 2147483646 = 1 := ZMod.pow_card_sub_one_eq_one hv
  apply eq_inv_of_mul_eq_one_left
  rw [← pow_succ]
  exact hone

/-- The chain raises to `2 ^ 31 - 3 = p - 2`. -/
theorem Denotes.inv (hx : x.Denotes v) (hv : v ≠ 0) : ∃ y, x.inv = some y ∧ y.Denotes v⁻¹ := by
  have hword : x.val ≠ 0 := fun h => hv (hx.value_eq ▸ (value_eq_zero_iff hx.canonical).mpr h)
  have h1 : x.Denotes (v ^ 1) := by rwa [pow_one]
  have h2 := h1.chain h1 1
  have h4 := h2.chain h2 2
  have h8 := h4.chain h4 4
  have h16 := h8.chain h8 8
  have h24 := h16.chain h8 8
  have h28 := h24.chain h4 4
  have h29 := h28.chain h1 1
  have h31 := h29.chain h1 2
  unfold M31.inv
  rw [if_neg hword]
  refine ⟨_, rfl, ?_⟩
  rw [← pow_sub_two hv]
  exact h31

theorem inv_zero : zero.inv = none := rfl

end Operations

end M31

/-! ### The complex extension -/

namespace CM31

def Canonical (x : CM31) : Prop := x.a.Canonical ∧ x.b.Canonical

instance (x : CM31) : Decidable x.Canonical := inferInstanceAs (Decidable (_ ∧ _))

def value (x : CM31) : ComplexField := ⟨x.a.value, x.b.value⟩

structure Denotes (x : CM31) (v : ComplexField) : Prop where
  a : x.a.Denotes v.re
  b : x.b.Denotes v.im

theorem Canonical.denotes {x : CM31} (h : x.Canonical) : x.Denotes x.value := ⟨h.1.denotes, h.2.denotes⟩

theorem Denotes.canonical {x : CM31} {v : ComplexField} (h : x.Denotes v) : x.Canonical :=
  ⟨h.a.canonical, h.b.canonical⟩

theorem Denotes.value_eq {x : CM31} {v : ComplexField} (h : x.Denotes v) : x.value = v :=
  QuadraticAlgebra.ext h.a.value_eq h.b.value_eq

theorem Denotes.eq {x y : CM31} {v : ComplexField} (hx : x.Denotes v) (hy : y.Denotes v) : x = y := by
  cases x with
  | mk a b =>
    cases y with
    | mk c d =>
      have ha : a = c := hx.a.eq hy.a
      have hb : b = d := hx.b.eq hy.b
      rw [ha, hb]

theorem exists_denotes (v : ComplexField) : ∃ x : CM31, x.Denotes v := by
  obtain ⟨a, ha⟩ := M31.exists_denotes v.re
  obtain ⟨b, hb⟩ := M31.exists_denotes v.im
  exact ⟨⟨a, b⟩, ha, hb⟩

theorem value_bijOn : Set.BijOn value {x : CM31 | x.Canonical} Set.univ := by
  refine ⟨fun _ _ => Set.mem_univ _, ?_, ?_⟩
  · intro x hx y hy h
    have hxd : x.Denotes y.value := h ▸ Canonical.denotes hx
    exact hxd.eq (Canonical.denotes hy)
  · intro v _
    obtain ⟨x, hx⟩ := exists_denotes v
    exact ⟨x, hx.canonical, hx.value_eq⟩

theorem denotes_zero : zero.Denotes 0 := ⟨M31.denotes_zero, M31.denotes_zero⟩

theorem denotes_one : one.Denotes 1 := ⟨M31.denotes_one, M31.denotes_zero⟩

section Operations

variable {x y : CM31} {v w : ComplexField}

theorem Denotes.add (hx : x.Denotes v) (hy : y.Denotes w) : (x.add y).Denotes (v + w) :=
  ⟨hx.a.add hy.a, hx.b.add hy.b⟩

theorem Denotes.sub (hx : x.Denotes v) (hy : y.Denotes w) : (x.sub y).Denotes (v - w) :=
  ⟨hx.a.sub hy.a, hx.b.sub hy.b⟩

theorem Denotes.neg (hx : x.Denotes v) : x.neg.Denotes (-v) := ⟨hx.a.neg, hx.b.neg⟩

theorem Denotes.double (hx : x.Denotes v) : x.double.Denotes (2 * v) := by
  rw [two_mul]
  exact hx.add hx

/-- The Karatsuba parts of a product: the products of the real parts, of the imaginary parts and of the sums. -/
theorem denotes_of_parts {m0 m1 m2 : M31} {v w : ComplexField} (h0 : m0.Denotes (v.re * w.re))
    (h1 : m1.Denotes (v.im * w.im)) (h2 : m2.Denotes ((v.re + v.im) * (w.re + w.im))) :
    (⟨m0.sub m1, (m2.sub m0).sub m1⟩ : CM31).Denotes (v * w) := by
  constructor
  · have hre : (v * w).re = v.re * w.re - v.im * w.im := by
      rw [QuadraticAlgebra.re_mul]
      ring
    rw [hre]
    exact h0.sub h1
  · have him : (v * w).im = (v.re + v.im) * (w.re + w.im) - v.re * w.re - v.im * w.im := by
      rw [QuadraticAlgebra.im_mul]
      ring
    rw [him]
    exact (h2.sub h0).sub h1

/-- The sum of two canonical words, as the code takes it before a product. -/
theorem toNat_add_words {a b : M31} (ha : a.Canonical) (hb : b.Canonical) :
    (a.val.toUInt64 + b.val.toUInt64).toNat = a.val.toNat + b.val.toNat := by
  have hac := ha.lt
  have hbc := hb.lt
  rw [UInt64.toNat_add, UInt32.toNat_toUInt64, UInt32.toNat_toUInt64]
  omega

/-- Two factors below `2 P` have a product of at most 64 bits. -/
theorem toNat_mul_sums {s t : UInt64} (hs : s.toNat < 2 * 2147483647) (ht : t.toNat < 2 * 2147483647) :
    (s * t).toNat = s.toNat * t.toNat := by
  rw [UInt64.toNat_mul]
  apply Nat.mod_eq_of_lt
  calc s.toNat * t.toNat ≤ (2 * 2147483647) * (2 * 2147483647) := Nat.mul_le_mul hs.le ht.le
    _ < 2 ^ 64 := by norm_num

theorem Denotes.mul (hx : x.Denotes v) (hy : y.Denotes w) : (x.mul y).Denotes (v * w) := by
  have hxs := toNat_add_words hx.a.canonical hx.b.canonical
  have hys := toNat_add_words hy.a.canonical hy.b.canonical
  have hxa := hx.a.canonical.lt
  have hxb := hx.b.canonical.lt
  have hya := hy.a.canonical.lt
  have hyb := hy.b.canonical.lt
  have hparts := M31.denotes_reduceU64
    ((x.a.val.toUInt64 + x.b.val.toUInt64) * (y.a.val.toUInt64 + y.b.val.toUInt64))
  rw [toNat_mul_sums (by omega) (by omega), hxs, hys, Nat.cast_mul, Nat.cast_add, Nat.cast_add] at hparts
  apply denotes_of_parts (hx.a.mul hy.a) (hx.b.mul hy.b)
  rw [← hx.a.value_eq, ← hx.b.value_eq, ← hy.a.value_eq, ← hy.b.value_eq]
  exact hparts

theorem Denotes.square (hx : x.Denotes v) : x.square.Denotes (v * v) := by
  have hxa := hx.a.canonical.lt
  have hxb := hx.b.canonical.lt
  have hs := toNat_add_words hx.a.canonical hx.b.canonical
  have hd : (x.a.val.toUInt64 + P.toUInt64 - x.b.val.toUInt64).toNat =
      x.a.val.toNat + 2147483647 - x.b.val.toNat := by
    have hsum : (x.a.val.toUInt64 + P.toUInt64).toNat = x.a.val.toNat + 2147483647 := by
      rw [UInt64.toNat_add, UInt32.toNat_toUInt64, UInt32.toNat_toUInt64, toNat_P]
      omega
    rw [UInt64.toNat_sub_of_le _ _ (by rw [UInt64.le_iff_toNat_le, hsum, UInt32.toNat_toUInt64]; omega), hsum,
      UInt32.toNat_toUInt64]
  have hparts := M31.denotes_reduceU64
    ((x.a.val.toUInt64 + x.b.val.toUInt64) * (x.a.val.toUInt64 + P.toUInt64 - x.b.val.toUInt64))
  rw [toNat_mul_sums (by omega) (by omega), hs, hd, Nat.cast_mul, Nat.cast_add, Nat.cast_sub (by omega),
    Nat.cast_add, ZMod.natCast_self, add_zero] at hparts
  constructor
  · have hre : (v * v).re = (v.re + v.im) * (v.re - v.im) := by
      rw [QuadraticAlgebra.re_mul]
      ring
    rw [hre, ← hx.a.value_eq, ← hx.b.value_eq]
    exact hparts
  · have him : (v * v).im = 2 * (v.re * v.im) := by
      rw [QuadraticAlgebra.im_mul]
      ring
    rw [him]
    exact (hx.a.mul hx.b).double

/-- An element of the base field, read in the extension. -/
theorem denotes_fromM31 {y : M31} {w : BaseField} (hy : y.Denotes w) : (fromM31 y).Denotes ⟨w, 0⟩ :=
  ⟨hy, M31.denotes_zero⟩

theorem Denotes.mulM31 {y : M31} {w : BaseField} (hx : x.Denotes v) (hy : y.Denotes w) :
    (x.mulM31 y).Denotes (w • v) := by
  constructor
  · rw [QuadraticAlgebra.re_smul, smul_eq_mul, mul_comm]
    exact hx.a.mul hy
  · rw [QuadraticAlgebra.im_smul, smul_eq_mul, mul_comm]
    exact hx.b.mul hy

instance : NeZero (2 : ComplexField) := ⟨fun h => two_ne_zero_base (congrArg QuadraticAlgebra.re h)⟩

theorem halves_eq (v : ComplexField) : (⟨v.re / 2, v.im / 2⟩ : ComplexField) = v / 2 := by
  rw [eq_div_iff two_ne_zero, mul_two]
  ext
  · exact add_halves v.re
  · exact add_halves v.im

theorem Denotes.half (hx : x.Denotes v) : x.half.Denotes (v / 2) := by
  rw [← halves_eq]
  exact ⟨hx.a.half, hx.b.half⟩

theorem Denotes.conjugate (hx : x.Denotes v) : x.conjugate.Denotes (star v) := by
  constructor
  · have hre : (star v).re = v.re := by simp
    rw [hre]
    exact hx.a
  · have him : (star v).im = -v.im := by simp
    rw [him]
    exact hx.b.neg

theorem Denotes.mulI (hx : x.Denotes v) : x.mulI.Denotes (⟨0, 1⟩ * v) := by
  constructor
  · have hre : (⟨0, 1⟩ * v : ComplexField).re = -v.im := by simp
    rw [hre]
    exact hx.b.neg
  · have him : (⟨0, 1⟩ * v : ComplexField).im = v.re := by simp
    rw [him]
    exact hx.a

theorem Denotes.pow (hx : x.Denotes v) (exp : UInt64) : (x.pow exp).Denotes (v ^ exp.toNat) := by
  have h := powLoop_related (fun _ _ _ _ hx hy => Denotes.mul hx hy) (fun _ _ hx => Denotes.square hx) exp.toNat
    x one v 1 hx denotes_one
  rw [one_mul] at h
  exact h

theorem isZero_iff (hx : x.Denotes v) : x.isZero = true ↔ v = 0 := by
  rw [isZero, Bool.and_eq_true, M31.isZero_iff hx.a, M31.isZero_iff hx.b]
  exact ⟨fun h => QuadraticAlgebra.ext h.1 h.2, fun h => by rw [h]; exact ⟨rfl, rfl⟩⟩

theorem norm_eq (v : ComplexField) : v.norm = v.re * v.re + v.im * v.im := by
  rw [QuadraticAlgebra.norm_def]
  ring

/-- The inverse is the conjugate over the norm, and only zero has norm zero. -/
theorem Denotes.inv (hx : x.Denotes v) (hv : v ≠ 0) : ∃ y, x.inv = some y ∧ y.Denotes v⁻¹ := by
  have hnorm := (hx.a.mul hx.a).add (hx.b.mul hx.b)
  rw [← norm_eq] at hnorm
  have hne : v.norm ≠ 0 := fun h => hv (QuadraticAlgebra.norm_eq_zero_iff_eq_zero.mp h)
  obtain ⟨inverse, hinv, hd⟩ := hnorm.inv hne
  refine ⟨⟨x.a.mul inverse, x.b.neg.mul inverse⟩, ?_, ?_⟩
  · simp only [CM31.inv, hinv]
    rfl
  · constructor
    · have hre : (v⁻¹).re = v.re * v.norm⁻¹ := by
        rw [QuadraticAlgebra.re_inv]
        simp [mul_comm]
      rw [hre]
      exact hx.a.mul hd
    · have him : (v⁻¹).im = -v.im * v.norm⁻¹ := by
        rw [QuadraticAlgebra.im_inv]
        simp [mul_comm]
      rw [him]
      exact hx.b.neg.mul hd

theorem Denotes.mulByR (hx : x.Denotes v) : (mulByR x).Denotes (⟨2, 1⟩ * v) := by
  constructor
  · have hre : (⟨2, 1⟩ * v : ComplexField).re = 2 * v.re - v.im := by
      rw [QuadraticAlgebra.re_mul]
      ring
    rw [hre]
    exact hx.a.double.sub hx.b
  · have him : (⟨2, 1⟩ * v : ComplexField).im = v.re + 2 * v.im := by
      rw [QuadraticAlgebra.im_mul]
      ring
    rw [him]
    exact hx.a.add hx.b.double

end Operations

end CM31

/-! ### The quartic extension -/

namespace QM31

def Canonical (x : QM31) : Prop := x.c0.Canonical ∧ x.c1.Canonical

instance (x : QM31) : Decidable x.Canonical := inferInstanceAs (Decidable (_ ∧ _))

def value (x : QM31) : QuarticField := ⟨x.c0.value, x.c1.value⟩

structure Denotes (x : QM31) (v : QuarticField) : Prop where
  c0 : x.c0.Denotes v.re
  c1 : x.c1.Denotes v.im

theorem Canonical.denotes {x : QM31} (h : x.Canonical) : x.Denotes x.value := ⟨h.1.denotes, h.2.denotes⟩

theorem Denotes.canonical {x : QM31} {v : QuarticField} (h : x.Denotes v) : x.Canonical :=
  ⟨h.c0.canonical, h.c1.canonical⟩

theorem Denotes.value_eq {x : QM31} {v : QuarticField} (h : x.Denotes v) : x.value = v :=
  QuadraticAlgebra.ext h.c0.value_eq h.c1.value_eq

theorem Denotes.eq {x y : QM31} {v : QuarticField} (hx : x.Denotes v) (hy : y.Denotes v) : x = y := by
  cases x with
  | mk a b =>
    cases y with
    | mk c d =>
      have ha : a = c := hx.c0.eq hy.c0
      have hb : b = d := hx.c1.eq hy.c1
      rw [ha, hb]

theorem exists_denotes (v : QuarticField) : ∃ x : QM31, x.Denotes v := by
  obtain ⟨a, ha⟩ := CM31.exists_denotes v.re
  obtain ⟨b, hb⟩ := CM31.exists_denotes v.im
  exact ⟨⟨a, b⟩, ha, hb⟩

theorem value_bijOn : Set.BijOn value {x : QM31 | x.Canonical} Set.univ := by
  refine ⟨fun _ _ => Set.mem_univ _, ?_, ?_⟩
  · intro x hx y hy h
    have hxd : x.Denotes y.value := h ▸ Canonical.denotes hx
    exact hxd.eq (Canonical.denotes hy)
  · intro v _
    obtain ⟨x, hx⟩ := exists_denotes v
    exact ⟨x, hx.canonical, hx.value_eq⟩

theorem denotes_zero : zero.Denotes 0 := ⟨CM31.denotes_zero, CM31.denotes_zero⟩

theorem denotes_one : one.Denotes 1 := ⟨CM31.denotes_one, CM31.denotes_zero⟩

section Operations

variable {x y : QM31} {v w : QuarticField}

theorem Denotes.add (hx : x.Denotes v) (hy : y.Denotes w) : (x.add y).Denotes (v + w) :=
  ⟨hx.c0.add hy.c0, hx.c1.add hy.c1⟩

theorem Denotes.sub (hx : x.Denotes v) (hy : y.Denotes w) : (x.sub y).Denotes (v - w) :=
  ⟨hx.c0.sub hy.c0, hx.c1.sub hy.c1⟩

theorem Denotes.neg (hx : x.Denotes v) : x.neg.Denotes (-v) := ⟨hx.c0.neg, hx.c1.neg⟩

/-- The Karatsuba parts of a product in the second extension. -/
theorem denotes_of_parts {m0 m1 m2 : CM31} {v w : QuarticField} (h0 : m0.Denotes (v.re * w.re))
    (h1 : m1.Denotes (v.im * w.im)) (h2 : m2.Denotes ((v.re + v.im) * (w.re + w.im))) :
    (⟨m0.add (mulByR m1), (m2.sub m0).sub m1⟩ : QM31).Denotes (v * w) := by
  constructor
  · have hre : (v * w).re = v.re * w.re + ⟨2, 1⟩ * (v.im * w.im) := by
      rw [QuadraticAlgebra.re_mul]
      ring
    rw [hre]
    exact h0.add h1.mulByR
  · have him : (v * w).im = (v.re + v.im) * (w.re + w.im) - v.re * w.re - v.im * w.im := by
      rw [QuadraticAlgebra.im_mul]
      ring
    rw [him]
    exact (h2.sub h0).sub h1

theorem Denotes.mul (hx : x.Denotes v) (hy : y.Denotes w) : (x.mul y).Denotes (v * w) :=
  denotes_of_parts (hx.c0.mul hy.c0) (hx.c1.mul hy.c1) ((hx.c0.add hx.c1).mul (hy.c0.add hy.c1))

theorem Denotes.square (hx : x.Denotes v) : x.square.Denotes (v * v) := by
  constructor
  · have hre : (v * v).re = v.re * v.re + ⟨2, 1⟩ * (v.im * v.im) := by
      rw [QuadraticAlgebra.re_mul]
      ring
    rw [hre]
    exact hx.c0.square.add hx.c1.square.mulByR
  · have him : (v * v).im = 2 * (v.re * v.im) := by
      rw [QuadraticAlgebra.im_mul]
      ring
    rw [him]
    exact (hx.c0.mul hx.c1).double

theorem Denotes.mulCm31 {y : CM31} {w : ComplexField} (hx : x.Denotes v) (hy : y.Denotes w) :
    (x.mulCm31 y).Denotes (w • v) := by
  constructor
  · rw [QuadraticAlgebra.re_smul, smul_eq_mul, mul_comm]
    exact hx.c0.mul hy
  · rw [QuadraticAlgebra.im_smul, smul_eq_mul, mul_comm]
    exact hx.c1.mul hy

theorem Denotes.mulM31 {y : M31} {w : BaseField} (hx : x.Denotes v) (hy : y.Denotes w) :
    (x.mulM31 y).Denotes (w • v) := ⟨hx.c0.mulM31 hy, hx.c1.mulM31 hy⟩

instance : NeZero (2 : QuarticField) :=
  ⟨fun h => two_ne_zero (α := ComplexField) (congrArg QuadraticAlgebra.re h)⟩

theorem halves_eq (v : QuarticField) : (⟨v.re / 2, v.im / 2⟩ : QuarticField) = v / 2 := by
  rw [eq_div_iff two_ne_zero, mul_two]
  ext1
  · exact add_halves v.re
  · exact add_halves v.im

theorem Denotes.half (hx : x.Denotes v) : x.half.Denotes (v / 2) := by
  rw [← halves_eq]
  exact ⟨hx.c0.half, hx.c1.half⟩

theorem Denotes.pow (hx : x.Denotes v) (exp : UInt64) : (x.pow exp).Denotes (v ^ exp.toNat) := by
  have h := powLoop_related (fun _ _ _ _ hx hy => Denotes.mul hx hy) (fun _ _ hx => Denotes.square hx) exp.toNat
    x one v 1 hx denotes_one
  rw [one_mul] at h
  exact h

theorem isZero_iff (hx : x.Denotes v) : x.isZero = true ↔ v = 0 := by
  rw [isZero, Bool.and_eq_true, CM31.isZero_iff hx.c0, CM31.isZero_iff hx.c1]
  exact ⟨fun h => QuadraticAlgebra.ext h.1 h.2, fun h => by rw [h]; exact ⟨rfl, rfl⟩⟩

theorem norm_eq (v : QuarticField) : v.norm = v.re * v.re - ⟨2, 1⟩ * (v.im * v.im) := by
  rw [QuadraticAlgebra.norm_def]
  ring

theorem Denotes.tryInv (hx : x.Denotes v) (hv : v ≠ 0) : ∃ y, x.tryInv = some y ∧ y.Denotes v⁻¹ := by
  have hzero : x.isZero = false := by
    rw [← Bool.not_eq_true, isZero_iff hx]
    exact hv
  have hnorm := hx.c0.square.sub hx.c1.square.mulByR
  rw [← norm_eq] at hnorm
  have hne : v.norm ≠ 0 := fun h => hv (QuadraticAlgebra.norm_eq_zero_iff_eq_zero.mp h)
  obtain ⟨inverse, hinv, hd⟩ := hnorm.inv hne
  refine ⟨⟨x.c0.mul inverse, x.c1.neg.mul inverse⟩, ?_, ?_⟩
  · simp only [QM31.tryInv, hzero, hinv]
    rfl
  · constructor
    · have hre : (v⁻¹).re = v.re * v.norm⁻¹ := by
        rw [QuadraticAlgebra.re_inv]
        simp [mul_comm]
      rw [hre]
      exact hx.c0.mul hd
    · have him : (v⁻¹).im = -v.im * v.norm⁻¹ := by
        rw [QuadraticAlgebra.im_inv]
        simp [mul_comm]
      rw [him]
      exact hx.c1.neg.mul hd

end Operations

end QM31

/-! ### Base elements in the extension -/

/-- An element of the base field in the extension. -/
def lift (x : BaseField) : QuarticField := algebraMap BaseField QuarticField x

theorem denotes_mulM31 {x : QM31} {y : M31} {v : QuarticField} {w : BaseField} (hx : x.Denotes v) (hy : y.Denotes w) :
    (x.mulM31 y).Denotes (v * lift w) := by
  have hmul : v * lift w = w • v := by
    rw [Algebra.smul_def, mul_comm]
    rfl
  rw [hmul]
  exact hx.mulM31 hy

theorem lift_mul (x y : BaseField) : lift (x * y) = lift x * lift y := map_mul _ x y

theorem denotes_lift {x : M31} {v : BaseField} (h : x.Denotes v) : (QM31.fromCm31 (CM31.fromM31 x)).Denotes (lift v) :=
  ⟨CM31.denotes_fromM31 h, CM31.denotes_zero⟩

/-! ### The operations of the tower -/

/-- What the base operations return for two words. -/
structure M31.Arithmetic (x y : M31) : Prop where
  add : (x.add y).Denotes (x.value + y.value)
  sub : (x.sub y).Denotes (x.value - y.value)
  neg : x.neg.Denotes (-x.value)
  mul : (x.mul y).Denotes (x.value * y.value)
  double : x.double.Denotes (2 * x.value)
  half : x.half.Denotes (x.value / 2)
  mul_pow2 : ∀ shift : UInt8, shift.toNat ≤ 30 → (x.mulPow2 shift).Denotes (x.value * 2 ^ shift.toNat)
  pow : ∀ exp, (x.pow exp).Denotes (x.value ^ exp.toNat)
  is_zero : x.isZero = true ↔ x.value = 0
  inv : x.value ≠ 0 → ∃ z, x.inv = some z ∧ z.Denotes x.value⁻¹

/-- What the operations of the complex extension return, those with a base factor included. -/
structure CM31.Arithmetic (x y : CM31) : Prop where
  add : (x.add y).Denotes (x.value + y.value)
  sub : (x.sub y).Denotes (x.value - y.value)
  neg : x.neg.Denotes (-x.value)
  mul : (x.mul y).Denotes (x.value * y.value)
  square : x.square.Denotes (x.value * x.value)
  mul_m31 : ∀ z : M31, z.Canonical → (x.mulM31 z).Denotes (z.value • x.value)
  double : x.double.Denotes (2 * x.value)
  half : x.half.Denotes (x.value / 2)
  conjugate : x.conjugate.Denotes (star x.value)
  mul_i : x.mulI.Denotes (⟨0, 1⟩ * x.value)
  mul_by_r : (mulByR x).Denotes (⟨2, 1⟩ * x.value)
  pow : ∀ exp, (x.pow exp).Denotes (x.value ^ exp.toNat)
  is_zero : x.isZero = true ↔ x.value = 0
  inv : x.value ≠ 0 → ∃ z, x.inv = some z ∧ z.Denotes x.value⁻¹

/-- What the operations of the quartic extension return, those with a factor of a smaller field included. -/
structure QM31.Arithmetic (x y : QM31) : Prop where
  add : (x.add y).Denotes (x.value + y.value)
  sub : (x.sub y).Denotes (x.value - y.value)
  neg : x.neg.Denotes (-x.value)
  mul : (x.mul y).Denotes (x.value * y.value)
  square : x.square.Denotes (x.value * x.value)
  mul_cm31 : ∀ z : CM31, z.Canonical → (x.mulCm31 z).Denotes (z.value • x.value)
  mul_m31 : ∀ z : M31, z.Canonical → (x.mulM31 z).Denotes (z.value • x.value)
  half : x.half.Denotes (x.value / 2)
  pow : ∀ exp, (x.pow exp).Denotes (x.value ^ exp.toNat)
  is_zero : x.isZero = true ↔ x.value = 0
  try_inv : x.value ≠ 0 → ∃ z, x.tryInv = some z ∧ z.Denotes x.value⁻¹

theorem M31.arithmetic {x y : M31} (hx : x.Canonical) (hy : y.Canonical) : M31.Arithmetic x y where
  add := hx.denotes.add hy.denotes
  sub := hx.denotes.sub hy.denotes
  neg := hx.denotes.neg
  mul := hx.denotes.mul hy.denotes
  double := hx.denotes.double
  half := hx.denotes.half
  mul_pow2 _ hshift := hx.denotes.mulPow2 hshift
  pow := hx.denotes.pow
  is_zero := M31.isZero_iff hx.denotes
  inv := hx.denotes.inv

theorem CM31.arithmetic {x y : CM31} (hx : x.Canonical) (hy : y.Canonical) : CM31.Arithmetic x y where
  add := hx.denotes.add hy.denotes
  sub := hx.denotes.sub hy.denotes
  neg := hx.denotes.neg
  mul := hx.denotes.mul hy.denotes
  square := hx.denotes.square
  mul_m31 _ hz := hx.denotes.mulM31 hz.denotes
  double := hx.denotes.double
  half := hx.denotes.half
  conjugate := hx.denotes.conjugate
  mul_i := hx.denotes.mulI
  mul_by_r := hx.denotes.mulByR
  pow := hx.denotes.pow
  is_zero := CM31.isZero_iff hx.denotes
  inv := hx.denotes.inv

theorem QM31.arithmetic {x y : QM31} (hx : x.Canonical) (hy : y.Canonical) : QM31.Arithmetic x y where
  add := hx.denotes.add hy.denotes
  sub := hx.denotes.sub hy.denotes
  neg := hx.denotes.neg
  mul := hx.denotes.mul hy.denotes
  square := hx.denotes.square
  mul_cm31 _ hz := hx.denotes.mulCm31 hz.denotes
  mul_m31 _ hz := hx.denotes.mulM31 hz.denotes
  half := hx.denotes.half
  pow := hx.denotes.pow
  is_zero := QM31.isZero_iff hx.denotes
  try_inv := hx.denotes.tryInv

theorem QM31.value_ne_zero {x : QM31} (hx : x.Canonical) (hne : x ≠ QM31.zero) : x.value ≠ 0 := by
  intro h
  have hd : x.Denotes 0 := ⟨h ▸ hx.denotes.c0, h ▸ hx.denotes.c1⟩
  exact hne (hd.eq QM31.denotes_zero)

/-- The inverse of every nonzero element is returned and multiplies back to one. -/
theorem QM31.tryInv_mul {x : QM31} (hx : x.Canonical) (hne : x ≠ QM31.zero) :
    ∃ y, x.tryInv = some y ∧ y.Canonical ∧ x.mul y = QM31.one := by
  have hv := QM31.value_ne_zero hx hne
  obtain ⟨y, hy, hd⟩ := hx.denotes.tryInv hv
  have hmul := hx.denotes.mul hd
  rw [mul_inv_cancel₀ hv] at hmul
  exact ⟨y, hy, hd.canonical, hmul.eq QM31.denotes_one⟩

/-- The words of the tower compute in `F_p`, `F_p[i]` and `F_p[i][u]`, the last of these is a field, and its zero
is the one element without an inverse. -/
theorem tower_arithmetic :
    (∀ x y : M31, x.Canonical → y.Canonical → M31.Arithmetic x y) ∧
    (∀ x y : CM31, x.Canonical → y.Canonical → CM31.Arithmetic x y) ∧
    (∀ x y : QM31, x.Canonical → y.Canonical → QM31.Arithmetic x y) ∧
    Set.BijOn M31.value {x | x.Canonical} Set.univ ∧ Set.BijOn CM31.value {x | x.Canonical} Set.univ ∧
    Set.BijOn QM31.value {x | x.Canonical} Set.univ ∧ IsField QuarticField ∧
    (∀ x : QM31, x.Canonical → x ≠ QM31.zero → ∃ y, x.tryInv = some y ∧ y.Canonical ∧ x.mul y = QM31.one) ∧
    ∀ x : QM31, x.Canonical → (x.tryInv = none ↔ x = QM31.zero) := by
  refine ⟨fun _ _ => M31.arithmetic, fun _ _ => CM31.arithmetic, fun _ _ => QM31.arithmetic, M31.value_bijOn,
    CM31.value_bijOn, QM31.value_bijOn, Field.toIsField QuarticField, fun _ => QM31.tryInv_mul, ?_⟩
  intro x hx
  constructor
  · intro hnone
    by_contra hne
    obtain ⟨y, hy, -⟩ := QM31.tryInv_mul hx hne
    rw [hnone] at hy
    cases hy
  · intro hzero
    rw [hzero]
    rfl

/-- The tower at `1 + 2 i + 3 u + 4 i u`. -/
theorem tower_arithmetic_sample :
    (⟨⟨⟨1⟩, ⟨2⟩⟩, ⟨⟨3⟩, ⟨4⟩⟩⟩ : QM31).Canonical ∧
    ∃ y, (⟨⟨⟨1⟩, ⟨2⟩⟩, ⟨⟨3⟩, ⟨4⟩⟩⟩ : QM31).tryInv = some y ∧ y.Canonical ∧
      (⟨⟨⟨1⟩, ⟨2⟩⟩, ⟨⟨3⟩, ⟨4⟩⟩⟩ : QM31).mul y = QM31.one := by
  have hx : (⟨⟨⟨1⟩, ⟨2⟩⟩, ⟨⟨3⟩, ⟨4⟩⟩⟩ : QM31).Canonical := by decide
  exact ⟨hx, tower_arithmetic.2.2.2.2.2.2.2.1 _ hx (by decide)⟩

end Aspis.Core
