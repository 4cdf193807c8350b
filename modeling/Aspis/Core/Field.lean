import Mathlib.Tactic.Common

/-! The field tower of the proof system and the circle over it. An M31 value is a
machine word that is kept below `P = 2 ^ 31 - 1`; CM31 adds `i` with `i² = -1`, and
QM31 adds `u` with `u² = 2 + i`. Everything is computed with the words of the code:
32-bit values, and 64-bit values where a product or a sum is reduced later. -/

namespace Aspis.Core

namespace Widths

/-! The widths of the kernels. A numeral below one of them carries the named fact. -/

scoped instance two : @NeZero ℕ Zero.ofOfNat0 2 := ⟨by decide⟩

scoped instance three : @NeZero ℕ Zero.ofOfNat0 3 := ⟨by decide⟩

scoped instance four : @NeZero ℕ Zero.ofOfNat0 4 := ⟨by decide⟩

scoped instance sixteen : @NeZero ℕ Zero.ofOfNat0 16 := ⟨by decide⟩

scoped instance twentySeven : @NeZero ℕ Zero.ofOfNat0 27 := ⟨by decide⟩

theorem div_four_lt (i : Fin 16) : i.val / 4 < 4 := by omega

theorem mod_four_lt (i : Fin 16) : i.val % 4 < 4 := by omega

end Widths

/-- The Mersenne prime `2 ^ 31 - 1`. -/
def P : UInt32 := 0x7fffffff

def reduceU64 (x : UInt64) : UInt32 :=
  let x := (x &&& P.toUInt64) + (x >>> 31)
  let x := (x &&& P.toUInt64) + (x >>> 31)
  let x := x.toUInt32
  if P ≤ x then x - P else x

/-- Square and multiply, from the low bit of the exponent up. -/
def powLoop {α : Type*} (mul : α → α → α) (square : α → α) (base acc : α) (exp : ℕ) : α :=
  if exp = 0 then acc
  else powLoop mul square (square base) (if exp % 2 = 1 then mul acc base else acc) (exp / 2)
termination_by exp

structure M31 where
  val : UInt32
  deriving DecidableEq, Repr

namespace M31

def zero : M31 := ⟨0⟩

def one : M31 := ⟨1⟩

def add (x y : M31) : M31 :=
  let s := x.val + y.val
  ⟨if P ≤ s then s - P else s⟩

def sub (x y : M31) : M31 :=
  let s := x.val + P - y.val
  ⟨if P ≤ s then s - P else s⟩

def neg (x : M31) : M31 := if x.val = 0 then ⟨0⟩ else ⟨P - x.val⟩

def mul (x y : M31) : M31 := ⟨reduceU64 (x.val.toUInt64 * y.val.toUInt64)⟩

def double (x : M31) : M31 := x.add x

def isZero (x : M31) : Bool := x.val == 0

/-- The canonical form of any 64-bit value. -/
def reduceU64 (value : UInt64) : M31 := ⟨Core.reduceU64 value⟩

/-- The canonical form of a value that is known to lie below `2 ^ 62`. -/
def reduceU62 (value : UInt64) : M31 := ⟨Core.reduceU64 value⟩

/-- The canonical form of any 128-bit value, by four folds. -/
def reduceU128 (value : BitVec 128) : M31 :=
  let mask : BitVec 128 := 0x7fffffff
  let value := (value &&& mask) + (value >>> 31)
  let value := (value &&& mask) + (value >>> 31)
  let value := (value &&& mask) + (value >>> 31)
  let value := (value &&& mask) + (value >>> 31)
  let value := UInt32.ofBitVec (value.truncate 32)
  ⟨if P ≤ value then value - P else value⟩

/-- Multiplication by `2 ^ shift` for a shift of at most 30. -/
def mulPow2 (x : M31) (shift : UInt8) : M31 := ⟨Core.reduceU64 (x.val.toUInt64 <<< shift.toUInt64)⟩

/-- Division by two: the low bit is rotated to bit 30. -/
def half (x : M31) : M31 := ⟨(x.val >>> 1) ||| ((x.val &&& 1) <<< 30)⟩

def pow (x : M31) (exp : UInt64) : M31 := powLoop mul (fun base => base.mul base) x one exp.toNat

/-- `value` squared `count` times. -/
def squareN (value : M31) : ℕ → M31
  | 0 => value
  | count + 1 => squareN (value.mul value) count

/-- The inverse by the addition chain for `P - 2`; none stands for the assertion that the value is not zero. -/
def inv (x : M31) : Option M31 :=
  if x.val = 0 then none
  else
    let t2 := (x.mul x).mul x
    let t4 := (squareN t2 2).mul t2
    let t8 := (squareN t4 4).mul t4
    let t16 := (squareN t8 8).mul t8
    let t24 := (squareN t16 8).mul t8
    let t28 := (squareN t24 4).mul t4
    let t29 := (t28.mul t28).mul x
    let t30 := t29.mul t29
    some ((t30.mul t30).mul x)

end M31

/-- `a + b i`. -/
structure CM31 where
  a : M31
  b : M31
  deriving DecidableEq, Repr

namespace CM31

def zero : CM31 := ⟨.zero, .zero⟩

def one : CM31 := ⟨.one, .zero⟩

def fromM31 (a : M31) : CM31 := ⟨a, .zero⟩

def add (x y : CM31) : CM31 := ⟨x.a.add y.a, x.b.add y.b⟩

def sub (x y : CM31) : CM31 := ⟨x.a.sub y.a, x.b.sub y.b⟩

def neg (x : CM31) : CM31 := ⟨x.a.neg, x.b.neg⟩

def mul (x y : CM31) : CM31 :=
  let m0 := x.a.mul y.a
  let m1 := x.b.mul y.b
  -- the two sums are left unreduced, as their product still fits into 64 bits
  let m2 : M31 := ⟨reduceU64 ((x.a.val.toUInt64 + x.b.val.toUInt64) * (y.a.val.toUInt64 + y.b.val.toUInt64))⟩
  ⟨m0.sub m1, (m2.sub m0).sub m1⟩

def square (x : CM31) : CM31 :=
  ⟨⟨reduceU64 ((x.a.val.toUInt64 + x.b.val.toUInt64) * (x.a.val.toUInt64 + P.toUInt64 - x.b.val.toUInt64))⟩,
    (x.a.mul x.b).double⟩

def mulM31 (x : CM31) (y : M31) : CM31 := ⟨x.a.mul y, x.b.mul y⟩

def double (x : CM31) : CM31 := x.add x

def half (x : CM31) : CM31 := ⟨x.a.half, x.b.half⟩

/-- The inverse of a point of the unit circle. -/
def conjugate (x : CM31) : CM31 := ⟨x.a, x.b.neg⟩

/-- Multiplication by `i`. -/
def mulI (x : CM31) : CM31 := ⟨x.b.neg, x.a⟩

def pow (x : CM31) (exp : UInt64) : CM31 := powLoop mul square x one exp.toNat

def inv (x : CM31) : Option CM31 := do
  let norm := (x.a.mul x.a).add (x.b.mul x.b)
  let invNorm ← norm.inv
  return ⟨x.a.mul invNorm, x.b.neg.mul invNorm⟩

def isZero (x : CM31) : Bool := x.a.isZero && x.b.isZero

end CM31

/-- Multiplication by `2 + i`. -/
def mulByR (x : CM31) : CM31 := ⟨x.a.double.sub x.b, x.a.add x.b.double⟩

/-- `c0 + c1 u`. -/
structure QM31 where
  c0 : CM31
  c1 : CM31
  deriving DecidableEq, Repr

namespace QM31

def zero : QM31 := ⟨.zero, .zero⟩

def one : QM31 := ⟨⟨.one, .zero⟩, .zero⟩

def fromCm31 (c0 : CM31) : QM31 := ⟨c0, .zero⟩

def add (x y : QM31) : QM31 := ⟨x.c0.add y.c0, x.c1.add y.c1⟩

def sub (x y : QM31) : QM31 := ⟨x.c0.sub y.c0, x.c1.sub y.c1⟩

def neg (x : QM31) : QM31 := ⟨x.c0.neg, x.c1.neg⟩

def half (x : QM31) : QM31 := ⟨x.c0.half, x.c1.half⟩

def mul (x y : QM31) : QM31 :=
  let m0 := x.c0.mul y.c0
  let m1 := x.c1.mul y.c1
  let m2 := (x.c0.add x.c1).mul (y.c0.add y.c1)
  ⟨m0.add (mulByR m1), (m2.sub m0).sub m1⟩

def square (x : QM31) : QM31 :=
  let c0Square := x.c0.square
  let c1Square := x.c1.square
  ⟨c0Square.add (mulByR c1Square), (x.c0.mul x.c1).double⟩

def mulCm31 (x : QM31) (y : CM31) : QM31 := ⟨x.c0.mul y, x.c1.mul y⟩

def mulM31 (x : QM31) (y : M31) : QM31 := ⟨x.c0.mulM31 y, x.c1.mulM31 y⟩

def pow (x : QM31) (exp : UInt64) : QM31 := powLoop mul square x one exp.toNat

def isZero (x : QM31) : Bool := x.c0.isZero && x.c1.isZero

/-- The inverse, by the norm to CM31; none for zero, and for the assertion in the inversion of the norm. -/
def tryInv (x : QM31) : Option QM31 :=
  if x.isZero then none
  else do
    let norm := x.c0.square.sub (mulByR x.c1.square)
    let inverseNorm ← norm.inv
    return ⟨x.c0.mul inverseNorm, x.c1.neg.mul inverseNorm⟩

end QM31

/-! ### The circle -/

/-- A point of the circle `x² + y² = 1` over QM31. -/
structure SecureCirclePoint where
  x : QM31
  y : QM31
  deriving DecidableEq, Repr

inductive CirclePointError
  | singularParameter
  | parameterInCm31Subfield
  deriving DecidableEq, Repr

/-- The point `((1 - t²) / (1 + t²), 2 t / (1 + t²))`. -/
def secureCirclePointFromParameter (parameter : QM31) : Except CirclePointError SecureCirclePoint :=
  let square := parameter.square
  match (QM31.one.add square).tryInv with
  | none => .error .singularParameter
  | some inverseDenominator =>
    .ok ⟨(QM31.one.sub square).mul inverseDenominator, (parameter.add parameter).mul inverseDenominator⟩

/-- The point, unless its parameter lies in CM31. -/
def secureOodCirclePointFromParameter (parameter : QM31) : Except CirclePointError SecureCirclePoint := do
  let point ← secureCirclePointFromParameter parameter
  if parameter.c1 = .zero then .error .parameterInCm31Subfield else .ok point

end Aspis.Core
