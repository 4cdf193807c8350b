import Aspis.Core.DotKernels
import Aspis.Lib.Exec

/-! Structured linear forms over the coefficient vector, and the interleaved sumcheck on them. A form
of `2 ^ logLen` weights is kept as a list of components, each in one of ten representations with its
own rule for the dual fold. A function returns none where the source would read past the end of an
array, overflow, fail an assertion or reach a branch it declares unreachable. -/

namespace Aspis.Core

open Aspis.Lib.Accumulate

inductive WeightComponent
  | geometric (scale base : QM31)
  | multilinear (scale : QM31) (point : List QM31)
  | tensor (scale : QM31) (factors : List QM31)
  | lineM31Tensor (scale : QM31) (x : M31)
  | lineM31Batch (scales : List QM31) (xs : List M31) (deferredHalvings : ℕ)
  | product (scale : QM31) (pairs : List (QM31 × QM31))
  | dense (values : List QM31)
  | grouped64x16 (rowGroups : List ℕ) (groupValues : List QM31) (lowWidth : ℕ)
  | grouped64x16BinaryDeferred (rowGroups : List ℕ) (groupMasks : List UInt16) (firstAlpha : Option QM31)
      (groupValues : List QM31)
  | grouped128x16 (rowGroups : List ℕ) (groupValues : List QM31) (lowWidth : ℕ)
  deriving DecidableEq, Repr

inductive TensorWeightError
  | multilinearPointLength
  | factorCount
  | circleLogLength
  | indexInterval
  | denseLength
  | grouped64x16LogLength
  | grouped64x16PreparedShape
  | grouped128x16LogLength
  deriving DecidableEq, Repr

structure WeightAccumulator where
  logLen : ℕ
  components : List WeightComponent
  deriving DecidableEq, Repr

/-! ### Weights -/

/-- The circle map on the first coordinate, `2 x ^ 2 - 1`. -/
def doubleX (x : QM31) : QM31 :=
  let square := x.square
  (square.add square).sub QM31.one

def doubleXM31 (x : M31) : M31 := (x.mul x).double.sub M31.one

def halveQm31 (value : QM31) : ℕ → QM31
  | 0 => value
  | count + 1 => halveQm31 value.half count

/-- A loop over the coordinates of a point; the last coordinate belongs to the lowest bit of the index. -/
def bigEndianLoop {β : Type} (step : QM31 → β → Bool → QM31) (index : ℕ) : List β → QM31 → QM31
  | [], value => value
  | item :: rest, value => bigEndianLoop step index rest (step value item (index.testBit rest.length))

def multilinearStep (value z : QM31) (bit : Bool) : QM31 := if bit then value.mul z else value.mul (QM31.one.sub z)

def tensorStep (value factor : QM31) (bit : Bool) : QM31 := if bit then value.mul factor else value

def productStep (value : QM31) (pair : QM31 × QM31) (bit : Bool) : QM31 :=
  value.mul (if bit then pair.2 else pair.1)

/-- A line tensor at an index: the factor of each bit is the double of the one before it. -/
def lineLoop (logLen index : ℕ) (scale : QM31) (x : M31) : QM31 :=
  ((List.range logLen).foldl (fun (state : QM31 × M31) bit =>
    (if index.testBit bit then state.1.mulM31 state.2 else state.1, doubleXM31 state.2)) (scale, x)).1

/-- The challenge powers in the dual order. -/
def dualPowers (alpha alpha2 alpha3 : QM31) : Fin 4 → QM31 := ![QM31.one, alpha3, alpha2, alpha]

/-- The sum of the basis entries whose bit is set. -/
def sumSelected {n : ℕ} (bits : UInt16) (basis : Fin n → QM31) : QM31 :=
  (List.finRange n).foldl (fun sum low => if bits.toNat.testBit low.val then sum.add (basis low) else sum) QM31.zero

def grouped64x16BinaryDeferredWeightAtLog10 (rowGroups : List ℕ) (groupMasks : List UInt16) (index : ℕ) : Option QM31 := do
  let group ← rowGroups[index / 16]?
  let mask ← groupMasks[group]?
  return if mask.toNat.testBit (index % 16) then QM31.one else QM31.zero

/-- The weight of a grouped table: the high part of the index selects the row, the low part its entry. -/
def groupedWeightAt (rowGroups : List ℕ) (groupValues : List QM31) (lowWidth index : ℕ) : Option QM31 := do
  let group ← rowGroups[index / lowWidth]?
  groupValues[group * lowWidth + (index &&& (lowWidth - 1))]?

def WeightComponent.weightAt (logLen index : ℕ) : WeightComponent → Option QM31
  | .geometric scale base => some (scale.mul (base.pow (UInt64.ofNat index)))
  | .multilinear scale point => some (bigEndianLoop multilinearStep index point scale)
  | .tensor scale factors => some (bigEndianLoop tensorStep index factors scale)
  | .lineM31Tensor scale x => some (lineLoop logLen index scale x)
  | .lineM31Batch scales xs deferredHalvings =>
    some (halveQm31 ((scales.zip xs).foldl (fun sum line => sum.add (lineLoop logLen index line.1 line.2)) QM31.zero)
      deferredHalvings)
  | .product scale pairs => some (bigEndianLoop productStep index pairs scale)
  | .dense values => values[index]?
  | .grouped64x16 rowGroups groupValues lowWidth => groupedWeightAt rowGroups groupValues lowWidth index
  | .grouped64x16BinaryDeferred rowGroups groupMasks firstAlpha groupValues =>
    match logLen with
    | 10 => grouped64x16BinaryDeferredWeightAtLog10 rowGroups groupMasks index
    | 8 => do
      let alpha ← firstAlpha
      let group ← rowGroups[index / 4]?
      let mask ← groupMasks[group]?
      let bits := (mask >>> UInt16.ofNat (4 * (index % 4))) &&& 0x0f
      let alpha2 := alpha.square
      let alpha3 := alpha2.mul alpha
      return (sumSelected bits (dualPowers alpha alpha2 alpha3)).half.half
    | 2 | 4 | 6 => do
      let group ← rowGroups[index]?
      groupValues[group]?
    | _ => none
  | .grouped128x16 rowGroups groupValues lowWidth => groupedWeightAt rowGroups groupValues lowWidth index

def WeightAccumulator.weightAt (self : WeightAccumulator) (index : ℕ) : Option QM31 :=
  self.components.foldlM (fun total component => do
    let value ← component.weightAt self.logLen index
    return total.add value) QM31.zero

/-! ### Constructors -/

namespace WeightAccumulator

def empty (logLen : ℕ) : WeightAccumulator := ⟨logLen, []⟩

def push (self : WeightAccumulator) (component : WeightComponent) : WeightAccumulator :=
  ⟨self.logLen, self.components ++ [component]⟩

/-- The form of an evaluation claim, or none of one; the point has a coordinate for each bit. -/
def fromClaim (logLen : ℕ) : Option (List QM31) → Option WeightAccumulator
  | none => some (empty logLen)
  | some z => if z.length ≠ logLen then none else some ((empty logLen).push (.multilinear QM31.one z))

def addGeometric (self : WeightAccumulator) (scale base : QM31) : WeightAccumulator := self.push (.geometric scale base)

def addMultilinear (self : WeightAccumulator) (scale : QM31) (point : List QM31) :
    Except TensorWeightError WeightAccumulator :=
  if point.length ≠ self.logLen then .error .multilinearPointLength else .ok (self.push (.multilinear scale point))

def addTensorFactors (self : WeightAccumulator) (scale : QM31) (factors : List QM31) :
    Except TensorWeightError WeightAccumulator :=
  if factors.length ≠ self.logLen then .error .factorCount else .ok (self.push (.tensor scale factors))

def addProductPairs (self : WeightAccumulator) (scale : QM31) (pairs : List (QM31 × QM31)) :
    Except TensorWeightError WeightAccumulator :=
  if pairs.length ≠ self.logLen then .error .factorCount else .ok (self.push (.product scale pairs))

/-- The largest power of two that fits, by halving. -/
def fitBlock (block remaining : ℕ) : ℕ := if remaining < block ∧ 0 < block then fitBlock (block / 2) remaining else block
termination_by block

/-- The aligned block at a position: as large as its alignment allows and as fits into the rest. -/
def intervalBlock (cursor remaining : ℕ) : ℕ :=
  fitBlock (if cursor = 0 then 2 ^ Nat.log2 remaining else cursor &&& (2 ^ 64 - cursor)) remaining

/-- The number of low bits that are zero. -/
def trailingZeros (n : ℕ) : ℕ := if n = 0 then 64 else if n % 2 = 1 then 0 else trailingZeros (n / 2) + 1
termination_by n

/-- The pairs of the subcube of an aligned block. -/
def subcubePairs (logLen cursor freeBits : ℕ) : List (QM31 × QM31) :=
  (List.range (logLen - freeBits)).map (fun coordinate =>
    if cursor.testBit (logLen - 1 - coordinate) then (QM31.zero, QM31.one) else (QM31.one, QM31.zero)) ++
    List.replicate freeBits (QM31.one, QM31.one)

/-- The blocks of an interval, one product each. The block is never empty, which bounds the loop. -/
def addIntervalFrom (scale : QM31) (stop : ℕ) (self : WeightAccumulator) (cursor : ℕ) :
    ℕ → Except TensorWeightError WeightAccumulator
  | 0 => .ok self
  | fuel + 1 =>
    if cursor < stop then do
      let block := intervalBlock cursor (stop - cursor)
      let next ← self.addProductPairs scale (subcubePairs self.logLen cursor (trailingZeros block))
      addIntervalFrom scale stop next (cursor + block) fuel
    else .ok self

def addIndexInterval (self : WeightAccumulator) (scale : QM31) (start stop : ℕ) :
    Except TensorWeightError WeightAccumulator :=
  if stop ≤ start ∨ 2 ^ self.logLen < stop then .error .indexInterval
  else addIntervalFrom scale stop self start (stop - start)

def addDense (self : WeightAccumulator) (values : List QM31) : Except TensorWeightError WeightAccumulator :=
  if values.length ≠ 2 ^ self.logLen then .error .denseLength else .ok (self.push (.dense values))

/-- The distinct masks in the order of their first row, and the group of each row. -/
def groupMasksOf (rowMasks : List UInt16) : List ℕ × List UInt16 :=
  rowMasks.foldl (fun state mask =>
    let group := state.2.idxOf mask
    (state.1 ++ [group % 256], if group = state.2.length then state.2 ++ [mask] else state.2)) ([], [])

/-- The sixteen entries of each mask. -/
def maskValues (masks : List UInt16) : List QM31 :=
  masks.flatMap fun mask => (List.range 16).map fun low => if mask.toNat.testBit low then QM31.one else QM31.zero

def addGrouped64x16BinaryMasks (self : WeightAccumulator) (rowMasks : Vector UInt16 64) :
    Except TensorWeightError WeightAccumulator :=
  if self.logLen ≠ 10 then .error .grouped64x16LogLength
  else
    let (rowGroups, masks) := groupMasksOf rowMasks.toList
    .ok (self.push (.grouped64x16 rowGroups (maskValues masks) 16))

def addGrouped64x16BinaryMasksDeferred (self : WeightAccumulator) (rowMasks : Vector UInt16 64) :
    Except TensorWeightError WeightAccumulator :=
  if self.logLen ≠ 10 then .error .grouped64x16LogLength
  else
    let (rowGroups, masks) := groupMasksOf rowMasks.toList
    .ok (self.push (.grouped64x16BinaryDeferred rowGroups masks none []))

def addGrouped64x16BinaryMasksDeferredPrepared (self : WeightAccumulator) (rowGroups : Vector UInt8 64)
    (groupMasks : List UInt16) : Except TensorWeightError WeightAccumulator :=
  if self.logLen ≠ 10 then .error .grouped64x16LogLength
  else if groupMasks.isEmpty then .error .grouped64x16PreparedShape
  else if rowGroups.toList.any fun group => decide (groupMasks.length ≤ group.toNat) then .error .grouped64x16PreparedShape
  else .ok (self.push (.grouped64x16BinaryDeferred (rowGroups.toList.map UInt8.toNat) groupMasks none []))

def addGrouped128x16BinaryMasks (self : WeightAccumulator) (rowMasks : Vector UInt16 128) :
    Except TensorWeightError WeightAccumulator :=
  if self.logLen ≠ 11 then .error .grouped128x16LogLength
  else
    let (rowGroups, masks) := groupMasksOf rowMasks.toList
    .ok (self.push (.grouped128x16 rowGroups (maskValues masks) 16))

/-- The coordinates of a line point from the lowest bit up. -/
def lineCoordinates (x : QM31) : ℕ → List QM31
  | 0 => []
  | count + 1 => x :: lineCoordinates (doubleX x) count

def addCircleTensor (self : WeightAccumulator) (scale x y : QM31) : Except TensorWeightError WeightAccumulator :=
  if self.logLen < 2 then .error .circleLogLength
  else self.addTensorFactors scale (y :: lineCoordinates x (self.logLen - 1)).reverse

def addLineTensor (self : WeightAccumulator) (scale x : QM31) : Except TensorWeightError WeightAccumulator :=
  self.addTensorFactors scale (lineCoordinates x self.logLen).reverse

def addLineM31Tensor (self : WeightAccumulator) (scale : QM31) (x : M31) : Except TensorWeightError WeightAccumulator :=
  if self.logLen = 0 then .error .factorCount else .ok (self.push (.lineM31Tensor scale x))

def addLineM31Batch (self : WeightAccumulator) (scales : List QM31) (xs : List M31) :
    Except TensorWeightError WeightAccumulator :=
  if self.logLen = 0 ∨ scales.isEmpty ∨ scales.length ≠ xs.length then .error .factorCount
  else .ok (self.push (.lineM31Batch scales xs 0))

end WeightAccumulator

end Aspis.Core
