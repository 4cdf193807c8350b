import Aspis.Core.WeightAccumulator

/-! The dual fold of the components, their inner product with a coefficient vector, and the round
polynomial of the sumcheck. -/

namespace Aspis.Core

open Aspis.Lib.Accumulate
open scoped Widths

/-! ### Folds -/

/-- The dual fold of a vector, chunk by chunk; a trailing part of a chunk is dropped. -/
def foldChunks (alpha alpha2 alpha3 : QM31) : List QM31 → List QM31
  | v0 :: v1 :: v2 :: v3 :: rest =>
    (((v0.add (alpha3.mul v1)).add (alpha2.mul v2)).add (alpha.mul v3)).half.half :: foldChunks alpha alpha2 alpha3 rest
  | _ => []

def countOnes (mask : UInt16) : ℕ := (List.range 16).countP fun bit => mask.toNat.testBit bit

def CROSS_POSITIONS : UInt16 := 0xeee0

/-- The positions whose basis entry is needed, and whether the sum over all positions is: a mask of
more than eight positions is the total less its complement. -/
def selectPositions (groupMasks : List UInt16) : UInt16 × Bool :=
  groupMasks.foldl (fun state mask =>
    if 8 < countOnes mask then (state.1 ||| ~~~mask, true) else (state.1 ||| mask, state.2)) (0, false)

def foldBinaryLowMasks (groupMasks : List UInt16) (alpha0 alpha1 : QM31) : List QM31 :=
  let alpha0Powers := dualPowers alpha0 alpha0.square (alpha0.square.mul alpha0)
  let alpha1Powers := dualPowers alpha1 alpha1.square (alpha1.square.mul alpha1)
  let (selected, needsTotal) := selectPositions groupMasks
  let materializeAll := needsTotal && decide (selected &&& CROSS_POSITIONS = CROSS_POSITIONS)
  let selected := if materializeAll then 0xffff else selected
  let basis : Fin 16 → QM31 := fun low =>
    let highSlot : Fin 4 := ⟨low.val / 4, Widths.div_four_lt low⟩
    let lowSlot : Fin 4 := ⟨low.val % 4, Widths.mod_four_lt low⟩
    if selected.toNat.testBit low.val then
      if highSlot = 0 then alpha0Powers lowSlot
      else if lowSlot = 0 then alpha1Powers highSlot
      else (alpha1Powers highSlot).mul (alpha0Powers lowSlot)
    else QM31.zero
  let total :=
    if needsTotal then
      if materializeAll then (List.finRange 16).foldl (fun sum low => sum.add (basis low)) QM31.zero
      else ((List.finRange 4).foldl (fun sum slot => sum.add (alpha0Powers slot)) QM31.zero).mul
        ((List.finRange 4).foldl (fun sum slot => sum.add (alpha1Powers slot)) QM31.zero)
    else QM31.zero
  groupMasks.map fun mask =>
    let dense := decide (8 < countOnes mask)
    let part := sumSelected (if dense then ~~~mask else mask) basis
    (if dense then total.sub part else part).half.half.half.half

/-- A distinct group of a tuple with the sum of the powers of its slots. -/
structure GroupEntry where
  group : ℕ
  coefficient : QM31
  count : ℕ
  firstSlot : ℕ

def collectGroup (group : ℕ) (power : QM31) (slot : ℕ) : List GroupEntry → List GroupEntry
  | [] => [⟨group, power, 1, slot⟩]
  | entry :: rest =>
    if entry.group = group then ⟨group, entry.coefficient.add power, entry.count + 1, entry.firstSlot⟩ :: rest
    else entry :: collectGroup group power slot rest

def foldGroupTuple (groups : Fin 4 → ℕ) (groupValues : List QM31) (alpha alpha2 alpha3 : QM31) : Option QM31 := do
  let entries := (List.finRange 4).foldl
    (fun entries slot => collectGroup (groups slot) (dualPowers alpha alpha2 alpha3 slot) slot.val entries) []
  let folded ← entries.foldlM (fun folded entry => do
    let value ← groupValues[entry.group]?
    -- a group met in the first slot only has the coefficient one
    let contribution := if entry.firstSlot = 0 ∧ entry.count = 1 then value else value.mul entry.coefficient
    return folded.add contribution) QM31.zero
  return folded.half.half

/-- The distinct tuples of rows, each folded once, and the group of each chunk of four rows. -/
def foldGroupedRowsFrom (groupValues : List QM31) (alpha alpha2 alpha3 : QM31) :
    List ℕ → List (Fin 4 → ℕ) → List ℕ → List QM31 → Option (List ℕ × List QM31)
  | g0 :: g1 :: g2 :: g3 :: rest, tuples, foldedGroups, foldedValues =>
    let tuple := ![g0, g1, g2, g3]
    let group := tuples.idxOf tuple
    if group = tuples.length then do
      let value ← foldGroupTuple tuple groupValues alpha alpha2 alpha3
      foldGroupedRowsFrom groupValues alpha alpha2 alpha3 rest (tuples ++ [tuple]) (foldedGroups ++ [group % 256])
        (foldedValues ++ [value])
    else foldGroupedRowsFrom groupValues alpha alpha2 alpha3 rest tuples (foldedGroups ++ [group % 256]) foldedValues
  | _, _, foldedGroups, foldedValues => some (foldedGroups, foldedValues)

def foldGroupedRows (rowGroups : List ℕ) (groupValues : List QM31) (alpha alpha2 alpha3 : QM31) :
    Option (List ℕ × List QM31) :=
  if rowGroups.length % 4 ≠ 0 then none
  else foldGroupedRowsFrom groupValues alpha alpha2 alpha3 rowGroups [] [] []

def foldMultilinearArity4 (scale : QM31) (point : List QM31) (alpha alpha2 alpha3 : QM31) : Option WeightComponent :=
  if point.length < 2 then none
  else do
    let split := point.length - 2
    let z0 ← point[split]?
    let z1 ← point[split + 1]?
    let low := QM31.one.add ((alpha3.sub QM31.one).mul z1)
    let high := alpha2.add ((alpha.sub alpha2).mul z1)
    let factor := (low.add (z0.mul (high.sub low))).half.half
    return .multilinear (scale.mul factor) (point.take split)

def foldTensorArity4 (scale : QM31) (factors : List QM31) (alpha3 : QM31)
    (preparedAlpha preparedAlpha2 : PreparedQm31Multiplier) : Option WeightComponent :=
  if factors.length < 2 then none
  else do
    let split := factors.length - 2
    let high ← factors[split]?
    let low ← factors[split + 1]?
    let products ← qm31SumProducts2Prepared #v[preparedAlpha2, PreparedQm31Multiplier.new low]
      #v[high, alpha3.add (preparedAlpha.mul high)]
    return .tensor (scale.mul (QM31.one.add products).half.half) (factors.take split)

/-- The factor by which a line tensor folds, before its two halvings. -/
def lineFoldFactor (x : M31) (alpha alpha2 alpha3 : QM31) : Option QM31 := do
  let high := doubleXM31 x
  let mixed ← qm31M31SumProducts3 #v[alpha3, alpha2, alpha] #v[x, high, high.mul x]
  return QM31.one.add mixed

def foldLineM31TensorArity4 (scale : QM31) (x : M31) (alpha alpha2 alpha3 : QM31) : Option WeightComponent := do
  let factor ← lineFoldFactor x alpha alpha2 alpha3
  return .lineM31Tensor (scale.mul factor.half.half) (doubleXM31 (doubleXM31 x))

def foldLineM31BatchArity4 (scales : List QM31) (xs : List M31) (deferredHalvings : ℕ) (alpha alpha2 alpha3 : QM31) :
    Option WeightComponent :=
  if scales.length ≠ xs.length then none
  else do
    let folded ← (scales.zip xs).mapM fun line => do
      let factor ← lineFoldFactor line.2 alpha alpha2 alpha3
      return (line.1.mul factor, doubleXM31 (doubleXM31 line.2))
    return .lineM31Batch (folded.map Prod.fst) (folded.map Prod.snd) (deferredHalvings + 2)

/-- The rule of both grouped tables: the low part is folded twice, and the table is then laid out by rows. -/
def foldGroupedTable (table : List ℕ → List QM31 → ℕ → WeightComponent) (rowGroups : List ℕ) (groupValues : List QM31)
    (lowWidth : ℕ) (alpha alpha2 alpha3 : QM31) : Option WeightComponent :=
  let folded := foldChunks alpha alpha2 alpha3 groupValues
  if lowWidth = 16 then some (table rowGroups folded 4)
  else if lowWidth ≠ 4 then none
  else do
    let values ← rowGroups.mapM fun group => folded[group]?
    return .dense values

def foldGrouped64BinaryDeferredArity4 (rowGroups : List ℕ) (groupMasks : List UInt16) (firstAlpha : Option QM31)
    (groupValues : List QM31) (currentLogLen : ℕ) (alpha alpha2 alpha3 : QM31) : Option WeightComponent :=
  match currentLogLen with
  | 10 =>
    if firstAlpha.isSome then none
    else some (.grouped64x16BinaryDeferred rowGroups groupMasks (some alpha) groupValues)
  | 8 => do
    let alpha0 ← firstAlpha
    return .grouped64x16BinaryDeferred rowGroups [] none (foldBinaryLowMasks groupMasks alpha0 alpha)
  | 6 | 4 =>
    if firstAlpha.isSome then none
    else do
      let (foldedGroups, foldedValues) ← foldGroupedRows rowGroups groupValues alpha alpha2 alpha3
      return .grouped64x16BinaryDeferred foldedGroups groupMasks none foldedValues
  | _ => none

def foldProductArity4 (scale : QM31) (pairs : List (QM31 × QM31)) (alpha alpha2 alpha3 : QM31) : Option WeightComponent :=
  if pairs.length < 2 then none
  else do
    let split := pairs.length - 2
    let high ← pairs[split]?
    let low ← pairs[split + 1]?
    let factor := ((((high.1.mul low.1).add (alpha3.mul (high.1.mul low.2))).add (alpha2.mul (high.2.mul low.1))).add
      (alpha.mul (high.2.mul low.2))).half.half
    return .product (scale.mul factor) (pairs.take split)

def foldGeometricArity4 (scale base alpha alpha2 alpha3 : QM31) : WeightComponent :=
  let base2 := base.square
  let base3 := base2.mul base
  let factor := (((QM31.one.add (alpha3.mul base)).add (alpha2.mul base2)).add (alpha.mul base3)).half.half
  .geometric (scale.mul factor) base2.square

def foldComponentArity4 (component : WeightComponent) (currentLogLen : ℕ) (alpha alpha2 alpha3 : QM31)
    (preparedAlpha preparedAlpha2 : PreparedQm31Multiplier) : Option WeightComponent :=
  match component with
  | .geometric scale base => some (foldGeometricArity4 scale base alpha alpha2 alpha3)
  | .multilinear scale point => foldMultilinearArity4 scale point alpha alpha2 alpha3
  | .tensor scale factors => foldTensorArity4 scale factors alpha3 preparedAlpha preparedAlpha2
  | .lineM31Tensor scale x => foldLineM31TensorArity4 scale x alpha alpha2 alpha3
  | .lineM31Batch scales xs deferredHalvings =>
    foldLineM31BatchArity4 scales xs deferredHalvings alpha alpha2 alpha3
  | .product scale pairs => foldProductArity4 scale pairs alpha alpha2 alpha3
  | .dense values => some (.dense (foldChunks alpha alpha2 alpha3 values))
  | .grouped64x16 rowGroups groupValues lowWidth =>
    if currentLogLen ≠ 10 ∧ currentLogLen ≠ 8 then none
    else foldGroupedTable .grouped64x16 rowGroups groupValues lowWidth alpha alpha2 alpha3
  | .grouped64x16BinaryDeferred rowGroups groupMasks firstAlpha groupValues =>
    foldGrouped64BinaryDeferredArity4 rowGroups groupMasks firstAlpha groupValues currentLogLen alpha alpha2 alpha3
  | .grouped128x16 rowGroups groupValues lowWidth =>
    if currentLogLen ≠ 11 ∧ currentLogLen ≠ 9 then none
    else foldGroupedTable .grouped128x16 rowGroups groupValues lowWidth alpha alpha2 alpha3

def WeightAccumulator.fold (self : WeightAccumulator) (alpha : QM31) : Option WeightAccumulator :=
  if self.logLen < 2 then none
  else do
    let alpha2 := alpha.square
    let preparedAlpha := PreparedQm31Multiplier.new alpha
    let preparedAlpha2 := PreparedQm31Multiplier.new alpha2
    let alpha3 := preparedAlpha.mul alpha2
    let components ← self.components.mapM fun component =>
      foldComponentArity4 component self.logLen alpha alpha2 alpha3 preparedAlpha preparedAlpha2
    return ⟨self.logLen - 2, components⟩

/-! ### The inner product -/

/-- The four covector coordinates of all line tensors. The products of four lines at a time are kept in 64-bit sums. -/
structure LineSums where
  count : ℕ
  constant : Fin 4 → M31
  raw : Fin 3 × Fin 4 → UInt64
  sums : Fin 3 × Fin 4 → M31

def LineSums.zero : LineSums := ⟨0, fun _ => M31.zero, fun _ => 0, fun _ => M31.zero⟩

def doubleQm31 (value : QM31) : ℕ → QM31
  | 0 => value
  | count + 1 => doubleQm31 (value.add value) count

/-- The raw products, reduced into the sums. -/
def LineSums.flush (self : LineSums) : LineSums :=
  ⟨self.count, self.constant, fun _ => 0, fun c => (self.sums c).add (M31.reduceU64 (self.raw c))⟩

/-- One more line, its scale doubled up to the common number of halvings. -/
def LineSums.accumulateLine (lineDeferredHalvings : ℕ) (self : LineSums) (line : QM31 × M31 × ℕ) : Option LineSums := do
  let scale := doubleQm31 line.1 (lineDeferredHalvings - line.2.2)
  let high := doubleXM31 line.2.1
  let factors : Fin 3 → M31 := ![line.2.1, high, line.2.1.mul high]
  let constant : Fin 4 → M31 := fun limb => (self.constant limb).add (limbs scale limb)
  let raw ← addWords self.raw fun c => (limbs scale c.2).val.toUInt64 * (factors c.1).val.toUInt64
  let next : LineSums := ⟨self.count + 1, constant, raw, self.sums⟩
  return if next.count % 4 = 0 then next.flush else next

/-- The lines of a component, with their halvings still to come. -/
def WeightComponent.lines : WeightComponent → List (QM31 × M31 × ℕ)
  | .lineM31Tensor scale x => [(scale, x, 0)]
  | .lineM31Batch scales xs deferredHalvings => (scales.zip xs).map fun line => (line.1, line.2, deferredHalvings)
  | _ => []

def WeightComponent.batchHalvings : WeightComponent → Option ℕ
  | .lineM31Batch _ _ deferredHalvings => some deferredHalvings
  | _ => none

/-- The inner product of all line tensors with four values, in one product of four terms. -/
def lineDot (components : List WeightComponent) (values : Fin 4 → QM31) : Option QM31 := do
  let lineDeferredHalvings := (components.filterMap WeightComponent.batchHalvings).foldl max 0
  let lines ← (components.flatMap WeightComponent.lines).foldlM (LineSums.accumulateLine lineDeferredHalvings) LineSums.zero
  let lines := if lines.count % 4 ≠ 0 then lines.flush else lines
  if lines.count = 0 then some QM31.zero
  else do
    let product ← qm31SumProducts4
      #v[quarticOfLimbs lines.constant, quarticOfLimbs fun limb => lines.sums (0, limb),
        quarticOfLimbs fun limb => lines.sums (1, limb), quarticOfLimbs fun limb => lines.sums (2, limb)]
      #v[values 0, values 1, values 2, values 3]
    return halveQm31 product lineDeferredHalvings

/-- The inner product of a component of four weights with four values. The lines have been taken together. -/
def WeightComponent.dotFour (values : Fin 4 → QM31) : WeightComponent → Option QM31
  | .geometric scale base =>
    let base2 := base.square
    let evaluation := (((values 0).add (base.mul (values 1))).add (base2.mul (values 2))).add
      ((base2.mul base).mul (values 3))
    some (scale.mul evaluation)
  | .multilinear scale point => do
    let z0 ← point[0]?
    let z1 ← point[1]?
    let low := (values 0).add (z1.mul ((values 1).sub (values 0)))
    let high := (values 2).add (z1.mul ((values 3).sub (values 2)))
    return scale.mul (low.add (z0.mul (high.sub low)))
  | .tensor scale factors => do
    let f0 ← factors[0]?
    let f1 ← factors[1]?
    let low := (values 0).add (f1.mul (values 1))
    let high := (values 2).add (f1.mul (values 3))
    return scale.mul (low.add (f0.mul high))
  | .lineM31Tensor _ _ => some QM31.zero
  | .lineM31Batch _ _ _ => some QM31.zero
  | .product scale pairs => do
    let p0 ← pairs[0]?
    let p1 ← pairs[1]?
    let evaluation := ((((values 0).mul (p0.1.mul p1.1)).add ((values 1).mul (p0.1.mul p1.2))).add
      ((values 2).mul (p0.2.mul p1.1))).add ((values 3).mul (p0.2.mul p1.2))
    return scale.mul evaluation
  | .dense weights => (List.finRange 4).foldlM (fun sum index => do
    let weight ← weights[index.val]?
    return sum.add ((values index).mul weight)) QM31.zero
  | .grouped64x16 _ _ _ => none
  | .grouped64x16BinaryDeferred rowGroups _ _ groupValues => (List.finRange 4).foldlM (fun sum index => do
    let group ← rowGroups[index.val]?
    let weight ← groupValues[group]?
    return sum.add ((values index).mul weight)) QM31.zero
  | .grouped128x16 _ _ _ => none

def WeightAccumulator.dot (self : WeightAccumulator) (values : List QM31) : Option QM31 :=
  if values.length ≠ 2 ^ self.logLen then none
  else if self.logLen = 2 then do
    let four : Fin 4 → QM31 := fun index => values.getD index.val QM31.zero
    let total ← lineDot self.components four
    self.components.foldlM (fun total component => do
      let contribution ← component.dotFour four
      return total.add contribution) total
  else
    values.zipIdx.foldlM (fun sum entry => do
      let weight ← self.weightAt (entry.2 % 2 ^ 32)
      return sum.add (entry.1.mul weight)) QM31.zero

/-! ### The round polynomial -/

abbrev SumcheckPolynomial := Vector QM31 7

def M31_QUARTER : M31 := ⟨0x20000000⟩

/-- The products of a chunk of values and the chunk of weights in the dual order, added by degree. -/
def accumulateChunk (output : SumcheckPolynomial) (values weights : Fin 4 → QM31) : SumcheckPolynomial :=
  let dual : Fin 4 → QM31 := ![weights 0, weights 3, weights 2, weights 1]
  (List.finRange 4).foldl (fun output a => (List.finRange 4).foldl (fun output b =>
    output.set (a.val + b.val) ((output.get ⟨a.val + b.val, by omega⟩).add
      (((values a).mul (dual b)).mulM31 M31_QUARTER)) (by omega)) output) output

/-- The chunks from an index on. The index of a weight is a 32-bit word. -/
def accumulateChunks (weights : WeightAccumulator) : List QM31 → ℕ → SumcheckPolynomial → Option SumcheckPolynomial
  | v0 :: v1 :: v2 :: v3 :: rest, chunkIndex, output => do
    let base := chunkIndex * 4 % 2 ^ 32
    let w0 ← weights.weightAt base
    let w1 ← weights.weightAt (base + 1)
    let w2 ← weights.weightAt (base + 2)
    let w3 ← weights.weightAt (base + 3)
    accumulateChunks weights rest (chunkIndex + 1) (accumulateChunk output ![v0, v1, v2, v3] ![w0, w1, w2, w3])
  | _, _, output => some output

def polynomialForExtension (coefficients : List QM31) (weights : WeightAccumulator) : Option SumcheckPolynomial :=
  if coefficients.length ≠ 2 ^ weights.logLen then none
  else accumulateChunks weights coefficients 0 (Vector.replicate 7 QM31.zero)

def boundarySum (polynomial : SumcheckPolynomial) : QM31 :=
  ((polynomial.get 0).add (polynomial.get 4)).mulM31 ⟨4⟩

/-- The value at a point, from the highest degree down. -/
def evaluate (polynomial : SumcheckPolynomial) (point : QM31) : QM31 :=
  (List.range 6).foldl (fun acc step => (acc.mul point).add (polynomial.get ⟨5 - step, by omega⟩)) (polynomial.get 6)

/-- The fold of the values that the dual fold goes with; a trailing part of a chunk is dropped. -/
def foldAdjacentNaturalArity4 (alpha : QM31) : List QM31 → List QM31
  | v0 :: v1 :: v2 :: v3 :: rest =>
    ((v0.add (alpha.mul v1)).add (alpha.square.mul v2)).add ((alpha.square.mul alpha).mul v3) ::
      foldAdjacentNaturalArity4 alpha rest
  | _ => []

end Aspis.Core
