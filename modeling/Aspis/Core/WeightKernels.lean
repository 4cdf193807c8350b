import Aspis.Core.SumcheckRounds

/-! The specialised kernels of the weight accumulator: the prefix of its weights in one pass over each
component, the merge of two multilinear components, the fold of the deferred relation and its fused
tail of three rounds. -/

namespace Aspis.Core

open WeightAccumulator (trailingZeros)
open scoped Widths

/-! ### Prefixes -/

/-- A loop over the whole output in which each position is updated from its own value. -/
def updateEach (output : List QM31) (f : ℕ → QM31 → Option QM31) : Option (List QM31) :=
  output.zipIdx.mapM fun entry => f entry.2 entry.1

/-- The tree of products: the zero branch is always taken, the one branch while it stays in the output. -/
def addProductPrefix (n : ℕ) (output : List QM31) : List (QM31 × QM31) → ℕ → QM31 → Option (List QM31)
  | [], index, value => do
    let old ← output[index]?
    return output.set index (old.add value)
  | pair :: rest, index, value => do
    let output ← addProductPrefix n output rest index (value.mul pair.1)
    let oneIndex := index ||| 2 ^ rest.length
    if oneIndex < n then addProductPrefix n output rest oneIndex (value.mul pair.2) else return output

/-- The powers of a base against the positions of the output. -/
def addGeometricPrefix (scale base : QM31) (output : List QM31) : List QM31 :=
  (output.foldl (fun (state : List QM31 × QM31) old => (state.1 ++ [old.add state.2], state.2.mul base)) ([], scale)).1

/-- The values of a tensor, each from the one without its lowest bit. -/
def prefixValues (n : ℕ) (scale : QM31) (step : QM31 → ℕ → Option QM31) : Option (List QM31) :=
  (List.range' 1 (n - 1)).foldlM (fun values index => do
    let bit := trailingZeros index
    let before ← values[index ^^^ 2 ^ bit]?
    let value ← step before bit
    return values.set index value) ((List.replicate n QM31.zero).set 0 scale)

/-- The coordinates of a line in the base field. -/
def lineFactorsM31 (x : M31) : ℕ → List M31
  | 0 => []
  | count + 1 => x :: lineFactorsM31 (doubleXM31 x) count

def linePrefix (logLen n : ℕ) (scale : QM31) (x : M31) : Option (List QM31) :=
  prefixValues n scale fun before bit => do
    let factor ← (lineFactorsM31 x logLen)[bit]?
    return before.mulM31 factor

/-- The rows of a grouped table. -/
def addGroupedPrefix (rowGroups : List ℕ) (groupValues : List QM31) (width : ℕ) (output : List QM31) :
    Option (List QM31) :=
  updateEach output fun index old => do
    let group ← rowGroups[index / width]?
    let value ← groupValues[group * width + index % width]?
    return old.add value

def addDeferredPrefix (logLen : ℕ) (rowGroups : List ℕ) (groupMasks : List UInt16) (firstAlpha : Option QM31)
    (groupValues output : List QM31) : Option (List QM31) :=
  match logLen with
  | 10 => updateEach output fun index old => do
    let group ← rowGroups[index / 16]?
    let mask ← groupMasks[group]?
    return if mask.toNat.testBit (index % 16) then old.add QM31.one else old
  | 8 => do
    let alpha ← firstAlpha
    let alpha2 := alpha.square
    let powers := dualPowers alpha alpha2 (alpha2.mul alpha)
    updateEach output fun index old => do
      let group ← rowGroups[index / 4]?
      let mask ← groupMasks[group]?
      let bits := (mask >>> UInt16.ofNat (4 * (index % 4))) &&& 0x0f
      return old.add (sumSelected bits powers).half.half
  | 2 | 4 | 6 => updateEach output fun index old => do
    let group ← rowGroups[index]?
    let value ← groupValues[group]?
    return old.add value
  | _ => none

def WeightComponent.addPrefix (logLen n : ℕ) (output : List QM31) : WeightComponent → Option (List QM31)
  | .geometric scale base => some (addGeometricPrefix scale base output)
  | .multilinear scale point => addProductPrefix n output (point.map fun z => (QM31.one.sub z, z)) 0 scale
  | .tensor scale factors => do
    let values ← prefixValues n scale fun before bit =>
      if factors.length < 1 + bit then none else (factors[factors.length - 1 - bit]?).map before.mul
    updateEach output fun index old => (values[index]?).map old.add
  | .lineM31Tensor scale x => do
    let values ← linePrefix logLen n scale x
    updateEach output fun index old => (values[index]?).map old.add
  | .lineM31Batch scales xs deferredHalvings => do
    let sums ← (scales.zip xs).foldlM (fun sums line => do
      let values ← linePrefix logLen n line.1 line.2
      updateEach sums fun index old => (values[index]?).map old.add) (List.replicate n QM31.zero)
    updateEach output fun index old => (sums[index]?).map fun sum => old.add (halveQm31 sum deferredHalvings)
  | .product scale pairs => addProductPrefix n output pairs 0 scale
  | .dense values => updateEach output fun index old => some ((values[index]?).elim old old.add)
  | .grouped64x16 rowGroups groupValues lowWidth => addGroupedPrefix rowGroups groupValues lowWidth output
  | .grouped64x16BinaryDeferred rowGroups groupMasks firstAlpha groupValues =>
    addDeferredPrefix logLen rowGroups groupMasks firstAlpha groupValues output
  | .grouped128x16 rowGroups groupValues lowWidth => addGroupedPrefix rowGroups groupValues lowWidth output

/-- The first `n` weights. -/
def WeightAccumulator.weightPrefix (self : WeightAccumulator) (n : ℕ) : Option (List QM31) :=
  self.components.foldlM (fun output component => component.addPrefix self.logLen n output)
    (List.replicate n QM31.zero)

/-! ### Merging -/

/-- Two multilinear components of one point become one; the result says whether they did. -/
def WeightAccumulator.mergeEqualMultilinearComponents (self : WeightAccumulator) (first second : ℕ) :
    Bool × WeightAccumulator :=
  if second ≤ first ∨ self.components.length ≤ second then (false, self)
  else
    match self.components[first]?, self.components[second]? with
    | some (.multilinear firstScale firstPoint), some (.multilinear secondScale secondPoint) =>
      if firstPoint ≠ secondPoint then (false, self)
      else (true, ⟨self.logLen,
        (self.components.set first (.multilinear (firstScale.add secondScale) firstPoint)).eraseIdx second⟩)
    | _, _ => (false, self)

/-! ### The fold of the deferred relation -/

/-- The components of the relation. Every other one is declared unreachable. -/
def WeightComponent.inRelation : WeightComponent → Bool
  | .multilinear _ _ => true
  | .tensor _ _ => true
  | .lineM31Tensor _ _ => true
  | .lineM31Batch _ _ _ => true
  | .dense _ => true
  | .grouped64x16BinaryDeferred _ _ _ _ => true
  | _ => false

def foldDeferredComponentArity4 (component : WeightComponent) (currentLogLen : ℕ) (alpha alpha2 alpha3 : QM31)
    (preparedAlpha preparedAlpha2 : PreparedQm31Multiplier) : Option WeightComponent :=
  match component with
  | .multilinear scale point => foldMultilinearArity4 scale point alpha alpha2 alpha3
  | .tensor scale factors => foldTensorArity4 scale factors alpha3 preparedAlpha preparedAlpha2
  | .lineM31Tensor scale x => foldLineM31TensorArity4 scale x alpha alpha2 alpha3
  | .lineM31Batch scales xs deferredHalvings =>
    foldLineM31BatchArity4 scales xs deferredHalvings alpha alpha2 alpha3
  | .dense values => some (.dense (foldChunks alpha alpha2 alpha3 values))
  | .grouped64x16BinaryDeferred rowGroups groupMasks firstAlpha groupValues =>
    foldGrouped64BinaryDeferredArity4 rowGroups groupMasks firstAlpha groupValues currentLogLen alpha alpha2 alpha3
  | _ => none

def WeightAccumulator.foldDeferredRelationArity4 (self : WeightAccumulator) (alpha : QM31) : Option WeightAccumulator :=
  if self.logLen < 2 then none
  else do
    let alpha2 := alpha.square
    let preparedAlpha := PreparedQm31Multiplier.new alpha
    let preparedAlpha2 := PreparedQm31Multiplier.new alpha2
    let alpha3 := preparedAlpha.mul alpha2
    let components ← self.components.mapM fun component =>
      foldDeferredComponentArity4 component self.logLen alpha alpha2 alpha3 preparedAlpha preparedAlpha2
    return ⟨self.logLen - 2, components⟩

/-! ### The fused tail -/

/-- The products of the dual powers of two challenges. -/
def tensoredPowers (firstAlpha secondAlpha : QM31) (slot : Fin 16) : QM31 :=
  let first := dualPowers firstAlpha firstAlpha.square (firstAlpha.square.mul firstAlpha)
  let second := dualPowers secondAlpha secondAlpha.square (secondAlpha.square.mul secondAlpha)
  let high : Fin 4 := ⟨slot.val / 4, Widths.div_four_lt slot⟩
  let low : Fin 4 := ⟨slot.val % 4, Widths.mod_four_lt slot⟩
  if high = 0 then first low
  else if low = 0 then second high
  else (second high).mul (first low)

/-- The fold of sixteen rows at once. -/
def foldSixteenRows (groups : List ℕ) (groupValues : List QM31) (basis : Fin 16 → QM31) : Option QM31 := do
  let entries ← (List.finRange 16).foldlM (fun entries slot => do
    let group ← groups[slot.val]?
    return collectGroup group (basis slot) slot.val entries) []
  let value ← entries.foldlM (fun value entry => do
    let groupValue ← groupValues[entry.group]?
    let contribution :=
      if entry.firstSlot = 0 ∧ entry.count = 1 then groupValue else groupValue.mul entry.coefficient
    return value.add contribution) QM31.zero
  return value.half.half.half.half

def foldGroupedRowsTwice (rowGroups : List ℕ) (groupValues : List QM31) (firstAlpha secondAlpha : QM31) :
    Option (List ℕ × List QM31) :=
  if rowGroups.length ≠ 64 then none
  else do
    let values ← (List.range 4).mapM fun chunk =>
      foldSixteenRows ((rowGroups.drop (16 * chunk)).take 16) groupValues (tensoredPowers firstAlpha secondAlpha)
    return ([0, 1, 2, 3], values)

/-- What the loop of the tail does with a component: it can panic, give up, or go on. -/
inductive TailStep
  | stop
  | next (component : WeightComponent)

/-- The last two folds of a component of the relation. -/
def foldTailComponent (alpha1 alpha2 : QM31) (component : WeightComponent) : Option TailStep :=
  let square1 := alpha1.square
  let square2 := alpha2.square
  let prepared1 := PreparedQm31Multiplier.new alpha1
  let prepared2 := PreparedQm31Multiplier.new alpha2
  let cube1 := prepared1.mul square1
  let cube2 := prepared2.mul square2
  match component with
  | .multilinear scale point => do
    match ← foldMultilinearArity4 scale point alpha1 square1 cube1 with
    | .multilinear scale point => return .next (← foldMultilinearArity4 scale point alpha2 square2 cube2)
    | _ => none
  | .tensor scale factors => do
    match ← foldTensorArity4 scale factors cube1 prepared1 (.new square1) with
    | .tensor scale factors => return .next (← foldTensorArity4 scale factors cube2 prepared2 (.new square2))
    | _ => none
  | .lineM31Tensor scale x => do
    match ← foldLineM31TensorArity4 scale x alpha1 square1 cube1 with
    | .lineM31Tensor scale x => return .next (← foldLineM31TensorArity4 scale x alpha2 square2 cube2)
    | _ => none
  | .lineM31Batch scales xs deferredHalvings => do
    match ← foldLineM31BatchArity4 scales xs deferredHalvings alpha1 square1 cube1 with
    | .lineM31Batch scales xs deferredHalvings =>
      return .next (← foldLineM31BatchArity4 scales xs deferredHalvings alpha2 square2 cube2)
    | _ => none
  | .dense values =>
    some (.next (.dense (foldChunks alpha2 square2 cube2 (foldChunks alpha1 square1 cube1 values))))
  | .grouped64x16BinaryDeferred rowGroups groupMasks firstAlpha groupValues =>
    if groupMasks ≠ [] ∨ firstAlpha ≠ none ∨ rowGroups.length ≠ 64 then some .stop
    else do
      let (foldedGroups, foldedValues) ← foldGroupedRowsTwice rowGroups groupValues alpha1 alpha2
      return .next (.grouped64x16BinaryDeferred foldedGroups groupMasks firstAlpha foldedValues)
  | _ => some .stop

/-- The loop over the components; those after the one that gives up keep their state. -/
def foldTailLoop (alpha1 alpha2 : QM31) : List WeightComponent → Option (Bool × List WeightComponent)
  | [] => some (true, [])
  | component :: rest => do
    match ← foldTailComponent alpha1 alpha2 component with
    | .stop => return (false, component :: rest)
    | .next folded =>
      let (done, rest) ← foldTailLoop alpha1 alpha2 rest
      return (done, folded :: rest)

/-- Three rounds at once. A false result leaves the accumulator at the point where the loop gave up. -/
def WeightAccumulator.foldTag73RelationTailArity4 (self : WeightAccumulator) (alpha0 alpha1 alpha2 : QM31) :
    Option (Bool × WeightAccumulator) :=
  if self.logLen ≠ 8 then some (false, self)
  else do
    let folded ← self.foldDeferredRelationArity4 alpha0
    match folded.mergeEqualMultilinearComponents 0 2 with
    | (false, kept) => return (false, kept)
    | (true, merged) =>
      let (done, components) ← foldTailLoop alpha1 alpha2 merged.components
      return (done, ⟨if done then 2 else merged.logLen, components⟩)

end Aspis.Core
