import Aspis.Core.Field
import Aspis.Lib.Accumulate
import Mathlib.Data.Fin.VecNotation

/-! The dot products of the field tower with delayed reduction. A kernel adds the products of
words as 64-bit values, one sum a channel, and reduces a sum only after a block of products.
The channels of a factor are its words and, where Karatsuba needs them, sums of its words.
None stands for an assertion that fails, an index out of range or a sum that wraps. -/

namespace Aspis.Core

open Aspis.Lib.Accumulate
open scoped Widths

/-! ### Channels -/

/-- The words of a complex factor, and their sum. -/
def karatsubaParts (x : CM31) : Fin 3 → M31 := ![x.a, x.b, x.a.add x.b]

/-- The nine channels of a quartic factor: the parts of both components and of their sum. -/
def quarticChannels (x : QM31) : Fin 3 × Fin 3 → M31 := fun c =>
  (![karatsubaParts x.c0, karatsubaParts x.c1, karatsubaParts (x.c0.add x.c1)] : Fin 3 → Fin 3 → M31) c.1 c.2

/-- The six channels of a quartic factor against a complex one. -/
def mixedChannels (x : QM31) : Fin 2 × Fin 3 → M31 := fun c =>
  (![karatsubaParts x.c0, karatsubaParts x.c1] : Fin 2 → Fin 3 → M31) c.1 c.2

/-- The four words of a quartic factor. -/
def limbs (x : QM31) : Fin 4 → M31 := ![x.c0.a, x.c0.b, x.c1.a, x.c1.b]

def componentOf (m : Fin 3 → M31) : CM31 := ⟨(m 0).sub (m 1), ((m 2).sub (m 0)).sub (m 1)⟩

/-- The quartic value of nine reduced channels. -/
def quarticOfChannels (m : Fin 3 × Fin 3 → M31) : QM31 :=
  let m0 := componentOf fun c => m (0, c)
  let m1 := componentOf fun c => m (1, c)
  let m2 := componentOf fun c => m (2, c)
  ⟨m0.add (mulByR m1), (m2.sub m0).sub m1⟩

/-- The quartic value of six reduced channels. -/
def quarticOfMixed (m : Fin 2 × Fin 3 → M31) : QM31 :=
  ⟨componentOf fun c => m (0, c), componentOf fun c => m (1, c)⟩

def quarticOfLimbs (m : Fin 4 → M31) : QM31 := ⟨⟨m 0, m 1⟩, ⟨m 2, m 3⟩⟩

section Loops

variable {ι : Type} [Fintype ι]

/-- The products of the channels of two factors. -/
def products (left right : ι → M31) : ι → UInt64 := fun c => (left c).val.toUInt64 * (right c).val.toUInt64

/-- The products at one index of two slices of factors. -/
def termsAt {β γ : Type} (left : β → ι → M31) (right : γ → ι → M31) (weights : List β) (values : List γ)
    (index : ℕ) : Option (ι → UInt64) := do
  let weight ← weights[index]?
  let value ← values[index]?
  return products (left weight) (right value)

/-- The terms of several rows at one index, side by side. -/
def rowTerms {n : ℕ} (terms : Fin n → ℕ → Option (ι → UInt64)) (index : ℕ) : Option (Fin n × ι → UInt64) :=
  if h : ∀ row, (terms row index).isSome then some fun c => (terms c.1 index).get (h c.1) c.2 else none

def reduceAll (sums : ι → UInt64) : ι → M31 := fun c => M31.reduceU64 (sums c)

def wordsOf (reduced : ι → M31) : ι → UInt64 := fun c => (reduced c).val.toUInt64

/-- Blocks of four products, each reduced and added to a canonical sum. -/
def eagerBlocks (terms : ℕ → Option (ι → UInt64)) (len : ℕ) : Option (ι → M31) :=
  stepLoop 4 (fun sums start stop => do
    let raw ← sumRange terms start stop
    return fun c => (sums c).add (M31.reduceU64 (raw c))) 0 len fun _ => M31.zero

/-- Blocks of four products, each reduced and added to a 64-bit sum. -/
def lazyBlocks (terms : ℕ → Option (ι → UInt64)) (start stop : ℕ) : Option (ι → UInt64) :=
  stepLoop 4 (fun outer start stop => do
    let raw ← sumRange terms start stop
    addWords outer (wordsOf (reduceAll raw))) start stop fun _ => 0

def OUTER_COLUMNS : ℕ := 256

/-- Windows of 256 products in blocks of four, each window reduced and added to a canonical sum. -/
def windowedBlocks (terms : ℕ → Option (ι → UInt64)) (len : ℕ) : Option (ι → M31) :=
  stepLoop OUTER_COLUMNS (fun sums start stop => do
    let outer ← lazyBlocks terms start stop
    return fun c => (sums c).add (M31.reduceU64 (outer c))) 0 len fun _ => M31.zero

/-- Windows of 256 products in blocks of four, each window reduced and added to a 64-bit sum. -/
def lazyWindows (terms : ℕ → Option (ι → UInt64)) (len : ℕ) : Option (ι → UInt64) :=
  stepLoop OUTER_COLUMNS (fun sums start stop => do
    let outer ← lazyBlocks terms start stop
    addWords sums (wordsOf (reduceAll outer))) 0 len fun _ => 0

/-- The term at an index, added to the sum of its group of `size` indices only. -/
def groupTerms (size : ℕ) (terms : ℕ → Option (ι → UInt64)) (index : ℕ) : Option (Fin 2 × ι → UInt64) :=
  (terms index).map fun t c => if c.1.val = index / size then t c.2 else 0

/-- The two groups of each channel, reduced and added. -/
def reduceGroups (sums : Fin 2 × ι → UInt64) : ι → M31 := fun c =>
  (M31.reduceU64 (sums (0, c))).add (M31.reduceU64 (sums (1, c)))

end Loops

/-! ### Prepared multipliers -/

/-- A quartic factor with its channels computed once. -/
structure PreparedQm31Multiplier where
  components : Fin 3 × Fin 3 → M31

namespace PreparedQm31Multiplier

def new (value : QM31) : PreparedQm31Multiplier := ⟨quarticChannels value⟩

def mul (self : PreparedQm31Multiplier) (rhs : QM31) : QM31 :=
  let multiply (component : Fin 3) (right : CM31) : CM31 :=
    let m0 := (self.components (component, 0)).mul right.a
    let m1 := (self.components (component, 1)).mul right.b
    let m2 := (self.components (component, 2)).mul (right.a.add right.b)
    ⟨m0.sub m1, (m2.sub m0).sub m1⟩
  let m0 := multiply 0 rhs.c0
  let m1 := multiply 1 rhs.c1
  let m2 := multiply 2 (rhs.c0.add rhs.c1)
  ⟨m0.add (mulByR m1), (m2.sub m0).sub m1⟩

end PreparedQm31Multiplier

/-- A vector of quartic weights with their six channels computed once. -/
structure PreparedQm31Cm31Weights (N : ℕ) where
  components : Vector (Fin 2 × Fin 3 → M31) N

def PreparedQm31Cm31Weights.new {N : ℕ} (weights : Vector QM31 N) : PreparedQm31Cm31Weights N :=
  ⟨weights.map mixedChannels⟩

/-! ### Fixed numbers of products -/

def qm31FromKaratsubaChannelSums (sums : Fin 3 × Fin 3 → UInt64) : QM31 := quarticOfChannels (reduceAll sums)

/-- The sum of up to four products. -/
def qm31SumProductsSmall {N : ℕ} (left right : Vector QM31 N) : Option QM31 := do
  let sums ← sumRange (termsAt quarticChannels quarticChannels left.toList right.toList) 0 N
  return qm31FromKaratsubaChannelSums sums

def qm31SumProducts2 (left right : Vector QM31 2) : Option QM31 := qm31SumProductsSmall left right

def qm31SumProducts3 (left right : Vector QM31 3) : Option QM31 := qm31SumProductsSmall left right

def qm31SumProducts4 (left right : Vector QM31 4) : Option QM31 := qm31SumProductsSmall left right

def qm31M31SumProducts3 (left : Vector QM31 3) (right : Vector M31 3) : Option QM31 := do
  let sums ← sumRange (termsAt limbs (fun value _ => value) left.toList right.toList) 0 3
  return quarticOfLimbs (reduceAll sums)

def preparedTerms {N : ℕ} (left : Vector PreparedQm31Multiplier N) (right : Vector QM31 N) :
    ℕ → Option (Fin 3 × Fin 3 → UInt64) :=
  termsAt PreparedQm31Multiplier.components quarticChannels left.toList right.toList

def qm31SumProducts2Prepared (left : Vector PreparedQm31Multiplier 2) (right : Vector QM31 2) : Option QM31 := do
  let sums ← sumRange (preparedTerms left right) 0 2
  return qm31FromKaratsubaChannelSums sums

def qm31SumProducts3Prepared (left : Vector PreparedQm31Multiplier 3) (right : Vector QM31 3) : Option QM31 := do
  let sums ← sumRange (preparedTerms left right) 0 3
  return qm31FromKaratsubaChannelSums sums

/-- The constant as channel sums: it reaches the result through the real channels and the sums alone. -/
def constantChannels (constant : QM31) : Fin 3 × Fin 3 → UInt64 := fun c =>
  let a0 := constant.c0.a.val.toUInt64
  let b0 := constant.c0.b.val.toUInt64
  let a1 := constant.c1.a.val.toUInt64
  let b1 := constant.c1.b.val.toUInt64
  (![![a0, 0, a0 + b0], ![0, 0, 0], ![a0 + a1, 0, a0 + a1 + b0 + b1]] : Fin 3 → Fin 3 → UInt64) c.1 c.2

def qm31AddSumProducts3Prepared (constant : QM31) (left : Vector PreparedQm31Multiplier 3)
    (right : Vector QM31 3) : Option QM31 := do
  let sums ← sumRange (preparedTerms left right) 0 3
  let sums ← addWords sums (constantChannels constant)
  return qm31FromKaratsubaChannelSums sums

/-- Six products in two groups of three. -/
def qm31Dot6Prepared (weights : Vector PreparedQm31Multiplier 6) (values : Vector QM31 6) : Option QM31 := do
  let sums ← sumRange (groupTerms 3 (preparedTerms weights values)) 0 6
  return quarticOfChannels (reduceGroups sums)

/-- Seven products in a group of four and one of three. -/
def qm31Dot7Prepared (weights : Vector PreparedQm31Multiplier 7) (values : Vector QM31 7) : Option QM31 := do
  let sums ← sumRange (groupTerms 4 (preparedTerms weights values)) 0 7
  return quarticOfChannels (reduceGroups sums)

/-! ### Slices of products -/

/-- One row of quartic products. -/
def qm31Dot (weights values : List QM31) : Option QM31 :=
  if weights.length ≠ values.length then none
  else if weights.length ≤ 16 then do
    let sums ← eagerBlocks (termsAt quarticChannels quarticChannels weights values) weights.length
    return quarticOfChannels sums
  else do
    let sums ← windowedBlocks (termsAt quarticChannels quarticChannels weights values) weights.length
    return quarticOfChannels sums

/-- Three rows of quartic products with the same weights. -/
def qm31Dot3 (weights : List QM31) (values : Fin 3 → List QM31) : Option (Fin 3 → QM31) :=
  if ∃ row, weights.length ≠ (values row).length then none
  else do
    let terms := rowTerms fun row => termsAt quarticChannels quarticChannels weights (values row)
    let sums ← windowedBlocks terms weights.length
    return fun row => quarticOfChannels fun c => sums (row, c)

def qm31Cm31Dot (weights : List QM31) (values : List CM31) : Option QM31 :=
  if weights.length ≠ values.length then none
  else do
    let terms := termsAt mixedChannels (fun value c => karatsubaParts value c.2) weights values
    let sums ← eagerBlocks terms weights.length
    return quarticOfMixed sums

def finishQm31Cm31Dot4 (sums : Fin 4 × Fin 2 × Fin 3 → M31) : Fin 4 → QM31 := fun slot =>
  quarticOfMixed fun c => sums (slot, c)

def qm31Cm31Dot4 (weights : List QM31) (values : Fin 4 → List CM31) : Option (Fin 4 → QM31) :=
  if ∃ slot, weights.length ≠ (values slot).length then none
  else do
    let terms := rowTerms fun slot =>
      termsAt mixedChannels (fun value c => karatsubaParts value c.2) weights (values slot)
    let sums ← windowedBlocks terms weights.length
    return finishQm31Cm31Dot4 sums

def qm31Cm31Dot4Prepared {N : ℕ} (weights : PreparedQm31Cm31Weights N) (values : Fin 4 → Vector CM31 N) :
    Option (Fin 4 → QM31) := do
  let terms := rowTerms fun slot =>
    termsAt id (fun value c => karatsubaParts value c.2) weights.components.toList (values slot).toList
  let sums ← windowedBlocks terms N
  return finishQm31Cm31Dot4 sums

def qm31M31DotEagerOuter (weights : List QM31) (values : List M31) : Option QM31 :=
  if weights.length ≠ values.length then none
  else do
    let sums ← eagerBlocks (termsAt limbs (fun value _ => value) weights values) weights.length
    return quarticOfLimbs sums

/-- One row of products by base words. The sums of the blocks stay 64-bit values to the end. -/
def qm31M31Dot (weights : List QM31) (values : List M31) : Option QM31 :=
  if weights.length ≠ values.length then none
  else if weights.length ≤ 4 then do
    let raw ← sumRange (termsAt limbs (fun value _ => value) weights values) 0 weights.length
    return quarticOfLimbs (reduceAll raw)
  else do
    let sums ← lazyBlocks (termsAt limbs (fun value _ => value) weights values) 0 weights.length
    return quarticOfLimbs (reduceAll sums)

def finishQm31M31Dot4 (sums : Fin 4 × Fin 4 → UInt64) : Fin 4 → QM31 := fun slot =>
  quarticOfLimbs (reduceAll fun c => sums (slot, c))

/-- Four rows of products by base words. The sums of the windows stay 64-bit values to the end. -/
def qm31M31Dot4 (weights : List QM31) (values : Fin 4 → List M31) : Option (Fin 4 → QM31) :=
  if ∃ slot, weights.length ≠ (values slot).length then none
  else do
    let terms := rowTerms fun slot => termsAt limbs (fun value _ => value) weights (values slot)
    let sums ← lazyWindows terms weights.length
    return finishQm31M31Dot4 sums

/-- Adds a 128-bit value to each sum, unless one of the additions wraps. -/
def addWide (sums terms : Fin 4 → BitVec 128) : Option (Fin 4 → BitVec 128) :=
  if ∀ c, (sums c).toNat + (terms c).toNat < 2 ^ 128 then some fun c => sums c + terms c else none

/-- The products of one factor by a base word as 128-bit values. -/
def wideProducts (weight : QM31) (value : M31) : Fin 4 → BitVec 128 := fun c =>
  (limbs weight c).val.toBitVec.setWidth 128 * value.val.toBitVec.setWidth 128

/-- One row of products by base words, summed in 128-bit values. -/
def qm31M31DotU128 (weights : List QM31) (values : List M31) : Option QM31 :=
  if weights.length ≠ values.length then none
  else do
    let sums ← (weights.zip values).foldlM (fun sums pair => addWide sums (wideProducts pair.1 pair.2)) fun _ => 0
    return quarticOfLimbs fun c => M31.reduceU128 (sums c)

end Aspis.Core
