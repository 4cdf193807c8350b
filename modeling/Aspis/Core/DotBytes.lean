import Aspis.Core.DotKernels
import Aspis.Lib.Bytes

/-! The dot products that read their values from bytes. A value is read, checked and masked in one
pass; a value outside the field only sets a flag, and the flag decides at the end. The inner
option is the one the code returns; the outer one is none where the code would stop. -/

namespace Aspis.Core

open Aspis.Lib Aspis.Lib.Accumulate
open scoped Widths

/-- The little-endian word at an offset. -/
def limbAt (bytes : Bytes) (offset : ℕ) : Option UInt32 :=
  if offset + 4 ≤ bytes.length then some (UInt32.ofNat (leNat (slice offset 4 bytes))) else none

/-- Whether a word is outside the field. -/
def outside (value : UInt32) : Bool := decide (P ≤ value)

section Loops

variable {ι : Type} [Fintype ι]

/-- The sums of the words of a range, and the flag. -/
def sumRangeFlagged (terms : ℕ → Option (Bool × (ι → UInt64))) (start stop : ℕ) (invalid : Bool) :
    Option (Bool × (ι → UInt64)) :=
  rangeLoop (fun state index => do
    let term ← terms index
    let raw ← addWords state.2 term.2
    return (state.1 || term.1, raw)) start stop (invalid, fun _ => 0)

/-- One block, reduced and added to the 64-bit sums. -/
def closeBlock (terms : ℕ → Option (Bool × (ι → UInt64))) (state : Bool × (ι → UInt64)) (start stop : ℕ) :
    Option (Bool × (ι → UInt64)) := do
  let block ← sumRangeFlagged terms start stop state.1
  let sums ← addWords state.2 (wordsOf (reduceAll block.2))
  return (block.1, sums)

/-- Blocks of four up to the end of a range. -/
def flaggedBlocks (terms : ℕ → Option (Bool × (ι → UInt64))) (start stop : ℕ) (invalid : Bool) :
    Option (Bool × (ι → UInt64)) :=
  stepLoop 4 (closeBlock terms) start stop (invalid, fun _ => 0)

/-- A number of complete blocks of four. -/
def completeBlocks (terms : ℕ → Option (Bool × (ι → UInt64))) (count : ℕ) (invalid : Bool) :
    Option (Bool × (ι → UInt64)) :=
  rangeLoop (fun state block => closeBlock terms state (block * 4) (block * 4 + 4)) 0 count (invalid, fun _ => 0)

/-- Windows of 256, each reduced and added to a canonical sum. -/
def flaggedWindows (terms : ℕ → Option (Bool × (ι → UInt64))) (len : ℕ) : Option (Bool × (ι → M31)) :=
  stepLoop OUTER_COLUMNS (fun state start stop => do
    let outer ← flaggedBlocks terms start stop state.1
    return (outer.1, fun c => (state.2 c).add (M31.reduceU64 (outer.2 c)))) 0 len (false, fun _ => M31.zero)

/-- Four slots one after the other, with one flag for all. -/
def slotResults (slotResult : Fin 4 → Bool → Option (Bool × QM31)) : Option (Option (Fin 4 → QM31)) := do
  let first ← slotResult 0 false
  let second ← slotResult 1 first.1
  let third ← slotResult 2 second.1
  let fourth ← slotResult 3 third.1
  return if fourth.1 then none else some ![first.2, second.2, third.2, fourth.2]

end Loops

/-! ### Values of base words -/

section BaseWords

variable {N : ℕ}

/-- The products at one index of one slot. Wire order is slot-major. -/
def limbTerm (weightLimbs : Vector (Fin 4 → UInt32) N) (bytes : Bytes) (slot : ℕ) (index : ℕ) :
    Option (Bool × (Fin 4 → UInt64)) := do
  let limbs ← weightLimbs[index]?
  let value ← limbAt bytes ((slot * N + index) * 4)
  return (outside value, fun c => (limbs c).toUInt64 * (value &&& P).toUInt64)

def slotValue (sums : Fin 4 → UInt64) : QM31 := quarticOfLimbs (reduceAll sums)

/-- Four dot products of any width. -/
def qm31M31Dot4PreparedLimbsBytes (weightLimbs : Vector (Fin 4 → UInt32) N) (bytes : Bytes) :
    Option (Option (Fin 4 → QM31)) :=
  if bytes.length ≠ 4 * N * 4 then some none
  else slotResults fun slot invalid => do
    let sums ← flaggedBlocks (limbTerm weightLimbs bytes slot) 0 N invalid
    return (sums.1, slotValue sums.2)

def limbTable (weights : Vector QM31 N) : Vector (Fin 4 → UInt32) N :=
  weights.map fun weight c => (limbs weight c).val

def qm31M31Dot4PreparedBytes (weights : Vector QM31 N) (bytes : Bytes) : Option (Option (Fin 4 → QM31)) :=
  qm31M31Dot4PreparedLimbsBytes (limbTable weights) bytes

/-- Widths of complete blocks and one more. -/
def qm31M31Dot4PreparedLimbs4b1Bytes (weightLimbs : Vector (Fin 4 → UInt32) N) (bytes : Bytes) :
    Option (Option (Fin 4 → QM31)) :=
  if N = 0 ∨ N % 4 ≠ 1 ∨ bytes.length ≠ 4 * N * 4 then some none
  else slotResults fun slot invalid => do
    let sums ← completeBlocks (limbTerm weightLimbs bytes slot) (N / 4) invalid
    let sums ← closeBlock (limbTerm weightLimbs bytes slot) sums (N - 1) N
    return (sums.1, slotValue sums.2)

/-- Widths of complete blocks. -/
def qm31M31Dot4PreparedLimbs4bBytes (weightLimbs : Vector (Fin 4 → UInt32) N) (bytes : Bytes) :
    Option (Option (Fin 4 → QM31)) :=
  if N = 0 ∨ N % 4 ≠ 0 ∨ bytes.length ≠ 4 * N * 4 then some none
  else slotResults fun slot invalid => do
    let sums ← completeBlocks (limbTerm weightLimbs bytes slot) (N / 4) invalid
    return (sums.1, slotValue sums.2)

/-- Widths of complete blocks and two more. -/
def qm31M31Dot4PreparedLimbs4b2Bytes (weightLimbs : Vector (Fin 4 → UInt32) N) (bytes : Bytes) :
    Option (Option (Fin 4 → QM31)) :=
  if N < 2 ∨ N % 4 ≠ 2 ∨ bytes.length ≠ 4 * N * 4 then some none
  else slotResults fun slot invalid => do
    let sums ← completeBlocks (limbTerm weightLimbs bytes slot) (N / 4) invalid
    let sums ← closeBlock (limbTerm weightLimbs bytes slot) sums (N - 2) N
    return (sums.1, slotValue sums.2)

/-- The width of 49 columns: twelve complete blocks and one more. -/
def qm31M31Dot4PreparedLimbs49Bytes (weightLimbs : Vector (Fin 4 → UInt32) 49) (bytes : Bytes) :
    Option (Option (Fin 4 → QM31)) :=
  if bytes.length ≠ 4 * 49 * 4 then some none
  else slotResults fun slot invalid => do
    let sums ← completeBlocks (limbTerm weightLimbs bytes slot) 12 invalid
    let sums ← closeBlock (limbTerm weightLimbs bytes slot) sums 48 49
    return (sums.1, slotValue sums.2)

/-- The products at one index of two slots. -/
def twoRowTerm (weightLimbs : Vector (Fin 4 → UInt32) N) (bytes : Bytes) (firstSlot : ℕ) (index : ℕ) :
    Option (Bool × (Fin 2 × Fin 4 → UInt64)) := do
  let first ← limbTerm weightLimbs bytes firstSlot index
  let second ← limbTerm weightLimbs bytes (firstSlot + 1) index
  return (first.1 || second.1, fun c => (![first.2, second.2] : Fin 2 → Fin 4 → UInt64) c.1 c.2)

/-- The width of 49 columns, two slots at a time. -/
def qm31M31Dot4PreparedLimbs49BytesTwoRows (weightLimbs : Vector (Fin 4 → UInt32) 49) (bytes : Bytes) :
    Option (Option (Fin 4 → QM31)) :=
  if bytes.length ≠ 4 * 49 * 4 then some none
  else do
    let pair (firstSlot : ℕ) (invalid : Bool) : Option (Bool × (Fin 2 × Fin 4 → UInt64)) := do
      let sums ← completeBlocks (twoRowTerm weightLimbs bytes firstSlot) 12 invalid
      closeBlock (twoRowTerm weightLimbs bytes firstSlot) sums 48 49
    let low ← pair 0 false
    let high ← pair 2 low.1
    let value (sums : Fin 2 × Fin 4 → UInt64) (row : Fin 2) := slotValue fun c => sums (row, c)
    return if high.1 then none else some ![value low.2 0, value low.2 1, value high.2 0, value high.2 1]

end BaseWords

/-! ### Values of complex words -/

section ComplexWords

variable {N : ℕ}

/-- The words of one value, with their flag. Both words are masked, so their sum stays a word. -/
def complexAt (bytes : Bytes) (slot index : ℕ) : Option (Bool × CM31) := do
  let offset := (slot * N + index) * 8
  let a ← limbAt bytes offset
  let b ← limbAt bytes (offset + 4)
  return (outside a || outside b, ⟨⟨a &&& P⟩, ⟨b &&& P⟩⟩)

/-- The products at one index of four slots. -/
def complexTerm (weights : PreparedQm31Cm31Weights N) (bytes : Bytes) (index : ℕ) :
    Option (Bool × (Fin 4 × Fin 2 × Fin 3 → UInt64)) := do
  let weight ← weights.components[index]?
  let v0 ← complexAt (N := N) bytes 0 index
  let v1 ← complexAt (N := N) bytes 1 index
  let v2 ← complexAt (N := N) bytes 2 index
  let v3 ← complexAt (N := N) bytes 3 index
  let values : Fin 4 → CM31 := ![v0.2, v1.2, v2.2, v3.2]
  return (v0.1 || v1.1 || v2.1 || v3.1, fun c => products weight (fun k => karatsubaParts (values c.1) k.2) c.2)

/-- Four dot products with complex values. -/
def qm31Cm31Dot4PreparedBytes (weights : PreparedQm31Cm31Weights N) (bytes : Bytes) :
    Option (Option (Fin 4 → QM31)) :=
  if bytes.length ≠ 4 * N * 8 then some none
  else do
    let sums ← flaggedWindows (complexTerm weights bytes) N
    return if sums.1 then none else some (finishQm31Cm31Dot4 sums.2)

end ComplexWords

end Aspis.Core
