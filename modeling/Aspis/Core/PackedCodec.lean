import Aspis.Core.Field
import Aspis.Lib.Bytes
import Aspis.Lib.Exec

/-! The packing of field words into bytes. A word takes 31 bits, least significant first, and the
words follow one another without a gap; the bits after the last word are zero. A packed section is
read at random, in sequence, or in blocks of eight words, which take 31 bytes. -/

namespace Aspis.Core

open Aspis.Lib

inductive V6WireError
  | frontierTooLarge
  | wrongLength
  | nonCanonicalM31
  | invalidQuerySchedule
  | merkleMismatch
  | friMismatch
  deriving DecidableEq, Repr

/-- Multiplication and addition of sizes, none where the result is no 64-bit size. -/
def usizeMul (a b : ℕ) : Option ℕ := if a * b < 2 ^ 64 then some (a * b) else none

def usizeAdd (a b : ℕ) : Option ℕ := if a + b < 2 ^ 64 then some (a + b) else none

def packedBytes (limbs : ℕ) : ℕ := (limbs * 31 + 7) / 8

/-- The bytes from an offset on, as one 64-bit value. -/
def loadWindow (bytes : Bytes) (byteStart available : ℕ) : UInt64 :=
  (List.range available).foldl
    (fun window offset => window ||| ((byteAt (byteStart + offset) bytes).toUInt64 <<< UInt64.ofNat (8 * offset))) 0

/-- The word at an index, from the window of five bytes that covers it. -/
def packedM31At (bytes : Bytes) (index : ℕ) : Option UInt32 := do
  let bitStart ← usizeMul index 31
  let bitEnd ← usizeAdd bitStart 31
  let bits ← usizeMul bytes.length 8
  if bits < bitEnd then none
  else
    let byteStart := bitStart / 8
    let shift := bitStart % 8
    let window := loadWindow bytes byteStart (min 5 (bytes.length - byteStart))
    some ((window >>> UInt64.ofNat shift) &&& 0x7fffffff).toUInt32

def packedQm31At (bytes : Bytes) (index : ℕ) : Option QM31 := do
  let limb ← usizeMul index 4
  let a0 ← packedM31At bytes limb
  let b0 ← packedM31At bytes (limb + 1)
  let a1 ← packedM31At bytes (limb + 2)
  let b1 ← packedM31At bytes (limb + 3)
  return ⟨⟨⟨a0⟩, ⟨b0⟩⟩, ⟨⟨a1⟩, ⟨b1⟩⟩⟩

/-- The length is exact, every word is below `P`, and the bits after the last word are zero. -/
def validatePackedM31 (bytes : Bytes) (limbs : ℕ) : Except V6WireError Unit := do
  require (bytes.length = packedBytes limbs) .wrongLength
  (List.range limbs).forM fun index => do
    let value ← okOr (packedM31At bytes index) .wrongLength
    require (value < P) .nonCanonicalM31
  (List.range' (limbs * 31) (bytes.length * 8 - limbs * 31)).forM fun bit =>
    require ((byteAt (bit / 8) bytes >>> UInt8.ofNat (bit % 8)) &&& 1 = 0) .nonCanonicalM31

def validatePackedPadding (bytes : Bytes) (limbs : ℕ) : Except V6WireError Unit := do
  require (bytes.length = packedBytes limbs) .wrongLength
  let usedInLastByte := limbs * 31 % 8
  if usedInLastByte ≠ 0 then
    let unusedMask : UInt8 := ~~~((1 <<< UInt8.ofNat usedInLastByte) - 1)
    require (bytes.getLastD 0 &&& unusedMask = 0) .nonCanonicalM31

/-! ### The sequential reader -/

structure PackedM31Reader where
  bytes : Bytes
  byteIndex : ℕ
  buffer : UInt64
  bufferedBits : ℕ
  deriving DecidableEq, Repr

namespace PackedM31Reader

def new (bytes : Bytes) : PackedM31Reader := ⟨bytes, 0, 0, 0⟩

/-- Bytes are taken up until a word is buffered; none if the bytes run out. -/
def refill (self : PackedM31Reader) : Option PackedM31Reader :=
  if self.bufferedBits < 31 then
    self.bytes[self.byteIndex]?.bind fun byte =>
      refill ⟨self.bytes, self.byteIndex + 1, self.buffer ||| (byte.toUInt64 <<< UInt64.ofNat self.bufferedBits),
        self.bufferedBits + 8⟩
  else some self
termination_by 31 - self.bufferedBits

def next (self : PackedM31Reader) : Option (UInt32 × PackedM31Reader) := do
  let filled ← self.refill
  return ((filled.buffer &&& 0x7fffffff).toUInt32,
    ⟨filled.bytes, filled.byteIndex, filled.buffer >>> 31, filled.bufferedBits - 31⟩)

def qm31 (self : PackedM31Reader) : Option (QM31 × PackedM31Reader) := do
  let (a0, self) ← self.next
  let (b0, self) ← self.next
  let (a1, self) ← self.next
  let (b1, self) ← self.next
  return (⟨⟨⟨a0⟩, ⟨b0⟩⟩, ⟨⟨a1⟩, ⟨b1⟩⟩⟩, self)

/-- A number of words one after the other. -/
def take (self : PackedM31Reader) : ℕ → Option (List UInt32 × PackedM31Reader)
  | 0 => some ([], self)
  | count + 1 => do
    let (value, self) ← self.next
    let (rest, self) ← self.take count
    return (value :: rest, self)

end PackedM31Reader

/-! ### Blocks of eight words -/

/-- The eight words of 31 bytes, each from the machine word that covers it. -/
def alignedBlock (chunk : Bytes) : List UInt32 :=
  let load64 (offset : ℕ) : UInt64 := UInt64.ofNat (leNat (slice offset 8 chunk))
  [(load64 0 &&& P.toUInt64).toUInt32,
    ((load64 3 >>> 7) &&& P.toUInt64).toUInt32,
    ((load64 7 >>> 6) &&& P.toUInt64).toUInt32,
    ((load64 11 >>> 5) &&& P.toUInt64).toUInt32,
    ((load64 15 >>> 4) &&& P.toUInt64).toUInt32,
    ((load64 19 >>> 3) &&& P.toUInt64).toUInt32,
    ((load64 23 >>> 2) &&& P.toUInt64).toUInt32,
    (UInt32.ofNat (leNat (slice 27 4 chunk)) >>> 1) &&& P]

def decodePackedM31EightAligned (N : ℕ) (bytes : Bytes) : Except V6WireError (List UInt32) :=
  if N = 0 ∨ N % 8 ≠ 0 ∨ bytes.length ≠ N / 8 * 31 then .error .wrongLength
  else
    let output := (List.range (N / 8)).flatMap fun block => alignedBlock (slice (block * 31) 31 bytes)
    -- the flag is the disjunction over all words, looked at once at the end
    let invalid := output.any fun value => decide (P ≤ value)
    if invalid then .error .nonCanonicalM31 else .ok output

/-! ### The writer -/

def setBit (output : Bytes) (bit : ℕ) : Bytes :=
  output.modify (bit / 8) fun byte => byte ||| (1 <<< UInt8.ofNat (bit % 8))

def writePackedM31 (output : Bytes) (limb : ℕ) (value : M31) : Except V6WireError Bytes := do
  require (value.val < P) .nonCanonicalM31
  let bitStart ← okOr (usizeMul limb 31) .wrongLength
  require (bitStart + 31 ≤ output.length * 8) .wrongLength
  return (List.range 31).foldl
    (fun output bit => if (value.val >>> UInt32.ofNat bit) &&& 1 ≠ 0 then setBit output (bitStart + bit) else output)
    output

/-- The words written one after the other from an index on. -/
def writePackedFrom (output : Bytes) : ℕ → List M31 → Except V6WireError Bytes
  | _, [] => .ok output
  | limb, value :: rest => do
    let output ← writePackedM31 output limb value
    writePackedFrom output (limb + 1) rest

/-- A section of words, written into zeroed bytes. -/
def packM31 (values : List M31) : Except V6WireError Bytes :=
  writePackedFrom (zeros (packedBytes values.length)) 0 values

end Aspis.Core
