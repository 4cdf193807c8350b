import Aspis.Core.Field
import Aspis.Lib.Records
import Mathlib.Logic.Function.Iterate

/-! The hash transcript. A transcript is a 32-byte state: records are hashed into it,
and a block is squeezed out of it while the state moves on. Challenges are drawn from
the squeezed blocks alone, with a bounded number of retries, so each sampler is
written over any source of blocks; its transcript is one such source and the bare
sequence of the transcript's blocks is another. -/

namespace Aspis.Core

open Aspis.Lib

/-- A hash backend, which hashes the concatenation of the slices it is given. -/
structure HashFn where
  hashv : List Bytes → FixedBytes 32
  hashv_flatten : ∀ slices, hashv slices = hashv [slices.flatten]

/-- The backend of a function of the concatenation. -/
def HashFn.ofBytes (f : Bytes → FixedBytes 32) : HashFn := ⟨fun slices => f slices.flatten, fun slices => by simp⟩

def DOM_ABSORB : UInt8 := 0x00

def DOM_SQUEEZE : UInt8 := 0x01

def DOM_ADVANCE : UInt8 := 0x02

/-- Draws for one limb of a QM31 challenge. -/
def CHALLENGE_RETRY_LIMIT : ℕ := 8

def NONZERO_QM31_RETRY_LIMIT : ℕ := 3

def OOD_RETRY_LIMIT : ℕ := 3

def CIRCLE_POINT_RETRY_LIMIT : ℕ := 3

inductive ChallengeSampleExhausted
  | challengeSampleExhausted
  deriving DecidableEq, Repr

inductive QuerySampleError
  | boundNotPowerOfTwo (bound : UInt32)
  | countExceedsBound (count : ℕ) (bound : UInt32)
  | drawLimitExhausted (accepted maxDraws : ℕ)
  deriving DecidableEq, Repr

inductive OodSampleError
  | challengeSampleExhausted
  | subfieldSampleExhausted
  deriving DecidableEq, Repr

inductive CirclePointSampleError
  | challengeSampleExhausted
  | parameterSampleExhausted
  deriving DecidableEq, Repr

structure Transcript where
  state : FixedBytes 32
  hash : HashFn

namespace Transcript

def new (hash : HashFn) : Transcript := ⟨⟨zeros 32, Bytes32.zero.length_eq⟩, hash⟩

def PACKED_ABSORB_BYTES : ℕ := 192

/-- Hash a record into the state. A short record is packed into one buffer with its framing, a long one is hashed
from its slices. -/
def absorb (t : Transcript) (label : UInt8) (data : Bytes) : Transcript :=
  if data.length ≤ PACKED_ABSORB_BYTES - 34 then
    let input := zeros PACKED_ABSORB_BYTES
    let input := patch 0 t.state.1 input
    let input := patch 32 [DOM_ABSORB] input
    let input := patch 33 [label] input
    let input := patch 34 data input
    { t with state := t.hash.hashv [input.take (34 + data.length)] }
  else { t with state := t.hash.hashv [t.state.1, [DOM_ABSORB, label], data] }

/-- Hash two pieces into the state as one record. -/
def absorbTwo (t : Transcript) (label : UInt8) (first second : Bytes) : Transcript :=
  { t with state := t.hash.hashv [t.state.1, [DOM_ABSORB, label], first, second] }

/-- Squeeze one block and advance the state. -/
def squeezeBlock (t : Transcript) : FixedBytes 32 × Transcript :=
  (t.hash.hashv [t.state.1 ++ [DOM_SQUEEZE]], { t with state := t.hash.hashv [t.state.1 ++ [DOM_ADVANCE]] })

end Transcript

/-! ### Samplers -/

section Samplers
variable {S ε α : Type} (squeezeBlock : S → FixedBytes 32 × S)

/-- The little-endian words of a block. -/
def blockWord (block : FixedBytes 32) (i : ℕ) : UInt32 := readU32 (i * 4) block.1

/-- A block that is being read word by word, and where the next ones come from. -/
structure BlockReader (S : Type) where
  block : FixedBytes 32
  wordIndex : ℕ
  source : S

/-- The next word; a spent block is replaced first. -/
def BlockReader.nextWord (r : BlockReader S) : UInt32 × BlockReader S :=
  if r.wordIndex = 8 then
    (blockWord (squeezeBlock r.source).1 0, ⟨(squeezeBlock r.source).1, 1, (squeezeBlock r.source).2⟩)
  else (blockWord r.block r.wordIndex, { r with wordIndex := r.wordIndex + 1 })

/-- One limb: 31 bits of the next word, drawn again when they are the value `P`. -/
def drawLimb : ℕ → BlockReader S → Option M31 × BlockReader S
  | 0, r => (none, r)
  | retries + 1, r =>
    let masked := (r.nextWord squeezeBlock).1 &&& P
    if masked ≠ P then (some ⟨masked⟩, (r.nextWord squeezeBlock).2)
    else drawLimb retries (r.nextWord squeezeBlock).2

def drawLimbs : ℕ → BlockReader S → Option (List M31) × BlockReader S
  | 0, r => (some [], r)
  | n + 1, r =>
    match drawLimb squeezeBlock CHALLENGE_RETRY_LIMIT r with
    | (none, r) => (none, r)
    | (some limb, r) => ((drawLimbs n r).1.map (limb :: ·), (drawLimbs n r).2)

def challengeQm31 (s : S) : Except ChallengeSampleExhausted QM31 × S :=
  match drawLimbs squeezeBlock 4 ⟨(squeezeBlock s).1, 0, (squeezeBlock s).2⟩ with
  | (none, r) => (.error .challengeSampleExhausted, r.source)
  | (some limbs, r) =>
    (.ok ⟨⟨limbs.getD 0 .zero, limbs.getD 1 .zero⟩, ⟨limbs.getD 2 .zero, limbs.getD 3 .zero⟩⟩, r.source)

/-- Draw field elements until one is accepted, at most `limit` times. -/
def challengeAccepted (accept : QM31 → Option α) (sampleExhausted retriesExhausted : ε) : ℕ → S → Except ε α × S
  | 0, s => (.error retriesExhausted, s)
  | limit + 1, s =>
    match challengeQm31 squeezeBlock s with
    | (.error _, s) => (.error sampleExhausted, s)
    | (.ok value, s) =>
      match accept value with
      | some a => (.ok a, s)
      | none => challengeAccepted accept sampleExhausted retriesExhausted limit s

def challengeNonzeroQm31 : S → Except ChallengeSampleExhausted QM31 × S :=
  challengeAccepted squeezeBlock (fun value => if value ≠ .zero then some value else none) .challengeSampleExhausted
    .challengeSampleExhausted NONZERO_QM31_RETRY_LIMIT

def challengeOodQm31 : S → Except OodSampleError QM31 × S :=
  challengeAccepted squeezeBlock (fun point => if point.c1 ≠ .zero then some point else none) .challengeSampleExhausted
    .subfieldSampleExhausted OOD_RETRY_LIMIT

def challengeSecureCirclePoint : S → Except CirclePointSampleError SecureCirclePoint × S :=
  challengeAccepted squeezeBlock (fun parameter => (secureOodCirclePointFromParameter parameter).toOption)
    .challengeSampleExhausted .parameterSampleExhausted CIRCLE_POINT_RETRY_LIMIT

/-- The words of a block, from left to right. -/
def blockWords (block : FixedBytes 32) : List UInt32 := (List.range 8).map (blockWord block)

/-- Push the masked words of a block until there are `count` positions. -/
def pushWords (count : ℕ) (mask : UInt32) : List UInt32 → List UInt32 → List UInt32
  | [], out => out
  | word :: words, out => if out.length = count then out else pushWords count mask words (out ++ [word &&& mask])

/-- Squeeze blocks until there are `count` positions. -/
def queryBlocks (count : ℕ) (mask : UInt32) : ℕ → List UInt32 → S → List UInt32 × S
  | 0, out, s => (out, s)
  | fuel + 1, out, s =>
    let out := pushWords count mask (blockWords (squeezeBlock s).1) out
    if out.length = count then (out, (squeezeBlock s).2) else queryBlocks count mask fuel out (squeezeBlock s).2

/-- `count` positions below `bound`; every block adds a position, so that `count + 1` blocks are more than enough. -/
def challengeQueries (count : ℕ) (bound : UInt32) (s : S) : List UInt32 × S :=
  queryBlocks squeezeBlock count (bound - 1) (count + 1) [] s

/-- Push the masked words of a block that are new, and count the draws. The flag says that the sampling stopped
inside the block. -/
def pushDistinct (count maxDraws : ℕ) (mask : UInt32) : List UInt32 → List UInt32 → ℕ → List UInt32 × ℕ × Bool
  | [], out, draws => (out, draws, false)
  | word :: words, out, draws =>
    if out.length = count ∨ draws = maxDraws then (out, draws, true)
    else
      let candidate := word &&& mask
      pushDistinct count maxDraws mask words (if candidate ∈ out then out else out ++ [candidate]) (draws + 1)

def distinctBlocks (count maxDraws : ℕ) (mask : UInt32) : ℕ → List UInt32 → ℕ → S → List UInt32 × S
  | 0, out, _, s => (out, s)
  | fuel + 1, out, draws, s =>
    if draws < maxDraws then
      match pushDistinct count maxDraws mask (blockWords (squeezeBlock s).1) out draws with
      | (out, _, true) => (out, (squeezeBlock s).2)
      | (out, draws, false) => distinctBlocks count maxDraws mask fuel out draws (squeezeBlock s).2
    else (out, s)

def isPowerOfTwo (x : UInt32) : Bool := (List.range 32).any fun k => x.toNat == 2 ^ k

/-- `count` different positions below `bound`, in at most `maxDraws` draws. -/
def challengeQueriesWithoutReplacement (count : ℕ) (bound : UInt32) (maxDraws : ℕ) (s : S) :
    Except QuerySampleError (List UInt32) × S :=
  if ¬ isPowerOfTwo bound then (.error (.boundNotPowerOfTwo bound), s)
  else if bound.toNat < count then (.error (.countExceedsBound count bound), s)
  else if count = 0 then (.ok [], s)
  else
    let (out, s) := distinctBlocks squeezeBlock count maxDraws (bound - 1) (maxDraws + 1) [] 0 s
    if out.length = count then (.ok out, s) else (.error (.drawLimitExhausted out.length maxDraws), s)

end Samplers

namespace Transcript

def challengeQm31 (t : Transcript) : Except ChallengeSampleExhausted QM31 × Transcript :=
  Core.challengeQm31 squeezeBlock t

def challengeNonzeroQm31 (t : Transcript) : Except ChallengeSampleExhausted QM31 × Transcript :=
  Core.challengeNonzeroQm31 squeezeBlock t

def challengeOodQm31 (t : Transcript) : Except OodSampleError QM31 × Transcript := Core.challengeOodQm31 squeezeBlock t

def challengeSecureCirclePoint (t : Transcript) : Except CirclePointSampleError SecureCirclePoint × Transcript :=
  Core.challengeSecureCirclePoint squeezeBlock t

def challengeQueries (t : Transcript) (count : ℕ) (bound : UInt32) : List UInt32 × Transcript :=
  Core.challengeQueries squeezeBlock count bound t

def challengeQueriesWithoutReplacement (t : Transcript) (count : ℕ) (bound : UInt32) (maxDraws : ℕ) :
    Except QuerySampleError (List UInt32) × Transcript :=
  Core.challengeQueriesWithoutReplacement squeezeBlock count bound maxDraws t

end Transcript

/-! ### One source behind another -/

section Follows
variable {S S' ε α : Type} {squeeze : S → FixedBytes 32 × S} {squeeze' : S' → FixedBytes 32 × S'} {f : S → S'}

/-- Read through `f`, the second source gives the blocks of the first. -/
def Follows (squeeze : S → FixedBytes 32 × S) (squeeze' : S' → FixedBytes 32 × S') (f : S → S') : Prop :=
  ∀ s, squeeze' (f s) = ((squeeze s).1, f (squeeze s).2)

def BlockReader.map (f : S → S') (r : BlockReader S) : BlockReader S' := ⟨r.block, r.wordIndex, f r.source⟩

theorem nextWord_follows (h : Follows squeeze squeeze' f) (r : BlockReader S) :
    (r.map f).nextWord squeeze' = ((r.nextWord squeeze).1, (r.nextWord squeeze).2.map f) := by
  unfold BlockReader.nextWord
  by_cases hspent : r.wordIndex = 8
  · rw [if_pos hspent, if_pos (show (r.map f).wordIndex = 8 from hspent)]
    simp only [BlockReader.map, h r.source]
  · rw [if_neg hspent, if_neg (show (r.map f).wordIndex ≠ 8 from hspent)]
    rfl

theorem drawLimb_follows (h : Follows squeeze squeeze' f) (retries : ℕ) (r : BlockReader S) :
    drawLimb squeeze' retries (r.map f) = ((drawLimb squeeze retries r).1, (drawLimb squeeze retries r).2.map f) := by
  induction retries generalizing r with
  | zero => rfl
  | succ retries ih =>
    simp only [drawLimb, nextWord_follows h]
    split_ifs
    · rfl
    · exact ih _

theorem drawLimbs_follows (h : Follows squeeze squeeze' f) (n : ℕ) (r : BlockReader S) :
    drawLimbs squeeze' n (r.map f) = ((drawLimbs squeeze n r).1, (drawLimbs squeeze n r).2.map f) := by
  induction n generalizing r with
  | zero => rfl
  | succ n ih =>
    rw [drawLimbs, drawLimbs, drawLimb_follows h]
    rcases hlimb : drawLimb squeeze CHALLENGE_RETRY_LIMIT r with ⟨_ | limb, r'⟩
    · rfl
    · simp only [ih]

theorem challengeQm31_follows (h : Follows squeeze squeeze' f) (s : S) :
    challengeQm31 squeeze' (f s) = ((challengeQm31 squeeze s).1, f (challengeQm31 squeeze s).2) := by
  have hlimbs := drawLimbs_follows h 4 ⟨(squeeze s).1, 0, (squeeze s).2⟩
  rw [challengeQm31, challengeQm31, h s]
  change drawLimbs squeeze' 4 ⟨(squeeze s).1, 0, f (squeeze s).2⟩ = _ at hlimbs
  rw [hlimbs]
  rcases drawLimbs squeeze 4 ⟨(squeeze s).1, 0, (squeeze s).2⟩ with ⟨_ | limbs, r⟩
  · rfl
  · rfl

theorem challengeAccepted_follows (h : Follows squeeze squeeze' f) (accept : QM31 → Option α) (e e' : ε) (limit : ℕ)
    (s : S) : challengeAccepted squeeze' accept e e' limit (f s) = ((challengeAccepted squeeze accept e e' limit s).1,
      f (challengeAccepted squeeze accept e e' limit s).2) := by
  induction limit generalizing s with
  | zero => rfl
  | succ limit ih =>
    rw [challengeAccepted, challengeAccepted, challengeQm31_follows h]
    rcases challengeQm31 squeeze s with ⟨_ | value, s'⟩
    · rfl
    · simp only
      cases accept value with
      | none => exact ih s'
      | some a => rfl

theorem queryBlocks_follows (h : Follows squeeze squeeze' f) (count : ℕ) (mask : UInt32) (fuel : ℕ) (out : List UInt32)
    (s : S) : queryBlocks squeeze' count mask fuel out (f s) =
      ((queryBlocks squeeze count mask fuel out s).1, f (queryBlocks squeeze count mask fuel out s).2) := by
  induction fuel generalizing out s with
  | zero => rfl
  | succ fuel ih =>
    simp only [queryBlocks, h s]
    split_ifs
    · rfl
    · exact ih _ _

theorem distinctBlocks_follows (h : Follows squeeze squeeze' f) (count maxDraws : ℕ) (mask : UInt32) (fuel : ℕ)
    (out : List UInt32) (draws : ℕ) (s : S) : distinctBlocks squeeze' count maxDraws mask fuel out draws (f s) =
      ((distinctBlocks squeeze count maxDraws mask fuel out draws s).1,
        f (distinctBlocks squeeze count maxDraws mask fuel out draws s).2) := by
  induction fuel generalizing out draws s with
  | zero => rfl
  | succ fuel ih =>
    simp only [distinctBlocks, h s]
    split_ifs
    · rcases pushDistinct count maxDraws mask (blockWords (squeeze s).1) out draws with ⟨out', draws', _ | _⟩
      · exact ih _ _ _
      · rfl
    · rfl

theorem challengeQueriesWithoutReplacement_follows (h : Follows squeeze squeeze' f) (count : ℕ) (bound : UInt32)
    (maxDraws : ℕ) (s : S) : challengeQueriesWithoutReplacement squeeze' count bound maxDraws (f s) =
      ((challengeQueriesWithoutReplacement squeeze count bound maxDraws s).1,
        f (challengeQueriesWithoutReplacement squeeze count bound maxDraws s).2) := by
  unfold challengeQueriesWithoutReplacement
  split_ifs
  · rfl
  · rfl
  · rw [distinctBlocks_follows h]
    simp only
    split_ifs
    · rfl
    · rfl
  · rfl

end Follows

/-! ### The blocks of a transcript -/

namespace Transcript

/-- The transcript after one squeezed block. -/
def advance (t : Transcript) : Transcript := t.squeezeBlock.2

/-- The blocks of a transcript, by their number. -/
def blockAt (t : Transcript) (n : ℕ) : FixedBytes 32 := (advance^[n] t).squeezeBlock.1

/-- The blocks of a transcript as a source; what is left of it is the number of the next block. -/
def blocks (t : Transcript) (n : ℕ) : FixedBytes 32 × ℕ := (t.blockAt n, n + 1)

theorem follows_blocks (t : Transcript) : Follows t.blocks squeezeBlock fun n => advance^[n] t := by
  intro n
  show (advance^[n] t).squeezeBlock = (t.blockAt n, advance^[n + 1] t)
  rw [Function.iterate_succ_apply']
  rfl

end Transcript

end Aspis.Core
