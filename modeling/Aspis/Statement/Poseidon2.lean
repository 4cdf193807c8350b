import Aspis.Core.FieldTower
import Aspis.Lib.CheckedWord
import Mathlib.Data.Fin.VecNotation

/-! The Poseidon2 permutation of sixteen field words: four full rounds, fourteen partial ones, four
full rounds. The reference reduces after every addition. The optimized kernel keeps the sums of its
linear layers in 64-bit words and reduces each output once; here these sums are checked, and none
stands for a sum that does not fit or exceeds the range of its reduction. -/

namespace Aspis.Poseidon2

open Aspis.Core Aspis.Lib
open scoped Widths

def POSEIDON2_WIDTH : ℕ := 16
def POSEIDON2_ROUNDS : ℕ := 22

abbrev State := Vector M31 16

inductive Poseidon2RoundKind
  | externalInitial (index : ℕ)
  | internal (index : ℕ)
  | externalFinal (index : ℕ)
  deriving DecidableEq, Repr

/-- One recorded round. The input of the first is the state given to the permutation. -/
structure Poseidon2RoundTransition where
  round : ℕ
  kind : Poseidon2RoundKind
  input : State
  output : State
  deriving DecidableEq

def EXTERNAL_INITIAL : List (Fin 16 → UInt32) := [
  ![0x768bab52, 0x70e0ab7d, 0x3d266c8a, 0x6da42045, 0x600fef22, 0x41dace6b, 0x64f9bdd4, 0x5d42d4fe,
    0x76b1516d, 0x6fc9a717, 0x70ac4fb6, 0x00194ef6, 0x22b644e2, 0x1f7916d5, 0x47581be2, 0x2710a123],
  ![0x6284e867, 0x018d3afe, 0x5df99ef3, 0x4c1e467b, 0x566f6abc, 0x2994e427, 0x538a6d42, 0x5d7bf2cf,
    0x7fda2dab, 0x0fd854c4, 0x46922fca, 0x3d7763a1, 0x19fd05ca, 0x0a4bbb43, 0x15075851, 0x3d903d76],
  ![0x2d290ff7, 0x40809fa0, 0x59dac6ec, 0x127927a2, 0x6bbf0ea0, 0x0294140f, 0x24742976, 0x6e84c081,
    0x22484f4a, 0x354cae59, 0x0453ffe1, 0x3f47a3cc, 0x0088204e, 0x6066e109, 0x3b7c4b80, 0x6b55665d],
  ![0x3bc4b897, 0x735bf378, 0x508daf42, 0x1884fc2b, 0x7214f24c, 0x7498be0a, 0x1a60e640, 0x3303f928,
    0x29b46376, 0x5c96bb68, 0x65d097a5, 0x1d358e9f, 0x4a9a9017, 0x4724cf76, 0x347af70f, 0x1e77e59a]]

def EXTERNAL_FINAL : List (Fin 16 → UInt32) := [
  ![0x57090613, 0x1fa42108, 0x17bbef50, 0x1ff7e11c, 0x047b24ca, 0x4e140275, 0x4fa086f5, 0x079b309c,
    0x1159bd47, 0x6d37e4e5, 0x075d8dce, 0x12121ca0, 0x7f6a7c40, 0x68e182ba, 0x5493201b, 0x0444a80e],
  ![0x0064f4c6, 0x6467abe6, 0x66975762, 0x2af68f9b, 0x345b33be, 0x1b70d47f, 0x053db717, 0x381189cb,
    0x43b915f8, 0x20df3694, 0x0f459d26, 0x77a0e97b, 0x2f73e739, 0x1876c2f9, 0x65a0e29a, 0x4cabefbe],
  ![0x5abd1268, 0x4d34a760, 0x12771799, 0x69a0c9ac, 0x39091e55, 0x7f611cd0, 0x3af055da, 0x7ac0bbdf,
    0x6e0f3a24, 0x41e3b6f7, 0x49b3756d, 0x568bc538, 0x20c079d8, 0x1701c72c, 0x7670dc6c, 0x5a439035],
  ![0x7c93e00e, 0x561fbb4d, 0x1178907b, 0x02737406, 0x32fb24f1, 0x6323b60a, 0x6ab12418, 0x42c99cea,
    0x155a0b97, 0x53d1c6aa, 0x2bd20347, 0x279b3d73, 0x4f5f3c70, 0x0245af6c, 0x238359d3, 0x49966a59]]

def INTERNAL : List UInt32 :=
  [0x7f7ec4bf, 0x0421926f, 0x5198e669, 0x34db3148, 0x4368bafd, 0x66685c7f, 0x78d3249a,
    0x60187881, 0x76dad67a, 0x0690b437, 0x1ea95311, 0x40e5369a, 0x38f103fc, 0x1d226a21]

def INTERNAL_SHIFTS : Fin 15 → ℕ := ![0, 1, 2, 3, 4, 5, 6, 7, 8, 10, 12, 13, 14, 15, 16]

/-- The position of a row and a column of the four by four state. -/
def place (row column : Fin 4) : Fin 16 := ⟨row.val * 4 + column.val, by omega⟩

def rowOf (index : Fin 16) : Fin 4 := ⟨index.val / 4, Widths.div_four_lt index⟩

def columnOf (index : Fin 16) : Fin 4 := ⟨index.val % 4, Widths.mod_four_lt index⟩

/-- The four positions of a row. -/
def chunk (state : State) (row : Fin 4) : Fin 4 → M31 := fun column => state.get (place row column)

def pow5 (value : M31) : M31 :=
  let square := value.mul value
  (square.mul square).mul value

/-! ### The reference -/

def applyMat4 (values : Fin 4 → M31) : Vector M31 4 :=
  let t01 := (values 0).add (values 1)
  let t23 := (values 2).add (values 3)
  let t0123 := t01.add t23
  let t01123 := t0123.add (values 1)
  let t01233 := t0123.add (values 3)
  let out3 := t01233.add (values 0).double
  let out1 := t01123.add (values 2).double
  let out0 := t01123.add t01
  let out2 := t01233.add t23
  #v[out0, out1, out2, out3]

/-- The rows of a state side by side. -/
def ofRows (rows : Vector (Vector M31 4) 4) : State :=
  Vector.ofFn fun index => (rows.get (rowOf index)).get (columnOf index)

def externalLinear (state : State) : State :=
  let mixed := ofRows (Vector.ofFn fun row => applyMat4 (chunk state row))
  let sums : Vector M31 4 := Vector.ofFn fun column =>
    (List.finRange 4).foldl (fun sum row => sum.add (mixed.get (place row column))) M31.zero
  Vector.ofFn fun index => (mixed.get index).add (sums.get (columnOf index))

/-- The constants added and the fifth power taken, in every position. -/
def sboxes (state : State) (constants : Fin 16 → UInt32) : State := Vector.ofFn fun index =>
  pow5 ((state.get index).add ⟨constants index⟩)

/-- The same in the first position only. -/
def sbox (state : State) (constant : UInt32) : State := state.set 0 (pow5 ((state.get 0).add ⟨constant⟩))

def fullRound (state : State) (constants : Fin 16 → UInt32) : State := externalLinear (sboxes state constants)

def internalLinear (state : State) : State :=
  let partSum := (List.finRange 15).foldl (fun sum index => sum.add (state.get index.succ)) M31.zero
  let fullSum := partSum.add (state.get 0)
  Vector.ofFn (Fin.cons (partSum.sub (state.get 0)) fun index =>
    fullSum.add ((state.get index.succ).mul ⟨1 <<< UInt32.ofNat (INTERNAL_SHIFTS index)⟩))

def permute (state : State) : State :=
  let state := externalLinear state
  let state := EXTERNAL_INITIAL.foldl fullRound state
  let state := INTERNAL.foldl (fun state constant => internalLinear (sbox state constant)) state
  EXTERNAL_FINAL.foldl fullRound state

/-! ### The optimized kernel -/

def word (value : M31) : UInt64 := value.val.toUInt64

/-- The reduction of a sum, with the bound it asserts. -/
def reduceU62 (value : UInt64) : Option M31 := if value < (1 : UInt64) <<< 62 then some (M31.reduceU62 value) else none

def applyMat4Lazy (values : Fin 4 → M31) : Option (Vector M31 4) := do
  let a := word (values 0)
  let b := word (values 1)
  let c := word (values 2)
  let d := word (values 3)
  let out0 ← (sumChecked [mulWord 2 a, mulWord 3 b, some c, some d]).bind reduceU62
  let out1 ← (sumChecked [some a, mulWord 2 b, mulWord 3 c, some d]).bind reduceU62
  let out2 ← (sumChecked [some a, some b, mulWord 2 c, mulWord 3 d]).bind reduceU62
  let out3 ← (sumChecked [mulWord 3 a, some b, some c, mulWord 2 d]).bind reduceU62
  return #v[out0, out1, out2, out3]

def externalLinearLazy (state : State) : Option State := do
  let rows ← allSome fun row => applyMat4Lazy (chunk state row)
  let mixed := ofRows rows
  let sums ← allSome fun column =>
    sumChecked ((List.finRange 4).map fun row => some (word (mixed.get (place row column))))
  allSome fun index => (addWord (word (mixed.get index)) (sums.get (columnOf index))).bind reduceU62

def internalLinearLazy (state : State) : Option State := do
  let partSum ← sumChecked ((List.finRange 15).map fun index => some (word (state.get index.succ)))
  let fullSum ← addWord partSum (word (state.get 0))
  let shifted ← addWord partSum P.toUInt64
  let difference ← subWord shifted (word (state.get 0))
  let first ← reduceU62 difference
  let rest ← allSome fun index =>
    ((shlWord (word (state.get index.succ)) (INTERNAL_SHIFTS index)).bind (addWord fullSum)).bind reduceU62
  return Vector.ofFn (Fin.cons first rest.get)

def applyRoundByIndex (state : State) (round : ℕ) : Option State :=
  if round < EXTERNAL_INITIAL.length then do
    let constants ← EXTERNAL_INITIAL[round]?
    externalLinearLazy (sboxes state constants)
  else if round < EXTERNAL_INITIAL.length + INTERNAL.length then do
    let constant ← INTERNAL[round - EXTERNAL_INITIAL.length]?
    internalLinearLazy (sbox state constant)
  else if round < POSEIDON2_ROUNDS then do
    let constants ← EXTERNAL_FINAL[round - EXTERNAL_INITIAL.length - INTERNAL.length]?
    externalLinearLazy (sboxes state constants)
  else none

/-- The leading layer, where it is asked for. -/
def leadingExternal (apply : Bool) (state : State) : Option State :=
  if apply then externalLinearLazy state else some state

def evaluateTraceRound (state : State) (round : ℕ) (applyLeadingExternal : Bool) : Option State := do
  let state ← leadingExternal applyLeadingExternal state
  applyRoundByIndex state round

def evaluateTraceRoundPair (state : State) (localRow : ℕ) : Option (State × State) :=
  if POSEIDON2_ROUNDS / 2 ≤ localRow then none
  else do
    let state ← leadingExternal (localRow == 0) state
    let first ← applyRoundByIndex state (2 * localRow)
    let second ← applyRoundByIndex first (2 * localRow + 1)
    return (first, second)

/-- The variables of the traced permutation between two rounds. -/
structure Tracer where
  state : State
  input : State
  round : ℕ
  trace : List Poseidon2RoundTransition

/-- The end of a round: it is recorded, and its output is the input of the next. -/
def Tracer.record (self : Tracer) (kind : Poseidon2RoundKind) (output : State) : Tracer :=
  ⟨output, output, self.round + 1, self.trace ++ [⟨self.round, kind, self.input, output⟩]⟩

def externalPass (kind : ℕ → Poseidon2RoundKind) : ℕ → List (Fin 16 → UInt32) → Tracer → Option Tracer
  | _, [], self => some self
  | index, constants :: rest, self => do
    let output ← externalLinearLazy (sboxes self.state constants)
    externalPass kind (index + 1) rest (self.record (kind index) output)

def internalPass : ℕ → List UInt32 → Tracer → Option Tracer
  | _, [], self => some self
  | index, constant :: rest, self => do
    let output ← internalLinearLazy (sbox self.state constant)
    internalPass (index + 1) rest (self.record (.internal index) output)

def permuteOptimizedWithTrace (state : State) : Option (State × List Poseidon2RoundTransition) := do
  let mixed ← externalLinearLazy state
  let tracer ← externalPass .externalInitial 0 EXTERNAL_INITIAL ⟨mixed, state, 0, []⟩
  let tracer ← internalPass 0 INTERNAL tracer
  let tracer ← externalPass .externalFinal 0 EXTERNAL_FINAL tracer
  return (tracer.state, tracer.trace)

def permuteOptimized (state : State) : Option State := (permuteOptimizedWithTrace state).map Prod.fst

end Aspis.Poseidon2
