import Aspis.Statement.Digest
import Aspis.Lib.Exec

/-! The leaf of a pair tree: two note commitments under one parent hash. The
second place may be empty, and an empty place is the zero digest; occupancy is an
algebraic zero test of the last limb of the second commitment, carried with its
inverse. -/

namespace Aspis.Statement

open Lib

/-! ### Base-field arithmetic -/

/-- Two folds of the bits above the modulus, then one subtraction. -/
def reduceU64 (x : ℕ) : ℕ :=
  let x := (x &&& P) + (x >>> 31)
  let x := (x &&& P) + (x >>> 31)
  if P ≤ x then x - P else x

namespace M31

def ONE : M31 := ⟨1⟩

def sub (a b : M31) : M31 :=
  let s := a.raw + UInt32.ofNat P - b.raw
  ⟨if UInt32.ofNat P ≤ s then s - UInt32.ofNat P else s⟩

def mul (a b : M31) : M31 := ⟨UInt32.ofNat (reduceU64 (a.raw.toNat * b.raw.toNat))⟩

/-- Square `count` times. -/
def squareN (value : M31) : ℕ → M31
  | 0 => value
  | count + 1 => squareN (value.mul value) count

/-- The fixed addition chain for the exponent `P - 2`. -/
def inv (x : M31) : M31 :=
  let t2 := (x.mul x).mul x
  let t4 := (squareN t2 2).mul t2
  let t8 := (squareN t4 4).mul t4
  let t16 := (squareN t8 8).mul t8
  let t24 := (squareN t16 8).mul t8
  let t28 := (squareN t24 4).mul t4
  let t29 := (t28.mul t28).mul x
  let t30 := t29.mul t29
  (t30.mul t30).mul x

end M31

/-! ### Pair leaves -/

inductive PoolV1PairLeafErrorV1
  | nonCanonicalCommitment
  | nonCanonicalOccupancy
  | nonCanonicalInverse
  | occupancyNotBoolean
  | sentinelInverseMismatch
  | emptyInverseNonZero
  | emptyCommitmentNonZero
  | occupiedSentinelZero
  | selectedSlotEmpty
  deriving DecidableEq, Repr

structure PoolV1PairLeafWitnessV1 where
  firstCommitment : Digest
  secondOccupied : M31
  secondCommitment : Digest
  secondOccupancyInverse : M31
  deriving DecidableEq

namespace PoolV1PairLeafWitnessV1

def secondSentinel (w : PoolV1PairLeafWitnessV1) : M31 := w.secondCommitment (Fin.last 7)

def validate (w : PoolV1PairLeafWitnessV1) : Except PoolV1PairLeafErrorV1 Unit := do
  require (DigestIsCanonical w.firstCommitment ∧ DigestIsCanonical w.secondCommitment) .nonCanonicalCommitment
  require w.secondOccupied.Canonical .nonCanonicalOccupancy
  require w.secondOccupancyInverse.Canonical .nonCanonicalInverse
  require (w.secondOccupied.mul (w.secondOccupied.sub M31.ONE) = M31.ZERO) .occupancyNotBoolean
  require (w.secondSentinel.mul w.secondOccupancyInverse = w.secondOccupied) .sentinelInverseMismatch
  require ((M31.ONE.sub w.secondOccupied).mul w.secondOccupancyInverse = M31.ZERO) .emptyInverseNonZero
  require (∀ i, (M31.ONE.sub w.secondOccupied).mul (w.secondCommitment i) = M31.ZERO) .emptyCommitmentNonZero
  require (¬ (w.secondOccupied = M31.ONE ∧ w.secondSentinel = M31.ZERO)) .occupiedSentinelZero

/-- The public leaf commits to the ordered pair of commitments and to nothing else. -/
def leafDigest (treeParent : Digest → Digest → Digest) (w : PoolV1PairLeafWitnessV1) :
    Except PoolV1PairLeafErrorV1 Digest := do
  w.validate
  return treeParent w.firstCommitment w.secondCommitment

def singleOutput (firstCommitment : Digest) : Except PoolV1PairLeafErrorV1 PoolV1PairLeafWitnessV1 := do
  let result : PoolV1PairLeafWitnessV1 := ⟨firstCommitment, M31.ZERO, Digest.zero, M31.ZERO⟩
  result.validate
  return result

/-- A second commitment whose last limb is zero could not be told from an empty place. -/
def twoOutputs (firstCommitment secondCommitment : Digest) :
    Except PoolV1PairLeafErrorV1 PoolV1PairLeafWitnessV1 := do
  require (DigestIsCanonical firstCommitment ∧ DigestIsCanonical secondCommitment) .nonCanonicalCommitment
  require (secondCommitment (Fin.last 7) ≠ M31.ZERO) .occupiedSentinelZero
  let result : PoolV1PairLeafWitnessV1 := ⟨firstCommitment, M31.ONE, secondCommitment, (secondCommitment (Fin.last 7)).inv⟩
  result.validate
  return result

end PoolV1PairLeafWitnessV1

end Aspis.Statement
