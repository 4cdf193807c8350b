import Aspis.Pool.State

/-! The account formats of the eight-lane pair forest. A master account names the
asset, the verifier policy and the last checkpoint; each lane account holds its
own pair tree; a checkpoint account binds one vector of lane sequences to a
global root. -/

namespace Aspis.Forest

open Lib Chain Statement Pool

def POOL_V1_PAIR_FOREST_LANE_COUNT : ℕ := 8

def POOL_V1_PAIR_FOREST_ALL_LANES_MASK : UInt8 := 255

def POOL_V1_PAIR_CAPACITY : ℕ := 2 ^ POOL_V1_TREE_DEPTH

def POOL_V1_PAIR_FOREST_MASTER_ACCOUNT_BYTES : ℕ := 384

def POOL_V1_PAIR_FOREST_LANE_ACCOUNT_BYTES : ℕ := 768

def POOL_V1_PAIR_FOREST_CHECKPOINT_ACCOUNT_BYTES : ℕ := 192

def POOL_V1_PAIR_FOREST_ACCOUNT_FORMAT_BINDING : Bytes :=
  [65, 83, 80, 73, 83, 70, 79, 82, 69, 83, 84, 56, 1, 1, 1, 8, 1, 20, 1] ++ zeros 13

/-- A checked lane index. -/
abbrev LaneIdV2 := Fin 8

/-- One number for each lane. -/
abbrev LaneSequences := LaneIdV2 → ℕ

inductive PoolV1PairForestAccountErrorV1
  | wrongLength
  | wrongMagic
  | wrongVersion
  | wrongLaneCount
  | wrongDigestEncoding
  | wrongDepth
  | wrongFormatBinding
  | nonZeroReserved
  | zeroRequiredBinding
  | invalidBoolean
  | invalidMasterState
  | invalidLane
  | laneMasterMismatch
  | laneOrderMismatch
  | laneSequenceDecreased
  | duplicateCheckpoint
  | checkpointSequenceOverflow
  | nonCanonicalDigest
  | identity
  | policy
  | tree (e : PoolV1TreeError)
  deriving DecidableEq, Repr

structure PoolV1PairForestMasterV1 where
  identity : PoolIdentityV1
  verifierPolicy : VerifierPolicyV1
  initializedLaneMask : UInt8
  hasCheckpoint : Bool
  nextCheckpointSequence : ℕ
  lastCheckpointLaneSequences : LaneSequences
  deriving DecidableEq

structure PoolV1PairForestLaneStateV1 where
  master : Pubkey
  laneId : UInt8
  tree : PoolTree
  deriving DecidableEq

structure PoolV1PairForestCheckpointV1 where
  master : Pubkey
  deploymentDomain : Bytes32
  checkpointSequence : ℕ
  globalRoot : Digest
  laneSequences : LaneSequences
  deriving DecidableEq

structure PoolV1PairForestCheckpointPlanV1 where
  nextMaster : PoolV1PairForestMasterV1
  checkpoint : PoolV1PairForestCheckpointV1
  deriving DecidableEq

def encodeLaneSequences (s : LaneSequences) : Bytes :=
  (List.finRange 8).flatMap fun lane => leBytes 8 (s lane)

/-- The lane sequences that stand from `off` on. -/
def decodeLaneSequences (off : ℕ) (bytes : Bytes) : LaneSequences := fun lane => leNat (slice (off + 8 * lane) 8 bytes)

/-! ### The master -/

def validateMaster (m : PoolV1PairForestMasterV1) : Except PoolV1PairForestAccountErrorV1 Unit := do
  require (m.identity.pool ≠ Bytes32.zero ∧ m.identity.assetMint ≠ Bytes32.zero ∧
    m.identity.tokenProgram ≠ Bytes32.zero ∧ m.identity.deploymentDomain ≠ Bytes32.zero) .zeroRequiredBinding
  mapErr (fun _ => .policy) (validateVerifierPolicyV1 m.verifierPolicy)
  require (∀ lane, m.lastCheckpointLaneSequences lane ≤ POOL_V1_PAIR_CAPACITY) .invalidMasterState
  require (¬ ((m.hasCheckpoint = false ∧
      (m.nextCheckpointSequence ≠ 0 ∨ ∃ lane, m.lastCheckpointLaneSequences lane ≠ 0)) ∨
    (m.hasCheckpoint = true ∧ m.nextCheckpointSequence = 0))) .invalidMasterState

def boolFlag (b : Bool) : UInt8 := if b then 1 else 0

def masterPreamble : Bytes := [65, 83, 77, 56, 1, 8, 1, 0]

def masterImage (m : PoolV1PairForestMasterV1) : Bytes :=
  masterPreamble ++ (POOL_V1_PAIR_FOREST_ACCOUNT_FORMAT_BINDING ++ (leBytes 8 m.nextCheckpointSequence ++
    ([m.initializedLaneMask, boolFlag m.hasCheckpoint] ++ (zeros 14 ++ (encodePoolIdentityV1 m.identity ++
      (encodePolicyBytes m.verifierPolicy ++ (zeros 8 ++ encodeLaneSequences m.lastCheckpointLaneSequences)))))))

def encodePoolV1PairForestMasterV1 (m : PoolV1PairForestMasterV1) :
    Except PoolV1PairForestAccountErrorV1 Bytes := do
  validateMaster m
  return masterImage m

def decodeBoolean (b : UInt8) : Except PoolV1PairForestAccountErrorV1 Bool :=
  if b = 0 then .ok false else if b = 1 then .ok true else .error .invalidBoolean

def decodePoolV1PairForestMasterV1 (bytes : Bytes) :
    Except PoolV1PairForestAccountErrorV1 PoolV1PairForestMasterV1 := do
  require (bytes.length = POOL_V1_PAIR_FOREST_MASTER_ACCOUNT_BYTES) .wrongLength
  require (slice 0 4 bytes = [65, 83, 77, 56]) .wrongMagic
  require (byteAt 4 bytes = 1) .wrongVersion
  require (byteAt 5 bytes = 8) .wrongLaneCount
  require (byteAt 6 bytes = 1) .wrongDigestEncoding
  require (byteAt 7 bytes = 0 ∧ allZero (slice 50 14 bytes) = true ∧ slice 312 8 bytes = zeros 8) .nonZeroReserved
  require (slice 8 32 bytes = POOL_V1_PAIR_FOREST_ACCOUNT_FORMAT_BINDING) .wrongFormatBinding
  let hasCheckpoint ← decodeBoolean (byteAt 49 bytes)
  let identity ← mapErr (fun _ => .identity) (decodePoolIdentityV1 (slice 64 144 bytes))
  let verifierPolicy ← mapErr (fun _ => .policy) (decodeVerifierPolicyV1 (slice 208 104 bytes))
  let master : PoolV1PairForestMasterV1 := ⟨identity, verifierPolicy, byteAt 48 bytes, hasCheckpoint,
    leNat (slice 40 8 bytes), decodeLaneSequences 320 bytes⟩
  validateMaster master
  return master

/-! ### Lanes -/

section
variable (env : Environment)

/-- The empty leaf of a pair tree is the parent of two empty notes, so its table
is the ordinary one from level one on. -/
def pairEmptyRoots (level : ℕ) : Digest := env.emptyRoots (level + 1)

def validatePairTree (t : PoolTree) : Except PoolV1TreeError Unit :=
  t.validateWithEmptyRoots env.treeParent (pairEmptyRoots env)

def decodePairTree (bytes : Bytes) : Except PoolV1TreeError PoolTree := do
  let t ← decodeTreeImageUnvalidated bytes
  validatePairTree env t
  return t

/-- Append one pair leaf after the complete check of the source tree. -/
def appendPairLeaf (t : PoolTree) (leaf : Digest) : Except PoolV1TreeError (PoolTree × AppendOneV1 Digest) :=
  appendOneWithEmptyRoots env.treeParent (pairEmptyRoots env) t leaf

def lanePreamble (laneId : UInt8) : Bytes := [65, 83, 76, 56, 1, laneId, 8, 20]

def laneImage (lane : PoolV1PairForestLaneStateV1) : Bytes :=
  lanePreamble lane.laneId ++ (POOL_V1_PAIR_FOREST_ACCOUNT_FORMAT_BINDING ++ (lane.master.bytes ++
    (zeros 8 ++ encodeTree lane.tree)))

def encodePoolV1PairForestLaneStateV1 (lane : PoolV1PairForestLaneStateV1) :
    Except PoolV1PairForestAccountErrorV1 Bytes := do
  require (lane.laneId.toNat < POOL_V1_PAIR_FOREST_LANE_COUNT) .invalidLane
  require (lane.master ≠ Bytes32.zero) .zeroRequiredBinding
  require (lane.tree.nextLeafIndex ≤ POOL_V1_PAIR_CAPACITY) .invalidMasterState
  mapErr .tree (validatePairTree env lane.tree)
  return laneImage lane

def decodePoolV1PairForestLaneStateV1 (bytes : Bytes) :
    Except PoolV1PairForestAccountErrorV1 PoolV1PairForestLaneStateV1 := do
  require (bytes.length = POOL_V1_PAIR_FOREST_LANE_ACCOUNT_BYTES) .wrongLength
  require (slice 0 4 bytes = [65, 83, 76, 56]) .wrongMagic
  require (byteAt 4 bytes = 1) .wrongVersion
  require ((byteAt 5 bytes).toNat < POOL_V1_PAIR_FOREST_LANE_COUNT) .invalidLane
  require (byteAt 6 bytes = 8) .wrongLaneCount
  require (byteAt 7 bytes = 20) .wrongDepth
  require (slice 8 32 bytes = POOL_V1_PAIR_FOREST_ACCOUNT_FORMAT_BINDING) .wrongFormatBinding
  require (Bytes32.read 40 bytes ≠ Bytes32.zero) .zeroRequiredBinding
  require (allZero (slice 72 8 bytes) = true) .nonZeroReserved
  let tree ← mapErr .tree (decodePairTree env (bytes.drop 80))
  require (tree.nextLeafIndex ≤ POOL_V1_PAIR_CAPACITY) .invalidMasterState
  return ⟨Bytes32.read 40 bytes, byteAt 5 bytes, tree⟩

end

/-! ### Checkpoints -/

def checkpointPreamble : Bytes := [65, 83, 67, 56, 1, 8, 1, 0]

def checkpointImage (c : PoolV1PairForestCheckpointV1) : Bytes :=
  checkpointPreamble ++ (c.master.bytes ++ (c.deploymentDomain.bytes ++ (leBytes 8 c.checkpointSequence ++
    (encodeDigestCanonical c.globalRoot ++ (encodeLaneSequences c.laneSequences ++ zeros 16)))))

def encodePoolV1PairForestCheckpointV1 (c : PoolV1PairForestCheckpointV1) :
    Except PoolV1PairForestAccountErrorV1 Bytes := do
  require (c.master ≠ Bytes32.zero ∧ c.deploymentDomain ≠ Bytes32.zero) .zeroRequiredBinding
  require (DigestIsCanonical c.globalRoot) .nonCanonicalDigest
  require (∀ lane, c.laneSequences lane ≤ POOL_V1_PAIR_CAPACITY) .invalidMasterState
  return checkpointImage c

def decodePoolV1PairForestCheckpointV1 (bytes : Bytes) :
    Except PoolV1PairForestAccountErrorV1 PoolV1PairForestCheckpointV1 := do
  require (bytes.length = POOL_V1_PAIR_FOREST_CHECKPOINT_ACCOUNT_BYTES) .wrongLength
  require (slice 0 4 bytes = [65, 83, 67, 56]) .wrongMagic
  require (byteAt 4 bytes = 1) .wrongVersion
  require (byteAt 5 bytes = 8) .wrongLaneCount
  require (byteAt 6 bytes = 1) .wrongDigestEncoding
  require (byteAt 7 bytes = 0 ∧ allZero (bytes.drop 176) = true) .nonZeroReserved
  require (Bytes32.read 8 bytes ≠ Bytes32.zero ∧ Bytes32.read 40 bytes ≠ Bytes32.zero) .zeroRequiredBinding
  let globalRoot ← okOr (decodeDigestCanonical (slice 80 32 bytes)) .nonCanonicalDigest
  require (∀ lane, decodeLaneSequences 112 bytes lane ≤ POOL_V1_PAIR_CAPACITY) .invalidMasterState
  return ⟨Bytes32.read 8 bytes, Bytes32.read 40 bytes, leNat (slice 72 8 bytes), globalRoot,
    decodeLaneSequences 112 bytes⟩

/-! ### Lanes, roots and addresses -/

/-- The lane that a routing digest names: the low three bits of its first byte. -/
def routedLane (d : Digest) : LaneIdV2 :=
  ⟨(byteAt 0 (encodeDigestCanonical d) &&& 7).toNat, by
    rw [UInt8.toNat_and]
    exact Nat.lt_succ_of_le Nat.and_le_right⟩

/-- The binary tree over the eight lane roots, in lane order. -/
def poolV1PairForestGlobalRootV1 (treeParent : Digest → Digest → Digest)
    (roots : LaneIdV2 → Digest) : Digest :=
  treeParent
    (treeParent (treeParent (roots 0) (roots 1)) (treeParent (roots 2) (roots 3)))
    (treeParent (treeParent (roots 4) (roots 5)) (treeParent (roots 6) (roots 7)))

def POOL_V1_PAIR_FOREST_MASTER_SEED : Bytes := "aspis-pair-forest-master-v1".toUTF8.toList

def POOL_V1_PAIR_FOREST_LANE_SEED : Bytes := "aspis-pair-forest-lane-v1".toUTF8.toList

def POOL_V1_PAIR_FOREST_CHECKPOINT_SEED : Bytes := "aspis-pair-forest-checkpoint-v1".toUTF8.toList

section
variable (env : Environment)

def poolV1PairForestMasterAddress (program assetMint : Pubkey) : Pubkey × UInt8 :=
  env.findProgramAddress [POOL_V1_PAIR_FOREST_MASTER_SEED, assetMint.bytes] program

def poolV1PairForestLaneAddress (program master : Pubkey) (lane : LaneIdV2) : Pubkey × UInt8 :=
  env.findProgramAddress [POOL_V1_PAIR_FOREST_LANE_SEED, master.bytes, [UInt8.ofNat lane]] program

def poolV1PairForestCheckpointAddress (program master : Pubkey) (sequence : ℕ) : Pubkey × UInt8 :=
  env.findProgramAddress [POOL_V1_PAIR_FOREST_CHECKPOINT_SEED, master.bytes, leBytes 8 sequence] program

end

end Aspis.Forest
