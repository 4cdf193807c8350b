import Aspis.Forest.Lane
import Aspis.Pool.Deposit

/-! The instruction bytes of the pair forest. Deposits and initializations have
the layout of the pool's own instructions under a magic of their own; a
checkpoint instruction has one image. -/

namespace Aspis.Forest

open Lib Chain Statement Pool

/-! ### Deposits -/

inductive DepositInstructionFormatErrorV1
  | wrongLength
  | wrongMagic
  | wrongVersion
  | nonZeroReserved
  | invalidAmount
  | invalidPayloadLength
  | nonCanonicalDigest
  deriving DecidableEq, Repr

def POOL_V1_PAIR_FOREST_DEPOSIT_INSTRUCTION_MAGIC : Bytes := [65, 83, 56, 68]

def decodeDepositInstructionWithMagicV1 (bytes expectedMagic : Bytes) :
    Except DepositInstructionFormatErrorV1 DepositRequestV1 := do
  require (80 ≤ bytes.length ∧ bytes.length ≤ 592) .wrongLength
  require (slice 0 4 bytes = expectedMagic) .wrongMagic
  require (byteAt 4 bytes = 1) .wrongVersion
  require (byteAt 5 bytes = 0 ∧ slice 44 4 bytes = zeros 4) .nonZeroReserved
  require (leNat (slice 6 2 bytes) ≤ 512) .invalidPayloadLength
  require (bytes.length = 80 + leNat (slice 6 2 bytes)) .wrongLength
  let ownerKey ← okOr (decodeDigestCanonical (slice 8 32 bytes)) .nonCanonicalDigest
  let salt ← okOr (decodeDigestCanonical (slice 48 32 bytes)) .nonCanonicalDigest
  require (leNat (slice 40 4 bytes) ≠ 0 ∧ leNat (slice 40 4 bytes) < VALUE_LIMIT) .invalidAmount
  return ⟨ownerKey, leNat (slice 40 4 bytes), salt, bytes.drop 80⟩

def decodePairForestDepositInstructionV1 (bytes : Bytes) : Except DepositInstructionFormatErrorV1 DepositRequestV1 :=
  decodeDepositInstructionWithMagicV1 bytes POOL_V1_PAIR_FOREST_DEPOSIT_INSTRUCTION_MAGIC

/-! ### Initialization -/

inductive PoolInstructionFormatErrorV1
  | wrongLength
  | wrongMagic
  | wrongVersion
  | nonZeroReserved
  | invalidPolicy
  | nonCanonicalField
  deriving DecidableEq, Repr

def POOL_V1_INITIALIZE_INSTRUCTION_BYTES : ℕ := 184

def POOL_V1_INITIALIZE_INSTRUCTION_MAGIC : Bytes := [65, 83, 73, 78]

def POOL_V1_PAIR_FOREST_INITIALIZE_INSTRUCTION_MAGIC : Bytes := [65, 83, 56, 73]

def decodeInitializeInstructionV1 (bytes : Bytes) : Except PoolInstructionFormatErrorV1 PoolInitializationV1 := do
  require (bytes.length = POOL_V1_INITIALIZE_INSTRUCTION_BYTES) .wrongLength
  require (slice 0 4 bytes = POOL_V1_INITIALIZE_INSTRUCTION_MAGIC) .wrongMagic
  require (byteAt 4 bytes = 1) .wrongVersion
  require (slice 5 3 bytes = zeros 3 ∧ slice 44 4 bytes = zeros 4) .nonZeroReserved
  require (leNat (slice 40 4 bytes) < P) .nonCanonicalField
  let policy ← mapErr (fun _ => .invalidPolicy) (decodeVerifierPolicyV1 (bytes.drop 80))
  return ⟨Bytes32.read 8 bytes, LEGACY_SPL_TOKEN_PROGRAM_ID, ⟨UInt32.ofNat (leNat (slice 40 4 bytes))⟩,
    Bytes32.read 48 bytes, policy⟩

/-- The forest's own header, then the pool's instruction with that header put back. -/
def decodePairForestInitializeInstructionV1 (bytes : Bytes) :
    Except PoolInstructionFormatErrorV1 PoolInitializationV1 := do
  require (bytes.length = POOL_V1_INITIALIZE_INSTRUCTION_BYTES) .wrongLength
  require (slice 0 4 bytes = POOL_V1_PAIR_FOREST_INITIALIZE_INSTRUCTION_MAGIC) .wrongMagic
  require (byteAt 4 bytes = 1) .wrongVersion
  require (byteAt 5 bytes = 8 ∧ byteAt 6 bytes = 1) .nonCanonicalField
  require (byteAt 7 bytes = 0) .nonZeroReserved
  decodeInitializeInstructionV1 (patch 5 (zeros 3) (patch 0 POOL_V1_INITIALIZE_INSTRUCTION_MAGIC bytes))

/-! ### Checkpoints -/

def encodePairForestCheckpointInstructionV1 : Bytes := [65, 83, 56, 67, 1, 8, 1, 0]

def decodePairForestCheckpointInstructionV1 (bytes : Bytes) : Except ProgramError Unit :=
  require (bytes = encodePairForestCheckpointInstructionV1) .invalidInstructionData

end Aspis.Forest
