import Aspis.Pool.Nullifier
import Aspis.Verifier.Lifecycle

/-! Verification requests as a pool sends them: a 384-byte binding that names
the verifier, the spend and the proof, and the statement the selected profile
reads. Two profiles are accepted, told apart by the length of the request. -/

namespace Aspis.Verifier

open Lib Chain Statement

inductive PoolV1VerifierDispatchFormatError
  | wrongLength
  | wrongMagic
  | wrongVersion
  | wrongStatementVersion
  | wrongHashAlgorithm
  | wrongStatementDigestVersion
  | wrongVerifyCode
  | wrongSuccessCode
  | nonZeroReserved
  | invalidTransitionKind
  | zeroRequiredBinding
  | invalidAnchorSequence
  | invalidProofBodyLength
  | invalidStatementPayloadLength
  | statementPayloadDigestMismatch
  | nonCanonicalDigest
  deriving DecidableEq, Repr

def POOL_V1_VERIFIER_DISPATCH_REQUEST_MAGIC : Bytes := [65, 83, 86, 81]

def POOL_V1_VERIFIER_DISPATCH_RESULT_MAGIC : Bytes := [65, 83, 86, 83]

def POOL_V1_VERIFIER_DISPATCH_VERSION : UInt8 := 1

def POOL_V1_VERIFIER_DISPATCH_HASH_SHA256 : UInt8 := 1

def POOL_V1_VERIFIER_STATEMENT_DIGEST_VERSION : UInt8 := 1

def POOL_V1_HISTORICAL_ANCHOR_VERSION : UInt8 := 1

def POOL_V1_DIGEST_ENCODING_VERSION : UInt8 := 1

def POOL_V1_VERIFIER_DISPATCH_VERIFY_CODE : UInt32 := 1

def POOL_V1_VERIFIER_DISPATCH_SUCCESS_CODE : UInt32 := 0x41530001

def POOL_V1_VERIFIER_DISPATCH_BINDING_PREFIX_BYTES : ℕ := 384

def POOL_V1_VERIFIER_STATEMENT_PAYLOAD_MAX_BYTES : ℕ := 640

def POOL_V1_VERIFIER_DISPATCH_REQUEST_MAX_BYTES : ℕ := 1024

def POOL_V1_HISTORICAL_ANCHOR_ENVELOPE_DIGEST_DOMAIN : Bytes :=
  "aspis/pool-v1/historical-anchor-envelope-digest/v1".toUTF8.toList

def POOL_V1_VERIFIER_STATEMENT_PAYLOAD_DIGEST_DOMAIN : Bytes :=
  "aspis/pool-v1/profile-statement-payload-digest/v1".toUTF8.toList

/-- The fields copied between a verification request and its result. -/
structure VerifierDispatchBindingV1 where
  statementVersion : UInt8
  transitionKind : Pool.PoolV1TransitionKind
  verifierProgram : Bytes32
  profileBinding : Bytes32
  releaseBinding : Bytes32
  pool : Bytes32
  deploymentDomain : Bytes32
  anchorSequence : UInt64
  anchorRoot : Digest
  nullifier : Digest
  statementDigest : Bytes32
  envelopeDigest : Bytes32
  proofAccount : Bytes32
  proofBodyDigest : Bytes32
  proofBodyLength : UInt32
  statementPayloadLength : UInt32
  deriving DecidableEq

structure VerifierDispatchRequestV1 where
  binding : VerifierDispatchBindingV1
  statementPayload : Bytes
  deriving DecidableEq

def validateVerifierDispatchBindingV1 (b : VerifierDispatchBindingV1) :
    Except PoolV1VerifierDispatchFormatError Unit := do
  require (b.statementVersion = POOL_V1_HISTORICAL_ANCHOR_VERSION) .wrongStatementVersion
  require (b.verifierProgram ≠ Bytes32.zero ∧ b.profileBinding ≠ Bytes32.zero ∧ b.releaseBinding ≠ Bytes32.zero ∧
    b.pool ≠ Bytes32.zero ∧ b.deploymentDomain ≠ Bytes32.zero ∧ b.proofAccount ≠ Bytes32.zero) .zeroRequiredBinding
  require (b.anchorSequence.toNat ≤ Pool.POOL_V1_LEAF_CAPACITY) .invalidAnchorSequence
  require (b.proofBodyLength ≠ 0) .invalidProofBodyLength
  require (b.statementPayloadLength ≠ 0 ∧
    b.statementPayloadLength.toNat ≤ POOL_V1_VERIFIER_STATEMENT_PAYLOAD_MAX_BYTES) .invalidStatementPayloadLength
  require (DigestIsCanonical b.anchorRoot ∧ DigestIsCanonical b.nullifier) .nonCanonicalDigest

/-- The fixed prefix of a request or a result. -/
def bindingImage (magic : Bytes) (code : UInt32) (b : VerifierDispatchBindingV1) : Bytes :=
  magic ++ (u8Bytes POOL_V1_VERIFIER_DISPATCH_VERSION ++ (u8Bytes b.statementVersion ++
    (u8Bytes b.transitionKind.code ++ (u8Bytes POOL_V1_VERIFIER_DISPATCH_HASH_SHA256 ++ (u32Bytes code ++
    (u8Bytes POOL_V1_VERIFIER_STATEMENT_DIGEST_VERSION ++ (zeros 3 ++ (b.verifierProgram.bytes ++
    (b.profileBinding.bytes ++ (b.releaseBinding.bytes ++ (b.pool.bytes ++ (b.deploymentDomain.bytes ++
    (u64Bytes b.anchorSequence ++ (encodeDigestCanonical b.anchorRoot ++ (encodeDigestCanonical b.nullifier ++
    (b.statementDigest.bytes ++ (b.envelopeDigest.bytes ++ (b.proofAccount.bytes ++ (b.proofBodyDigest.bytes ++
    (u32Bytes b.proofBodyLength ++ u32Bytes b.statementPayloadLength))))))))))))))))))))

def decodeTransitionKind (value : UInt8) : Except PoolV1VerifierDispatchFormatError Pool.PoolV1TransitionKind :=
  if value = 1 then .ok .privateTransfer
  else if value = 2 then .ok .withdrawal
  else .error .invalidTransitionKind

def decodeBindingFields (bytes : Bytes) : Except PoolV1VerifierDispatchFormatError VerifierDispatchBindingV1 := do
  require (byteAt 4 bytes = POOL_V1_VERIFIER_DISPATCH_VERSION) .wrongVersion
  require (byteAt 5 bytes = POOL_V1_HISTORICAL_ANCHOR_VERSION) .wrongStatementVersion
  let transitionKind ← decodeTransitionKind (byteAt 6 bytes)
  require (byteAt 7 bytes = POOL_V1_VERIFIER_DISPATCH_HASH_SHA256) .wrongHashAlgorithm
  require (byteAt 12 bytes = POOL_V1_VERIFIER_STATEMENT_DIGEST_VERSION) .wrongStatementDigestVersion
  require (slice 13 3 bytes = zeros 3) .nonZeroReserved
  let anchorRoot ← okOr (decodeDigestCanonical (slice 184 32 bytes)) .nonCanonicalDigest
  let nullifier ← okOr (decodeDigestCanonical (slice 216 32 bytes)) .nonCanonicalDigest
  let binding : VerifierDispatchBindingV1 :=
    { statementVersion := byteAt 5 bytes
      transitionKind := transitionKind
      verifierProgram := Bytes32.read 16 bytes
      profileBinding := Bytes32.read 48 bytes
      releaseBinding := Bytes32.read 80 bytes
      pool := Bytes32.read 112 bytes
      deploymentDomain := Bytes32.read 144 bytes
      anchorSequence := readU64 176 bytes
      anchorRoot := anchorRoot
      nullifier := nullifier
      statementDigest := Bytes32.read 248 bytes
      envelopeDigest := Bytes32.read 280 bytes
      proofAccount := Bytes32.read 312 bytes
      proofBodyDigest := Bytes32.read 344 bytes
      proofBodyLength := readU32 376 bytes
      statementPayloadLength := readU32 380 bytes }
  validateVerifierDispatchBindingV1 binding
  return binding

section
variable (hashv : List Bytes → Bytes32)

def verifierProofBodyDigestV1 (proofBody : Bytes) : Bytes32 := hashv [proofBody]

def verifierStatementPayloadDigestV1 (statementVersion : UInt8) (profileBinding releaseBinding : Bytes32)
    (statementPayload : Bytes) : Except PoolV1VerifierDispatchFormatError Bytes32 := do
  require (statementVersion = POOL_V1_HISTORICAL_ANCHOR_VERSION) .wrongStatementVersion
  require (statementPayload ≠ [] ∧ statementPayload.length ≤ POOL_V1_VERIFIER_STATEMENT_PAYLOAD_MAX_BYTES ∧
    profileBinding ≠ Bytes32.zero ∧ releaseBinding ≠ Bytes32.zero) .invalidStatementPayloadLength
  return hashv [POOL_V1_VERIFIER_STATEMENT_PAYLOAD_DIGEST_DOMAIN, u8Bytes POOL_V1_VERIFIER_STATEMENT_DIGEST_VERSION,
    u8Bytes statementVersion, profileBinding.bytes, releaseBinding.bytes, leBytes 4 statementPayload.length,
    statementPayload]

/-- The payload has the declared length and digest. -/
def requirePayload (b : VerifierDispatchBindingV1) (statementPayload : Bytes) :
    Except PoolV1VerifierDispatchFormatError Unit := do
  require (statementPayload.length = b.statementPayloadLength.toNat) .invalidStatementPayloadLength
  let digest ← verifierStatementPayloadDigestV1 hashv b.statementVersion b.profileBinding b.releaseBinding
    statementPayload
  require (digest = b.statementDigest) .statementPayloadDigestMismatch

/-- The bytes of a request. -/
def requestImage (request : VerifierDispatchRequestV1) : Bytes :=
  bindingImage POOL_V1_VERIFIER_DISPATCH_REQUEST_MAGIC POOL_V1_VERIFIER_DISPATCH_VERIFY_CODE request.binding ++
    request.statementPayload

def encodeVerifierDispatchRequestV1 (request : VerifierDispatchRequestV1) :
    Except PoolV1VerifierDispatchFormatError Bytes := do
  validateVerifierDispatchBindingV1 request.binding
  requirePayload hashv request.binding request.statementPayload
  require (POOL_V1_VERIFIER_DISPATCH_BINDING_PREFIX_BYTES + request.statementPayload.length ≤
    POOL_V1_VERIFIER_DISPATCH_REQUEST_MAX_BYTES) .invalidStatementPayloadLength
  return requestImage request

def decodeVerifierDispatchRequestV1 (bytes : Bytes) :
    Except PoolV1VerifierDispatchFormatError VerifierDispatchRequestV1 := do
  require (POOL_V1_VERIFIER_DISPATCH_BINDING_PREFIX_BYTES ≤ bytes.length ∧
    bytes.length ≤ POOL_V1_VERIFIER_DISPATCH_REQUEST_MAX_BYTES) .wrongLength
  require (slice 0 4 bytes = POOL_V1_VERIFIER_DISPATCH_REQUEST_MAGIC) .wrongMagic
  require (readU32 8 bytes = POOL_V1_VERIFIER_DISPATCH_VERIFY_CODE) .wrongVerifyCode
  let binding ← decodeBindingFields (bytes.take POOL_V1_VERIFIER_DISPATCH_BINDING_PREFIX_BYTES)
  let payload := bytes.drop POOL_V1_VERIFIER_DISPATCH_BINDING_PREFIX_BYTES
  requirePayload hashv binding payload
  return ⟨binding, payload⟩

/-- A successful result echoes the binding. -/
def encodeVerifierDispatchResultV1 (binding : VerifierDispatchBindingV1) :
    Except PoolV1VerifierDispatchFormatError Bytes := do
  validateVerifierDispatchBindingV1 binding
  return bindingImage POOL_V1_VERIFIER_DISPATCH_RESULT_MAGIC POOL_V1_VERIFIER_DISPATCH_SUCCESS_CODE binding

def decodeVerifierDispatchResultV1 (bytes : Bytes) :
    Except PoolV1VerifierDispatchFormatError VerifierDispatchBindingV1 := do
  require (bytes.length = POOL_V1_VERIFIER_DISPATCH_BINDING_PREFIX_BYTES) .wrongLength
  require (slice 0 4 bytes = POOL_V1_VERIFIER_DISPATCH_RESULT_MAGIC) .wrongMagic
  require (readU32 8 bytes = POOL_V1_VERIFIER_DISPATCH_SUCCESS_CODE) .wrongSuccessCode
  decodeBindingFields bytes

/-! ### The statement of a historical anchor -/

def POOL_V1_HISTORICAL_ANCHOR_MAGIC : Bytes := [65, 83, 80, 65]

/-- The digest of the anchor envelope that a binding implies. -/
def historicalAnchorEnvelopeDigestV1 (b : VerifierDispatchBindingV1) :
    Except PoolV1VerifierDispatchFormatError Bytes32 := do
  require (b.pool ≠ Bytes32.zero ∧ b.deploymentDomain ≠ Bytes32.zero ∧ b.profileBinding ≠ Bytes32.zero ∧
    b.releaseBinding ≠ Bytes32.zero ∧ b.anchorSequence.toNat ≤ Pool.POOL_V1_LEAF_CAPACITY ∧
    DigestIsCanonical b.anchorRoot ∧ DigestIsCanonical b.nullifier) .nonCanonicalDigest
  return hashv [POOL_V1_HISTORICAL_ANCHOR_ENVELOPE_DIGEST_DOMAIN,
    POOL_V1_HISTORICAL_ANCHOR_MAGIC ++ u8Bytes POOL_V1_HISTORICAL_ANCHOR_VERSION ++ u8Bytes b.transitionKind.code ++
      u8Bytes POOL_V1_DIGEST_ENCODING_VERSION ++ zeros 1 ++ b.pool.bytes ++ b.deploymentDomain.bytes ++
      u64Bytes b.anchorSequence ++ encodeDigestCanonical b.anchorRoot ++ encodeDigestCanonical b.nullifier ++
      b.profileBinding.bytes ++ b.releaseBinding.bytes]

end

/-! ### Images of a binding -/

theorem validateBinding_canonical {b : VerifierDispatchBindingV1} {u : Unit}
    (h : validateVerifierDispatchBindingV1 b = .ok u) : DigestIsCanonical b.anchorRoot ∧ DigestIsCanonical b.nullifier := by
  simp only [validateVerifierDispatchBindingV1, except_bind_eq_ok, require_eq_ok] at h
  obtain ⟨_, -, _, -, _, -, _, -, _, -, hcanonical⟩ := h
  exact hcanonical

theorem length_bindingImage {magic : Bytes} {code : UInt32} (hmagic : magic.length = 4) (b : VerifierDispatchBindingV1) :
    (bindingImage magic code b).length = 384 := by
  simp [bindingImage, hmagic]

end Aspis.Verifier
