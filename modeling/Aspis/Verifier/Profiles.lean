import Aspis.Verifier.Dispatch

/-! The two proof profiles a request may select. The native one reads a payment
statement of the pool, the older one an atomic payment statement wrapped in a
payload of its own. Each is checked against the request's binding, first by its
metadata alone and then, once the proof is sealed, together with the proof. The
algebraic verifiers themselves are parameters. -/

namespace Aspis.Verifier

open Lib Chain Statement

/-! ### Payment statements -/

inductive PoolV1PaymentStatementFormatError
  | wrongLength
  | wrongMagic
  | wrongVersion
  | wrongTransitionKind
  | wrongDigestEncoding
  | nonZeroReserved
  | zeroRequiredBinding
  | invalidAnchorSequence
  | nonCanonicalDigest
  | nonCanonicalAssetId
  | invalidWithdrawalAmount
  | invalidDestination
  deriving DecidableEq, Repr

def POOL_V1_PAYMENT_STATEMENT_BYTES : ℕ := 216

def POOL_V1_PAYMENT_STATEMENT_VERSION : UInt8 := 1

def POOL_V1_PRIVATE_TRANSFER_STATEMENT_MAGIC : Bytes := [65, 83, 67, 80]

def POOL_V1_WITHDRAWAL_STATEMENT_MAGIC : Bytes := [65, 83, 87, 80]

/-- What both payment statements start with. -/
structure CommonPublicV1 where
  pool : Bytes32
  deploymentDomain : Bytes32
  anchorSequence : UInt64
  anchorRoot : Digest
  nullifier : Digest
  assetId : M31
  deriving DecidableEq

structure PoolV1PrivateTransferPublicV1 extends CommonPublicV1 where
  recipientCommitment : Digest
  changeCommitment : Digest
  deriving DecidableEq

structure PoolV1WithdrawalPublicV1 extends CommonPublicV1 where
  amount : UInt32
  destinationTokenAccount : Bytes32
  changeCommitment : Digest
  deriving DecidableEq

def requireHeader (bytes magic : Bytes) (kind : Pool.PoolV1TransitionKind) :
    Except PoolV1PaymentStatementFormatError Unit := do
  require (bytes.length = POOL_V1_PAYMENT_STATEMENT_BYTES) .wrongLength
  require (slice 0 4 bytes = magic) .wrongMagic
  require (byteAt 4 bytes = POOL_V1_PAYMENT_STATEMENT_VERSION) .wrongVersion
  require (byteAt 5 bytes = kind.code) .wrongTransitionKind
  require (byteAt 6 bytes = POOL_V1_DIGEST_ENCODING_VERSION) .wrongDigestEncoding
  require (byteAt 7 bytes = 0) .nonZeroReserved

def statementDigestAt (off : ℕ) (bytes : Bytes) : Except PoolV1PaymentStatementFormatError Digest :=
  okOr (decodeDigestCanonical (slice off 32 bytes)) .nonCanonicalDigest

def decodeCommon (bytes : Bytes) : Except PoolV1PaymentStatementFormatError CommonPublicV1 := do
  let asset := readU32 144 bytes
  require (asset.toNat < P) .nonCanonicalAssetId
  let anchorRoot ← statementDigestAt 80 bytes
  let nullifier ← statementDigestAt 112 bytes
  let common : CommonPublicV1 :=
    { pool := Bytes32.read 8 bytes
      deploymentDomain := Bytes32.read 40 bytes
      anchorSequence := readU64 72 bytes
      anchorRoot := anchorRoot
      nullifier := nullifier
      assetId := ⟨asset⟩ }
  require (common.pool ≠ Bytes32.zero ∧ common.deploymentDomain ≠ Bytes32.zero) .zeroRequiredBinding
  require (common.anchorSequence.toNat ≤ Pool.POOL_V1_LEAF_CAPACITY) .invalidAnchorSequence
  return common

def decodePoolV1PrivateTransferPublicV1 (bytes : Bytes) :
    Except PoolV1PaymentStatementFormatError PoolV1PrivateTransferPublicV1 := do
  requireHeader bytes POOL_V1_PRIVATE_TRANSFER_STATEMENT_MAGIC .privateTransfer
  require (slice 148 4 bytes = zeros 4) .nonZeroReserved
  let common ← decodeCommon bytes
  let recipientCommitment ← statementDigestAt 152 bytes
  let changeCommitment ← statementDigestAt 184 bytes
  return { common with recipientCommitment, changeCommitment }

def decodePoolV1WithdrawalPublicV1 (bytes : Bytes) :
    Except PoolV1PaymentStatementFormatError PoolV1WithdrawalPublicV1 := do
  requireHeader bytes POOL_V1_WITHDRAWAL_STATEMENT_MAGIC .withdrawal
  let common ← decodeCommon bytes
  let changeCommitment ← statementDigestAt 184 bytes
  let amount := readU32 148 bytes
  let destinationTokenAccount := Bytes32.read 152 bytes
  require (amount ≠ 0 ∧ amount.toNat < VALUE_LIMIT) .invalidWithdrawalAmount
  require (destinationTokenAccount ≠ Bytes32.zero) .invalidDestination
  return { common with amount, destinationTokenAccount, changeCommitment }

/-! ### Proof lengths -/

def V7_COMPACT_BODY_WITHOUT_FRONTIERS : ℕ := 19948

def V7_COMPACT_DIGEST_BYTES : ℕ := 26

def V7_COMPACT_FRONTIER_CAP_PER_TREE : ℕ := 203

def V7_POOL_TAG73_MIN_FRONTIER_NODES : ℕ := 14

/-- The frontier size a proof of this length has. -/
def frontierNodesFromProofLength (length : UInt32) : Option ℕ :=
  if length.toNat < V7_COMPACT_BODY_WITHOUT_FRONTIERS then none
  else
    let frontierBytes := length.toNat - V7_COMPACT_BODY_WITHOUT_FRONTIERS
    let nodes := frontierBytes / (2 * V7_COMPACT_DIGEST_BYTES)
    if frontierBytes % (2 * V7_COMPACT_DIGEST_BYTES) = 0 ∧ V7_POOL_TAG73_MIN_FRONTIER_NODES ≤ nodes ∧
      nodes ≤ V7_COMPACT_FRONTIER_CAP_PER_TREE then some nodes else none

/-! ### The native profile -/

def V7_POOL_NATIVE_TAG73_REQUEST_BYTES : ℕ := 600

def V7_POOL_NATIVE_TAG73_PROFILE_BINDING : Bytes32 :=
  ⟨[0x70, 0xa7, 0x85, 0xea, 0x72, 0x34, 0x69, 0xa1, 0x34, 0x97, 0x40, 0x71, 0x62, 0xff, 0x01, 0xb5, 0x5b, 0x33, 0x26,
    0x87, 0xfd, 0x9d, 0x0a, 0x8c, 0x89, 0xb8, 0x12, 0x59, 0xb2, 0xd1, 0x96, 0x3d], rfl⟩

def V7_POOL_NATIVE_TAG73_RELEASE_BINDING : Bytes32 :=
  ⟨[0x9a, 0x29, 0x16, 0xf7, 0x65, 0x7b, 0x7b, 0x85, 0xa3, 0x51, 0x2d, 0x85, 0xd5, 0xa0, 0x58, 0x9c, 0x19, 0xe7, 0x55,
    0xca, 0x5e, 0x60, 0xd9, 0x10, 0x71, 0xb8, 0x0c, 0x2a, 0xf6, 0x2d, 0x0d, 0xff], rfl⟩

inductive V7PoolNativeTag73StatementV1
  | privateTransfer (statement : PoolV1PrivateTransferPublicV1)
  | withdrawal (statement : PoolV1WithdrawalPublicV1)
  deriving DecidableEq

/-- The common part of a payment statement agrees with a binding. -/
def CommonPublicV1.Matches (common : CommonPublicV1) (b : VerifierDispatchBindingV1) : Prop :=
  common.pool = b.pool ∧ common.deploymentDomain = b.deploymentDomain ∧ common.anchorSequence = b.anchorSequence ∧
    common.anchorRoot = b.anchorRoot ∧ common.nullifier = b.nullifier

instance (common : CommonPublicV1) (b : VerifierDispatchBindingV1) : Decidable (common.Matches b) :=
  inferInstanceAs (Decidable (_ ∧ _))

/-- The statement agrees with the binding of its request, its kind included. -/
def statementMatchesBinding (statement : V7PoolNativeTag73StatementV1) (b : VerifierDispatchBindingV1) : Prop :=
  match statement with
  | .privateTransfer s => b.transitionKind = .privateTransfer ∧ s.toCommonPublicV1.Matches b
  | .withdrawal s => b.transitionKind = .withdrawal ∧ s.toCommonPublicV1.Matches b

instance (statement : V7PoolNativeTag73StatementV1) (b : VerifierDispatchBindingV1) :
    Decidable (statementMatchesBinding statement b) := by
  cases statement <;> exact inferInstanceAs (Decidable (_ ∧ _))

structure ValidatedV7PoolNativeTag73RequestV1 where
  request : VerifierDispatchRequestV1
  statement : V7PoolNativeTag73StatementV1
  frontierNodes : ℕ

def decodeNativeStatement (request : VerifierDispatchRequestV1) : Except VerifierError V7PoolNativeTag73StatementV1 :=
  match request.binding.transitionKind with
  | .privateTransfer => mapErr (fun _ => .invalidInstructionData) do
    let statement ← decodePoolV1PrivateTransferPublicV1 request.statementPayload
    return .privateTransfer statement
  | .withdrawal => mapErr (fun _ => .invalidInstructionData) do
    let statement ← decodePoolV1WithdrawalPublicV1 request.statementPayload
    return .withdrawal statement

section
variable (env : VerifierEnvironment)

/-- The binding carries the digest of the anchor envelope it implies. -/
def requireEnvelope (b : VerifierDispatchBindingV1) : Except VerifierError Unit := do
  let digest ← mapErr (fun _ => .invalidInstructionData) (historicalAnchorEnvelopeDigestV1 env.hashv b)
  require (digest = b.envelopeDigest) .invalidInstructionData

def validateV7PoolNativeTag73RequestV1 (proofAccount : AccountInfo) (instructionData : Bytes) :
    Except VerifierError ValidatedV7PoolNativeTag73RequestV1 := do
  require (instructionData.length = V7_POOL_NATIVE_TAG73_REQUEST_BYTES) .invalidInstructionData
  let request ← mapErr (fun _ => .invalidInstructionData) (decodeVerifierDispatchRequestV1 env.hashv instructionData)
  require (request.binding.verifierProgram = env.programId) .incorrectProgramId
  require (request.binding.profileBinding = V7_POOL_NATIVE_TAG73_PROFILE_BINDING ∧
    request.binding.releaseBinding = V7_POOL_NATIVE_TAG73_RELEASE_BINDING ∧
    request.binding.proofAccount = proofAccount.key) .invalidInstructionData
  let statement ← decodeNativeStatement request
  require (statementMatchesBinding statement request.binding) .invalidInstructionData
  requireEnvelope env request.binding
  let frontierNodes ← okOr (frontierNodesFromProofLength request.binding.proofBodyLength) .invalidInstructionData
  return ⟨request, statement, frontierNodes⟩

/-! ### The atomic payment profile -/

def V7_RELEASE_BINDING : Bytes32 :=
  ⟨[0x7a, 0xc8, 0xfe, 0x92, 0xc3, 0xf4, 0x91, 0x99, 0x72, 0xd6, 0x5d, 0x0b, 0x59, 0xa7, 0x89, 0x8e, 0xd1, 0x00, 0x5c,
    0xb4, 0x01, 0x6f, 0xdb, 0x1f, 0x3d, 0xaf, 0xf0, 0xae, 0xbb, 0x49, 0xa0, 0xf9], rfl⟩

def V7_POOL_TAG73_PROFILE_BINDING : Bytes32 :=
  ⟨[0x34, 0x99, 0x2c, 0x19, 0x2a, 0xec, 0xf5, 0x26, 0x2a, 0xd2, 0xa7, 0x8f, 0x5c, 0x7e, 0x07, 0x5c, 0x81, 0x67, 0x3f,
    0x5c, 0xa3, 0x8e, 0xec, 0x22, 0x78, 0x41, 0xf7, 0x27, 0x8a, 0x2b, 0xc1, 0xc1], rfl⟩

def V7_POOL_TAG73_PROFILE_PAYLOAD_MAGIC : Bytes := [65, 55, 80, 49]

def V7_POOL_TAG73_PROFILE_PAYLOAD_BYTES : ℕ := 392

structure V7PoolTag73ProfilePayloadV1 where
  frontierNodes : ℕ
  proofBodyLength : UInt32
  proofBodyDigest : Bytes32
  verifierProgram : Bytes32
  releaseBinding : Bytes32
  attemptId : Bytes32
  statementDigest : Bytes32
  statement : AtomicPaymentStatementV4
  deriving DecidableEq

/-- Any format error of the payload becomes an instruction data error. -/
def payloadError {ε α : Type} (x : Except ε α) : Except VerifierError α := mapErr (fun _ => .invalidInstructionData) x

def decodeAtomicPaymentStatementV4 (bytes : Bytes) : Except VerifierError AtomicPaymentStatementV4 := do
  require (byteAt 0 bytes = ATOMIC_PAYMENT_STATEMENT_VERSION ∧ byteAt 1 bytes = ATOMIC_PAYMENT_TREE_DEPTH ∧
    slice 2 6 bytes = zeros 6) .invalidInstructionData
  let anchor ← payloadError (decodeDigest (Bytes32.read 48 bytes))
  let nullifier ← payloadError (decodeDigest (Bytes32.read 80 bytes))
  let outputCommitment ← payloadError (decodeDigest (Bytes32.read 112 bytes))
  let assetId ← payloadError (decodeAssetIdCanonical (readU32 176 bytes))
  let outputAnchor ← payloadError (decodeDigest (Bytes32.read 144 bytes))
  let statement : AtomicPaymentStatementV4 :=
    { pool := Bytes32.read 8 bytes
      sequence := readU64 40 bytes
      spend := ⟨anchor, nullifier, outputCommitment, assetId, readU32 180 bytes⟩
      outputAnchor := outputAnchor
      deploymentDomain := Bytes32.read 184 bytes }
  let canonical ← payloadError (encodeAtomicPaymentStatementV4 statement)
  require (canonical = bytes) .invalidInstructionData
  return statement

def decodeV7PoolTag73ProfilePayloadV1 (bytes : Bytes) : Except VerifierError V7PoolTag73ProfilePayloadV1 := do
  require (bytes.length = V7_POOL_TAG73_PROFILE_PAYLOAD_BYTES ∧
    slice 0 4 bytes = V7_POOL_TAG73_PROFILE_PAYLOAD_MAGIC ∧ byteAt 4 bytes = 1 ∧ byteAt 5 bytes = 1 ∧
    byteAt 6 bytes = 1 ∧ byteAt 7 bytes = ATOMIC_PAYMENT_STATEMENT_VERSION ∧ slice 10 2 bytes = zeros 2)
    .invalidInstructionData
  let statement ← decodeAtomicPaymentStatementV4 (bytes.drop 176)
  let payload : V7PoolTag73ProfilePayloadV1 :=
    { frontierNodes := leNat (slice 8 2 bytes)
      proofBodyLength := readU32 12 bytes
      proofBodyDigest := Bytes32.read 16 bytes
      verifierProgram := Bytes32.read 48 bytes
      releaseBinding := Bytes32.read 80 bytes
      attemptId := Bytes32.read 112 bytes
      statementDigest := Bytes32.read 144 bytes
      statement := statement }
  require (V7_POOL_TAG73_MIN_FRONTIER_NODES ≤ payload.frontierNodes ∧
    payload.frontierNodes ≤ V7_COMPACT_FRONTIER_CAP_PER_TREE ∧
    payload.proofBodyLength.toNat =
      V7_COMPACT_BODY_WITHOUT_FRONTIERS + 2 * payload.frontierNodes * V7_COMPACT_DIGEST_BYTES) .invalidInstructionData
  require (payload.verifierProgram ≠ Bytes32.zero ∧ payload.attemptId ≠ Bytes32.zero ∧
    payload.proofBodyDigest ≠ Bytes32.zero ∧ payload.statementDigest ≠ Bytes32.zero) .invalidInstructionData
  require (payload.releaseBinding = V7_RELEASE_BINDING) .invalidInstructionData
  let expected ← payloadError (atomicPaymentStatementDigestV4 env.hashv payload.statement)
  require (expected = payload.statementDigest) .invalidInstructionData
  return payload

def statementMatchesDispatchBinding (statement : AtomicPaymentStatementV4) (b : VerifierDispatchBindingV1) : Prop :=
  b.transitionKind = .privateTransfer ∧ statement.pool = b.pool ∧ statement.sequence = b.anchorSequence ∧
    statement.spend.anchor = b.anchorRoot ∧ statement.spend.nullifier = b.nullifier ∧
    statement.deploymentDomain = b.deploymentDomain

instance (statement : AtomicPaymentStatementV4) (b : VerifierDispatchBindingV1) :
    Decidable (statementMatchesDispatchBinding statement b) := inferInstanceAs (Decidable (_ ∧ _))

def validateLegacyTag73Request (proofAccount : AccountInfo) (instructionData : Bytes) :
    Except VerifierError (VerifierDispatchRequestV1 × V7PoolTag73ProfilePayloadV1) := do
  let request ← mapErr (fun _ => .invalidInstructionData) (decodeVerifierDispatchRequestV1 env.hashv instructionData)
  require (request.binding.verifierProgram = env.programId) .incorrectProgramId
  require (request.binding.profileBinding = V7_POOL_TAG73_PROFILE_BINDING ∧
    request.binding.releaseBinding = V7_RELEASE_BINDING ∧ request.binding.transitionKind = .privateTransfer)
    .invalidInstructionData
  require (request.binding.proofAccount = proofAccount.key) .invalidArgument
  let payload ← decodeV7PoolTag73ProfilePayloadV1 env request.statementPayload
  require (payload.verifierProgram = request.binding.verifierProgram ∧
    payload.releaseBinding = request.binding.releaseBinding ∧ payload.attemptId = request.binding.proofAccount ∧
    payload.proofBodyLength = request.binding.proofBodyLength ∧
    payload.proofBodyDigest = request.binding.proofBodyDigest ∧
    statementMatchesDispatchBinding payload.statement request.binding) .invalidInstructionData
  requireEnvelope env request.binding
  return (request, payload)

/-! ### Either profile -/

/-- A request whose metadata passed the checks of the profile its length selects. -/
inductive SelectedTag73Request
  | native (validated : ValidatedV7PoolNativeTag73RequestV1)
  | legacy (request : VerifierDispatchRequestV1) (payload : V7PoolTag73ProfilePayloadV1)

def SelectedTag73Request.request : SelectedTag73Request → VerifierDispatchRequestV1
  | .native validated => validated.request
  | .legacy request _ => request

/-- The metadata checks, which do not read the proof. -/
def validateSelectedTag73Request (proofAccount : AccountInfo) (instructionData : Bytes) :
    Except VerifierError SelectedTag73Request :=
  if instructionData.length = V7_POOL_NATIVE_TAG73_REQUEST_BYTES then do
    let validated ← validateV7PoolNativeTag73RequestV1 env proofAccount instructionData
    return .native validated
  else do
    let (request, payload) ← validateLegacyTag73Request env proofAccount instructionData
    return .legacy request payload

/-- The algebraic verifiers, each given the proof bytes, the frontier size, the proof account as attempt, the statement
and its digest. -/
structure Tag73Verifiers where
  privateTransfer : Bytes → ℕ → Pubkey → PoolV1PrivateTransferPublicV1 → Bytes32 → Bool
  withdrawal : Bytes → ℕ → Pubkey → PoolV1WithdrawalPublicV1 → Bytes32 → Bool
  atomicPayment : Bytes → ℕ → Pubkey → AtomicPaymentStatementV4 → Bytes32 → Bool

/-- Whether the selected verifier accepts the proof. -/
def Tag73Verifiers.accepts (v : Tag73Verifiers) (selected : SelectedTag73Request) (proof : Bytes) (attempt : Pubkey) :
    Bool :=
  match selected with
  | .native ⟨request, .privateTransfer statement, nodes⟩ =>
    v.privateTransfer proof nodes attempt statement request.binding.statementDigest
  | .native ⟨request, .withdrawal statement, nodes⟩ =>
    v.withdrawal proof nodes attempt statement request.binding.statementDigest
  | .legacy _ payload => v.atomicPayment proof payload.frontierNodes attempt payload.statement payload.statementDigest

/-- The sealed proof account holds exactly the proof body the request names. -/
def requireSealedBody (b : VerifierDispatchBindingV1) (data : Bytes) : Except VerifierError Bytes := do
  require (proofAccountFinalized data = true) .invalidAccountData
  let (proofStart, proofEnd) ← uploadedProofBounds data
  require (proofEnd = data.length) .invalidAccountData
  let proof := slice proofStart (proofEnd - proofStart) data
  require (proof.length = b.proofBodyLength.toNat ∧ verifierProofBodyDigestV1 env.hashv proof = b.proofBodyDigest)
    .invalidAccountData
  return proof

def verifySelectedTag73 (v : Tag73Verifiers) (proofAccount : AccountInfo) (instructionData : Bytes) (l : Ledger) :
    Except VerifierError VerifierDispatchBindingV1 := do
  require (proofAccount.owner l = env.programId) .incorrectProgramId
  require (proofAccount.isSigner = false ∧ proofAccount.isWritable = false ∧ proofAccount.executable l = false)
    .invalidAccountData
  let selected ← validateSelectedTag73Request env proofAccount instructionData
  let proof ← requireSealedBody env selected.request.binding (proofAccount.data l)
  require (v.accepts selected proof proofAccount.key = true) .invalidAccountData
  return selected.request.binding

end

end Aspis.Verifier
