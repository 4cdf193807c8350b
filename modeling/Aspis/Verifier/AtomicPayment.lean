import Aspis.Verifier.Lifecycle

/-! Atomic payments: pools that carry an anchor and a sequence number, markers
for consumed nullifiers, and the spend that checks a proof, creates the marker
and advances the pool. The proof verifier is a parameter that reads the ledger
and writes nothing. -/

namespace Aspis.Verifier

open Lib Chain Statement

def ATOMIC_ERROR_ANCHOR_MISMATCH : UInt32 := 0x41531001

def ATOMIC_ERROR_NULLIFIER_ALREADY_SPENT : UInt32 := 0x41531002

def ATOMIC_ERROR_DEPLOYMENT_DOMAIN_MISMATCH : UInt32 := 0x41531005

/-! ### Pool and marker images -/

def ATOMIC_POOL_STATE_MAGIC : Bytes := [65, 83, 80, 83]

def ATOMIC_POOL_STATE_VERSION : UInt8 := 2

def ATOMIC_POOL_STATE_LEN : ℕ := 80

def ATOMIC_NULLIFIER_MAGIC : Bytes := [65, 83, 80, 78]

def ATOMIC_NULLIFIER_VERSION : UInt8 := 1

def ATOMIC_NULLIFIER_MARKER_LEN : ℕ := 72

def ATOMIC_NULLIFIER_SEED : Bytes := "aspis-nullifier-v1".toUTF8.toList

structure AtomicPoolStateV2 where
  sequence : UInt64
  anchor : Bytes32
  deploymentDomain : Bytes32
  deriving DecidableEq

namespace AtomicPoolStateV2

def decode (data : Bytes) : Except VerifierError AtomicPoolStateV2 := do
  require (data.length = ATOMIC_POOL_STATE_LEN ∧ slice 0 4 data = ATOMIC_POOL_STATE_MAGIC ∧
    byteAt 4 data = ATOMIC_POOL_STATE_VERSION ∧ slice 5 3 data = zeros 3) .invalidAccountData
  return ⟨readU64 8 data, Bytes32.read 16 data, Bytes32.read 48 data⟩

/-- The image of a pool state. -/
def encode (state : AtomicPoolStateV2) : Bytes :=
  ATOMIC_POOL_STATE_MAGIC ++ (u8Bytes ATOMIC_POOL_STATE_VERSION ++ (zeros 3 ++ (u64Bytes state.sequence ++
    (state.anchor.bytes ++ state.deploymentDomain.bytes))))

end AtomicPoolStateV2

structure NullifierMarkerV1 where
  pool : Pubkey
  nullifier : Bytes32
  deriving DecidableEq

namespace NullifierMarkerV1

/-- A zeroed account carries no marker. -/
def decode (data : Bytes) : Except VerifierError (Option NullifierMarkerV1) := do
  require (data.length = ATOMIC_NULLIFIER_MARKER_LEN) .invalidAccountData
  if allZero data = true then
    return none
  else
    require (slice 0 4 data = ATOMIC_NULLIFIER_MAGIC ∧ byteAt 4 data = ATOMIC_NULLIFIER_VERSION ∧
      slice 5 3 data = zeros 3) .invalidAccountData
    return some ⟨Bytes32.read 8 data, Bytes32.read 40 data⟩

def encode (marker : NullifierMarkerV1) : Bytes :=
  ATOMIC_NULLIFIER_MAGIC ++ (u8Bytes ATOMIC_NULLIFIER_VERSION ++ (zeros 3 ++ (marker.pool.bytes ++
    marker.nullifier.bytes)))

end NullifierMarkerV1

/-! ### Initializing a pool -/

def DEPLOYMENT_DOMAIN_TAG_MAX_LEN : ℕ := 64

/-- The first account of an instruction. -/
def firstAccount : List AccountInfo → Except VerifierError AccountInfo
  | account :: _ => .ok account
  | [] => .error .notEnoughAccountKeys

section
variable (env : VerifierEnvironment)

def initializeAtomicPool (accounts : List AccountInfo) (sequence : UInt64) (anchor : Bytes32) (domainTag : Bytes) :
    VerifierHandler Unit := do
  let poolAccount ← Exec.query fun _ => firstAccount accounts
  Exec.query fun l => require (poolAccount.owner l = env.programId) .incorrectProgramId
  Exec.query fun _ => require (poolAccount.isSigner = true) .missingRequiredSignature
  Exec.query fun _ => require (poolAccount.isWritable = true) .invalidAccountData
  Exec.query fun _ => require (domainTag ≠ [] ∧ domainTag.length ≤ DEPLOYMENT_DOMAIN_TAG_MAX_LEN)
    .invalidInstructionData
  let _ ← Exec.query fun _ => mapErr (fun _ => .invalidInstructionData) (decodeDigest anchor)
  Exec.query fun _ => require (sequence.toNat + 1 < U64_LIMIT) .arithmeticOverflow
  Exec.query fun l => require ((poolAccount.data l).length = ATOMIC_POOL_STATE_LEN ∧
    allZero (poolAccount.data l) = true) .invalidAccountData
  Exec.update (setData poolAccount.key (AtomicPoolStateV2.encode
    ⟨sequence, anchor, atomicDeploymentDomain env.hashv env.programId domainTag⟩))

/-! ### The spend -/

structure AtomicPaymentPublicInputs where
  currentAnchor : Bytes32
  nullifier : Bytes32
  outputCommitment : Bytes32
  outputAnchor : Bytes32
  assetId : UInt32
  fee : UInt32
  deploymentDomain : Bytes32
  deriving DecidableEq

inductive MarkerPreparation
  | programOwnedZeroed
  | createSystemOwned
  deriving DecidableEq, Repr

inductive ProofAccountDisposition
  | retain
  | refundToPayer
  deriving DecidableEq, Repr

/-- A complete proof verifier: it sees the proof account, the statement and its digest, and writes nothing. -/
abbrev AtomicVerifier := AccountInfo → AtomicPaymentStatementV4 → Bytes32 → Ledger → Except VerifierError Unit

/-- The accounts of a spend, in their fixed order. -/
structure AtomicAccounts where
  proof : AccountInfo
  pool : AccountInfo
  nullifier : AccountInfo
  payer : AccountInfo
  system : AccountInfo

def AtomicAccounts.ofList : List AccountInfo → Except VerifierError AtomicAccounts
  | [proof, pool, nullifier, payer, system] => .ok ⟨proof, pool, nullifier, payer, system⟩
  | _ => .error .notEnoughAccountKeys

/-- Every statement error a spend can meet is an instruction data error. -/
def mapStatementError : AtomicStatementError → VerifierError := fun _ => .invalidInstructionData

def checkedStatement (poolKey : Pubkey) (sequence : UInt64) (inputs : AtomicPaymentPublicInputs) :
    Except VerifierError (AtomicPaymentStatementV4 × Bytes32) := do
  let currentAnchor ← mapErr mapStatementError (decodeDigest inputs.currentAnchor)
  let nullifier ← mapErr mapStatementError (decodeDigest inputs.nullifier)
  let outputCommitment ← mapErr mapStatementError (decodeDigest inputs.outputCommitment)
  let outputAnchor ← mapErr mapStatementError (decodeDigest inputs.outputAnchor)
  let assetId ← mapErr mapStatementError (decodeAssetIdCanonical inputs.assetId)
  let statement : AtomicPaymentStatementV4 :=
    { pool := poolKey
      sequence := sequence
      spend := ⟨currentAnchor, nullifier, outputCommitment, assetId, inputs.fee⟩
      outputAnchor := outputAnchor
      deploymentDomain := inputs.deploymentDomain }
  let digest ← mapErr mapStatementError (atomicPaymentStatementDigestV4 env.hashv statement)
  return (statement, digest)

def atomicNullifierAddress (nullifier : Bytes32) : Pubkey × UInt8 :=
  env.findProgramAddress [ATOMIC_NULLIFIER_SEED, nullifier.bytes] env.programId

/-- A retained proof is read only, a refunded one writable. -/
def proofAccess (disposition : ProofAccountDisposition) (proof : AccountInfo) : Prop :=
  match disposition with
  | .retain => proof.isWritable = false
  | .refundToPayer => proof.isWritable = true

instance (disposition : ProofAccountDisposition) (proof : AccountInfo) : Decidable (proofAccess disposition proof) := by
  unfold proofAccess
  cases disposition <;> infer_instance

/-- Owners, signatures and access flags, and that no account but the last is named twice. -/
def validateAtomicAccounts (a : AtomicAccounts) (disposition : ProofAccountDisposition) (l : Ledger) :
    Except VerifierError Unit := do
  require (a.proof.owner l = env.programId ∧ a.pool.owner l = env.programId) .incorrectProgramId
  require (disposition = .refundToPayer → a.proof.isSigner = true) .missingRequiredSignature
  require (proofAccess disposition a.proof ∧ a.pool.isWritable = true ∧ a.nullifier.isWritable = true ∧
    a.payer.isWritable = true) .invalidAccountData
  require (a.payer.isSigner = true) .missingRequiredSignature
  require (a.payer.owner l = systemProgram ∧ a.system.key = systemProgram ∧ a.system.executable l = true)
    .incorrectProgramId
  require (a.proof.key ≠ a.pool.key ∧ a.proof.key ≠ a.nullifier.key ∧ a.proof.key ≠ a.payer.key ∧
    a.pool.key ≠ a.nullifier.key ∧ a.payer.key ≠ a.pool.key ∧ a.payer.key ≠ a.nullifier.key) .invalidArgument

/-- How the marker account is to be prepared; one that carries a marker is refused. -/
def markerPreparation (nullifierAccount : AccountInfo) (nullifier : Bytes32) (l : Ledger) :
    Except VerifierError MarkerPreparation :=
  if nullifierAccount.owner l = env.programId then do
    match ← NullifierMarkerV1.decode (nullifierAccount.data l) with
    | none => .ok .programOwnedZeroed
    | some marker => .error (if marker.nullifier = nullifier then .custom ATOMIC_ERROR_NULLIFIER_ALREADY_SPENT
        else .invalidAccountData)
  else if nullifierAccount.owner l = systemProgram ∧ nullifierAccount.data l = [] then .ok .createSystemOwned
  else .error .incorrectProgramId

def validateAccountsAndState (a : AtomicAccounts) (inputs : AtomicPaymentPublicInputs)
    (disposition : ProofAccountDisposition) (requiredNullifierBump : Option UInt8) (l : Ledger) :
    Except VerifierError (AtomicPoolStateV2 × UInt8 × MarkerPreparation) := do
  validateAtomicAccounts env a disposition l
  let (expectedNullifier, bump) := atomicNullifierAddress env inputs.nullifier
  require (a.nullifier.key = expectedNullifier) .invalidSeeds
  require (requiredNullifierBump = none ∨ requiredNullifierBump = some bump) .invalidSeeds
  let pool ← AtomicPoolStateV2.decode (a.pool.data l)
  require (pool.deploymentDomain = inputs.deploymentDomain) (.custom ATOMIC_ERROR_DEPLOYMENT_DOMAIN_MISMATCH)
  require (pool.anchor = inputs.currentAnchor) (.custom ATOMIC_ERROR_ANCHOR_MISMATCH)
  require (pool.sequence.toNat + 1 < U64_LIMIT) .arithmeticOverflow
  let preparation ← markerPreparation env a.nullifier inputs.nullifier l
  return (pool, bump, preparation)

/-- Pay what is missing to the required balance. -/
def topUp (payer account : Pubkey) (deficit : ℕ) : VerifierHandler Unit :=
  if deficit ≠ 0 then systemCpi (systemTransfer payer account deficit) else pure ()

/-- Create a program account of the given size, or fund and assign one that already holds lamports. -/
def createOrAllocate (payer account : Pubkey) (space : ℕ) : VerifierHandler Unit := do
  let required := max (env.minimumBalance space) 1
  let lamports ← Exec.query fun l => .ok (l account).lamports
  if lamports = 0 then
    systemCpi (systemCreateAccount payer account required space env.programId)
  else
    topUp payer account (required - lamports)
    systemCpi (systemAllocate account space)
    systemCpi (systemAssign account env.programId)

def createNullifierMarker (a : AtomicAccounts) : VerifierHandler Unit :=
  createOrAllocate env a.payer.key a.nullifier.key ATOMIC_NULLIFIER_MARKER_LEN

def prepareMarker (a : AtomicAccounts) (preparation : MarkerPreparation) : VerifierHandler Unit :=
  if preparation = .createSystemOwned then createNullifierMarker env a else pure ()

/-- What was checked before the marker was created still holds. -/
def recheckMutableState (a : AtomicAccounts) (pool : AtomicPoolStateV2) (inputs : AtomicPaymentPublicInputs)
    (l : Ledger) : Except VerifierError Unit := do
  let observed ← AtomicPoolStateV2.decode (a.pool.data l)
  require (observed = pool ∧ observed.anchor = inputs.currentAnchor) (.custom ATOMIC_ERROR_ANCHOR_MISMATCH)
  let marker ← NullifierMarkerV1.decode (a.nullifier.data l)
  require (marker = none) (.custom ATOMIC_ERROR_NULLIFIER_ALREADY_SPENT)

def refundIfRequested (a : AtomicAccounts) (disposition : ProofAccountDisposition) : VerifierHandler Unit :=
  if disposition = .refundToPayer then refundProgramOwnedProofAccount env a.proof a.payer else pure ()

/-- The pool after a spend. -/
def AtomicPoolStateV2.next (pool : AtomicPoolStateV2) (inputs : AtomicPaymentPublicInputs) : AtomicPoolStateV2 :=
  { pool with sequence := pool.sequence + 1, anchor := inputs.outputAnchor }

def verifyAndApplyAtomicPaymentState (accounts : List AccountInfo) (inputs : AtomicPaymentPublicInputs)
    (verifyCompleteProof : AtomicVerifier) (disposition : ProofAccountDisposition)
    (requiredNullifierBump : Option UInt8) : VerifierHandler Unit := do
  let a ← Exec.query fun _ => AtomicAccounts.ofList accounts
  let (pool, _, preparation) ← Exec.query (validateAccountsAndState env a inputs disposition requiredNullifierBump)
  let (statement, statementDigest) ← Exec.query fun _ => checkedStatement env a.pool.key pool.sequence inputs
  Exec.query (verifyCompleteProof a.proof statement statementDigest)
  prepareMarker env a preparation
  Exec.query (recheckMutableState a pool inputs)
  -- The refund is the last step that can fail; the two copies below cannot.
  refundIfRequested env a disposition
  Exec.update (setData a.nullifier.key (NullifierMarkerV1.encode ⟨a.pool.key, inputs.nullifier⟩))
  Exec.update (setData a.pool.key (AtomicPoolStateV2.encode (pool.next inputs)))

end

end Aspis.Verifier
