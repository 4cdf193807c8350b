import Aspis.Verifier.AtomicPayment
import Aspis.Verifier.Profiles
import Aspis.Verifier.ReceiptFormat

/-! The instructions on receipt accounts. A receipt is initialized for a
complete but unsealed proof by that proof's upload authority, finalized when the
selected verifier accepts the sealed proof, and closed by its recorded
authority, who gets the whole balance. -/

namespace Aspis.Verifier

open Lib Chain Statement

def V7_POOL_RECEIPT_CLOSED_MAGIC : Bytes := [65, 83, 82, 67]

def nativeLoaderBytes : Bytes :=
  [5, 135, 132, 191, 20, 139, 164, 40, 47, 176, 18, 87, 72, 136, 169, 241, 83, 160, 125, 173, 247, 101, 192, 69, 92,
    154, 151, 3, 128, 0, 0, 0]

def NATIVE_LOADER_ID : Pubkey := ⟨nativeLoaderBytes, rfl⟩

/-- Exactly two accounts. -/
def exactTwoAccounts : List AccountInfo → Except VerifierError (AccountInfo × AccountInfo)
  | [] | [_] => .error .notEnoughAccountKeys
  | [first, second] => .ok (first, second)
  | _ => .error .invalidArgument

/-- The accounts of a receipt initialization, in their fixed order. -/
structure ReceiptAccounts where
  proof : AccountInfo
  receipt : AccountInfo
  uploadAuthority : AccountInfo
  system : AccountInfo

def ReceiptAccounts.ofList : List AccountInfo → Except VerifierError ReceiptAccounts
  | [] | [_] | [_, _] | [_, _, _] => .error .notEnoughAccountKeys
  | [proof, receipt, uploadAuthority, system] => .ok ⟨proof, receipt, uploadAuthority, system⟩
  | _ => .error .invalidArgument

section
variable (env : VerifierEnvironment)

def canonicalReceiptPdaForBinding (request : VerifierDispatchRequestV1) :
    Except VerifierError (Pubkey × PoolV1AuthorizationReceiptPdaInputsV1) := do
  let bindingDigest ← mapErr (fun _ => .invalidInstructionData)
    (poolV1AuthorizationReceiptBindingDigestV1 env.hashv request.binding)
  let (address, bump) := env.findProgramAddress [POOL_V1_AUTHORIZATION_RECEIPT_SEED, request.binding.proofAccount.bytes,
    request.binding.statementDigest.bytes, bindingDigest.bytes] env.programId
  let inputs ← mapErr (fun _ => .invalidInstructionData)
    (poolV1AuthorizationReceiptPdaInputsForBindingV1 env.hashv request.binding bump)
  return (address, inputs)

def validateStoredReceiptPda (receiptKey : Pubkey) (receipt : PoolV1AuthorizationReceiptAccountV1) :
    Except VerifierError Unit := do
  require (receipt.verifierProgram = env.programId) .incorrectProgramId
  let inputs := receipt.pdaInputs
  let (expectedAddress, canonicalBump) := env.findProgramAddress [POOL_V1_AUTHORIZATION_RECEIPT_SEED,
    inputs.proofAccount.bytes, inputs.statementDigest.bytes, inputs.bindingDigest.bytes] env.programId
  require (receiptKey = expectedAddress ∧ inputs.bump = canonicalBump) .invalidSeeds
  mapErr (fun _ => .invalidSeeds)
    (validatePoolV1AuthorizationReceiptAccountPdaInputsV1 receipt { inputs with bump := canonicalBump })

/-! ### Initialization -/

def validateReceiptAccounts (a : ReceiptAccounts) (l : Ledger) : Except VerifierError Unit := do
  require (a.proof.owner l = env.programId) .incorrectProgramId
  require (a.proof.isSigner = false ∧ a.proof.isWritable = false ∧ a.proof.executable l = false) .invalidAccountData
  require (a.receipt.owner l = systemProgram) .incorrectProgramId
  require (a.receipt.isSigner = false ∧ a.receipt.isWritable = true ∧ a.receipt.executable l = false ∧
    a.receipt.data l = []) .invalidAccountData
  require (a.uploadAuthority.isSigner = true) .missingRequiredSignature
  require (a.uploadAuthority.isWritable = true ∧ a.uploadAuthority.executable l = false ∧
    a.uploadAuthority.data l = []) .invalidAccountData
  require (a.uploadAuthority.owner l = systemProgram ∧ a.system.key = systemProgram ∧
    a.system.owner l = NATIVE_LOADER_ID) .incorrectProgramId
  require (a.system.isSigner = false ∧ a.system.isWritable = false ∧ a.system.executable l = true) .invalidAccountData
  require (a.proof.key ≠ a.receipt.key ∧ a.proof.key ≠ a.uploadAuthority.key ∧ a.receipt.key ≠ a.uploadAuthority.key ∧
    a.proof.key ≠ a.system.key ∧ a.receipt.key ≠ a.system.key ∧ a.uploadAuthority.key ≠ a.system.key) .invalidArgument

/-- The upload is complete and unsealed, has the requested body, and names the signing authority. -/
def requireUnsealedUpload (b : VerifierDispatchBindingV1) (uploadAuthority : Pubkey) (data : Bytes) :
    Except VerifierError Bytes32 := do
  require (proofAccountFinalized data = false) .invalidAccountData
  let (proofStart, proofEnd) ← uploadedProofBounds data
  require (proofEnd = data.length ∧ proofEnd - proofStart = b.proofBodyLength.toNat ∧
    verifierProofBodyDigestV1 env.hashv (slice proofStart (proofEnd - proofStart) data) = b.proofBodyDigest)
    .invalidAccountData
  let authority := Bytes32.read AUTHORITY_OFFSET data
  require (authority ≠ Bytes32.zero ∧ authority = uploadAuthority) .invalidAccountData
  return authority

/-- The image of the new receipt, once every check on the request and the upload has passed. -/
def plannedReceipt (a : ReceiptAccounts) (instructionData : Bytes) (l : Ledger) : Except VerifierError Bytes := do
  let selected ← validateSelectedTag73Request env a.proof instructionData
  let request := selected.request
  let authority ← requireUnsealedUpload env request.binding a.uploadAuthority.key (a.proof.data l)
  let (expectedReceipt, pdaInputs) ← canonicalReceiptPdaForBinding env request
  require (a.receipt.key = expectedReceipt) .invalidSeeds
  let pendingImage ← mapErr (fun _ => .invalidInstructionData)
    (initializePoolV1AuthorizationReceiptAccountV1 env.hashv request a.proof.key authority
      (some a.uploadAuthority.key) a.uploadAuthority.key pdaInputs.bump)
  let decodedPending ← mapErr (fun _ => .invalidInstructionData)
    (decodePoolV1AuthorizationReceiptAccountV1 env.hashv pendingImage)
  mapErr (fun _ => .invalidSeeds) (validatePoolV1AuthorizationReceiptAccountPdaInputsV1 decodedPending pdaInputs)
  return pendingImage

def createOrAllocateReceiptAccount (a : ReceiptAccounts) (pendingImage : Bytes) : VerifierHandler Unit := do
  createOrAllocate env a.uploadAuthority.key a.receipt.key POOL_V1_AUTHORIZATION_RECEIPT_ACCOUNT_BYTES
  Exec.query fun l => require (a.receipt.owner l = env.programId) .incorrectProgramId
  Exec.query fun l => require ((a.receipt.data l).length = POOL_V1_AUTHORIZATION_RECEIPT_ACCOUNT_BYTES ∧
    allZero (a.receipt.data l) = true) .invalidAccountData
  Exec.update (setData a.receipt.key pendingImage)

def processV7PoolReceiptInitialize (accounts : List AccountInfo) (instructionData : Bytes) : VerifierHandler Unit := do
  let a ← Exec.query fun _ => ReceiptAccounts.ofList accounts
  Exec.query (validateReceiptAccounts env a)
  let pendingImage ← Exec.query (plannedReceipt env a instructionData)
  createOrAllocateReceiptAccount env a pendingImage

/-! ### Finalization -/

def validatePendingReceiptForRequest (receiptKey : Pubkey) (bytes : Bytes) (request : VerifierDispatchRequestV1) :
    Except VerifierError PoolV1AuthorizationReceiptAccountV1 := do
  let receipt ← mapErr (fun _ => .invalidAccountData) (decodePoolV1AuthorizationReceiptAccountV1 env.hashv bytes)
  require (receipt.status = .pending) .invalidAccountData
  mapErr (fun _ => .invalidInstructionData)
    (validatePoolV1AuthorizationReceiptAccountRequestV1 env.hashv receipt request)
  let (_, expectedInputs) ← canonicalReceiptPdaForBinding env request
  mapErr (fun _ => .invalidSeeds) (validatePoolV1AuthorizationReceiptAccountPdaInputsV1 receipt expectedInputs)
  validateStoredReceiptPda env receiptKey receipt
  return receipt

def validateReceiptAccount (receiptAccount : AccountInfo) (l : Ledger) : Except VerifierError Unit := do
  require (receiptAccount.owner l = env.programId) .incorrectProgramId
  require (receiptAccount.isSigner = false ∧ receiptAccount.isWritable = true ∧ receiptAccount.executable l = false)
    .invalidAccountData
  require ((receiptAccount.data l).length = POOL_V1_AUTHORIZATION_RECEIPT_ACCOUNT_BYTES) .invalidAccountData

def processV7PoolReceiptFinalize (v : Tag73Verifiers) (accounts : List AccountInfo) (instructionData : Bytes)
    (currentSlot : UInt64) : VerifierHandler Unit := do
  let (proofAccount, receiptAccount) ← Exec.query fun _ => exactTwoAccounts accounts
  Exec.query (validateReceiptAccount env receiptAccount)
  Exec.query fun _ => require (proofAccount.key ≠ receiptAccount.key) .invalidArgument
  let request ← Exec.query fun _ => mapErr (fun _ => .invalidInstructionData)
    (decodeVerifierDispatchRequestV1 env.hashv instructionData)
  let _ ← Exec.query fun l => validatePendingReceiptForRequest env receiptAccount.key (receiptAccount.data l) request
  let binding ← Exec.query (verifySelectedTag73 env v proofAccount instructionData)
  Exec.query fun _ => require (binding = request.binding) .invalidInstructionData
  -- Decoded again right before the one write.
  let pending ← Exec.query fun l =>
    validatePendingReceiptForRequest env receiptAccount.key (receiptAccount.data l) request
  let finalized ← Exec.query fun l => mapErr (fun _ => .invalidAccountData)
    (finalizePoolV1AuthorizationReceiptAccountV1 env.hashv (receiptAccount.data l) request
      ⟨pending.pdaBump, currentSlot, binding⟩)
  Exec.update (setData receiptAccount.key finalized)

/-! ### Closing -/

def requireReceiptClosable (receiptAccount refundAuthority : AccountInfo) (l : Ledger) : Except VerifierError Unit := do
  validateReceiptAccount env receiptAccount l
  require (refundAuthority.isSigner = true) .missingRequiredSignature
  require (refundAuthority.isWritable = true ∧ refundAuthority.executable l = false ∧ refundAuthority.data l = [])
    .invalidAccountData
  require (refundAuthority.owner l = systemProgram) .incorrectProgramId
  require (receiptAccount.key ≠ refundAuthority.key) .invalidArgument
  let receipt ← mapErr (fun _ => .invalidAccountData)
    (decodePoolV1AuthorizationReceiptAccountV1 env.hashv (receiptAccount.data l))
  validateStoredReceiptPda env receiptAccount.key receipt
  mapErr (fun _ => .invalidArgument) (authorizeClosePoolV1AuthorizationReceiptAccountV1 env.hashv
    (receiptAccount.data l) (some refundAuthority.key) refundAuthority.key)
  require (receiptAccount.lamports l ≠ 0) .invalidAccountData
  require (refundAuthority.lamports l + receiptAccount.lamports l < U64_LIMIT) .arithmeticOverflow

/-- What a closed receipt account holds. -/
def receiptTombstone : Bytes :=
  V7_POOL_RECEIPT_CLOSED_MAGIC ++ zeros (POOL_V1_AUTHORIZATION_RECEIPT_ACCOUNT_BYTES - 4)

def processV7PoolReceiptClose (accounts : List AccountInfo) (instructionData : Bytes) : VerifierHandler Unit := do
  Exec.query fun _ => require (instructionData = []) .invalidInstructionData
  let (receiptAccount, refundAuthority) ← Exec.query fun _ => exactTwoAccounts accounts
  Exec.query (requireReceiptClosable env receiptAccount refundAuthority)
  Exec.update (drainAccount receiptAccount.key refundAuthority.key receiptTombstone)

end

end Aspis.Verifier
