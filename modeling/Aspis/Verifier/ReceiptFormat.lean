import Aspis.Verifier.Dispatch

/-! Authorization receipts: the 432-byte record of an accepted verification and
the 720-byte account that wraps it, pending first and verified once. The account
commits to one request by digests and to the authority that may close it. -/

namespace Aspis.Verifier

open Lib Chain Statement

inductive PoolV1AuthorizationReceiptError
  | wrongLength
  | wrongMagic
  | wrongVersion
  | wrongHashAlgorithm
  | wrongStatus
  | digestMismatch
  | dispatch (error : PoolV1VerifierDispatchFormatError)
  deriving DecidableEq, Repr

def POOL_V1_AUTHORIZATION_RECEIPT_MAGIC : Bytes := [65, 83, 86, 65]

def POOL_V1_AUTHORIZATION_RECEIPT_VERSION : UInt8 := 1

def POOL_V1_AUTHORIZATION_RECEIPT_HASH_SHA256 : UInt8 := 1

def POOL_V1_AUTHORIZATION_RECEIPT_STATUS_VERIFIED : UInt8 := 1

def POOL_V1_AUTHORIZATION_RECEIPT_BYTES : ℕ := 432

def POOL_V1_AUTHORIZATION_RECEIPT_SEED : Bytes := "aspis-verify-receipt-v1".toUTF8.toList

def POOL_V1_AUTHORIZATION_RECEIPT_DIGEST_DOMAIN : Bytes := "aspis/pool-v1/authorization-receipt/v1".toUTF8.toList

structure PoolV1AuthorizationReceiptV1 where
  pdaBump : UInt8
  verifiedSlot : UInt64
  binding : VerifierDispatchBindingV1
  deriving DecidableEq

section
variable (hashv : List Bytes → Bytes32)

def receiptDigestV1 (prefixAndResult : Bytes) : Bytes32 :=
  hashv [POOL_V1_AUTHORIZATION_RECEIPT_DIGEST_DOMAIN, prefixAndResult]

def encodePoolV1AuthorizationReceiptV1 (receipt : PoolV1AuthorizationReceiptV1) :
    Except PoolV1AuthorizationReceiptError Bytes := do
  let result ← mapErr .dispatch (encodeVerifierDispatchResultV1 receipt.binding)
  let body := POOL_V1_AUTHORIZATION_RECEIPT_MAGIC ++ (u8Bytes POOL_V1_AUTHORIZATION_RECEIPT_VERSION ++
    (u8Bytes POOL_V1_AUTHORIZATION_RECEIPT_HASH_SHA256 ++ (u8Bytes POOL_V1_AUTHORIZATION_RECEIPT_STATUS_VERIFIED ++
    (u8Bytes receipt.pdaBump ++ (u64Bytes receipt.verifiedSlot ++ result)))))
  return body ++ (receiptDigestV1 hashv body).bytes

def decodePoolV1AuthorizationReceiptV1 (bytes : Bytes) :
    Except PoolV1AuthorizationReceiptError PoolV1AuthorizationReceiptV1 := do
  require (bytes.length = POOL_V1_AUTHORIZATION_RECEIPT_BYTES) .wrongLength
  require (slice 0 4 bytes = POOL_V1_AUTHORIZATION_RECEIPT_MAGIC) .wrongMagic
  require (byteAt 4 bytes = POOL_V1_AUTHORIZATION_RECEIPT_VERSION) .wrongVersion
  require (byteAt 5 bytes = POOL_V1_AUTHORIZATION_RECEIPT_HASH_SHA256) .wrongHashAlgorithm
  require (byteAt 6 bytes = POOL_V1_AUTHORIZATION_RECEIPT_STATUS_VERIFIED) .wrongStatus
  require (slice 400 32 bytes = (receiptDigestV1 hashv (slice 0 400 bytes)).bytes) .digestMismatch
  let binding ← mapErr .dispatch (decodeVerifierDispatchResultV1 (slice 16 384 bytes))
  return ⟨byteAt 7 bytes, readU64 8 bytes, binding⟩

/-! ### The receipt account -/

inductive PoolV1AuthorizationReceiptAccountErrorV1
  | wrongLength
  | wrongMagic
  | wrongVersion
  | wrongHashAlgorithm
  | wrongStatus
  | nonZeroReserved
  | zeroProofUploadAuthority
  | zeroCloseRefundAuthority
  | wrapperDigestMismatch
  | nonZeroPendingSlot
  | nonZeroPendingBody
  | missingProofUploadAuthoritySignature
  | proofUploadAuthorityMismatch
  | proofAccountMismatch
  | verifierProgramMismatch
  | statementDigestMismatch
  | bindingDigestMismatch
  | requestDigestMismatch
  | pdaInputsMismatch
  | receiptBumpMismatch
  | receiptSlotMismatch
  | receiptBindingMismatch
  | alreadyFinalized
  | closeAuthorityMismatch
  | refundDestinationMismatch
  | dispatch (error : PoolV1VerifierDispatchFormatError)
  | receipt (error : PoolV1AuthorizationReceiptError)
  deriving DecidableEq, Repr

def POOL_V1_AUTHORIZATION_RECEIPT_ACCOUNT_MAGIC : Bytes := [65, 83, 82, 65]

def POOL_V1_AUTHORIZATION_RECEIPT_ACCOUNT_VERSION : UInt8 := 1

def POOL_V1_AUTHORIZATION_RECEIPT_ACCOUNT_HASH_SHA256 : UInt8 := 1

def POOL_V1_AUTHORIZATION_RECEIPT_ACCOUNT_STATUS_PENDING : UInt8 := 0

def POOL_V1_AUTHORIZATION_RECEIPT_ACCOUNT_STATUS_VERIFIED : UInt8 := 1

def POOL_V1_AUTHORIZATION_RECEIPT_ACCOUNT_BYTES : ℕ := 720

def POOL_V1_AUTHORIZATION_RECEIPT_ACCOUNT_DIGEST_DOMAIN : Bytes :=
  "aspis/pool-v1/authorization-receipt-account/v1".toUTF8.toList

def POOL_V1_AUTHORIZATION_RECEIPT_BINDING_DIGEST_DOMAIN : Bytes :=
  "aspis/pool-v1/authorization-receipt-binding/v1".toUTF8.toList

def POOL_V1_AUTHORIZATION_RECEIPT_REQUEST_DIGEST_DOMAIN : Bytes :=
  "aspis/pool-v1/authorization-receipt-request/v1".toUTF8.toList

inductive PoolV1AuthorizationReceiptAccountStatusV1
  | pending
  | verified
  deriving DecidableEq, Repr

structure PoolV1AuthorizationReceiptPdaInputsV1 where
  proofAccount : Bytes32
  statementDigest : Bytes32
  bindingDigest : Bytes32
  bump : UInt8
  deriving DecidableEq

structure PoolV1AuthorizationReceiptAccountV1 where
  status : PoolV1AuthorizationReceiptAccountStatusV1
  pdaBump : UInt8
  verifiedSlot : UInt64
  verifierProgram : Bytes32
  proofAccount : Bytes32
  statementDigest : Bytes32
  bindingDigest : Bytes32
  requestDigest : Bytes32
  proofUploadAuthority : Bytes32
  closeRefundAuthority : Bytes32
  receipt : Option PoolV1AuthorizationReceiptV1
  deriving DecidableEq

def PoolV1AuthorizationReceiptAccountV1.pdaInputs (account : PoolV1AuthorizationReceiptAccountV1) :
    PoolV1AuthorizationReceiptPdaInputsV1 :=
  ⟨account.proofAccount, account.statementDigest, account.bindingDigest, account.pdaBump⟩

def wrapperDigestV1 (prefixAndBody : Bytes) : Bytes32 :=
  hashv [POOL_V1_AUTHORIZATION_RECEIPT_ACCOUNT_DIGEST_DOMAIN, prefixAndBody]

def poolV1AuthorizationReceiptBindingDigestV1 (binding : VerifierDispatchBindingV1) :
    Except PoolV1AuthorizationReceiptAccountErrorV1 Bytes32 := do
  let canonical ← mapErr .dispatch (encodeVerifierDispatchResultV1 binding)
  return hashv [POOL_V1_AUTHORIZATION_RECEIPT_BINDING_DIGEST_DOMAIN, canonical]

def poolV1AuthorizationReceiptRequestDigestV1 (request : VerifierDispatchRequestV1) :
    Except PoolV1AuthorizationReceiptAccountErrorV1 Bytes32 := do
  let canonical ← mapErr .dispatch (encodeVerifierDispatchRequestV1 hashv request)
  return hashv [POOL_V1_AUTHORIZATION_RECEIPT_REQUEST_DIGEST_DOMAIN, canonical]

def poolV1AuthorizationReceiptPdaInputsForBindingV1 (binding : VerifierDispatchBindingV1) (pdaBump : UInt8) :
    Except PoolV1AuthorizationReceiptAccountErrorV1 PoolV1AuthorizationReceiptPdaInputsV1 := do
  let bindingDigest ← poolV1AuthorizationReceiptBindingDigestV1 hashv binding
  return ⟨binding.proofAccount, binding.statementDigest, bindingDigest, pdaBump⟩

/-- The fields of a pending account before its digest. -/
def pendingBody (binding : VerifierDispatchBindingV1) (pdaBump : UInt8) (bindingDigest requestDigest uploadAuthority
    closeAuthority : Bytes32) : Bytes :=
  POOL_V1_AUTHORIZATION_RECEIPT_ACCOUNT_MAGIC ++ (u8Bytes POOL_V1_AUTHORIZATION_RECEIPT_ACCOUNT_VERSION ++
    (u8Bytes POOL_V1_AUTHORIZATION_RECEIPT_ACCOUNT_HASH_SHA256 ++
    (u8Bytes POOL_V1_AUTHORIZATION_RECEIPT_ACCOUNT_STATUS_PENDING ++ (u8Bytes pdaBump ++ (zeros 8 ++
    (binding.verifierProgram.bytes ++ (binding.proofAccount.bytes ++ (binding.statementDigest.bytes ++
    (bindingDigest.bytes ++ (requestDigest.bytes ++ (uploadAuthority.bytes ++ (closeAuthority.bytes ++
    (zeros 16 ++ zeros 432)))))))))))))

def encodePendingAfterAuthorityCheck (request : VerifierDispatchRequestV1) (pdaBump : UInt8)
    (proofUploadAuthority closeRefundAuthority : Bytes32) :
    Except PoolV1AuthorizationReceiptAccountErrorV1 Bytes := do
  require (proofUploadAuthority ≠ Bytes32.zero) .zeroProofUploadAuthority
  require (closeRefundAuthority ≠ Bytes32.zero) .zeroCloseRefundAuthority
  let bindingDigest ← poolV1AuthorizationReceiptBindingDigestV1 hashv request.binding
  let requestDigest ← poolV1AuthorizationReceiptRequestDigestV1 hashv request
  let body := pendingBody request.binding pdaBump bindingDigest requestDigest proofUploadAuthority closeRefundAuthority
  return body ++ (wrapperDigestV1 hashv body).bytes

def initializePoolV1AuthorizationReceiptAccountV1 (request : VerifierDispatchRequestV1)
    (observedProofAccount proofHeaderUploadAuthority : Bytes32) (signedUploadAuthority : Option Bytes32)
    (closeRefundAuthority : Bytes32) (pdaBump : UInt8) : Except PoolV1AuthorizationReceiptAccountErrorV1 Bytes := do
  require (observedProofAccount = request.binding.proofAccount) .proofAccountMismatch
  let signer ← okOr signedUploadAuthority .missingProofUploadAuthoritySignature
  require (signer = proofHeaderUploadAuthority) .proofUploadAuthorityMismatch
  encodePendingAfterAuthorityCheck hashv request pdaBump proofHeaderUploadAuthority closeRefundAuthority

def decodeStatus (value : UInt8) :
    Except PoolV1AuthorizationReceiptAccountErrorV1 PoolV1AuthorizationReceiptAccountStatusV1 :=
  if value = POOL_V1_AUTHORIZATION_RECEIPT_ACCOUNT_STATUS_PENDING then .ok .pending
  else if value = POOL_V1_AUTHORIZATION_RECEIPT_ACCOUNT_STATUS_VERIFIED then .ok .verified
  else .error .wrongStatus

/-- The receipt inside a verified account agrees with the fields around it. -/
def decodeNestedReceipt (bytes : Bytes) : Except PoolV1AuthorizationReceiptAccountErrorV1 PoolV1AuthorizationReceiptV1 := do
  let receipt ← mapErr .receipt (decodePoolV1AuthorizationReceiptV1 hashv (slice 256 432 bytes))
  require (receipt.pdaBump = byteAt 7 bytes) .receiptBumpMismatch
  require (receipt.verifiedSlot = readU64 8 bytes) .receiptSlotMismatch
  require (receipt.binding.verifierProgram = Bytes32.read 16 bytes) .verifierProgramMismatch
  require (receipt.binding.proofAccount = Bytes32.read 48 bytes) .proofAccountMismatch
  require (receipt.binding.statementDigest = Bytes32.read 80 bytes) .statementDigestMismatch
  let bindingDigest ← poolV1AuthorizationReceiptBindingDigestV1 hashv receipt.binding
  require (bindingDigest = Bytes32.read 112 bytes) .bindingDigestMismatch
  return receipt

/-- A pending account has no slot and an empty body; a verified one carries its receipt. -/
def decodeBody (status : PoolV1AuthorizationReceiptAccountStatusV1) (bytes : Bytes) :
    Except PoolV1AuthorizationReceiptAccountErrorV1 (Option PoolV1AuthorizationReceiptV1) :=
  match status with
  | .pending => do
    require (readU64 8 bytes = 0) .nonZeroPendingSlot
    require (allZero (slice 256 432 bytes) = true) .nonZeroPendingBody
    return none
  | .verified => do
    let receipt ← decodeNestedReceipt hashv bytes
    return some receipt

def decodePoolV1AuthorizationReceiptAccountV1 (bytes : Bytes) :
    Except PoolV1AuthorizationReceiptAccountErrorV1 PoolV1AuthorizationReceiptAccountV1 := do
  require (bytes.length = POOL_V1_AUTHORIZATION_RECEIPT_ACCOUNT_BYTES) .wrongLength
  require (slice 0 4 bytes = POOL_V1_AUTHORIZATION_RECEIPT_ACCOUNT_MAGIC) .wrongMagic
  require (byteAt 4 bytes = POOL_V1_AUTHORIZATION_RECEIPT_ACCOUNT_VERSION) .wrongVersion
  require (byteAt 5 bytes = POOL_V1_AUTHORIZATION_RECEIPT_ACCOUNT_HASH_SHA256) .wrongHashAlgorithm
  require (slice 240 16 bytes = zeros 16) .nonZeroReserved
  require (slice 688 32 bytes = (wrapperDigestV1 hashv (slice 0 688 bytes)).bytes) .wrapperDigestMismatch
  require (Bytes32.read 176 bytes ≠ Bytes32.zero) .zeroProofUploadAuthority
  require (Bytes32.read 208 bytes ≠ Bytes32.zero) .zeroCloseRefundAuthority
  let status ← decodeStatus (byteAt 6 bytes)
  let receipt ← decodeBody hashv status bytes
  return { status := status
           pdaBump := byteAt 7 bytes
           verifiedSlot := readU64 8 bytes
           verifierProgram := Bytes32.read 16 bytes
           proofAccount := Bytes32.read 48 bytes
           statementDigest := Bytes32.read 80 bytes
           bindingDigest := Bytes32.read 112 bytes
           requestDigest := Bytes32.read 144 bytes
           proofUploadAuthority := Bytes32.read 176 bytes
           closeRefundAuthority := Bytes32.read 208 bytes
           receipt := receipt }

def validatePoolV1AuthorizationReceiptAccountRequestV1 (account : PoolV1AuthorizationReceiptAccountV1)
    (request : VerifierDispatchRequestV1) : Except PoolV1AuthorizationReceiptAccountErrorV1 Unit := do
  require (account.verifierProgram = request.binding.verifierProgram) .verifierProgramMismatch
  require (account.proofAccount = request.binding.proofAccount) .proofAccountMismatch
  require (account.statementDigest = request.binding.statementDigest) .statementDigestMismatch
  let bindingDigest ← poolV1AuthorizationReceiptBindingDigestV1 hashv request.binding
  require (account.bindingDigest = bindingDigest) .bindingDigestMismatch
  let requestDigest ← poolV1AuthorizationReceiptRequestDigestV1 hashv request
  require (account.requestDigest = requestDigest) .requestDigestMismatch
  require (∀ receipt ∈ account.receipt, receipt.binding = request.binding) .receiptBindingMismatch

def validatePoolV1AuthorizationReceiptAccountPdaInputsV1 (account : PoolV1AuthorizationReceiptAccountV1)
    (expected : PoolV1AuthorizationReceiptPdaInputsV1) : Except PoolV1AuthorizationReceiptAccountErrorV1 Unit :=
  require (account.pdaInputs = expected) .pdaInputsMismatch

/-- The pending image with status, slot, receipt and digest replaced. -/
def finalizedImage (pendingBytes : Bytes) (verifiedSlot : UInt64) (encodedReceipt : Bytes) : Bytes :=
  let body := patch 256 encodedReceipt (patch 8 (u64Bytes verifiedSlot)
    (patch 6 (u8Bytes POOL_V1_AUTHORIZATION_RECEIPT_ACCOUNT_STATUS_VERIFIED) (slice 0 688 pendingBytes)))
  body ++ (wrapperDigestV1 hashv body).bytes

def finalizePoolV1AuthorizationReceiptAccountV1 (pendingBytes : Bytes) (request : VerifierDispatchRequestV1)
    (receipt : PoolV1AuthorizationReceiptV1) : Except PoolV1AuthorizationReceiptAccountErrorV1 Bytes := do
  let pending ← decodePoolV1AuthorizationReceiptAccountV1 hashv pendingBytes
  require (pending.status = .pending) .alreadyFinalized
  validatePoolV1AuthorizationReceiptAccountRequestV1 hashv pending request
  require (receipt.binding = request.binding) .receiptBindingMismatch
  require (receipt.pdaBump = pending.pdaBump) .receiptBumpMismatch
  let encodedReceipt ← mapErr .receipt (encodePoolV1AuthorizationReceiptV1 hashv receipt)
  let output := finalizedImage hashv pendingBytes receipt.verifiedSlot encodedReceipt
  let finalized ← decodePoolV1AuthorizationReceiptAccountV1 hashv output
  validatePoolV1AuthorizationReceiptAccountRequestV1 hashv finalized request
  return output

/-- Only the recorded authority may close, as signer and as destination. -/
def authorizeClosePoolV1AuthorizationReceiptAccountV1 (accountBytes : Bytes) (signedCloseAuthority : Option Bytes32)
    (refundDestination : Bytes32) : Except PoolV1AuthorizationReceiptAccountErrorV1 Unit := do
  let account ← decodePoolV1AuthorizationReceiptAccountV1 hashv accountBytes
  let signer ← okOr signedCloseAuthority .closeAuthorityMismatch
  require (signer = account.closeRefundAuthority) .closeAuthorityMismatch
  require (refundDestination = account.closeRefundAuthority) .refundDestinationMismatch

end

end Aspis.Verifier
