import Aspis.Verifier.DispatchExact
import Aspis.Verifier.ReceiptFormat

/-! Receipts and receipt accounts are read exactly. The programs write a receipt
account in two steps, pending and then verified; its format is that of all the
values whose fields agree with each other, whichever step wrote them. -/

namespace Aspis.Verifier

open Lib Chain Statement

variable {hashv : List Bytes → Bytes32}

/-! ### The receipt -/

/-- The bytes of a receipt before its digest. -/
def receiptFront (pdaBump : UInt8) (verifiedSlot : UInt64) (result : Bytes) : Bytes :=
  POOL_V1_AUTHORIZATION_RECEIPT_MAGIC ++ (u8Bytes POOL_V1_AUTHORIZATION_RECEIPT_VERSION ++
    (u8Bytes POOL_V1_AUTHORIZATION_RECEIPT_HASH_SHA256 ++ (u8Bytes POOL_V1_AUTHORIZATION_RECEIPT_STATUS_VERIFIED ++
    (u8Bytes pdaBump ++ (u64Bytes verifiedSlot ++ result)))))

theorem length_receiptMagic : POOL_V1_AUTHORIZATION_RECEIPT_MAGIC.length = 4 := by
  simp [POOL_V1_AUTHORIZATION_RECEIPT_MAGIC]

theorem length_accountMagic : POOL_V1_AUTHORIZATION_RECEIPT_ACCOUNT_MAGIC.length = 4 := by
  simp [POOL_V1_AUTHORIZATION_RECEIPT_ACCOUNT_MAGIC]

theorem encodeReceiptV1_ok {receipt : PoolV1AuthorizationReceiptV1} {bytes : Bytes} :
    encodePoolV1AuthorizationReceiptV1 hashv receipt = .ok bytes ↔ ∃ result,
      encodeVerifierDispatchResultV1 receipt.binding = .ok result ∧
      receiptFront receipt.pdaBump receipt.verifiedSlot result ++
        (receiptDigestV1 hashv (receiptFront receipt.pdaBump receipt.verifiedSlot result)).bytes = bytes := by
  simp only [encodePoolV1AuthorizationReceiptV1, except_bind_eq_ok, mapErr_eq_ok, except_pure_eq_ok]
  exact Iff.rfl

theorem decode_encodeReceiptV1 {receipt : PoolV1AuthorizationReceiptV1} {bytes : Bytes}
    (h : encodePoolV1AuthorizationReceiptV1 hashv receipt = .ok bytes) :
    bytes.length = 432 ∧ decodePoolV1AuthorizationReceiptV1 hashv bytes = .ok receipt := by
  obtain ⟨result, hresult, rfl⟩ := encodeReceiptV1_ok.mp h
  obtain ⟨hlen, hdecode⟩ := decode_encodeVerifierDispatchResultV1 hresult
  have hfront : (receiptFront receipt.pdaBump receipt.verifiedSlot result).length = 400 := by
    simp [receiptFront, length_receiptMagic, hlen]
  have hread : ∀ off len, off + len ≤ 400 → ∀ digest : Bytes32,
      slice off len (receiptFront receipt.pdaBump receipt.verifiedSlot result ++ digest.bytes) =
        slice off len (receiptFront receipt.pdaBump receipt.verifiedSlot result) :=
    fun off len hle digest => slice_append_left (by omega)
  refine ⟨by simp [hfront], ?_⟩
  simp only [decodePoolV1AuthorizationReceiptV1, except_bind_eq_ok, require_eq_ok, mapErr_eq_ok, except_pure_eq_ok]
  refine ⟨(), by simp [hfront, POOL_V1_AUTHORIZATION_RECEIPT_BYTES], (), ?_, (), byteAt_of_slice ?_, (),
    byteAt_of_slice ?_, (), byteAt_of_slice ?_, (), ?_, receipt.binding, ?_, ?_⟩
  · rw [hread _ _ (by omega)]
    simp [receiptFront, slice_append_head, length_receiptMagic]
  · rw [hread _ _ (by omega)]
    simp [receiptFront, slice_append_right, slice_append_head, length_receiptMagic]
  · rw [hread _ _ (by omega)]
    simp [receiptFront, slice_append_right, slice_append_head, length_receiptMagic]
  · rw [hread _ _ (by omega)]
    simp [receiptFront, slice_append_right, slice_append_head, length_receiptMagic]
  · rw [slice_append_right (by omega), hfront, slice_all (by simp), hread _ _ (by omega), slice_all hfront]
  · rw [hread _ _ (by omega)]
    simpa [receiptFront, slice_append_right, slice_all, length_receiptMagic, hlen] using hdecode
  · have hbump : byteAt 7 (receiptFront receipt.pdaBump receipt.verifiedSlot result ++
        (receiptDigestV1 hashv (receiptFront receipt.pdaBump receipt.verifiedSlot result)).bytes) = receipt.pdaBump := by
      apply byteAt_of_slice
      rw [hread _ _ (by omega)]
      simp [receiptFront, slice_append_right, slice_append_head, length_receiptMagic]
    have hslot : readU64 8 (receiptFront receipt.pdaBump receipt.verifiedSlot result ++
        (receiptDigestV1 hashv (receiptFront receipt.pdaBump receipt.verifiedSlot result)).bytes) =
        receipt.verifiedSlot := by
      apply readU64_of_slice
      rw [hread _ _ (by omega)]
      simp [receiptFront, slice_append_right, slice_append_head, length_receiptMagic]
    rw [hbump, hslot]

theorem encode_decodeReceiptV1 {receipt : PoolV1AuthorizationReceiptV1} {bytes : Bytes}
    (h : decodePoolV1AuthorizationReceiptV1 hashv bytes = .ok receipt) :
    encodePoolV1AuthorizationReceiptV1 hashv receipt = .ok bytes := by
  simp only [decodePoolV1AuthorizationReceiptV1, except_bind_eq_ok, require_eq_ok, mapErr_eq_ok, except_pure_eq_ok] at h
  obtain ⟨-, hlen, -, hmagic, -, hversion, -, hhash, -, hstatus, -, hdigest, binding, hbinding, rfl⟩ := h
  simp only [POOL_V1_AUTHORIZATION_RECEIPT_BYTES] at hlen
  have hfront : receiptFront (byteAt 7 bytes) (readU64 8 bytes) (slice 16 384 bytes) = slice 0 400 bytes := by
    rw [receiptFront, ← hmagic, ← hversion, ← hhash, ← hstatus]
    simp (disch := omega) only [u8Bytes_byteAt, u64Bytes_readU64, slice_join]
  refine encodeReceiptV1_ok.mpr ⟨slice 16 384 bytes, (encode_decodeVerifierDispatchResultV1 hbinding).2, ?_⟩
  rw [hfront, ← hdigest, slice_join bytes (by rfl)]
  exact slice_all hlen

theorem receipt_exact : (Format.ofExcept (decodePoolV1AuthorizationReceiptV1 hashv)
    (encodePoolV1AuthorizationReceiptV1 hashv) fun _ => True).Exact :=
  Format.exact_ofExcept (fun _ _ _ h => (decode_encodeReceiptV1 h).2) fun _ _ h => ⟨trivial, encode_decodeReceiptV1 h⟩

/-! ### The account -/

def PoolV1AuthorizationReceiptAccountStatusV1.code : PoolV1AuthorizationReceiptAccountStatusV1 → UInt8
  | .pending => POOL_V1_AUTHORIZATION_RECEIPT_ACCOUNT_STATUS_PENDING
  | .verified => POOL_V1_AUTHORIZATION_RECEIPT_ACCOUNT_STATUS_VERIFIED

/-- The bytes of an account before its digest, in the order of their offsets. -/
def accountFront (a : PoolV1AuthorizationReceiptAccountV1) (body : Bytes) : Bytes :=
  POOL_V1_AUTHORIZATION_RECEIPT_ACCOUNT_MAGIC ++ (u8Bytes POOL_V1_AUTHORIZATION_RECEIPT_ACCOUNT_VERSION ++
    (u8Bytes POOL_V1_AUTHORIZATION_RECEIPT_ACCOUNT_HASH_SHA256 ++ (u8Bytes a.status.code ++ (u8Bytes a.pdaBump ++
    (u64Bytes a.verifiedSlot ++ (a.verifierProgram.bytes ++ (a.proofAccount.bytes ++ (a.statementDigest.bytes ++
    (a.bindingDigest.bytes ++ (a.requestDigest.bytes ++ (a.proofUploadAuthority.bytes ++
    (a.closeRefundAuthority.bytes ++ (zeros 16 ++ body)))))))))))))

/-- The receipt inside an account, or as many zero bytes. -/
def accountBody (hashv : List Bytes → Bytes32) :
    Option PoolV1AuthorizationReceiptV1 → Except PoolV1AuthorizationReceiptError Bytes
  | none => .ok (zeros 432)
  | some receipt => encodePoolV1AuthorizationReceiptV1 hashv receipt

/-- The layout of a receipt account. -/
def accountLayout (hashv : List Bytes → Bytes32) (a : PoolV1AuthorizationReceiptAccountV1) :
    Except PoolV1AuthorizationReceiptError Bytes := do
  let body ← accountBody hashv a.receipt
  return accountFront a body ++ (wrapperDigestV1 hashv (accountFront a body)).bytes

/-- The receipt of an account repeats its fields. -/
structure ReceiptAgrees (hashv : List Bytes → Bytes32) (a : PoolV1AuthorizationReceiptAccountV1)
    (receipt : PoolV1AuthorizationReceiptV1) : Prop where
  bump : receipt.pdaBump = a.pdaBump
  slot : receipt.verifiedSlot = a.verifiedSlot
  program : receipt.binding.verifierProgram = a.verifierProgram
  proof : receipt.binding.proofAccount = a.proofAccount
  statement : receipt.binding.statementDigest = a.statementDigest
  binding : poolV1AuthorizationReceiptBindingDigestV1 hashv receipt.binding = .ok a.bindingDigest

/-- Both authorities are named; a pending account has no slot and no receipt, a
verified one a receipt that agrees with it. -/
structure AccountInvariant (hashv : List Bytes → Bytes32) (a : PoolV1AuthorizationReceiptAccountV1) : Prop where
  upload : a.proofUploadAuthority ≠ Bytes32.zero
  close : a.closeRefundAuthority ≠ Bytes32.zero
  pending : a.status = .pending → a.verifiedSlot = 0 ∧ a.receipt = none
  verified : a.status = .verified → ∃ receipt, a.receipt = some receipt ∧ ReceiptAgrees hashv a receipt

theorem decodeStatus_eq_ok {value : UInt8} {status : PoolV1AuthorizationReceiptAccountStatusV1} :
    decodeStatus value = .ok status ↔ value = status.code := by
  unfold decodeStatus
  split_ifs with hpending hverified
  · cases status
    · simp [PoolV1AuthorizationReceiptAccountStatusV1.code, hpending]
    · simp [PoolV1AuthorizationReceiptAccountStatusV1.code, hpending,
        POOL_V1_AUTHORIZATION_RECEIPT_ACCOUNT_STATUS_PENDING, POOL_V1_AUTHORIZATION_RECEIPT_ACCOUNT_STATUS_VERIFIED]
  · cases status
    · simp [PoolV1AuthorizationReceiptAccountStatusV1.code, hpending]
    · simp [PoolV1AuthorizationReceiptAccountStatusV1.code, hverified]
  · cases status
    · simp [PoolV1AuthorizationReceiptAccountStatusV1.code, hpending]
    · simp [PoolV1AuthorizationReceiptAccountStatusV1.code, hverified]

theorem length_accountFront {a : PoolV1AuthorizationReceiptAccountV1} {body : Bytes} (hbody : body.length = 432) :
    (accountFront a body).length = 688 := by
  simp [accountFront, length_accountMagic, hbody]

theorem length_accountBody {receipt : Option PoolV1AuthorizationReceiptV1} {body : Bytes}
    (h : accountBody hashv receipt = .ok body) : body.length = 432 := by
  cases receipt with
  | none =>
    obtain rfl := Except.ok.inj h
    exact length_zeros 432
  | some receipt => exact (decode_encodeReceiptV1 h).1

/-- The body of a laid-out account reads back as its receipt. -/
theorem decodeBody_layout {a : PoolV1AuthorizationReceiptAccountV1} {body bytes : Bytes} (hinv : AccountInvariant hashv a)
    (hbody : accountBody hashv a.receipt = .ok body) (hslice : slice 256 432 bytes = body)
    (hbump : byteAt 7 bytes = a.pdaBump) (hslot : readU64 8 bytes = a.verifiedSlot)
    (hprogram : Bytes32.read 16 bytes = a.verifierProgram) (hproof : Bytes32.read 48 bytes = a.proofAccount)
    (hstatement : Bytes32.read 80 bytes = a.statementDigest) (hbinding : Bytes32.read 112 bytes = a.bindingDigest) :
    decodeBody hashv a.status bytes = .ok a.receipt := by
  cases hstatus : a.status with
  | pending =>
    obtain ⟨hzero, hnone⟩ := hinv.pending hstatus
    rw [hnone] at hbody ⊢
    obtain rfl := Except.ok.inj hbody
    simp only [decodeBody, except_bind_eq_ok, require_eq_ok, except_pure_eq_ok, hslot, hzero, hslice]
    exact ⟨(), trivial, (), allZero_zeros 432, trivial⟩
  | verified =>
    obtain ⟨receipt, hsome, hagrees⟩ := hinv.verified hstatus
    rw [hsome] at hbody ⊢
    simp only [decodeBody, decodeNestedReceipt, except_bind_eq_ok, require_eq_ok, mapErr_eq_ok, except_pure_eq_ok, hslice,
      hbump, hslot, hprogram, hproof, hstatement, hbinding]
    exact ⟨receipt, ⟨receipt, (decode_encodeReceiptV1 hbody).2, (), hagrees.bump, (), hagrees.slot, (), hagrees.program, (),
      hagrees.proof, (), hagrees.statement, _, hagrees.binding, (), rfl, rfl⟩, rfl⟩

theorem decode_accountLayout {a : PoolV1AuthorizationReceiptAccountV1} {bytes : Bytes} (hinv : AccountInvariant hashv a)
    (h : accountLayout hashv a = .ok bytes) : decodePoolV1AuthorizationReceiptAccountV1 hashv bytes = .ok a := by
  simp only [accountLayout, except_bind_eq_ok, except_pure_eq_ok] at h
  obtain ⟨body, hbody, himage⟩ := h
  have hlenBody := length_accountBody hbody
  have hfront := length_accountFront (a := a) hlenBody
  have hread : ∀ off len, off + len ≤ 688 → slice off len bytes = slice off len (accountFront a body) := by
    intro off len hle
    rw [← himage, slice_append_left (by omega)]
  have hlen : bytes.length = 720 := by
    rw [← himage, List.length_append, hfront, Bytes32.length_eq]
  have hmagic : slice 0 4 bytes = POOL_V1_AUTHORIZATION_RECEIPT_ACCOUNT_MAGIC := by
    rw [hread _ _ (by omega)]
    simp [accountFront, slice_append_head, length_accountMagic]
  have hversion : byteAt 4 bytes = POOL_V1_AUTHORIZATION_RECEIPT_ACCOUNT_VERSION := byteAt_of_slice (by
    rw [hread _ _ (by omega)]
    simp [accountFront, slice_append_right, slice_append_head, length_accountMagic])
  have hhash : byteAt 5 bytes = POOL_V1_AUTHORIZATION_RECEIPT_ACCOUNT_HASH_SHA256 := byteAt_of_slice (by
    rw [hread _ _ (by omega)]
    simp [accountFront, slice_append_right, slice_append_head, length_accountMagic])
  have hstatus : byteAt 6 bytes = a.status.code := byteAt_of_slice (by
    rw [hread _ _ (by omega)]
    simp [accountFront, slice_append_right, slice_append_head, length_accountMagic])
  have hbump : byteAt 7 bytes = a.pdaBump := byteAt_of_slice (by
    rw [hread _ _ (by omega)]
    simp [accountFront, slice_append_right, slice_append_head, length_accountMagic])
  have hslot : readU64 8 bytes = a.verifiedSlot := readU64_of_slice (by
    rw [hread _ _ (by omega)]
    simp [accountFront, slice_append_right, slice_append_head, length_accountMagic])
  have hprogram : Bytes32.read 16 bytes = a.verifierProgram := Bytes32.read_eq (by
    rw [hread _ _ (by omega)]
    simp [accountFront, slice_append_right, slice_append_head, length_accountMagic])
  have hproof : Bytes32.read 48 bytes = a.proofAccount := Bytes32.read_eq (by
    rw [hread _ _ (by omega)]
    simp [accountFront, slice_append_right, slice_append_head, length_accountMagic])
  have hstatement : Bytes32.read 80 bytes = a.statementDigest := Bytes32.read_eq (by
    rw [hread _ _ (by omega)]
    simp [accountFront, slice_append_right, slice_append_head, length_accountMagic])
  have hbinding : Bytes32.read 112 bytes = a.bindingDigest := Bytes32.read_eq (by
    rw [hread _ _ (by omega)]
    simp [accountFront, slice_append_right, slice_append_head, length_accountMagic])
  have hrequest : Bytes32.read 144 bytes = a.requestDigest := Bytes32.read_eq (by
    rw [hread _ _ (by omega)]
    simp [accountFront, slice_append_right, slice_append_head, length_accountMagic])
  have hupload : Bytes32.read 176 bytes = a.proofUploadAuthority := Bytes32.read_eq (by
    rw [hread _ _ (by omega)]
    simp [accountFront, slice_append_right, slice_append_head, length_accountMagic])
  have hclose : Bytes32.read 208 bytes = a.closeRefundAuthority := Bytes32.read_eq (by
    rw [hread _ _ (by omega)]
    simp [accountFront, slice_append_right, slice_append_head, length_accountMagic])
  have hreserved : slice 240 16 bytes = zeros 16 := by
    rw [hread _ _ (by omega)]
    simp [accountFront, slice_append_right, slice_append_head, length_accountMagic]
  have hinner : slice 256 432 bytes = body := by
    rw [hread _ _ (by omega)]
    simp [accountFront, slice_append_right, slice_all, length_accountMagic, hlenBody]
  have hdigest : slice 688 32 bytes = (wrapperDigestV1 hashv (slice 0 688 bytes)).bytes := by
    rw [hread 0 688 (by omega), slice_all hfront, ← himage, slice_append_right (by omega), hfront, slice_all (by simp)]
  simp only [decodePoolV1AuthorizationReceiptAccountV1, except_bind_eq_ok, require_eq_ok, except_pure_eq_ok,
    decodeStatus_eq_ok, hmagic, hversion, hhash, hstatus, hbump, hslot, hprogram, hproof, hstatement, hbinding, hrequest,
    hupload, hclose, hreserved, hdigest]
  exact ⟨(), hlen, (), trivial, (), trivial, (), trivial, (), trivial, (), trivial, (), hinv.upload, (), hinv.close,
    a.status, rfl, a.receipt,
    decodeBody_layout hinv hbody hinner hbump hslot hprogram hproof hstatement hbinding, rfl⟩

/-- What the body of an accepted account says about the account. -/
theorem accountBody_of_decode {a : PoolV1AuthorizationReceiptAccountV1} {bytes : Bytes} (hlen : bytes.length = 720)
    (hbump : a.pdaBump = byteAt 7 bytes) (hslot : a.verifiedSlot = readU64 8 bytes)
    (hprogram : a.verifierProgram = Bytes32.read 16 bytes) (hproof : a.proofAccount = Bytes32.read 48 bytes)
    (hstatement : a.statementDigest = Bytes32.read 80 bytes) (hbinding : a.bindingDigest = Bytes32.read 112 bytes)
    (h : decodeBody hashv a.status bytes = .ok a.receipt) :
    accountBody hashv a.receipt = .ok (slice 256 432 bytes) ∧
      (a.status = .pending → a.verifiedSlot = 0 ∧ a.receipt = none) ∧
      (a.status = .verified → ∃ receipt, a.receipt = some receipt ∧ ReceiptAgrees hashv a receipt) := by
  cases hstatus : a.status with
  | pending =>
    rw [hstatus] at h
    simp only [decodeBody, except_bind_eq_ok, require_eq_ok, except_pure_eq_ok] at h
    obtain ⟨-, hzero, -, hzeros, hnone⟩ := h
    have hbody : zeros 432 = slice 256 432 bytes := by
      rw [eq_zeros_of_allZero hzeros, length_slice_of_le (by omega)]
    rw [← hnone, accountBody, hbody]
    exact ⟨rfl, fun _ => ⟨hslot.trans hzero, rfl⟩, fun hne => by cases hne⟩
  | verified =>
    rw [hstatus] at h
    simp only [decodeBody, decodeNestedReceipt, except_bind_eq_ok, require_eq_ok, mapErr_eq_ok, except_pure_eq_ok] at h
    obtain ⟨_, ⟨receipt, hreceipt, -, hb, -, hs, -, hp, -, hpr, -, hst, digest, hdigest, -, hbd, rfl⟩, hsome⟩ := h
    rw [← hsome]
    refine ⟨encode_decodeReceiptV1 hreceipt, (fun hne => by cases hne), fun _ => ⟨receipt, rfl, ?_⟩⟩
    refine ⟨hb.trans hbump.symm, hs.trans hslot.symm, hp.trans hprogram.symm, hpr.trans hproof.symm,
      hst.trans hstatement.symm, ?_⟩
    rw [hdigest, hbd, hbinding]

theorem accountLayout_of_decode {a : PoolV1AuthorizationReceiptAccountV1} {bytes : Bytes}
    (h : decodePoolV1AuthorizationReceiptAccountV1 hashv bytes = .ok a) :
    AccountInvariant hashv a ∧ accountLayout hashv a = .ok bytes := by
  simp only [decodePoolV1AuthorizationReceiptAccountV1, except_bind_eq_ok, require_eq_ok, except_pure_eq_ok,
    decodeStatus_eq_ok] at h
  obtain ⟨-, hlen, -, hmagic, -, hversion, -, hhash, -, hreserved, -, hdigest, -, hupload, -, hclose, status, hstatus,
    receipt, hbody, ha⟩ := h
  simp only [POOL_V1_AUTHORIZATION_RECEIPT_ACCOUNT_BYTES] at hlen
  obtain ⟨hencoded, hpending, hverified⟩ : accountBody hashv a.receipt = .ok (slice 256 432 bytes) ∧
      (a.status = .pending → a.verifiedSlot = 0 ∧ a.receipt = none) ∧
      (a.status = .verified → ∃ receipt, a.receipt = some receipt ∧ ReceiptAgrees hashv a receipt) := by
    rw [← ha]
    exact accountBody_of_decode hlen rfl rfl rfl rfl rfl rfl hbody
  obtain rfl := ha
  refine ⟨⟨hupload, hclose, hpending, hverified⟩, ?_⟩
  simp only [accountLayout, except_bind_eq_ok, except_pure_eq_ok]
  refine ⟨slice 256 432 bytes, hencoded, ?_⟩
  have hfront : accountFront ⟨status, byteAt 7 bytes, readU64 8 bytes, Bytes32.read 16 bytes, Bytes32.read 48 bytes,
      Bytes32.read 80 bytes, Bytes32.read 112 bytes, Bytes32.read 144 bytes, Bytes32.read 176 bytes,
      Bytes32.read 208 bytes, receipt⟩ (slice 256 432 bytes) = slice 0 688 bytes := by
    rw [accountFront, ← hmagic, ← hversion, ← hhash, ← hstatus, ← hreserved]
    simp (disch := omega) only [u8Bytes_byteAt, u64Bytes_readU64, Bytes32.read_bytes, slice_join]
  rw [hfront, ← hdigest, slice_join bytes (by rfl)]
  exact slice_all hlen

theorem account_exact : (Format.ofExcept (decodePoolV1AuthorizationReceiptAccountV1 hashv) (accountLayout hashv)
    (AccountInvariant hashv)).Exact :=
  Format.exact_ofExcept (fun _ _ => decode_accountLayout) fun _ _ => accountLayout_of_decode

/-! ### What the programs write -/

/-- A pending account is written in this layout. -/
theorem initialized_accepted {request : VerifierDispatchRequestV1} {proof upload close : Bytes32}
    {signer : Option Bytes32} {bump : UInt8} {bytes : Bytes}
    (h : initializePoolV1AuthorizationReceiptAccountV1 hashv request proof upload signer close bump = .ok bytes) :
    ∃ a, AccountInvariant hashv a ∧ accountLayout hashv a = .ok bytes := by
  simp only [initializePoolV1AuthorizationReceiptAccountV1, encodePendingAfterAuthorityCheck, except_bind_eq_ok,
    require_eq_ok, okOr_eq_ok, except_pure_eq_ok] at h
  obtain ⟨-, -, _, -, -, -, -, hupload, -, hclose, bindingDigest, -, requestDigest, -, rfl⟩ := h
  refine ⟨⟨.pending, bump, 0, request.binding.verifierProgram, request.binding.proofAccount,
    request.binding.statementDigest, bindingDigest, requestDigest, upload, close, none⟩,
    ⟨hupload, hclose, fun _ => ⟨rfl, rfl⟩, fun hne => by cases hne⟩, ?_⟩
  have hfront : accountFront ⟨.pending, bump, 0, request.binding.verifierProgram, request.binding.proofAccount,
      request.binding.statementDigest, bindingDigest, requestDigest, upload, close, none⟩ (zeros 432) =
      pendingBody request.binding bump bindingDigest requestDigest upload close := by
    have hzero : u64Bytes 0 = zeros 8 := by decide
    simp only [accountFront, pendingBody, PoolV1AuthorizationReceiptAccountStatusV1.code, hzero]
  simp only [accountLayout, accountBody, except_bind_eq_ok, except_pure_eq_ok]
  exact ⟨_, rfl, by rw [hfront]⟩

/-- A finalized account is written in this layout: it was decoded again before it was returned. -/
theorem finalized_accepted {request : VerifierDispatchRequestV1} {receipt : PoolV1AuthorizationReceiptV1}
    {before bytes : Bytes} (h : finalizePoolV1AuthorizationReceiptAccountV1 hashv before request receipt = .ok bytes) :
    ∃ a, AccountInvariant hashv a ∧ accountLayout hashv a = .ok bytes := by
  simp only [finalizePoolV1AuthorizationReceiptAccountV1, except_bind_eq_ok, except_pure_eq_ok] at h
  obtain ⟨_, -, _, -, _, -, _, -, _, -, encoded, -, finalized, hdecode, _, -, rfl⟩ := h
  exact ⟨finalized, accountLayout_of_decode hdecode⟩

end Aspis.Verifier
