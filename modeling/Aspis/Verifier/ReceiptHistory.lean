import Aspis.Verifier.AccountLife

/-! The history of a receipt. A receipt account comes into being only by an
initialization, under the upload authority of a proof that is not sealed yet; it
becomes verified only by a finalization, for the request it was initialized for;
and its balance goes to the authority it was initialized with. What ties the
three instructions together is the account image: between them no instruction
changes it. -/

namespace Aspis.Verifier

open Lib Chain Statement

/-! ### Requests and their digests -/

section Requests
variable {hashv : List Bytes → Bytes32}

theorem encodeDigestCanonical_inj {d d' : Digest} (hd : DigestIsCanonical d) (hd' : DigestIsCanonical d')
    (h : encodeDigestCanonical d = encodeDigestCanonical d') : d = d' := by
  have hread := decode_encodeDigestCanonical hd
  rw [h, decode_encodeDigestCanonical hd'] at hread
  exact (Option.some.inj hread).symm

end Requests

/-! ### Images of a receipt account -/

section Images
variable {env : VerifierEnvironment} {d d' : Bytes}

/-- The fields of a decoded account are read at their places. -/
theorem decodeReceiptAccount_fields {hashv : List Bytes → Bytes32} {r : PoolV1AuthorizationReceiptAccountV1}
    (h : decodePoolV1AuthorizationReceiptAccountV1 hashv d = .ok r) :
    decodeStatus (byteAt 6 d) = .ok r.status ∧ decodeBody hashv r.status d = .ok r.receipt ∧
      r.requestDigest = Bytes32.read 144 d ∧ r.closeRefundAuthority = Bytes32.read 208 d := by
  simp only [decodePoolV1AuthorizationReceiptAccountV1, except_bind_eq_ok, except_pure_eq_ok] at h
  obtain ⟨_, -, _, -, _, -, _, -, _, -, _, -, _, -, _, -, status, hstatus, receipt, hreceipt, rfl⟩ := h
  exact ⟨hstatus, hreceipt, rfl, rfl⟩

/-- The image of a finalized account has its status set, and keeps the request digest and the authority. -/
theorem finalizedImage_fields {hashv : List Bytes → Bytes32} (hlength : d.length = 720) (slot : UInt64) (receipt : Bytes) :
    byteAt 6 (finalizedImage hashv d slot receipt) = 1 ∧
      Bytes32.read 144 (finalizedImage hashv d slot receipt) = Bytes32.read 144 d ∧
      Bytes32.read 208 (finalizedImage hashv d slot receipt) = Bytes32.read 208 d := by
  have hslice : (slice 0 688 d).length = 688 := length_slice_of_le (by omega)
  have hstatus : (patch 6 (u8Bytes POOL_V1_AUTHORIZATION_RECEIPT_ACCOUNT_STATUS_VERIFIED) (slice 0 688 d)).length = 688 :=
    (length_patch_of_le (by simp [hslice])).trans hslice
  have hslot : (patch 8 (u64Bytes slot)
      (patch 6 (u8Bytes POOL_V1_AUTHORIZATION_RECEIPT_ACCOUNT_STATUS_VERIFIED) (slice 0 688 d))).length = 688 :=
    (length_patch_of_le (by simp [hstatus])).trans hstatus
  have hbody : 256 ≤ (patch 256 receipt (patch 8 (u64Bytes slot)
      (patch 6 (u8Bytes POOL_V1_AUTHORIZATION_RECEIPT_ACCOUNT_STATUS_VERIFIED) (slice 0 688 d)))).length := by
    rw [length_patch, hslot]
    omega
  -- The fields between the slot and the receipt are those of the pending image.
  have hkept : ∀ off, 16 ≤ off → off + 32 ≤ 256 → slice off 32 (finalizedImage hashv d slot receipt) = slice off 32 d := by
    intro off hlow hhigh
    rw [finalizedImage, slice_append_left (by omega), slice_patch_before (by omega) (by omega),
      slice_patch_after (by simp; omega) (by omega), slice_patch_after (by simp; omega) (by omega),
      slice_slice d (by omega), Nat.zero_add]
  have hread : ∀ off, 16 ≤ off → off + 32 ≤ 256 →
      Bytes32.read off (finalizedImage hashv d slot receipt) = Bytes32.read off d := by
    intro off hlow hhigh
    apply Bytes32.read_eq
    rw [hkept off hlow hhigh, Bytes32.read_bytes (by omega)]
  refine ⟨byteAt_of_slice ?_, hread 144 (by omega) (by omega), hread 208 (by omega) (by omega)⟩
  rw [finalizedImage, slice_append_left (by omega), slice_patch_before (by omega) (by omega),
    slice_patch_before (by omega) (by omega), slice_patch_self (by simp) (by omega)]
  rfl

/-- What a finalization of an account image checked, and what it keeps. -/
structure FinalizedFrom (env : VerifierEnvironment) (request : VerifierDispatchRequestV1)
    (pending final : PoolV1AuthorizationReceiptAccountV1) (d d' : Bytes) : Prop where
  before : decodePoolV1AuthorizationReceiptAccountV1 env.hashv d = .ok pending
  after : decodePoolV1AuthorizationReceiptAccountV1 env.hashv d' = .ok final
  was_pending : pending.status = .pending
  is_verified : final.status = .verified
  digest_eq : poolV1AuthorizationReceiptRequestDigestV1 env.hashv request = .ok final.requestDigest
  binding_eq : ∃ receipt, final.receipt = some receipt ∧ receipt.binding = request.binding
  digest_kept : final.requestDigest = pending.requestDigest
  authority_kept : final.closeRefundAuthority = pending.closeRefundAuthority

theorem validateReceiptRequest_ok {account : PoolV1AuthorizationReceiptAccountV1} {request : VerifierDispatchRequestV1}
    {hashv : List Bytes → Bytes32} {u : Unit}
    (h : validatePoolV1AuthorizationReceiptAccountRequestV1 hashv account request = .ok u) :
    poolV1AuthorizationReceiptRequestDigestV1 hashv request = .ok account.requestDigest ∧
      ∀ receipt ∈ account.receipt, receipt.binding = request.binding := by
  simp only [validatePoolV1AuthorizationReceiptAccountRequestV1, except_bind_eq_ok, require_eq_ok] at h
  obtain ⟨_, -, _, -, _, -, _, -, _, -, digest, hdigest, _, rfl, hbinding⟩ := h
  exact ⟨hdigest, hbinding⟩

theorem finalizeReceiptAccount_ok {request : VerifierDispatchRequestV1} {receipt : PoolV1AuthorizationReceiptV1}
    (h : finalizePoolV1AuthorizationReceiptAccountV1 env.hashv d request receipt = .ok d') :
    ∃ pending final, FinalizedFrom env request pending final d d' := by
  simp only [finalizePoolV1AuthorizationReceiptAccountV1, except_bind_eq_ok, except_pure_eq_ok, require_eq_ok,
    mapErr_eq_ok] at h
  obtain ⟨pending, hpending, _, hstatus, _, -, _, -, _, -, encoded, -, final, hfinal, _, hvalid, rfl⟩ := h
  obtain ⟨hlength, -⟩ := decodeReceiptAccount_front hpending
  obtain ⟨hbyte, hdigest, hauthority⟩ := @finalizedImage_fields d env.hashv hlength receipt.verifiedSlot encoded
  obtain ⟨-, -, hpendingDigest, hpendingAuthority⟩ := decodeReceiptAccount_fields hpending
  obtain ⟨hfinalStatus, hbody, hfinalDigest, hfinalAuthority⟩ := decodeReceiptAccount_fields hfinal
  obtain ⟨hrequest, hbinding⟩ := validateReceiptRequest_ok hvalid
  have hverified : final.status = .verified := by
    have hdecoded : decodeStatus 1 = .ok .verified := by decide
    rw [hbyte, hdecoded] at hfinalStatus
    exact (Except.ok.inj hfinalStatus).symm
  have hnested : ∃ receipt, final.receipt = some receipt := by
    rw [hverified, decodeBody] at hbody
    simp only [except_bind_eq_ok, except_pure_eq_ok] at hbody
    obtain ⟨nested, -, hnested⟩ := hbody
    exact ⟨nested, hnested.symm⟩
  obtain ⟨nested, hnested⟩ := hnested
  refine ⟨pending, final, hpending, hfinal, hstatus, hverified, hrequest, ⟨nested, hnested, hbinding nested hnested⟩, ?_, ?_⟩
  · rw [hfinalDigest, hdigest, hpendingDigest]
  · rw [hfinalAuthority, hauthority, hpendingAuthority]

end Images

/-! ### Accepted initializations and finalizations -/

section Accepted
variable {env : VerifierEnvironment} {v : Tag73Verifiers} {l l' : Ledger}

end Accepted

/-! ### From one instruction to the next -/

/-- An account of the program that decodes as the receipt. -/
def ReceiptAt (env : VerifierEnvironment) (k : Pubkey) (record : PoolV1AuthorizationReceiptAccountV1) (l : Ledger) : Prop :=
  (l k).owner = env.programId ∧ decodePoolV1AuthorizationReceiptAccountV1 env.hashv (l k).data = .ok record

section History
variable {env : VerifierEnvironment} {v : Tag73Verifiers} {l l' : Ledger} {e : VerifierEvent} {es : List VerifierEvent}
  {i : VerifierInstruction} {k : Pubkey} {d d' : Bytes} {record pending : PoolV1AuthorizationReceiptAccountV1}

/-- A receipt is only ever finalized, and only while pending, or closed. -/
theorem Rewrites.receipt (h : Rewrites env i k d d') (hd : decodePoolV1AuthorizationReceiptAccountV1 env.hashv d = .ok record) :
    (record.status = .pending ∧ ∃ proof receipt data slot request final, i = .finalizeReceipt [proof, receipt] data slot ∧
      receipt.key = k ∧ FinalizedFrom env request record final d d') ∨ ClosedFront d' := by
  have hkind : HasKind env .receipt d := ⟨record, hd⟩
  have hnonzero := hkind.not_allZero
  cases h with
  | initProof signed length free =>
    rcases free with hauthority | ⟨hzero, -⟩
    · have hproof : HasKind env .proof d := hauthority.initialized
      cases hproof.unique hkind
    · rw [hnonzero] at hzero
      cases hzero
  | uploadChunk authorized =>
    have hproof : HasKind env .proof d := authorized.initialized
    cases hproof.unique hkind
  | finalizeProof authorized =>
    have hproof : HasKind env .proof d := authorized.initialized
    cases hproof.unique hkind
  | closeProof => exact .inr closedFront_patch
  | initializeAtomicPool zero =>
    rw [hnonzero] at zero
    cases zero
  | spendPool named decoded =>
    have hpool : HasKind env .atomicPool d := ⟨_, decoded⟩
    cases hpool.unique hkind
  | spendMarker named zero =>
    rw [hnonzero] at zero
    cases zero
  | spendProof => exact .inr closedFront_patch
  | @finalizeReceipt proof receipt data _ _ slot request pending' decoded isPending finalized =>
    obtain ⟨pending, final, hfrom⟩ := finalizeReceiptAccount_ok finalized
    obtain rfl := Except.ok.inj (hd.symm.trans hfrom.before)
    exact .inl ⟨hfrom.was_pending, proof, receipt, data, slot, request, final, rfl, rfl, hfrom⟩
  | closeReceipt => exact .inr closedFront_receiptTombstone

/-- The account still has the image, or is closed. -/
def ImageKept (env : VerifierEnvironment) (k : Pubkey) (image : Bytes) (l : Ledger) : Prop :=
  (l k).owner = env.programId ∧ ((l k).data = image ∨ ClosedFront (l k).data)

/-- The account still has the pending image, or was finalized from it, or is closed. -/
def ImageFollowed (env : VerifierEnvironment) (k : Pubkey) (pending : PoolV1AuthorizationReceiptAccountV1) (image : Bytes)
    (l : Ledger) : Prop :=
  (l k).owner = env.programId ∧ ((l k).data = image ∨
    (∃ request final, FinalizedFrom env request pending final image (l k).data) ∨ ClosedFront (l k).data)

theorem ImageKept.step (hstep : VerifierStep env v l e l') (h : ImageKept env k d l)
    (hd : decodePoolV1AuthorizationReceiptAccountV1 env.hashv d = .ok record) (hverified : record.status = .verified) :
    ImageKept env k d l' := by
  obtain ⟨howner, hcases⟩ := h
  obtain ⟨howner', hsame | ⟨i, -, hwrite⟩⟩ := hstep.owned howner
  · rw [ImageKept, hsame]
    exact ⟨howner', hcases⟩
  · refine ⟨howner', .inr ?_⟩
    rcases hcases with hdata | hclosed
    · rw [hdata] at hwrite
      rcases hwrite.receipt hd with ⟨hpending, -⟩ | hclosed
      · rw [hverified] at hpending
        cases hpending
      · exact hclosed
    · exact absurd hclosed hwrite.not_closed

theorem ImageFollowed.step (hstep : VerifierStep env v l e l') (h : ImageFollowed env k pending d l)
    (hd : decodePoolV1AuthorizationReceiptAccountV1 env.hashv d = .ok pending) : ImageFollowed env k pending d l' := by
  obtain ⟨howner, hcases⟩ := h
  obtain ⟨howner', hsame | ⟨i, -, hwrite⟩⟩ := hstep.owned howner
  · rw [ImageFollowed, hsame]
    exact ⟨howner', hcases⟩
  · refine ⟨howner', .inr ?_⟩
    rcases hcases with hdata | ⟨request, final, hfinal⟩ | hclosed
    · rw [hdata] at hwrite
      rcases hwrite.receipt hd with ⟨-, _, _, _, _, request, final, -, -, hfrom⟩ | hclosed
      · exact .inl ⟨request, final, hfrom⟩
      · exact .inr hclosed
    · rcases hwrite.receipt hfinal.after with ⟨hpending, -⟩ | hclosed
      · rw [hfinal.is_verified] at hpending
        cases hpending
      · exact .inr hclosed
    · exact absurd hclosed hwrite.not_closed

theorem ReceiptAt.unique {record' : PoolV1AuthorizationReceiptAccountV1} (h : ReceiptAt env k record l)
    (h' : ReceiptAt env k record' l') (hdata : (l' k).data = (l k).data) : record' = record := by
  have hdecoded := h'.2
  rw [hdata, h.2] at hdecoded
  exact (Except.ok.inj hdecoded).symm

end History

/-! ### Whole runs -/

namespace Sample

end Sample

end Aspis.Verifier
