import Aspis.Lib.Format
import Aspis.Verifier.Dispatch

/-! Verification requests and results are read exactly: the binding prefix of 384
bytes is determined by the binding, and the payload by its length and digest. -/

namespace Aspis.Verifier

open Lib Chain Statement

theorem decodeTransitionKind_eq_ok {value : UInt8} {kind : Pool.PoolV1TransitionKind} :
    decodeTransitionKind value = .ok kind ↔ value = kind.code := by
  unfold decodeTransitionKind
  split_ifs with hone htwo
  · cases kind <;> simp [Pool.PoolV1TransitionKind.code, hone]
  · cases kind <;> simp [Pool.PoolV1TransitionKind.code, htwo]
  · cases kind <;> simp [Pool.PoolV1TransitionKind.code, hone, htwo]

section Binding
variable {magic : Bytes} {code : UInt32} {b : VerifierDispatchBindingV1}

/-- The fields of a valid binding are read back from its image. -/
theorem decodeBindingFields_image {u : Unit} (hmagic : magic.length = 4)
    (h : validateVerifierDispatchBindingV1 b = .ok u) :
    decodeBindingFields (bindingImage magic code b) = .ok b ∧ slice 0 4 (bindingImage magic code b) = magic ∧
      readU32 8 (bindingImage magic code b) = code := by
  obtain ⟨hroot, hnullifier⟩ := validateBinding_canonical h
  have hversion : b.statementVersion = POOL_V1_HISTORICAL_ANCHOR_VERSION := by
    simp only [validateVerifierDispatchBindingV1, except_bind_eq_ok, require_eq_ok] at h
    obtain ⟨_, hversion, -⟩ := h
    exact hversion
  have hbyte4 : byteAt 4 (bindingImage magic code b) = POOL_V1_VERIFIER_DISPATCH_VERSION := byteAt_of_slice (by
    simp [bindingImage, slice_append_right, slice_append_head, hmagic])
  have hbyte5 : byteAt 5 (bindingImage magic code b) = b.statementVersion := byteAt_of_slice (by
    simp [bindingImage, slice_append_right, slice_append_head, hmagic])
  have hbyte6 : byteAt 6 (bindingImage magic code b) = b.transitionKind.code := byteAt_of_slice (by
    simp [bindingImage, slice_append_right, slice_append_head, hmagic])
  have hbyte7 : byteAt 7 (bindingImage magic code b) = POOL_V1_VERIFIER_DISPATCH_HASH_SHA256 := byteAt_of_slice (by
    simp [bindingImage, slice_append_right, slice_append_head, hmagic])
  have hcode : readU32 8 (bindingImage magic code b) = code := readU32_of_slice (by
    simp [bindingImage, slice_append_right, slice_append_head, hmagic])
  have hbyte12 : byteAt 12 (bindingImage magic code b) = POOL_V1_VERIFIER_STATEMENT_DIGEST_VERSION :=
    byteAt_of_slice (by simp [bindingImage, slice_append_right, slice_append_head, hmagic])
  have hreserved : slice 13 3 (bindingImage magic code b) = zeros 3 := by
    simp [bindingImage, slice_append_right, slice_append_head, hmagic]
  have hprogram : Bytes32.read 16 (bindingImage magic code b) = b.verifierProgram := Bytes32.read_eq (by
    simp [bindingImage, slice_append_right, slice_append_head, hmagic])
  have hprofile : Bytes32.read 48 (bindingImage magic code b) = b.profileBinding := Bytes32.read_eq (by
    simp [bindingImage, slice_append_right, slice_append_head, hmagic])
  have hrelease : Bytes32.read 80 (bindingImage magic code b) = b.releaseBinding := Bytes32.read_eq (by
    simp [bindingImage, slice_append_right, slice_append_head, hmagic])
  have hpool : Bytes32.read 112 (bindingImage magic code b) = b.pool := Bytes32.read_eq (by
    simp [bindingImage, slice_append_right, slice_append_head, hmagic])
  have hdomain : Bytes32.read 144 (bindingImage magic code b) = b.deploymentDomain := Bytes32.read_eq (by
    simp [bindingImage, slice_append_right, slice_append_head, hmagic])
  have hsequence : readU64 176 (bindingImage magic code b) = b.anchorSequence := readU64_of_slice (by
    simp [bindingImage, slice_append_right, slice_append_head, hmagic])
  have hanchor : slice 184 32 (bindingImage magic code b) = encodeDigestCanonical b.anchorRoot := by
    simp [bindingImage, slice_append_right, slice_append_head, hmagic]
  have hnull : slice 216 32 (bindingImage magic code b) = encodeDigestCanonical b.nullifier := by
    simp [bindingImage, slice_append_right, slice_append_head, hmagic]
  have hstatement : Bytes32.read 248 (bindingImage magic code b) = b.statementDigest := Bytes32.read_eq (by
    simp [bindingImage, slice_append_right, slice_append_head, hmagic])
  have henvelope : Bytes32.read 280 (bindingImage magic code b) = b.envelopeDigest := Bytes32.read_eq (by
    simp [bindingImage, slice_append_right, slice_append_head, hmagic])
  have hproof : Bytes32.read 312 (bindingImage magic code b) = b.proofAccount := Bytes32.read_eq (by
    simp [bindingImage, slice_append_right, slice_append_head, hmagic])
  have hbody : Bytes32.read 344 (bindingImage magic code b) = b.proofBodyDigest := Bytes32.read_eq (by
    simp [bindingImage, slice_append_right, slice_append_head, hmagic])
  have hlength : readU32 376 (bindingImage magic code b) = b.proofBodyLength := readU32_of_slice (by
    simp [bindingImage, slice_append_right, slice_append_head, hmagic])
  have hpayload : readU32 380 (bindingImage magic code b) = b.statementPayloadLength := readU32_of_slice (by
    simp [bindingImage, slice_append_right, slice_all, hmagic])
  refine ⟨?_, ?_, hcode⟩
  · simp only [decodeBindingFields, except_bind_eq_ok, require_eq_ok, okOr_eq_ok, except_pure_eq_ok,
      decodeTransitionKind_eq_ok, hbyte4, hbyte5, hbyte6, hbyte7, hbyte12, hreserved, hprogram, hprofile, hrelease, hpool,
      hdomain, hsequence, hanchor, hnull, hstatement, henvelope, hproof, hbody, hlength, hpayload,
      decode_encodeDigestCanonical hroot, decode_encodeDigestCanonical hnullifier]
    exact ⟨(), trivial, (), hversion, b.transitionKind, rfl, (), trivial, (), trivial, (), trivial, _, rfl, _, rfl, (), h,
      rfl⟩
  · simp [bindingImage, slice_append_head, hmagic]

/-- Accepted prefix bytes are the image of the binding that is returned. -/
theorem bindingImage_of_decode {bytes : Bytes} (hlen : bytes.length = 384) (hmagic : slice 0 4 bytes = magic)
    (hcode : readU32 8 bytes = code) (h : decodeBindingFields bytes = .ok b) :
    bindingImage magic code b = bytes ∧ validateVerifierDispatchBindingV1 b = .ok () := by
  simp only [decodeBindingFields, except_bind_eq_ok, require_eq_ok, okOr_eq_ok, except_pure_eq_ok,
    decodeTransitionKind_eq_ok] at h
  obtain ⟨-, hversion, -, -, kind, hkind, -, hhash, -, hdigest, -, hreserved, root, hroot, nullifier, hnullifier, _,
    hvalid, rfl⟩ := h
  refine ⟨?_, hvalid⟩
  rw [bindingImage, encodeDigestCanonical_slice (by omega) hroot, encodeDigestCanonical_slice (by omega) hnullifier,
    ← hmagic, ← hversion, ← hkind, ← hhash, ← hdigest, ← hreserved, ← hcode]
  simp (disch := omega) only [u8Bytes_byteAt, u32Bytes_readU32, u64Bytes_readU64, Bytes32.read_bytes, slice_join]
  exact slice_all hlen

end Binding

/-! ### Requests -/

section
variable {hashv : List Bytes → Bytes32}

theorem length_requestMagic : POOL_V1_VERIFIER_DISPATCH_REQUEST_MAGIC.length = 4 := by
  simp [POOL_V1_VERIFIER_DISPATCH_REQUEST_MAGIC]

theorem length_resultMagic : POOL_V1_VERIFIER_DISPATCH_RESULT_MAGIC.length = 4 := by
  simp [POOL_V1_VERIFIER_DISPATCH_RESULT_MAGIC]

theorem decode_encodeVerifierDispatchRequestV1 {request : VerifierDispatchRequestV1} {bytes : Bytes}
    (h : encodeVerifierDispatchRequestV1 hashv request = .ok bytes) :
    decodeVerifierDispatchRequestV1 hashv bytes = .ok request := by
  simp only [encodeVerifierDispatchRequestV1, except_bind_eq_ok, require_eq_ok, except_pure_eq_ok] at h
  obtain ⟨_, hvalid, _, hpayload, -, hlength, rfl⟩ := h
  obtain ⟨hfields, hmagic, hcode⟩ := @decodeBindingFields_image _ POOL_V1_VERIFIER_DISPATCH_VERIFY_CODE _ _
    length_requestMagic hvalid
  have hprefix := @length_bindingImage _ POOL_V1_VERIFIER_DISPATCH_VERIFY_CODE length_requestMagic request.binding
  have htake : (requestImage request).take POOL_V1_VERIFIER_DISPATCH_BINDING_PREFIX_BYTES =
      bindingImage POOL_V1_VERIFIER_DISPATCH_REQUEST_MAGIC POOL_V1_VERIFIER_DISPATCH_VERIFY_CODE request.binding :=
    List.take_left' hprefix
  have hdrop : (requestImage request).drop POOL_V1_VERIFIER_DISPATCH_BINDING_PREFIX_BYTES = request.statementPayload :=
    List.drop_left' hprefix
  have hhead : slice 0 4 (requestImage request) = POOL_V1_VERIFIER_DISPATCH_REQUEST_MAGIC := by
    rw [requestImage, slice_append_left (by omega), hmagic]
  have hverify : readU32 8 (requestImage request) = POOL_V1_VERIFIER_DISPATCH_VERIFY_CODE := by
    rw [readU32, requestImage, slice_append_left (by omega)]
    exact hcode
  simp only [decodeVerifierDispatchRequestV1, except_bind_eq_ok, require_eq_ok, except_pure_eq_ok, htake, hdrop]
  refine ⟨(), ⟨?_, ?_⟩, (), hhead, (), hverify, request.binding, hfields, (), hpayload, rfl⟩
  · rw [requestImage, List.length_append, hprefix]
    exact Nat.le_add_right _ _
  · rw [requestImage, List.length_append, hprefix]
    exact hlength

theorem encode_decodeVerifierDispatchRequestV1 {request : VerifierDispatchRequestV1} {bytes : Bytes}
    (h : decodeVerifierDispatchRequestV1 hashv bytes = .ok request) :
    encodeVerifierDispatchRequestV1 hashv request = .ok bytes := by
  simp only [decodeVerifierDispatchRequestV1, except_bind_eq_ok, require_eq_ok, except_pure_eq_ok] at h
  obtain ⟨-, ⟨hmin, hmax⟩, -, hmagic, -, hcode, binding, hfields, _, hpayload, rfl⟩ := h
  simp only [POOL_V1_VERIFIER_DISPATCH_BINDING_PREFIX_BYTES] at hmin hfields hpayload ⊢
  have hmagicTake : slice 0 4 (bytes.take 384) = POOL_V1_VERIFIER_DISPATCH_REQUEST_MAGIC := by
    rw [← hmagic]
    exact @slice_slice 0 384 _ _ bytes (by omega)
  have hcodeTake : readU32 8 (bytes.take 384) = POOL_V1_VERIFIER_DISPATCH_VERIFY_CODE := by
    rw [← hcode, readU32, readU32]
    exact congrArg (fun d => UInt32.ofNat (leNat d)) (@slice_slice 0 384 _ _ bytes (by omega))
  obtain ⟨himage, hvalid⟩ := bindingImage_of_decode (by rw [List.length_take]; omega) hmagicTake hcodeTake hfields
  simp only [encodeVerifierDispatchRequestV1, except_bind_eq_ok, require_eq_ok, except_pure_eq_ok]
  refine ⟨(), hvalid, (), hpayload, (), ?_, ?_⟩
  · simp only [POOL_V1_VERIFIER_DISPATCH_BINDING_PREFIX_BYTES, List.length_drop]
    omega
  · rw [requestImage, himage, List.take_append_drop]

theorem request_exact : (Format.ofExcept (decodeVerifierDispatchRequestV1 hashv) (encodeVerifierDispatchRequestV1 hashv)
    fun _ => True).Exact :=
  Format.exact_ofExcept (fun _ _ _ => decode_encodeVerifierDispatchRequestV1)
    fun _ _ h => ⟨trivial, encode_decodeVerifierDispatchRequestV1 h⟩

end

/-! ### Results -/

theorem decode_encodeVerifierDispatchResultV1 {binding : VerifierDispatchBindingV1} {bytes : Bytes}
    (h : encodeVerifierDispatchResultV1 binding = .ok bytes) :
    bytes.length = 384 ∧ decodeVerifierDispatchResultV1 bytes = .ok binding := by
  simp only [encodeVerifierDispatchResultV1, except_bind_eq_ok, except_pure_eq_ok] at h
  obtain ⟨_, hvalid, rfl⟩ := h
  obtain ⟨hfields, hmagic, hcode⟩ := @decodeBindingFields_image _ POOL_V1_VERIFIER_DISPATCH_SUCCESS_CODE _ _
    length_resultMagic hvalid
  have hlength := @length_bindingImage _ POOL_V1_VERIFIER_DISPATCH_SUCCESS_CODE length_resultMagic binding
  refine ⟨hlength, ?_⟩
  simp only [decodeVerifierDispatchResultV1, except_bind_eq_ok, require_eq_ok]
  exact ⟨(), hlength, (), hmagic, (), hcode, hfields⟩

theorem encode_decodeVerifierDispatchResultV1 {binding : VerifierDispatchBindingV1} {bytes : Bytes}
    (h : decodeVerifierDispatchResultV1 bytes = .ok binding) :
    readU32 8 bytes = POOL_V1_VERIFIER_DISPATCH_SUCCESS_CODE ∧ encodeVerifierDispatchResultV1 binding = .ok bytes := by
  simp only [decodeVerifierDispatchResultV1, except_bind_eq_ok, require_eq_ok] at h
  obtain ⟨-, hlen, -, hmagic, -, hcode, hfields⟩ := h
  obtain ⟨himage, hvalid⟩ := bindingImage_of_decode hlen hmagic hcode hfields
  refine ⟨hcode, ?_⟩
  simp only [encodeVerifierDispatchResultV1, except_bind_eq_ok, except_pure_eq_ok]
  exact ⟨(), hvalid, himage⟩

structure VerifierDispatchResultV1 where
  successCode : UInt32
  binding : VerifierDispatchBindingV1
  deriving DecidableEq

namespace VerifierDispatchResultV1

def encode (r : VerifierDispatchResultV1) : Except PoolV1VerifierDispatchFormatError Bytes := do
  require (r.successCode = POOL_V1_VERIFIER_DISPATCH_SUCCESS_CODE) .wrongSuccessCode
  encodeVerifierDispatchResultV1 r.binding

def decode (bytes : Bytes) : Except PoolV1VerifierDispatchFormatError VerifierDispatchResultV1 := do
  let binding ← decodeVerifierDispatchResultV1 bytes
  return ⟨readU32 8 bytes, binding⟩

theorem exact : (Format.ofExcept decode encode fun _ => True).Exact := by
  apply Format.exact_ofExcept
  · intro bytes r _ h
    simp only [encode, except_bind_eq_ok, require_eq_ok] at h
    obtain ⟨-, hcode, h⟩ := h
    obtain ⟨-, hdecode⟩ := decode_encodeVerifierDispatchResultV1 h
    have hread := (encode_decodeVerifierDispatchResultV1 hdecode).1
    simp only [decode, except_bind_eq_ok, except_pure_eq_ok, hread, ← hcode]
    exact ⟨r.binding, hdecode, rfl⟩
  · intro bytes r h
    simp only [decode, except_bind_eq_ok, except_pure_eq_ok] at h
    obtain ⟨binding, hdecode, rfl⟩ := h
    obtain ⟨hcode, hencode⟩ := encode_decodeVerifierDispatchResultV1 hdecode
    simp only [encode, except_bind_eq_ok, require_eq_ok]
    exact ⟨trivial, (), hcode, hencode⟩

end VerifierDispatchResultV1

end Aspis.Verifier
