import Aspis.Forest.PairState
import Aspis.Verifier.PaymentStatements

/-! The terminal messages of the pair forest: the compact request, the complete
statement that is rebuilt from it, and the result the verifier returns. A payment
statement, a late public statement and an afterstate stand inside at fixed
offsets, so the messages are read exactly because their parts are. -/

namespace Aspis.Forest

open Lib Chain Statement Pool Verifier

def POOL_V1_PAIR_FOREST_TERMINAL_STATEMENT_MAGIC : Bytes := [65, 83, 70, 56]

def POOL_V1_PAIR_FOREST_TERMINAL_RESULT_MAGIC : Bytes := [65, 83, 82, 56]

def POOL_V1_PAIR_FOREST_TERMINAL_REQUEST_MAGIC : Bytes := [65, 83, 81, 56]

def POOL_V1_PAIR_FOREST_TERMINAL_VERSION : UInt8 := 1

def POOL_V1_PAIR_FOREST_TERMINAL_STATEMENT_BYTES : ℕ := 1880

def POOL_V1_PAIR_FOREST_TERMINAL_RESULT_BYTES : ℕ := 792

def POOL_V1_PAIR_FOREST_TERMINAL_REQUEST_BYTES : ℕ := 320

theorem length_terminalStatementMagic : POOL_V1_PAIR_FOREST_TERMINAL_STATEMENT_MAGIC.length = 4 := by
  simp [POOL_V1_PAIR_FOREST_TERMINAL_STATEMENT_MAGIC]

theorem length_terminalResultMagic : POOL_V1_PAIR_FOREST_TERMINAL_RESULT_MAGIC.length = 4 := by
  simp [POOL_V1_PAIR_FOREST_TERMINAL_RESULT_MAGIC]

theorem length_terminalRequestMagic : POOL_V1_PAIR_FOREST_TERMINAL_REQUEST_MAGIC.length = 4 := by
  simp [POOL_V1_PAIR_FOREST_TERMINAL_REQUEST_MAGIC]

inductive PoolV1PairForestTerminalFormatErrorV1
  | wrongLength
  | wrongMagic
  | wrongVersion
  | wrongDigestEncoding
  | invalidTransitionKind
  | invalidOutputLane
  | nonZeroBinding
  | nonCanonicalDigest
  | outputLaneMismatch
  | masterBindingMismatch
  | deploymentBindingMismatch
  | historicalAnchorMismatch
  | checkpointBindingMismatch
  | resultBindingMismatch
  | payment (e : PoolV1PaymentStatementFormatError)
  | laneTransition (e : PoolV1PairLatePublicStatementErrorV1)
  | afterstate (e : PoolV1PairVerifierTransportErrorV1)
  | account (e : PoolV1PairForestAccountErrorV1)
  deriving DecidableEq, Repr

inductive PoolV1PairForestTerminalPaymentV1
  | privateTransfer (publicInput : PoolV1PrivateTransferPublicV1)
  | withdrawal (publicInput : PoolV1WithdrawalPublicV1)
  deriving DecidableEq

structure PoolV1PairForestTerminalRequestV1 where
  verifierProfile : Bytes32
  verifierRelease : Bytes32
  poolProgram : Bytes32
  publicInput : PoolV1PairForestTerminalPaymentV1
  deriving DecidableEq

structure PoolV1PairForestTerminalCommonV1 where
  masterAccount : Bytes32
  checkpointAccount : Bytes32
  selectedLaneAccount : Bytes32
  outputLane : UInt8
  checkpointSequence : UInt64
  historicalGlobalAnchor : Digest
  laneTransition : PoolV1PairLatePublicStatementV1
  deriving DecidableEq

inductive PoolV1PairForestTerminalStatementV1
  | privateTransfer (common : PoolV1PairForestTerminalCommonV1) (publicInput : PoolV1PrivateTransferPublicV1)
  | withdrawal (common : PoolV1PairForestTerminalCommonV1) (publicInput : PoolV1WithdrawalPublicV1)
  deriving DecidableEq

structure PoolV1PairForestTerminalResultV1 where
  transitionKind : PoolV1TransitionKind
  masterAccount : Bytes32
  selectedLaneAccount : Bytes32
  outputLane : UInt8
  nullifier : Digest
  verifiedAfterstate : PoolV1PairVerifiedAfterstateV1
  deriving DecidableEq

/-! ### Kinds, lanes and payments -/

def transitionKind (byte : UInt8) : Except PoolV1PairForestTerminalFormatErrorV1 PoolV1TransitionKind :=
  if byte = 1 then .ok .privateTransfer
  else if byte = 2 then .ok .withdrawal
  else .error .invalidTransitionKind

theorem transitionKind_eq_ok {byte : UInt8} {kind : PoolV1TransitionKind} :
    transitionKind byte = .ok kind ↔ byte = kind.code := by
  unfold transitionKind
  split_ifs with hone htwo
  · cases kind <;> simp [PoolV1TransitionKind.code, hone]
  · cases kind <;> simp [PoolV1TransitionKind.code, htwo]
  · cases kind <;> simp [PoolV1TransitionKind.code, hone, htwo]

/-- The lane of both outputs of a private spend. -/
def poolV1PairForestOutputLaneV1 (nullifier : Digest) : Except PoolV1PairForestAccountErrorV1 UInt8 := do
  require (DigestIsCanonical nullifier) .nonCanonicalDigest
  return byteAt 0 (encodeDigestCanonical nullifier) &&& 7

namespace PoolV1PairForestTerminalPaymentV1

def transitionKind : PoolV1PairForestTerminalPaymentV1 → PoolV1TransitionKind
  | privateTransfer _ => .privateTransfer
  | withdrawal _ => .withdrawal

def common : PoolV1PairForestTerminalPaymentV1 → CommonPublicV1
  | privateTransfer publicInput => publicInput.toCommonPublicV1
  | withdrawal publicInput => publicInput.toCommonPublicV1

def encode : PoolV1PairForestTerminalPaymentV1 → Except PoolV1PaymentStatementFormatError Bytes
  | privateTransfer publicInput => encodePoolV1PrivateTransferPublicV1 publicInput
  | withdrawal publicInput => encodePoolV1WithdrawalPublicV1 publicInput

def decode (kind : PoolV1TransitionKind) (bytes : Bytes) :
    Except PoolV1PaymentStatementFormatError PoolV1PairForestTerminalPaymentV1 :=
  match kind with
  | .privateTransfer => do
    let publicInput ← decodePoolV1PrivateTransferPublicV1 bytes
    return privateTransfer publicInput
  | .withdrawal => do
    let publicInput ← decodePoolV1WithdrawalPublicV1 bytes
    return withdrawal publicInput

theorem decode_encode {p : PoolV1PairForestTerminalPaymentV1} {bytes : Bytes} (h : p.encode = .ok bytes) :
    bytes.length = 216 ∧ decode p.transitionKind bytes = .ok p := by
  cases p with
  | privateTransfer publicInput =>
    obtain ⟨hlen, hdecode⟩ := decode_encodeTransfer h
    simp only [decode, transitionKind, except_bind_eq_ok, except_pure_eq_ok]
    exact ⟨hlen, publicInput, hdecode, rfl⟩
  | withdrawal publicInput =>
    obtain ⟨hlen, hdecode⟩ := decode_encodeWithdrawal h
    simp only [decode, transitionKind, except_bind_eq_ok, except_pure_eq_ok]
    exact ⟨hlen, publicInput, hdecode, rfl⟩

theorem encode_decode {kind : PoolV1TransitionKind} {p : PoolV1PairForestTerminalPaymentV1} {bytes : Bytes}
    (h : decode kind bytes = .ok p) : p.transitionKind = kind ∧ p.encode = .ok bytes := by
  cases kind with
  | privateTransfer =>
    simp only [decode, except_bind_eq_ok, except_pure_eq_ok] at h
    obtain ⟨publicInput, hdecode, rfl⟩ := h
    exact ⟨rfl, encode_decodeTransfer hdecode⟩
  | withdrawal =>
    simp only [decode, except_bind_eq_ok, except_pure_eq_ok] at h
    obtain ⟨publicInput, hdecode, rfl⟩ := h
    exact ⟨rfl, encode_decodeWithdrawal hdecode⟩

end PoolV1PairForestTerminalPaymentV1

/-! ### Requests -/

def requestHead (r : PoolV1PairForestTerminalRequestV1) : Bytes :=
  POOL_V1_PAIR_FOREST_TERMINAL_REQUEST_MAGIC ++ (u8Bytes POOL_V1_PAIR_FOREST_TERMINAL_VERSION ++
    (u8Bytes r.publicInput.transitionKind.code ++ (u8Bytes POOL_V1_DIGEST_ENCODING_VERSION ++ (u8Bytes 0 ++
    (r.verifierProfile.bytes ++ (r.verifierRelease.bytes ++ r.poolProgram.bytes))))))

def encodePoolV1PairForestTerminalRequestV1 (r : PoolV1PairForestTerminalRequestV1) :
    Except PoolV1PairForestTerminalFormatErrorV1 Bytes := do
  require (r.verifierProfile ≠ Bytes32.zero ∧ r.verifierRelease ≠ Bytes32.zero ∧ r.poolProgram ≠ Bytes32.zero)
    .nonZeroBinding
  let payment ← mapErr .payment r.publicInput.encode
  return requestHead r ++ payment

def decodePoolV1PairForestTerminalRequestV1 (bytes : Bytes) :
    Except PoolV1PairForestTerminalFormatErrorV1 PoolV1PairForestTerminalRequestV1 := do
  require (bytes.length = POOL_V1_PAIR_FOREST_TERMINAL_REQUEST_BYTES) .wrongLength
  require (slice 0 4 bytes = POOL_V1_PAIR_FOREST_TERMINAL_REQUEST_MAGIC) .wrongMagic
  require (byteAt 4 bytes = POOL_V1_PAIR_FOREST_TERMINAL_VERSION) .wrongVersion
  let kind ← transitionKind (byteAt 5 bytes)
  require (byteAt 6 bytes = POOL_V1_DIGEST_ENCODING_VERSION) .wrongDigestEncoding
  require (byteAt 7 bytes = 0) .nonZeroBinding
  let publicInput ← mapErr .payment (PoolV1PairForestTerminalPaymentV1.decode kind (slice 104 216 bytes))
  let request : PoolV1PairForestTerminalRequestV1 := ⟨Bytes32.read 8 bytes, Bytes32.read 40 bytes,
    Bytes32.read 72 bytes, publicInput⟩
  require (request.verifierProfile ≠ Bytes32.zero ∧ request.verifierRelease ≠ Bytes32.zero ∧
    request.poolProgram ≠ Bytes32.zero) .nonZeroBinding
  return request

theorem length_requestHead (r : PoolV1PairForestTerminalRequestV1) : (requestHead r).length = 104 := by
  simp [requestHead, length_terminalRequestMagic]

theorem decode_encodeTerminalRequest {r : PoolV1PairForestTerminalRequestV1} {bytes : Bytes}
    (h : encodePoolV1PairForestTerminalRequestV1 r = .ok bytes) :
    decodePoolV1PairForestTerminalRequestV1 bytes = .ok r := by
  simp only [encodePoolV1PairForestTerminalRequestV1, except_bind_eq_ok, require_eq_ok, mapErr_eq_ok,
    except_pure_eq_ok] at h
  obtain ⟨-, hbound, payment, hpayment, rfl⟩ := h
  obtain ⟨hlength, hdecode⟩ := PoolV1PairForestTerminalPaymentV1.decode_encode hpayment
  have hlen : (requestHead r ++ payment).length = 320 := by
    rw [List.length_append, length_requestHead, hlength]
  have hmagic : slice 0 4 (requestHead r ++ payment) = POOL_V1_PAIR_FOREST_TERMINAL_REQUEST_MAGIC := by
    simp [requestHead, slice_append_head, length_terminalRequestMagic]
  have hbyte4 : byteAt 4 (requestHead r ++ payment) = POOL_V1_PAIR_FOREST_TERMINAL_VERSION := byteAt_of_slice (by
    simp [requestHead, slice_append_right, slice_append_head, length_terminalRequestMagic])
  have hbyte5 : byteAt 5 (requestHead r ++ payment) = r.publicInput.transitionKind.code := byteAt_of_slice (by
    simp [requestHead, slice_append_right, slice_append_head, length_terminalRequestMagic])
  have hbyte6 : byteAt 6 (requestHead r ++ payment) = POOL_V1_DIGEST_ENCODING_VERSION := byteAt_of_slice (by
    simp [requestHead, slice_append_right, slice_append_head, length_terminalRequestMagic])
  have hbyte7 : byteAt 7 (requestHead r ++ payment) = 0 := byteAt_of_slice (by
    simp [requestHead, slice_append_right, slice_append_head, length_terminalRequestMagic])
  have hprofile : Bytes32.read 8 (requestHead r ++ payment) = r.verifierProfile := Bytes32.read_eq (by
    simp [requestHead, slice_append_right, slice_append_head, length_terminalRequestMagic])
  have hrelease : Bytes32.read 40 (requestHead r ++ payment) = r.verifierRelease := Bytes32.read_eq (by
    simp [requestHead, slice_append_right, slice_append_head, length_terminalRequestMagic])
  have hprogram : Bytes32.read 72 (requestHead r ++ payment) = r.poolProgram := Bytes32.read_eq (by
    simp [requestHead, slice_append_right, slice_append_head, length_terminalRequestMagic])
  have htail : slice 104 216 (requestHead r ++ payment) = payment := by
    simp [slice_append_right, slice_all, length_requestHead, hlength]
  simp only [decodePoolV1PairForestTerminalRequestV1, except_bind_eq_ok, require_eq_ok, mapErr_eq_ok, except_pure_eq_ok,
    transitionKind_eq_ok, hprofile, hrelease, hprogram, htail]
  exact ⟨(), hlen, (), hmagic, (), hbyte4, _, hbyte5, (), hbyte6, (), hbyte7, _, hdecode, (), hbound, rfl⟩

theorem encode_decodeTerminalRequest {r : PoolV1PairForestTerminalRequestV1} {bytes : Bytes}
    (h : decodePoolV1PairForestTerminalRequestV1 bytes = .ok r) :
    encodePoolV1PairForestTerminalRequestV1 r = .ok bytes := by
  simp only [decodePoolV1PairForestTerminalRequestV1, except_bind_eq_ok, require_eq_ok, mapErr_eq_ok, except_pure_eq_ok,
    transitionKind_eq_ok] at h
  obtain ⟨-, hlen, -, hmagic, -, hversion, kind, hkind, -, hencoding, -, hzero, publicInput, hpublic, -, hbound, rfl⟩ := h
  simp only [POOL_V1_PAIR_FOREST_TERMINAL_REQUEST_BYTES] at hlen
  obtain ⟨hsame, hpayment⟩ := PoolV1PairForestTerminalPaymentV1.encode_decode hpublic
  simp only [encodePoolV1PairForestTerminalRequestV1, except_bind_eq_ok, require_eq_ok, mapErr_eq_ok, except_pure_eq_ok]
  refine ⟨(), hbound, _, hpayment, ?_⟩
  rw [requestHead, hsame, ← hmagic, ← hversion, ← hkind, ← hencoding, ← hzero]
  simp (disch := omega) only [u8Bytes_byteAt, Bytes32.read_bytes, slice_join]
  exact slice_all hlen

/-! ### Statements -/

namespace PoolV1PairForestTerminalStatementV1

def common : PoolV1PairForestTerminalStatementV1 → PoolV1PairForestTerminalCommonV1
  | privateTransfer common _ => common
  | withdrawal common _ => common

def payment : PoolV1PairForestTerminalStatementV1 → PoolV1PairForestTerminalPaymentV1
  | privateTransfer _ publicInput => .privateTransfer publicInput
  | withdrawal _ publicInput => .withdrawal publicInput

def transitionKind : PoolV1PairForestTerminalStatementV1 → PoolV1TransitionKind
  | privateTransfer _ _ => .privateTransfer
  | withdrawal _ _ => .withdrawal

/-- The statement about a payment. -/
def ofPayment (common : PoolV1PairForestTerminalCommonV1) :
    PoolV1PairForestTerminalPaymentV1 → PoolV1PairForestTerminalStatementV1
  | .privateTransfer publicInput => privateTransfer common publicInput
  | .withdrawal publicInput => withdrawal common publicInput

@[simp] theorem common_ofPayment (c : PoolV1PairForestTerminalCommonV1) (p : PoolV1PairForestTerminalPaymentV1) :
    (ofPayment c p).common = c := by
  cases p <;> rfl

@[simp] theorem payment_ofPayment (c : PoolV1PairForestTerminalCommonV1) (p : PoolV1PairForestTerminalPaymentV1) :
    (ofPayment c p).payment = p := by
  cases p <;> rfl

theorem transitionKind_payment (s : PoolV1PairForestTerminalStatementV1) :
    s.payment.transitionKind = s.transitionKind := by
  cases s <;> rfl

theorem ofPayment_payment (s : PoolV1PairForestTerminalStatementV1) : ofPayment s.common s.payment = s := by
  cases s <;> rfl

end PoolV1PairForestTerminalStatementV1

open PoolV1PairForestTerminalStatementV1 (ofPayment)

def validatePoolV1PairForestTerminalStatementV1 (s : PoolV1PairForestTerminalStatementV1) :
    Except PoolV1PairForestTerminalFormatErrorV1 Unit := do
  require (s.common.masterAccount ≠ Bytes32.zero ∧ s.common.checkpointAccount ≠ Bytes32.zero ∧
    s.common.selectedLaneAccount ≠ Bytes32.zero) .nonZeroBinding
  require (s.common.outputLane.toNat < POOL_V1_PAIR_FOREST_LANE_COUNT) .invalidOutputLane
  let _ ← mapErr .payment s.payment.encode
  require (s.payment.common.pool = s.common.masterAccount) .masterBindingMismatch
  require (s.payment.common.deploymentDomain = s.common.laneTransition.liveSnapshot.deploymentDomain)
    .deploymentBindingMismatch
  require (s.common.laneTransition.liveSnapshot.pool = s.common.masterAccount) .masterBindingMismatch
  require (s.payment.common.anchorSequence = s.common.checkpointSequence) .checkpointBindingMismatch
  require (s.payment.common.anchorRoot = s.common.historicalGlobalAnchor) .historicalAnchorMismatch
  let expectedLane ← mapErr .account (poolV1PairForestOutputLaneV1 s.payment.common.nullifier)
  require (expectedLane = s.common.outputLane) .outputLaneMismatch
  let _ ← mapErr .laneTransition (encodePoolV1PairLatePublicStatementV1 s.common.laneTransition)

def statementHead (s : PoolV1PairForestTerminalStatementV1) : Bytes :=
  POOL_V1_PAIR_FOREST_TERMINAL_STATEMENT_MAGIC ++ (u8Bytes POOL_V1_PAIR_FOREST_TERMINAL_VERSION ++
    (u8Bytes s.transitionKind.code ++ (u8Bytes POOL_V1_DIGEST_ENCODING_VERSION ++ (u8Bytes s.common.outputLane ++
    (s.common.masterAccount.bytes ++ (s.common.checkpointAccount.bytes ++ (s.common.selectedLaneAccount.bytes ++
    (u64Bytes s.common.checkpointSequence ++ encodeDigestCanonical s.common.historicalGlobalAnchor))))))))

def encodePoolV1PairForestTerminalStatementV1 (s : PoolV1PairForestTerminalStatementV1) :
    Except PoolV1PairForestTerminalFormatErrorV1 Bytes := do
  validatePoolV1PairForestTerminalStatementV1 s
  let late ← mapErr .laneTransition (encodePoolV1PairLatePublicStatementV1 s.common.laneTransition)
  let payment ← mapErr .payment s.payment.encode
  return statementHead s ++ (late ++ payment)

def decodeTerminalCommon (bytes : Bytes) :
    Except PoolV1PairForestTerminalFormatErrorV1 PoolV1PairForestTerminalCommonV1 := do
  let anchor ← okOr (decodeDigestCanonical (slice 112 32 bytes)) .nonCanonicalDigest
  let late ← mapErr .laneTransition (decodePoolV1PairLatePublicStatementV1 (slice 144 1520 bytes))
  return ⟨Bytes32.read 8 bytes, Bytes32.read 40 bytes, Bytes32.read 72 bytes, byteAt 7 bytes, readU64 104 bytes, anchor,
    late⟩

def decodePoolV1PairForestTerminalStatementV1 (bytes : Bytes) :
    Except PoolV1PairForestTerminalFormatErrorV1 PoolV1PairForestTerminalStatementV1 := do
  require (bytes.length = POOL_V1_PAIR_FOREST_TERMINAL_STATEMENT_BYTES) .wrongLength
  require (slice 0 4 bytes = POOL_V1_PAIR_FOREST_TERMINAL_STATEMENT_MAGIC) .wrongMagic
  require (byteAt 4 bytes = POOL_V1_PAIR_FOREST_TERMINAL_VERSION) .wrongVersion
  let kind ← transitionKind (byteAt 5 bytes)
  require (byteAt 6 bytes = POOL_V1_DIGEST_ENCODING_VERSION) .wrongDigestEncoding
  let common ← decodeTerminalCommon bytes
  let publicInput ← mapErr .payment (PoolV1PairForestTerminalPaymentV1.decode kind (slice 1664 216 bytes))
  validatePoolV1PairForestTerminalStatementV1 (ofPayment common publicInput)
  return ofPayment common publicInput

theorem length_statementHead (s : PoolV1PairForestTerminalStatementV1) : (statementHead s).length = 144 := by
  simp [statementHead, length_terminalStatementMagic]

/-- The anchor of a valid statement is the canonical anchor of its payment. -/
theorem validateTerminalStatement_anchor {s : PoolV1PairForestTerminalStatementV1} {u : Unit}
    (h : validatePoolV1PairForestTerminalStatementV1 s = .ok u) : DigestIsCanonical s.common.historicalGlobalAnchor := by
  simp only [validatePoolV1PairForestTerminalStatementV1, except_bind_eq_ok, require_eq_ok, mapErr_eq_ok] at h
  obtain ⟨-, -, -, -, payment, hpayment, -, -, -, -, -, -, -, -, -, hanchor, -⟩ := h
  rw [← hanchor]
  cases s with
  | privateTransfer common publicInput =>
    simp only [PoolV1PairForestTerminalStatementV1.payment, PoolV1PairForestTerminalPaymentV1.encode,
      encodePoolV1PrivateTransferPublicV1, validatePoolV1PrivateTransferPublicV1, except_bind_eq_ok] at hpayment
    obtain ⟨_, ⟨_, hcommon, -⟩, -⟩ := hpayment
    exact (validateCommon_ok.mp hcommon).2.2.1.1
  | withdrawal common publicInput =>
    simp only [PoolV1PairForestTerminalStatementV1.payment, PoolV1PairForestTerminalPaymentV1.encode,
      encodePoolV1WithdrawalPublicV1, validatePoolV1WithdrawalPublicV1, except_bind_eq_ok] at hpayment
    obtain ⟨_, ⟨_, hcommon, -⟩, -⟩ := hpayment
    exact (validateCommon_ok.mp hcommon).2.2.1.1

theorem decode_encodeTerminalStatement {s : PoolV1PairForestTerminalStatementV1} {bytes : Bytes}
    (h : encodePoolV1PairForestTerminalStatementV1 s = .ok bytes) :
    decodePoolV1PairForestTerminalStatementV1 bytes = .ok s := by
  simp only [encodePoolV1PairForestTerminalStatementV1, except_bind_eq_ok, mapErr_eq_ok, except_pure_eq_ok] at h
  obtain ⟨_, hvalid, late, hlate, payment, hpayment, rfl⟩ := h
  have hanchor := validateTerminalStatement_anchor hvalid
  obtain ⟨hlateLength, hlateDecode⟩ := decode_encodeLate hlate
  obtain ⟨hpaymentLength, hpaymentDecode⟩ := PoolV1PairForestTerminalPaymentV1.decode_encode hpayment
  rw [PoolV1PairForestTerminalStatementV1.transitionKind_payment] at hpaymentDecode
  have hlen : (statementHead s ++ (late ++ payment)).length = 1880 := by
    simp only [List.length_append, length_statementHead, hlateLength, hpaymentLength]
  have hmagic : slice 0 4 (statementHead s ++ (late ++ payment)) = POOL_V1_PAIR_FOREST_TERMINAL_STATEMENT_MAGIC := by
    simp [statementHead, slice_append_head, length_terminalStatementMagic]
  have hbyte4 : byteAt 4 (statementHead s ++ (late ++ payment)) = POOL_V1_PAIR_FOREST_TERMINAL_VERSION :=
    byteAt_of_slice (by simp [statementHead, slice_append_right, slice_append_head, length_terminalStatementMagic])
  have hbyte5 : byteAt 5 (statementHead s ++ (late ++ payment)) = s.transitionKind.code :=
    byteAt_of_slice (by simp [statementHead, slice_append_right, slice_append_head, length_terminalStatementMagic])
  have hbyte6 : byteAt 6 (statementHead s ++ (late ++ payment)) = POOL_V1_DIGEST_ENCODING_VERSION :=
    byteAt_of_slice (by simp [statementHead, slice_append_right, slice_append_head, length_terminalStatementMagic])
  have hlane : byteAt 7 (statementHead s ++ (late ++ payment)) = s.common.outputLane :=
    byteAt_of_slice (by simp [statementHead, slice_append_right, slice_append_head, length_terminalStatementMagic])
  have hmaster : Bytes32.read 8 (statementHead s ++ (late ++ payment)) = s.common.masterAccount :=
    Bytes32.read_eq (by simp [statementHead, slice_append_right, slice_append_head, length_terminalStatementMagic])
  have hcheckpoint : Bytes32.read 40 (statementHead s ++ (late ++ payment)) = s.common.checkpointAccount :=
    Bytes32.read_eq (by simp [statementHead, slice_append_right, slice_append_head, length_terminalStatementMagic])
  have haccount : Bytes32.read 72 (statementHead s ++ (late ++ payment)) = s.common.selectedLaneAccount :=
    Bytes32.read_eq (by simp [statementHead, slice_append_right, slice_append_head, length_terminalStatementMagic])
  have hsequence : readU64 104 (statementHead s ++ (late ++ payment)) = s.common.checkpointSequence :=
    readU64_of_slice (by simp [statementHead, slice_append_right, slice_append_head, length_terminalStatementMagic])
  have hroot : slice 112 32 (statementHead s ++ (late ++ payment)) =
      encodeDigestCanonical s.common.historicalGlobalAnchor := by
    simp [statementHead, slice_append_right, slice_append_head, length_terminalStatementMagic]
  have hmiddle : slice 144 1520 (statementHead s ++ (late ++ payment)) = late := by
    simp [slice_append_right, slice_append_head, length_statementHead, hlateLength]
  have htail : slice 1664 216 (statementHead s ++ (late ++ payment)) = payment := by
    simp [slice_append_right, slice_all, length_statementHead, hlateLength, hpaymentLength]
  have hcommon : decodeTerminalCommon (statementHead s ++ (late ++ payment)) = .ok s.common := by
    simp only [decodeTerminalCommon, except_bind_eq_ok, okOr_eq_ok, mapErr_eq_ok, except_pure_eq_ok, hlane, hmaster,
      hcheckpoint, haccount, hsequence, hroot, hmiddle, decode_encodeDigestCanonical hanchor]
    exact ⟨_, rfl, _, hlateDecode, rfl⟩
  simp only [decodePoolV1PairForestTerminalStatementV1, except_bind_eq_ok, require_eq_ok, mapErr_eq_ok,
    except_pure_eq_ok, transitionKind_eq_ok, htail]
  refine ⟨(), hlen, (), hmagic, (), hbyte4, _, hbyte5, (), hbyte6, _, hcommon, _, hpaymentDecode, (), ?_, ?_⟩
  · rw [PoolV1PairForestTerminalStatementV1.ofPayment_payment]
    exact hvalid
  · exact PoolV1PairForestTerminalStatementV1.ofPayment_payment s

theorem encode_decodeTerminalStatement {s : PoolV1PairForestTerminalStatementV1} {bytes : Bytes}
    (h : decodePoolV1PairForestTerminalStatementV1 bytes = .ok s) :
    encodePoolV1PairForestTerminalStatementV1 s = .ok bytes := by
  simp only [decodePoolV1PairForestTerminalStatementV1, decodeTerminalCommon, except_bind_eq_ok, require_eq_ok,
    okOr_eq_ok, mapErr_eq_ok, except_pure_eq_ok, transitionKind_eq_ok] at h
  obtain ⟨-, hlen, -, hmagic, -, hversion, kind, hkind, -, hencoding, common, ⟨anchor, hanchor, late, hlate, hcommon⟩,
    publicInput, hpublic, _, hvalid, rfl⟩ := h
  simp only [POOL_V1_PAIR_FOREST_TERMINAL_STATEMENT_BYTES] at hlen
  obtain ⟨hsame, hpayment⟩ := PoolV1PairForestTerminalPaymentV1.encode_decode hpublic
  have hlateEncode : encodePoolV1PairLatePublicStatementV1 common.laneTransition = .ok (slice 144 1520 bytes) := by
    rw [← hcommon]
    exact encode_decodeLate hlate
  have hhead : statementHead (ofPayment common publicInput) = slice 0 144 bytes := by
    rw [statementHead, PoolV1PairForestTerminalStatementV1.common_ofPayment,
      ← PoolV1PairForestTerminalStatementV1.transitionKind_payment,
      PoolV1PairForestTerminalStatementV1.payment_ofPayment, hsame, ← hcommon,
      encodeDigestCanonical_slice (by omega) hanchor, ← hmagic, ← hversion, ← hkind, ← hencoding]
    simp (disch := omega) only [u8Bytes_byteAt, u64Bytes_readU64, Bytes32.read_bytes, slice_join]
  simp only [encodePoolV1PairForestTerminalStatementV1, except_bind_eq_ok, mapErr_eq_ok, except_pure_eq_ok,
    PoolV1PairForestTerminalStatementV1.common_ofPayment, PoolV1PairForestTerminalStatementV1.payment_ofPayment]
  refine ⟨(), hvalid, _, hlateEncode, _, hpayment, ?_⟩
  rw [hhead, slice_join _ rfl, slice_join _ rfl]
  exact slice_all hlen

/-! ### Results -/

def validateResult (r : PoolV1PairForestTerminalResultV1) : Except PoolV1PairForestTerminalFormatErrorV1 Unit := do
  require (r.masterAccount ≠ Bytes32.zero ∧ r.selectedLaneAccount ≠ Bytes32.zero) .nonZeroBinding
  let expected ← mapErr .account (poolV1PairForestOutputLaneV1 r.nullifier)
  require (r.outputLane = expected) .outputLaneMismatch
  let _ ← mapErr .afterstate (encodePoolV1PairVerifiedAfterstateV1 r.verifiedAfterstate)

def resultHead (r : PoolV1PairForestTerminalResultV1) : Bytes :=
  POOL_V1_PAIR_FOREST_TERMINAL_RESULT_MAGIC ++ (u8Bytes POOL_V1_PAIR_FOREST_TERMINAL_VERSION ++
    (u8Bytes r.transitionKind.code ++ (u8Bytes POOL_V1_DIGEST_ENCODING_VERSION ++ (u8Bytes r.outputLane ++
    (r.masterAccount.bytes ++ (r.selectedLaneAccount.bytes ++ encodeDigestCanonical r.nullifier))))))

def encodePoolV1PairForestTerminalResultV1 (r : PoolV1PairForestTerminalResultV1) :
    Except PoolV1PairForestTerminalFormatErrorV1 Bytes := do
  validateResult r
  let after ← mapErr .afterstate (encodePoolV1PairVerifiedAfterstateV1 r.verifiedAfterstate)
  return resultHead r ++ after

def decodePoolV1PairForestTerminalResultV1 (bytes : Bytes) :
    Except PoolV1PairForestTerminalFormatErrorV1 PoolV1PairForestTerminalResultV1 := do
  require (bytes.length = POOL_V1_PAIR_FOREST_TERMINAL_RESULT_BYTES) .wrongLength
  require (slice 0 4 bytes = POOL_V1_PAIR_FOREST_TERMINAL_RESULT_MAGIC) .wrongMagic
  require (byteAt 4 bytes = POOL_V1_PAIR_FOREST_TERMINAL_VERSION) .wrongVersion
  let kind ← transitionKind (byteAt 5 bytes)
  require (byteAt 6 bytes = POOL_V1_DIGEST_ENCODING_VERSION) .wrongDigestEncoding
  let nullifier ← okOr (decodeDigestCanonical (slice 72 32 bytes)) .nonCanonicalDigest
  let after ← mapErr .afterstate (decodePoolV1PairVerifiedAfterstateV1 (slice 104 688 bytes))
  let result : PoolV1PairForestTerminalResultV1 := ⟨kind, Bytes32.read 8 bytes, Bytes32.read 40 bytes, byteAt 7 bytes,
    nullifier, after⟩
  validateResult result
  return result

/-- The result answers exactly this statement. -/
def validatePoolV1PairForestTerminalResultAgainstStatementV1 (s : PoolV1PairForestTerminalStatementV1)
    (r : PoolV1PairForestTerminalResultV1) : Except PoolV1PairForestTerminalFormatErrorV1 Unit := do
  validatePoolV1PairForestTerminalStatementV1 s
  validateResult r
  require (r.transitionKind = s.transitionKind ∧ r.masterAccount = s.common.masterAccount ∧
    r.selectedLaneAccount = s.common.selectedLaneAccount ∧ r.outputLane = s.common.outputLane ∧
    r.nullifier = s.payment.common.nullifier ∧
    r.verifiedAfterstate = s.common.laneTransition.candidateAfterstate) .resultBindingMismatch

theorem length_resultHead (r : PoolV1PairForestTerminalResultV1) : (resultHead r).length = 104 := by
  simp [resultHead, length_terminalResultMagic]

theorem decode_encodeTerminalResult {r : PoolV1PairForestTerminalResultV1} {bytes : Bytes}
    (h : encodePoolV1PairForestTerminalResultV1 r = .ok bytes) :
    decodePoolV1PairForestTerminalResultV1 bytes = .ok r := by
  simp only [encodePoolV1PairForestTerminalResultV1, except_bind_eq_ok, mapErr_eq_ok, except_pure_eq_ok] at h
  obtain ⟨_, hvalid, after, hafter, rfl⟩ := h
  obtain ⟨hafterLength, hafterDecode⟩ := decode_encodeAfterstate hafter
  have hcanonical : DigestIsCanonical r.nullifier := by
    simp only [validateResult, poolV1PairForestOutputLaneV1, except_bind_eq_ok, require_eq_ok, mapErr_eq_ok] at hvalid
    obtain ⟨-, -, lane, ⟨-, hcanonical, -⟩, -⟩ := hvalid
    exact hcanonical
  have hlen : (resultHead r ++ after).length = 792 := by
    rw [List.length_append, length_resultHead, hafterLength]
  have hmagic : slice 0 4 (resultHead r ++ after) = POOL_V1_PAIR_FOREST_TERMINAL_RESULT_MAGIC := by
    simp [resultHead, slice_append_head, length_terminalResultMagic]
  have hbyte4 : byteAt 4 (resultHead r ++ after) = POOL_V1_PAIR_FOREST_TERMINAL_VERSION := byteAt_of_slice (by
    simp [resultHead, slice_append_right, slice_append_head, length_terminalResultMagic])
  have hbyte5 : byteAt 5 (resultHead r ++ after) = r.transitionKind.code := byteAt_of_slice (by
    simp [resultHead, slice_append_right, slice_append_head, length_terminalResultMagic])
  have hbyte6 : byteAt 6 (resultHead r ++ after) = POOL_V1_DIGEST_ENCODING_VERSION := byteAt_of_slice (by
    simp [resultHead, slice_append_right, slice_append_head, length_terminalResultMagic])
  have hlane : byteAt 7 (resultHead r ++ after) = r.outputLane := byteAt_of_slice (by
    simp [resultHead, slice_append_right, slice_append_head, length_terminalResultMagic])
  have hmaster : Bytes32.read 8 (resultHead r ++ after) = r.masterAccount := Bytes32.read_eq (by
    simp [resultHead, slice_append_right, slice_append_head, length_terminalResultMagic])
  have haccount : Bytes32.read 40 (resultHead r ++ after) = r.selectedLaneAccount := Bytes32.read_eq (by
    simp [resultHead, slice_append_right, slice_append_head, length_terminalResultMagic])
  have hnullifier : slice 72 32 (resultHead r ++ after) = encodeDigestCanonical r.nullifier := by
    simp [resultHead, slice_append_right, slice_append_head, length_terminalResultMagic]
  have htail : slice 104 688 (resultHead r ++ after) = after := by
    simp [slice_append_right, slice_all, length_resultHead, hafterLength]
  simp only [decodePoolV1PairForestTerminalResultV1, except_bind_eq_ok, require_eq_ok, okOr_eq_ok, mapErr_eq_ok,
    except_pure_eq_ok, transitionKind_eq_ok, hlane, hmaster, haccount, hnullifier, htail,
    decode_encodeDigestCanonical hcanonical]
  exact ⟨(), hlen, (), hmagic, (), hbyte4, _, hbyte5, (), hbyte6, _, rfl, _, hafterDecode, (), hvalid, rfl⟩

theorem encode_decodeTerminalResult {r : PoolV1PairForestTerminalResultV1} {bytes : Bytes}
    (h : decodePoolV1PairForestTerminalResultV1 bytes = .ok r) :
    encodePoolV1PairForestTerminalResultV1 r = .ok bytes := by
  simp only [decodePoolV1PairForestTerminalResultV1, except_bind_eq_ok, require_eq_ok, okOr_eq_ok, mapErr_eq_ok,
    except_pure_eq_ok, transitionKind_eq_ok] at h
  obtain ⟨-, hlen, -, hmagic, -, hversion, kind, hkind, -, hencoding, nullifier, hnullifier, after, hafter, _, hvalid,
    rfl⟩ := h
  simp only [POOL_V1_PAIR_FOREST_TERMINAL_RESULT_BYTES] at hlen
  simp only [encodePoolV1PairForestTerminalResultV1, except_bind_eq_ok, mapErr_eq_ok, except_pure_eq_ok]
  refine ⟨(), hvalid, _, encode_decodeAfterstate hafter, ?_⟩
  rw [resultHead, encodeDigestCanonical_slice (by omega) hnullifier, ← hmagic, ← hversion, ← hkind, ← hencoding]
  simp (disch := omega) only [u8Bytes_byteAt, Bytes32.read_bytes, slice_join]
  exact slice_all hlen

end Aspis.Forest
