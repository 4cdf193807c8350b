import Aspis.Lib.Format
import Aspis.Verifier.Profiles

/-! The 216-byte payment statements with their encoders. A transfer and a
withdrawal share their first 148 bytes; both are read exactly. -/

namespace Aspis.Verifier

open Lib Chain Statement

/-! ### Encoders -/

def validateCommon (c : CommonPublicV1) : Except PoolV1PaymentStatementFormatError Unit := do
  require (c.pool ≠ Bytes32.zero ∧ c.deploymentDomain ≠ Bytes32.zero) .zeroRequiredBinding
  require (c.anchorSequence.toNat ≤ Pool.POOL_V1_LEAF_CAPACITY) .invalidAnchorSequence
  require (DigestIsCanonical c.anchorRoot ∧ DigestIsCanonical c.nullifier) .nonCanonicalDigest
  require c.assetId.Canonical .nonCanonicalAssetId

def validatePoolV1PrivateTransferPublicV1 (p : PoolV1PrivateTransferPublicV1) :
    Except PoolV1PaymentStatementFormatError Unit := do
  validateCommon p.toCommonPublicV1
  require (DigestIsCanonical p.recipientCommitment ∧ DigestIsCanonical p.changeCommitment) .nonCanonicalDigest

def validatePoolV1WithdrawalPublicV1 (p : PoolV1WithdrawalPublicV1) :
    Except PoolV1PaymentStatementFormatError Unit := do
  validateCommon p.toCommonPublicV1
  require (p.amount ≠ 0 ∧ p.amount.toNat < VALUE_LIMIT) .invalidWithdrawalAmount
  require (p.destinationTokenAccount ≠ Bytes32.zero) .invalidDestination
  require (DigestIsCanonical p.changeCommitment) .nonCanonicalDigest

/-- The first 148 bytes of a statement. -/
def encodeCommon (magic : Bytes) (kind : Pool.PoolV1TransitionKind) (c : CommonPublicV1) : Bytes :=
  magic ++ (u8Bytes POOL_V1_PAYMENT_STATEMENT_VERSION ++ (u8Bytes kind.code ++
    (u8Bytes POOL_V1_DIGEST_ENCODING_VERSION ++ (u8Bytes 0 ++ (c.pool.bytes ++ (c.deploymentDomain.bytes ++
    (u64Bytes c.anchorSequence ++ (encodeDigestCanonical c.anchorRoot ++ (encodeDigestCanonical c.nullifier ++
    u32Bytes c.assetId.raw)))))))))

def encodePoolV1PrivateTransferPublicV1 (p : PoolV1PrivateTransferPublicV1) :
    Except PoolV1PaymentStatementFormatError Bytes := do
  validatePoolV1PrivateTransferPublicV1 p
  return encodeCommon POOL_V1_PRIVATE_TRANSFER_STATEMENT_MAGIC .privateTransfer p.toCommonPublicV1 ++ (zeros 4 ++
    (encodeDigestCanonical p.recipientCommitment ++ encodeDigestCanonical p.changeCommitment))

def encodePoolV1WithdrawalPublicV1 (p : PoolV1WithdrawalPublicV1) :
    Except PoolV1PaymentStatementFormatError Bytes := do
  validatePoolV1WithdrawalPublicV1 p
  return encodeCommon POOL_V1_WITHDRAWAL_STATEMENT_MAGIC .withdrawal p.toCommonPublicV1 ++ (u32Bytes p.amount ++
    (p.destinationTokenAccount.bytes ++ encodeDigestCanonical p.changeCommitment))

/-! ### The common part -/

theorem length_transferMagic : POOL_V1_PRIVATE_TRANSFER_STATEMENT_MAGIC.length = 4 := by
  simp [POOL_V1_PRIVATE_TRANSFER_STATEMENT_MAGIC]

theorem length_withdrawalMagic : POOL_V1_WITHDRAWAL_STATEMENT_MAGIC.length = 4 := by
  simp [POOL_V1_WITHDRAWAL_STATEMENT_MAGIC]

section Common
variable {magic bytes : Bytes} {kind : Pool.PoolV1TransitionKind} {c : CommonPublicV1}

theorem length_encodeCommon (hmagic : magic.length = 4) : (encodeCommon magic kind c).length = 148 := by
  simp [encodeCommon, hmagic]

theorem validateCommon_ok {u : Unit} : validateCommon c = .ok u ↔
    (c.pool ≠ Bytes32.zero ∧ c.deploymentDomain ≠ Bytes32.zero) ∧
      c.anchorSequence.toNat ≤ Pool.POOL_V1_LEAF_CAPACITY ∧
      (DigestIsCanonical c.anchorRoot ∧ DigestIsCanonical c.nullifier) ∧ c.assetId.Canonical := by
  simp only [validateCommon, except_bind_eq_ok, require_eq_ok]
  constructor
  · rintro ⟨-, hbound, -, hsequence, -, hcanonical, hasset⟩
    exact ⟨hbound, hsequence, hcanonical, hasset⟩
  · rintro ⟨hbound, hsequence, hcanonical, hasset⟩
    exact ⟨(), hbound, (), hsequence, (), hcanonical, hasset⟩

/-- A statement that starts with the encoding of a valid common part gives that part back. -/
theorem decodeCommon_of_slice {u : Unit} (hmagic : magic.length = 4) (hlen : bytes.length = 216)
    (hslice : slice 0 148 bytes = encodeCommon magic kind c) (hvalid : validateCommon c = .ok u) :
    requireHeader bytes magic kind = .ok () ∧ decodeCommon bytes = .ok c := by
  have hread : ∀ off len, off + len ≤ 148 → slice off len bytes = slice off len (encodeCommon magic kind c) := by
    intro off len hle
    rw [← hslice, slice_slice bytes (by omega), Nat.zero_add]
  obtain ⟨hbound, hsequence, ⟨hroot, hnullifier⟩, hasset⟩ := validateCommon_ok.mp hvalid
  have hhead : slice 0 4 bytes = magic := by
    rw [hread _ _ (by omega)]
    simp [encodeCommon, slice_append_head, hmagic]
  have hbyte4 : byteAt 4 bytes = POOL_V1_PAYMENT_STATEMENT_VERSION := byteAt_of_slice (by
    rw [hread _ _ (by omega)]
    simp [encodeCommon, slice_append_right, slice_append_head, hmagic])
  have hbyte5 : byteAt 5 bytes = kind.code := byteAt_of_slice (by
    rw [hread _ _ (by omega)]
    simp [encodeCommon, slice_append_right, slice_append_head, hmagic])
  have hbyte6 : byteAt 6 bytes = POOL_V1_DIGEST_ENCODING_VERSION := byteAt_of_slice (by
    rw [hread _ _ (by omega)]
    simp [encodeCommon, slice_append_right, slice_append_head, hmagic])
  have hbyte7 : byteAt 7 bytes = 0 := byteAt_of_slice (by
    rw [hread _ _ (by omega)]
    simp [encodeCommon, slice_append_right, slice_append_head, hmagic])
  have hpool : Bytes32.read 8 bytes = c.pool := Bytes32.read_eq (by
    rw [hread _ _ (by omega)]
    simp [encodeCommon, slice_append_right, slice_append_head, hmagic])
  have hdomain : Bytes32.read 40 bytes = c.deploymentDomain := Bytes32.read_eq (by
    rw [hread _ _ (by omega)]
    simp [encodeCommon, slice_append_right, slice_append_head, hmagic])
  have hnumber : readU64 72 bytes = c.anchorSequence := readU64_of_slice (by
    rw [hread _ _ (by omega)]
    simp [encodeCommon, slice_append_right, slice_append_head, hmagic])
  have hanchor : slice 80 32 bytes = encodeDigestCanonical c.anchorRoot := by
    rw [hread _ _ (by omega)]
    simp [encodeCommon, slice_append_right, slice_append_head, hmagic]
  have hnull : slice 112 32 bytes = encodeDigestCanonical c.nullifier := by
    rw [hread _ _ (by omega)]
    simp [encodeCommon, slice_append_right, slice_append_head, hmagic]
  have hraw : readU32 144 bytes = c.assetId.raw := readU32_of_slice (by
    rw [hread _ _ (by omega)]
    simp [encodeCommon, slice_append_right, slice_all, hmagic])
  constructor
  · simp only [requireHeader, except_bind_eq_ok, require_eq_ok]
    exact ⟨(), hlen, (), hhead, (), hbyte4, (), hbyte5, (), hbyte6, hbyte7⟩
  · simp only [decodeCommon, statementDigestAt, except_bind_eq_ok, require_eq_ok, okOr_eq_ok, except_pure_eq_ok, hpool,
      hdomain, hnumber, hanchor, hnull, hraw, decode_encodeDigestCanonical hroot, decode_encodeDigestCanonical hnullifier]
    exact ⟨(), hasset, _, rfl, _, rfl, (), hbound, (), hsequence, rfl⟩

/-- The common part of an accepted statement is valid, and the statement starts with its encoding. -/
theorem encodeCommon_of_decode {u : Unit} (hheader : requireHeader bytes magic kind = .ok u)
    (h : decodeCommon bytes = .ok c) :
    bytes.length = 216 ∧ encodeCommon magic kind c = slice 0 148 bytes ∧ validateCommon c = .ok () := by
  simp only [requireHeader, except_bind_eq_ok, require_eq_ok] at hheader
  obtain ⟨-, hlen, -, hmagic, -, hversion, -, hkind, -, hencoding, hzero⟩ := hheader
  simp only [POOL_V1_PAYMENT_STATEMENT_BYTES] at hlen
  simp only [decodeCommon, statementDigestAt, except_bind_eq_ok, require_eq_ok, okOr_eq_ok, except_pure_eq_ok] at h
  obtain ⟨-, hasset, root, hroot, nullifier, hnullifier, -, hbound, -, hsequence, rfl⟩ := h
  refine ⟨hlen, ?_, ?_⟩
  · rw [encodeCommon, encodeDigestCanonical_slice (by omega) hroot, encodeDigestCanonical_slice (by omega) hnullifier,
      ← hmagic, ← hversion, ← hkind, ← hencoding, ← hzero]
    simp (disch := omega) only [u8Bytes_byteAt, u32Bytes_readU32, u64Bytes_readU64, Bytes32.read_bytes, slice_join]
  · exact validateCommon_ok.mpr ⟨hbound, hsequence,
      ⟨decodeDigestCanonical_canonical hroot, decodeDigestCanonical_canonical hnullifier⟩, hasset⟩

end Common

/-! ### Transfers -/

theorem decode_encodeTransfer {p : PoolV1PrivateTransferPublicV1} {bytes : Bytes}
    (h : encodePoolV1PrivateTransferPublicV1 p = .ok bytes) :
    bytes.length = 216 ∧ decodePoolV1PrivateTransferPublicV1 bytes = .ok p := by
  simp only [encodePoolV1PrivateTransferPublicV1, validatePoolV1PrivateTransferPublicV1, except_bind_eq_ok, require_eq_ok,
    except_pure_eq_ok] at h
  obtain ⟨_, ⟨_, hcommon, hrecipient, hchange⟩, himage⟩ := h
  have hfront := @length_encodeCommon _ .privateTransfer p.toCommonPublicV1 length_transferMagic
  have hlen : bytes.length = 216 := by
    rw [← himage]
    simp [hfront]
  have hslice : slice 0 148 bytes = encodeCommon POOL_V1_PRIVATE_TRANSFER_STATEMENT_MAGIC .privateTransfer
      p.toCommonPublicV1 := by
    rw [← himage, slice_append_head hfront.symm]
  have hreserved : slice 148 4 bytes = zeros 4 := by
    simp [← himage, slice_append_right, slice_append_head, hfront]
  have hfirst : slice 152 32 bytes = encodeDigestCanonical p.recipientCommitment := by
    simp [← himage, slice_append_right, slice_append_head, hfront]
  have hsecond : slice 184 32 bytes = encodeDigestCanonical p.changeCommitment := by
    simp [← himage, slice_append_right, slice_all, hfront]
  obtain ⟨hheader, hdecode⟩ := decodeCommon_of_slice length_transferMagic hlen hslice hcommon
  refine ⟨hlen, ?_⟩
  simp only [decodePoolV1PrivateTransferPublicV1, statementDigestAt, except_bind_eq_ok, require_eq_ok, okOr_eq_ok,
    except_pure_eq_ok, hfirst, hsecond, decode_encodeDigestCanonical hrecipient, decode_encodeDigestCanonical hchange]
  exact ⟨(), hheader, (), hreserved, _, hdecode, _, rfl, _, rfl, rfl⟩

theorem encode_decodeTransfer {p : PoolV1PrivateTransferPublicV1} {bytes : Bytes}
    (h : decodePoolV1PrivateTransferPublicV1 bytes = .ok p) : encodePoolV1PrivateTransferPublicV1 p = .ok bytes := by
  simp only [decodePoolV1PrivateTransferPublicV1, statementDigestAt, except_bind_eq_ok, require_eq_ok, okOr_eq_ok,
    except_pure_eq_ok] at h
  obtain ⟨_, hheader, -, hreserved, common, hcommon, recipient, hrecipient, change, hchange, rfl⟩ := h
  obtain ⟨hlen, hfront, hvalid⟩ := encodeCommon_of_decode hheader hcommon
  simp only [encodePoolV1PrivateTransferPublicV1, validatePoolV1PrivateTransferPublicV1, except_bind_eq_ok, require_eq_ok,
    except_pure_eq_ok]
  refine ⟨(), ⟨(), hvalid, decodeDigestCanonical_canonical hrecipient, decodeDigestCanonical_canonical hchange⟩, ?_⟩
  rw [hfront, encodeDigestCanonical_slice (by omega) hrecipient, encodeDigestCanonical_slice (by omega) hchange,
    ← hreserved]
  simp only [slice_join]
  exact slice_all hlen

theorem transfer_exact : (Format.ofExcept decodePoolV1PrivateTransferPublicV1 encodePoolV1PrivateTransferPublicV1
    fun _ => True).Exact :=
  Format.exact_ofExcept (fun _ _ _ h => (decode_encodeTransfer h).2) fun _ _ h => ⟨trivial, encode_decodeTransfer h⟩

/-! ### Withdrawals -/

theorem decode_encodeWithdrawal {p : PoolV1WithdrawalPublicV1} {bytes : Bytes}
    (h : encodePoolV1WithdrawalPublicV1 p = .ok bytes) :
    bytes.length = 216 ∧ decodePoolV1WithdrawalPublicV1 bytes = .ok p := by
  simp only [encodePoolV1WithdrawalPublicV1, validatePoolV1WithdrawalPublicV1, except_bind_eq_ok, require_eq_ok,
    except_pure_eq_ok] at h
  obtain ⟨_, ⟨_, hcommon, -, hamount, -, hdestination, hchange⟩, himage⟩ := h
  have hfront := @length_encodeCommon _ .withdrawal p.toCommonPublicV1 length_withdrawalMagic
  have hlen : bytes.length = 216 := by
    rw [← himage]
    simp [hfront]
  have hslice : slice 0 148 bytes = encodeCommon POOL_V1_WITHDRAWAL_STATEMENT_MAGIC .withdrawal p.toCommonPublicV1 := by
    rw [← himage, slice_append_head hfront.symm]
  have hread : readU32 148 bytes = p.amount := readU32_of_slice (by
    simp [← himage, slice_append_right, slice_append_head, hfront])
  have hfirst : Bytes32.read 152 bytes = p.destinationTokenAccount := Bytes32.read_eq (by
    simp [← himage, slice_append_right, slice_append_head, hfront])
  have hsecond : slice 184 32 bytes = encodeDigestCanonical p.changeCommitment := by
    simp [← himage, slice_append_right, slice_all, hfront]
  obtain ⟨hheader, hdecode⟩ := decodeCommon_of_slice length_withdrawalMagic hlen hslice hcommon
  refine ⟨hlen, ?_⟩
  simp only [decodePoolV1WithdrawalPublicV1, statementDigestAt, except_bind_eq_ok, require_eq_ok, okOr_eq_ok,
    except_pure_eq_ok, hread, hfirst, hsecond, decode_encodeDigestCanonical hchange]
  exact ⟨(), hheader, _, hdecode, _, rfl, (), hamount, (), hdestination, rfl⟩

theorem encode_decodeWithdrawal {p : PoolV1WithdrawalPublicV1} {bytes : Bytes}
    (h : decodePoolV1WithdrawalPublicV1 bytes = .ok p) : encodePoolV1WithdrawalPublicV1 p = .ok bytes := by
  simp only [decodePoolV1WithdrawalPublicV1, statementDigestAt, except_bind_eq_ok, require_eq_ok, okOr_eq_ok,
    except_pure_eq_ok] at h
  obtain ⟨_, hheader, common, hcommon, change, hchange, -, hamount, -, hdestination, rfl⟩ := h
  obtain ⟨hlen, hfront, hvalid⟩ := encodeCommon_of_decode hheader hcommon
  simp only [encodePoolV1WithdrawalPublicV1, validatePoolV1WithdrawalPublicV1, except_bind_eq_ok, require_eq_ok,
    except_pure_eq_ok]
  refine ⟨(), ⟨(), hvalid, (), hamount, (), hdestination, decodeDigestCanonical_canonical hchange⟩, ?_⟩
  rw [hfront, encodeDigestCanonical_slice (by omega) hchange]
  simp (disch := omega) only [u32Bytes_readU32, Bytes32.read_bytes, slice_join]
  exact slice_all hlen

theorem withdrawal_exact : (Format.ofExcept decodePoolV1WithdrawalPublicV1 encodePoolV1WithdrawalPublicV1
    fun _ => True).Exact :=
  Format.exact_ofExcept (fun _ _ _ h => (decode_encodeWithdrawal h).2) fun _ _ h => ⟨trivial, encode_decodeWithdrawal h⟩

end Aspis.Verifier
