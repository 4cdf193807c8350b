import Aspis.Forest.Accounts
import Aspis.Pool.StateExact
import Aspis.Verifier.Dispatch

/-! The states of a pair tree as a proof carries them: the afterstate a verifier
returns, the live snapshot of a lane, and the public statement that holds both.
Each is read exactly. -/

namespace Aspis.Forest

open Lib Chain Statement Pool
open Verifier (POOL_V1_DIGEST_ENCODING_VERSION)

def POOL_V1_PAIR_VERIFIED_AFTERSTATE_BYTES : ℕ := 688

def POOL_V1_PAIR_LIVE_SNAPSHOT_BYTES : ℕ := 800

def POOL_V1_PAIR_LATE_PUBLIC_STATEMENT_HEADER_BYTES : ℕ := 32

def POOL_V1_PAIR_LATE_PUBLIC_STATEMENT_BYTES : ℕ := 1520

def POOL_V1_PAIR_VERIFIED_AFTERSTATE_MAGIC : Bytes := [65, 83, 74, 65]

def POOL_V1_PAIR_LIVE_SNAPSHOT_MAGIC : Bytes := [65, 83, 80, 76, 73, 86, 69, 49]

def POOL_V1_PAIR_LATE_PUBLIC_STATEMENT_MAGIC : Bytes := [65, 83, 80, 76, 65, 84, 69, 49]

def POOL_V1_PAIR_VERIFIER_TRANSPORT_VERSION : UInt8 := 1

def POOL_V1_PAIR_TREE_STORAGE_FORMAT_VERSION : UInt8 := 1

def POOL_V1_PAIR_LIVE_SNAPSHOT_VERSION : UInt8 := 1

def POOL_V1_PAIR_LATE_PUBLIC_STATEMENT_VERSION : UInt8 := 1

def POOL_V1_PAIR_LATE_PUBLIC_STATEMENT_ITEM_COUNT : UInt8 := 2

def POOL_V1_PAIR_TREE_FORMAT_BINDING : Bytes :=
  [65, 83, 80, 80, 65, 73, 82, 49, 1, 20, 21, 7, 1, 1, 1, 1] ++ zeros 16

theorem length_afterstateMagic : POOL_V1_PAIR_VERIFIED_AFTERSTATE_MAGIC.length = 4 := by
  simp [POOL_V1_PAIR_VERIFIED_AFTERSTATE_MAGIC]

theorem length_snapshotMagic : POOL_V1_PAIR_LIVE_SNAPSHOT_MAGIC.length = 8 := by
  simp [POOL_V1_PAIR_LIVE_SNAPSHOT_MAGIC]

theorem length_lateMagic : POOL_V1_PAIR_LATE_PUBLIC_STATEMENT_MAGIC.length = 8 := by
  simp [POOL_V1_PAIR_LATE_PUBLIC_STATEMENT_MAGIC]

theorem length_pairFormatBinding : POOL_V1_PAIR_TREE_FORMAT_BINDING.length = 32 := by
  simp [POOL_V1_PAIR_TREE_FORMAT_BINDING]

theorem length_frontierBytes (f : Fin POOL_V1_TREE_DEPTH → Digest) : (rootsBytes (List.ofFn f)).length = 640 := by
  rw [length_rootsBytes, List.length_ofFn]
  rfl

/-! ### The verified afterstate -/

inductive PoolV1PairVerifierTransportErrorV1
  | wrongLength
  | wrongMagic
  | wrongVersion
  | wrongDigestEncoding
  | wrongSuccessCode
  | wrongPairFormat
  | invalidAfterstateIndex
  | nonCanonicalAfterstate
  deriving DecidableEq, Repr

structure PoolV1PairVerifiedAfterstateV1 where
  nextPairIndex : UInt64
  nextRoot : Digest
  nextFrontier : Fin POOL_V1_TREE_DEPTH → Digest
  deriving DecidableEq

def validateVerifiedAfterstate (a : PoolV1PairVerifiedAfterstateV1) :
    Except PoolV1PairVerifierTransportErrorV1 Unit := do
  require (a.nextPairIndex ≠ 0 ∧ a.nextPairIndex.toNat ≤ POOL_V1_PAIR_CAPACITY) .invalidAfterstateIndex
  require (DigestIsCanonical a.nextRoot ∧ ∀ level, DigestIsCanonical (a.nextFrontier level)) .nonCanonicalAfterstate

def afterstateImage (a : PoolV1PairVerifiedAfterstateV1) : Bytes :=
  POOL_V1_PAIR_VERIFIED_AFTERSTATE_MAGIC ++ (u8Bytes POOL_V1_PAIR_VERIFIER_TRANSPORT_VERSION ++
    (u8Bytes POOL_V1_PAIR_TREE_STORAGE_FORMAT_VERSION ++ (u8Bytes POOL_V1_DIGEST_ENCODING_VERSION ++ (u8Bytes 1 ++
    (u64Bytes a.nextPairIndex ++ (encodeDigestCanonical a.nextRoot ++ rootsBytes (List.ofFn a.nextFrontier)))))))

def encodePoolV1PairVerifiedAfterstateV1 (a : PoolV1PairVerifiedAfterstateV1) :
    Except PoolV1PairVerifierTransportErrorV1 Bytes := do
  validateVerifiedAfterstate a
  return afterstateImage a

def decodePoolV1PairVerifiedAfterstateV1 (bytes : Bytes) :
    Except PoolV1PairVerifierTransportErrorV1 PoolV1PairVerifiedAfterstateV1 := do
  require (bytes.length = POOL_V1_PAIR_VERIFIED_AFTERSTATE_BYTES) .wrongLength
  require (slice 0 4 bytes = POOL_V1_PAIR_VERIFIED_AFTERSTATE_MAGIC) .wrongMagic
  require (byteAt 4 bytes = POOL_V1_PAIR_VERIFIER_TRANSPORT_VERSION) .wrongVersion
  require (byteAt 5 bytes = POOL_V1_PAIR_TREE_STORAGE_FORMAT_VERSION) .wrongPairFormat
  require (byteAt 6 bytes = POOL_V1_DIGEST_ENCODING_VERSION) .wrongDigestEncoding
  require (byteAt 7 bytes = 1) .wrongSuccessCode
  let nextRoot ← okOr (decodeDigestCanonical (slice 16 32 bytes)) .nonCanonicalAfterstate
  let nextFrontier ← okOr (decodeDigestsAt 48 bytes) .nonCanonicalAfterstate
  let afterstate : PoolV1PairVerifiedAfterstateV1 := ⟨readU64 8 bytes, nextRoot, nextFrontier⟩
  validateVerifiedAfterstate afterstate
  return afterstate

theorem length_afterstateImage (a : PoolV1PairVerifiedAfterstateV1) : (afterstateImage a).length = 688 := by
  simp only [afterstateImage, List.length_append, length_afterstateMagic, length_u8Bytes, length_u64Bytes,
    length_encodeDigestCanonical, length_frontierBytes]

theorem decode_encodeAfterstate {a : PoolV1PairVerifiedAfterstateV1} {bytes : Bytes}
    (h : encodePoolV1PairVerifiedAfterstateV1 a = .ok bytes) :
    bytes.length = 688 ∧ decodePoolV1PairVerifiedAfterstateV1 bytes = .ok a := by
  simp only [encodePoolV1PairVerifiedAfterstateV1, except_bind_eq_ok, except_pure_eq_ok] at h
  obtain ⟨_, hvalid, rfl⟩ := h
  have hlen := length_afterstateImage a
  refine ⟨hlen, ?_⟩
  obtain ⟨hroot, hfrontier⟩ : DigestIsCanonical a.nextRoot ∧ ∀ level, DigestIsCanonical (a.nextFrontier level) := by
    simp only [validateVerifiedAfterstate, except_bind_eq_ok, require_eq_ok] at hvalid
    exact hvalid.choose_spec.2
  have hmagic : slice 0 4 (afterstateImage a) = POOL_V1_PAIR_VERIFIED_AFTERSTATE_MAGIC := by
    simp [afterstateImage, slice_append_head, length_afterstateMagic]
  have hbyte4 : byteAt 4 (afterstateImage a) = POOL_V1_PAIR_VERIFIER_TRANSPORT_VERSION := byteAt_of_slice (by
    simp [afterstateImage, slice_append_right, slice_append_head, length_afterstateMagic])
  have hbyte5 : byteAt 5 (afterstateImage a) = POOL_V1_PAIR_TREE_STORAGE_FORMAT_VERSION := byteAt_of_slice (by
    simp [afterstateImage, slice_append_right, slice_append_head, length_afterstateMagic])
  have hbyte6 : byteAt 6 (afterstateImage a) = POOL_V1_DIGEST_ENCODING_VERSION := byteAt_of_slice (by
    simp [afterstateImage, slice_append_right, slice_append_head, length_afterstateMagic])
  have hbyte7 : byteAt 7 (afterstateImage a) = 1 := byteAt_of_slice (by
    simp [afterstateImage, slice_append_right, slice_append_head, length_afterstateMagic])
  have hindex : readU64 8 (afterstateImage a) = a.nextPairIndex := readU64_of_slice (by
    simp [afterstateImage, slice_append_right, slice_append_head, length_afterstateMagic])
  have hnext : slice 16 32 (afterstateImage a) = encodeDigestCanonical a.nextRoot := by
    simp [afterstateImage, slice_append_right, slice_append_head, length_afterstateMagic]
  have hlevels : decodeDigestsAt 48 (afterstateImage a) = some a.nextFrontier := by
    apply decodeDigestsAt_rootsBytes _ hfrontier
    simp [afterstateImage, slice_append_right, slice_all (length_frontierBytes _), length_afterstateMagic]
  simp only [decodePoolV1PairVerifiedAfterstateV1, except_bind_eq_ok, require_eq_ok, okOr_eq_ok, except_pure_eq_ok,
    hnext, hlevels, hindex, decode_encodeDigestCanonical hroot]
  exact ⟨(), hlen, (), hmagic, (), hbyte4, (), hbyte5, (), hbyte6, (), hbyte7, _, rfl, _, rfl, (), hvalid, rfl⟩

theorem encode_decodeAfterstate {a : PoolV1PairVerifiedAfterstateV1} {bytes : Bytes}
    (h : decodePoolV1PairVerifiedAfterstateV1 bytes = .ok a) : encodePoolV1PairVerifiedAfterstateV1 a = .ok bytes := by
  simp only [decodePoolV1PairVerifiedAfterstateV1, except_bind_eq_ok, require_eq_ok, okOr_eq_ok, except_pure_eq_ok] at h
  obtain ⟨-, hlen, -, hmagic, -, hversion, -, hformat, -, hencoding, -, hcode, root, hroot, frontier, hfrontier, _, hvalid,
    rfl⟩ := h
  simp only [POOL_V1_PAIR_VERIFIED_AFTERSTATE_BYTES] at hlen
  obtain ⟨hlevels, -⟩ := rootsBytes_decodeDigestsAt (by omega) hfrontier
  simp only [encodePoolV1PairVerifiedAfterstateV1, except_bind_eq_ok, except_pure_eq_ok]
  refine ⟨(), hvalid, ?_⟩
  rw [afterstateImage, encodeDigestCanonical_slice (by omega) hroot, hlevels, ← hmagic, ← hversion, ← hformat,
    ← hencoding, ← hcode]
  simp (disch := omega) only [u8Bytes_byteAt, u64Bytes_readU64, slice_join]
  exact slice_all hlen

/-! ### The live snapshot -/

inductive PoolV1PairLiveSnapshotErrorV1
  | wrongLength
  | wrongMagic
  | wrongVersion
  | wrongFormatBinding
  | nonZeroReserved
  | zeroRequiredBinding
  | sequenceIndexMismatch
  | treeFull
  | nonCanonicalDigest
  deriving DecidableEq, Repr

structure PoolV1PairLiveSnapshotV1 where
  pool : Bytes32
  deploymentDomain : Bytes32
  sequence : UInt64
  nextPairIndex : UInt64
  currentRoot : Digest
  frontier : Fin POOL_V1_TREE_DEPTH → Digest
  deriving DecidableEq

def validatePoolV1PairLiveSnapshotV1 (s : PoolV1PairLiveSnapshotV1) : Except PoolV1PairLiveSnapshotErrorV1 Unit := do
  require (s.pool ≠ Bytes32.zero ∧ s.deploymentDomain ≠ Bytes32.zero) .zeroRequiredBinding
  require (s.sequence = s.nextPairIndex) .sequenceIndexMismatch
  require (s.nextPairIndex.toNat < POOL_V1_PAIR_CAPACITY) .treeFull
  require (DigestIsCanonical s.currentRoot ∧ ∀ level, DigestIsCanonical (s.frontier level)) .nonCanonicalDigest

def snapshotImage (s : PoolV1PairLiveSnapshotV1) : Bytes :=
  POOL_V1_PAIR_LIVE_SNAPSHOT_MAGIC ++ (u8Bytes POOL_V1_PAIR_LIVE_SNAPSHOT_VERSION ++ (zeros 7 ++
    (POOL_V1_PAIR_TREE_FORMAT_BINDING ++ (s.pool.bytes ++ (s.deploymentDomain.bytes ++ (u64Bytes s.sequence ++
    (u64Bytes s.nextPairIndex ++ (encodeDigestCanonical s.currentRoot ++ rootsBytes (List.ofFn s.frontier)))))))))

def encodePoolV1PairLiveSnapshotV1 (s : PoolV1PairLiveSnapshotV1) : Except PoolV1PairLiveSnapshotErrorV1 Bytes := do
  validatePoolV1PairLiveSnapshotV1 s
  return snapshotImage s

def decodePoolV1PairLiveSnapshotV1 (bytes : Bytes) :
    Except PoolV1PairLiveSnapshotErrorV1 PoolV1PairLiveSnapshotV1 := do
  require (bytes.length = POOL_V1_PAIR_LIVE_SNAPSHOT_BYTES) .wrongLength
  require (slice 0 8 bytes = POOL_V1_PAIR_LIVE_SNAPSHOT_MAGIC) .wrongMagic
  require (byteAt 8 bytes = POOL_V1_PAIR_LIVE_SNAPSHOT_VERSION) .wrongVersion
  require (slice 9 7 bytes = zeros 7) .nonZeroReserved
  require (slice 16 32 bytes = POOL_V1_PAIR_TREE_FORMAT_BINDING) .wrongFormatBinding
  let currentRoot ← okOr (decodeDigestCanonical (slice 128 32 bytes)) .nonCanonicalDigest
  let frontier ← okOr (decodeDigestsAt 160 bytes) .nonCanonicalDigest
  let snapshot : PoolV1PairLiveSnapshotV1 := ⟨Bytes32.read 48 bytes, Bytes32.read 80 bytes, readU64 112 bytes,
    readU64 120 bytes, currentRoot, frontier⟩
  validatePoolV1PairLiveSnapshotV1 snapshot
  return snapshot

theorem length_snapshotImage (s : PoolV1PairLiveSnapshotV1) : (snapshotImage s).length = 800 := by
  simp only [snapshotImage, List.length_append, length_snapshotMagic, length_u8Bytes, length_zeros,
    length_pairFormatBinding, s.pool.length_eq, s.deploymentDomain.length_eq, length_u64Bytes,
    length_encodeDigestCanonical, length_frontierBytes]

theorem decode_encodeSnapshot {s : PoolV1PairLiveSnapshotV1} {bytes : Bytes}
    (h : encodePoolV1PairLiveSnapshotV1 s = .ok bytes) :
    bytes.length = 800 ∧ decodePoolV1PairLiveSnapshotV1 bytes = .ok s := by
  simp only [encodePoolV1PairLiveSnapshotV1, except_bind_eq_ok, except_pure_eq_ok] at h
  obtain ⟨_, hvalid, rfl⟩ := h
  have hlen := length_snapshotImage s
  refine ⟨hlen, ?_⟩
  obtain ⟨hroot, hfrontier⟩ : DigestIsCanonical s.currentRoot ∧ ∀ level, DigestIsCanonical (s.frontier level) := by
    simp only [validatePoolV1PairLiveSnapshotV1, except_bind_eq_ok, require_eq_ok] at hvalid
    obtain ⟨-, -, -, -, -, -, hcanonical⟩ := hvalid
    exact hcanonical
  have hmagic : slice 0 8 (snapshotImage s) = POOL_V1_PAIR_LIVE_SNAPSHOT_MAGIC := by
    simp [snapshotImage, slice_append_head, length_snapshotMagic]
  have hversion : byteAt 8 (snapshotImage s) = POOL_V1_PAIR_LIVE_SNAPSHOT_VERSION := byteAt_of_slice (by
    simp [snapshotImage, slice_append_right, slice_append_head, length_snapshotMagic])
  have hreserved : slice 9 7 (snapshotImage s) = zeros 7 := by
    simp [snapshotImage, slice_append_right, slice_append_head, length_snapshotMagic]
  have hbinding : slice 16 32 (snapshotImage s) = POOL_V1_PAIR_TREE_FORMAT_BINDING := by
    simp [snapshotImage, slice_append_right, slice_append_head, length_snapshotMagic, length_pairFormatBinding]
  have hpool : Bytes32.read 48 (snapshotImage s) = s.pool := Bytes32.read_eq (by
    simp [snapshotImage, slice_append_right, slice_append_head, length_snapshotMagic, length_pairFormatBinding])
  have hdomain : Bytes32.read 80 (snapshotImage s) = s.deploymentDomain := Bytes32.read_eq (by
    simp [snapshotImage, slice_append_right, slice_append_head, length_snapshotMagic, length_pairFormatBinding])
  have hsequence : readU64 112 (snapshotImage s) = s.sequence := readU64_of_slice (by
    simp [snapshotImage, slice_append_right, slice_append_head, length_snapshotMagic, length_pairFormatBinding])
  have hindex : readU64 120 (snapshotImage s) = s.nextPairIndex := readU64_of_slice (by
    simp [snapshotImage, slice_append_right, slice_append_head, length_snapshotMagic, length_pairFormatBinding])
  have hcurrent : slice 128 32 (snapshotImage s) = encodeDigestCanonical s.currentRoot := by
    simp [snapshotImage, slice_append_right, slice_append_head, length_snapshotMagic, length_pairFormatBinding]
  have hlevels : decodeDigestsAt 160 (snapshotImage s) = some s.frontier := by
    apply decodeDigestsAt_rootsBytes _ hfrontier
    simp [snapshotImage, slice_append_right, slice_all (length_frontierBytes _), length_snapshotMagic,
      length_pairFormatBinding]
  simp only [decodePoolV1PairLiveSnapshotV1, except_bind_eq_ok, require_eq_ok, okOr_eq_ok, except_pure_eq_ok, hpool,
    hdomain, hsequence, hindex, hcurrent, hlevels, decode_encodeDigestCanonical hroot]
  exact ⟨(), hlen, (), hmagic, (), hversion, (), hreserved, (), hbinding, _, rfl, _, rfl, (), hvalid, rfl⟩

theorem encode_decodeSnapshot {s : PoolV1PairLiveSnapshotV1} {bytes : Bytes}
    (h : decodePoolV1PairLiveSnapshotV1 bytes = .ok s) : encodePoolV1PairLiveSnapshotV1 s = .ok bytes := by
  simp only [decodePoolV1PairLiveSnapshotV1, except_bind_eq_ok, require_eq_ok, okOr_eq_ok, except_pure_eq_ok] at h
  obtain ⟨-, hlen, -, hmagic, -, hversion, -, hreserved, -, hbinding, root, hroot, frontier, hfrontier, _, hvalid, rfl⟩ := h
  simp only [POOL_V1_PAIR_LIVE_SNAPSHOT_BYTES] at hlen
  obtain ⟨hlevels, -⟩ := rootsBytes_decodeDigestsAt (by omega) hfrontier
  simp only [encodePoolV1PairLiveSnapshotV1, except_bind_eq_ok, except_pure_eq_ok]
  refine ⟨(), hvalid, ?_⟩
  rw [snapshotImage, encodeDigestCanonical_slice (by omega) hroot, hlevels, ← hmagic, ← hversion, ← hreserved, ← hbinding]
  simp (disch := omega) only [u8Bytes_byteAt, u64Bytes_readU64, Bytes32.read_bytes, slice_join]
  exact slice_all hlen

/-! ### The late public statement -/

inductive PoolV1PairLatePublicStatementErrorV1
  | wrongLength
  | wrongMagic
  | wrongVersion
  | wrongItemCount
  | wrongHeaderLength
  | wrongSnapshotLength
  | wrongAfterstateLength
  | wrongTotalLength
  | nonZeroReserved
  | snapshot (e : PoolV1PairLiveSnapshotErrorV1)
  | afterstate (e : PoolV1PairVerifierTransportErrorV1)
  | afterstateIndexMismatch
  deriving DecidableEq, Repr

structure PoolV1PairLatePublicStatementV1 where
  liveSnapshot : PoolV1PairLiveSnapshotV1
  candidateAfterstate : PoolV1PairVerifiedAfterstateV1
  deriving DecidableEq

/-- One appended pair advances the pair index by one. -/
def PoolV1PairLatePublicStatementV1.Advances (s : PoolV1PairLatePublicStatementV1) : Prop :=
  s.liveSnapshot.nextPairIndex.toNat + 1 = s.candidateAfterstate.nextPairIndex.toNat

instance (s : PoolV1PairLatePublicStatementV1) : Decidable s.Advances := inferInstanceAs (Decidable (_ = _))

def lateHeader : Bytes :=
  POOL_V1_PAIR_LATE_PUBLIC_STATEMENT_MAGIC ++ (u8Bytes POOL_V1_PAIR_LATE_PUBLIC_STATEMENT_VERSION ++
    (u8Bytes POOL_V1_PAIR_LATE_PUBLIC_STATEMENT_ITEM_COUNT ++
    (leBytes 2 POOL_V1_PAIR_LATE_PUBLIC_STATEMENT_HEADER_BYTES ++ (leBytes 4 POOL_V1_PAIR_LIVE_SNAPSHOT_BYTES ++
    (leBytes 4 POOL_V1_PAIR_VERIFIED_AFTERSTATE_BYTES ++ (leBytes 4 POOL_V1_PAIR_LATE_PUBLIC_STATEMENT_BYTES ++
    zeros 8))))))

def encodePoolV1PairLatePublicStatementV1 (s : PoolV1PairLatePublicStatementV1) :
    Except PoolV1PairLatePublicStatementErrorV1 Bytes := do
  require s.Advances .afterstateIndexMismatch
  let live ← mapErr .snapshot (encodePoolV1PairLiveSnapshotV1 s.liveSnapshot)
  let candidate ← mapErr .afterstate (encodePoolV1PairVerifiedAfterstateV1 s.candidateAfterstate)
  return lateHeader ++ (live ++ candidate)

def decodePoolV1PairLatePublicStatementV1 (bytes : Bytes) :
    Except PoolV1PairLatePublicStatementErrorV1 PoolV1PairLatePublicStatementV1 := do
  require (bytes.length = POOL_V1_PAIR_LATE_PUBLIC_STATEMENT_BYTES) .wrongLength
  require (slice 0 8 bytes = POOL_V1_PAIR_LATE_PUBLIC_STATEMENT_MAGIC) .wrongMagic
  require (byteAt 8 bytes = POOL_V1_PAIR_LATE_PUBLIC_STATEMENT_VERSION) .wrongVersion
  require (byteAt 9 bytes = POOL_V1_PAIR_LATE_PUBLIC_STATEMENT_ITEM_COUNT) .wrongItemCount
  require (leNat (slice 10 2 bytes) = POOL_V1_PAIR_LATE_PUBLIC_STATEMENT_HEADER_BYTES) .wrongHeaderLength
  require (leNat (slice 12 4 bytes) = POOL_V1_PAIR_LIVE_SNAPSHOT_BYTES) .wrongSnapshotLength
  require (leNat (slice 16 4 bytes) = POOL_V1_PAIR_VERIFIED_AFTERSTATE_BYTES) .wrongAfterstateLength
  require (leNat (slice 20 4 bytes) = POOL_V1_PAIR_LATE_PUBLIC_STATEMENT_BYTES) .wrongTotalLength
  require (slice 24 8 bytes = zeros 8) .nonZeroReserved
  let live ← mapErr .snapshot (decodePoolV1PairLiveSnapshotV1 (slice 32 800 bytes))
  let candidate ← mapErr .afterstate (decodePoolV1PairVerifiedAfterstateV1 (slice 832 688 bytes))
  let statement : PoolV1PairLatePublicStatementV1 := ⟨live, candidate⟩
  require statement.Advances .afterstateIndexMismatch
  return statement

theorem length_lateHeader : lateHeader.length = 32 := by
  simp [lateHeader, length_lateMagic]

/-- The header is fixed: its fields are checked one by one against the same constants. -/
theorem lateHeader_fields : slice 0 8 lateHeader = POOL_V1_PAIR_LATE_PUBLIC_STATEMENT_MAGIC ∧
    byteAt 8 lateHeader = POOL_V1_PAIR_LATE_PUBLIC_STATEMENT_VERSION ∧
    byteAt 9 lateHeader = POOL_V1_PAIR_LATE_PUBLIC_STATEMENT_ITEM_COUNT ∧
    leNat (slice 10 2 lateHeader) = POOL_V1_PAIR_LATE_PUBLIC_STATEMENT_HEADER_BYTES ∧
    leNat (slice 12 4 lateHeader) = POOL_V1_PAIR_LIVE_SNAPSHOT_BYTES ∧
    leNat (slice 16 4 lateHeader) = POOL_V1_PAIR_VERIFIED_AFTERSTATE_BYTES ∧
    leNat (slice 20 4 lateHeader) = POOL_V1_PAIR_LATE_PUBLIC_STATEMENT_BYTES ∧
    slice 24 8 lateHeader = zeros 8 := by decide

theorem decode_encodeLate {s : PoolV1PairLatePublicStatementV1} {bytes : Bytes}
    (h : encodePoolV1PairLatePublicStatementV1 s = .ok bytes) :
    bytes.length = 1520 ∧ decodePoolV1PairLatePublicStatementV1 bytes = .ok s := by
  simp only [encodePoolV1PairLatePublicStatementV1, except_bind_eq_ok, require_eq_ok, mapErr_eq_ok, except_pure_eq_ok] at h
  obtain ⟨-, hadvances, live, hlive, candidate, hcandidate, himage⟩ := h
  obtain ⟨hliveLength, hliveDecode⟩ := decode_encodeSnapshot hlive
  obtain ⟨hcandidateLength, hcandidateDecode⟩ := decode_encodeAfterstate hcandidate
  have hlen : bytes.length = 1520 := by
    simp [← himage, length_lateHeader, hliveLength, hcandidateLength]
  have hhead : ∀ off len, off + len ≤ 32 → slice off len bytes = slice off len lateHeader := by
    intro off len hle
    rw [← himage, slice_append_left (by rw [length_lateHeader]; exact hle)]
  have hbyte : ∀ i < 32, byteAt i bytes = byteAt i lateHeader := by
    intro i hi
    apply byteAt_of_slice_one
    rw [hhead i 1 (by omega), slice_one (by rw [length_lateHeader]; exact hi)]
  have hliveSlice : slice 32 800 bytes = live := by
    simp [← himage, slice_append_right, slice_append_head, length_lateHeader, hliveLength]
  have hcandidateSlice : slice 832 688 bytes = candidate := by
    simp [← himage, slice_append_right, slice_all, length_lateHeader, hliveLength, hcandidateLength]
  obtain ⟨hmagic, hversion, hcount, hheader, hsnapshot, hafterstate, htotal, hreserved⟩ := lateHeader_fields
  refine ⟨hlen, ?_⟩
  simp only [decodePoolV1PairLatePublicStatementV1, except_bind_eq_ok, require_eq_ok, mapErr_eq_ok, except_pure_eq_ok,
    hliveSlice, hcandidateSlice, hhead 0 8 (by omega), hhead 10 2 (by omega), hhead 12 4 (by omega),
    hhead 16 4 (by omega), hhead 20 4 (by omega), hhead 24 8 (by omega), hbyte 8 (by omega), hbyte 9 (by omega)]
  exact ⟨(), hlen, (), hmagic, (), hversion, (), hcount, (), hheader, (), hsnapshot, (), hafterstate, (), htotal, (),
    hreserved, _, hliveDecode, _, hcandidateDecode, (), hadvances, rfl⟩

theorem encode_decodeLate {s : PoolV1PairLatePublicStatementV1} {bytes : Bytes}
    (h : decodePoolV1PairLatePublicStatementV1 bytes = .ok s) : encodePoolV1PairLatePublicStatementV1 s = .ok bytes := by
  simp only [decodePoolV1PairLatePublicStatementV1, except_bind_eq_ok, require_eq_ok, mapErr_eq_ok, except_pure_eq_ok] at h
  obtain ⟨-, hlen, -, hmagic, -, hversion, -, hcount, -, hheader, -, hsnapshot, -, hafterstate, -, htotal, -, hreserved,
    live, hlive, candidate, hcandidate, -, hadvances, rfl⟩ := h
  simp only [POOL_V1_PAIR_LATE_PUBLIC_STATEMENT_BYTES] at hlen
  have hfront : lateHeader = slice 0 32 bytes := by
    rw [lateHeader, ← hmagic, ← hversion, ← hcount, ← hheader, ← hsnapshot, ← hafterstate, ← htotal, ← hreserved]
    simp (disch := omega) only [u8Bytes_byteAt, leBytes_leNat_slice, slice_join]
  simp only [encodePoolV1PairLatePublicStatementV1, except_bind_eq_ok, require_eq_ok, mapErr_eq_ok, except_pure_eq_ok]
  refine ⟨(), hadvances, _, encode_decodeSnapshot hlive, _, encode_decodeAfterstate hcandidate, ?_⟩
  rw [hfront, slice_join _ rfl, slice_join _ rfl]
  exact slice_all hlen

end Aspis.Forest
