import Aspis.Forest.Accounts
import Aspis.Pool.StateExact

/-! The accounts of the pair forest are read exactly: master, lane and checkpoint. -/

namespace Aspis.Forest

open Lib Chain Statement Pool

/-! ### Lane sequences -/

theorem encodeLaneSequences_eq (s : LaneSequences) : encodeLaneSequences s = leBytes 8 (s 0) ++ (leBytes 8 (s 1) ++
    (leBytes 8 (s 2) ++ (leBytes 8 (s 3) ++ (leBytes 8 (s 4) ++ (leBytes 8 (s 5) ++ (leBytes 8 (s 6) ++
      leBytes 8 (s 7))))))) := by
  simp [encodeLaneSequences, List.finRange_succ, List.flatMap_cons]

@[simp] theorem length_encodeLaneSequences (s : LaneSequences) : (encodeLaneSequences s).length = 64 := by
  simp [encodeLaneSequences_eq]

theorem slice_encodeLaneSequences (s : LaneSequences) (lane : LaneIdV2) :
    slice (8 * lane) 8 (encodeLaneSequences s) = leBytes 8 (s lane) := by
  rw [encodeLaneSequences_eq]
  fin_cases lane <;> simp [slice, List.drop_append, List.drop_of_length_le, List.take_of_length_le]

/-- Sequences of 64 bits are read back from where they were written. -/
theorem decode_encodeLaneSequences {off : ℕ} {bytes : Bytes} {s : LaneSequences}
    (h : slice off 64 bytes = encodeLaneSequences s) (hs : ∀ lane, s lane < U64_LIMIT) :
    decodeLaneSequences off bytes = s := by
  funext lane
  have hlane := lane.isLt
  have hslice : slice (off + 8 * lane) 8 bytes = leBytes 8 (s lane) := by
    rw [← slice_encodeLaneSequences, ← h, slice_slice bytes (by omega)]
  rw [decodeLaneSequences, hslice, leNat_leBytes_of_lt (hs lane)]

theorem encode_decodeLaneSequences {off : ℕ} {bytes : Bytes} (h : off + 64 ≤ bytes.length) :
    encodeLaneSequences (decodeLaneSequences off bytes) = slice off 64 bytes := by
  have hlane : ∀ lane : LaneIdV2, leBytes 8 (decodeLaneSequences off bytes lane) = slice (off + 8 * lane) 8 bytes :=
    fun lane => leBytes_leNat_slice (by have := lane.isLt; omega)
  rw [encodeLaneSequences_eq]
  simp only [hlane]
  rw [slice_join _ (by rfl), slice_join _ (by rfl), slice_join _ (by rfl), slice_join _ (by rfl), slice_join _ (by rfl),
    slice_join _ (by rfl), slice_join _ (by rfl)]
  rfl

theorem capacity_lt {n : ℕ} (h : n ≤ POOL_V1_PAIR_CAPACITY) : n < U64_LIMIT := by
  simp only [POOL_V1_PAIR_CAPACITY, POOL_V1_TREE_DEPTH, U64_LIMIT] at *
  omega

/-! ### The master -/

@[simp] theorem length_formatBinding : POOL_V1_PAIR_FOREST_ACCOUNT_FORMAT_BINDING.length = 32 := by
  simp [POOL_V1_PAIR_FOREST_ACCOUNT_FORMAT_BINDING]

@[simp] theorem length_masterPreamble : masterPreamble.length = 8 := by simp [masterPreamble]

@[simp] theorem length_masterImage (m : PoolV1PairForestMasterV1) : (masterImage m).length = 384 := by
  simp [masterImage]

theorem decodeBoolean_eq_ok {b : UInt8} {flag : Bool} : decodeBoolean b = .ok flag ↔ b = boolFlag flag := by
  unfold decodeBoolean
  split_ifs with hzero hone
  · cases flag <;> simp [boolFlag, hzero]
  · cases flag <;> simp [boolFlag, hone]
  · cases flag <;> simp [boolFlag, hzero, hone]

/-- The next sequence fits its word and the asset is a canonical limb. -/
structure CanonicalMaster (m : PoolV1PairForestMasterV1) : Prop where
  asset_canonical : m.identity.assetId.Canonical
  next_lt : m.nextCheckpointSequence < U64_LIMIT

theorem validateMaster_ok {m : PoolV1PairForestMasterV1} {u : Unit} (h : validateMaster m = .ok u) :
    validateVerifierPolicyV1 m.verifierPolicy = .ok () ∧
      ∀ lane, m.lastCheckpointLaneSequences lane ≤ POOL_V1_PAIR_CAPACITY := by
  simp only [validateMaster, except_bind_eq_ok, require_eq_ok, mapErr_eq_ok] at h
  obtain ⟨-, -, _, hpolicy, -, hlanes, -⟩ := h
  exact ⟨hpolicy, hlanes⟩

theorem decode_masterImage {m : PoolV1PairForestMasterV1} {u : Unit} (hcanonical : CanonicalMaster m)
    (hvalid : validateMaster m = .ok u) : decodePoolV1PairForestMasterV1 (masterImage m) = .ok m := by
  obtain ⟨hpolicy, hlanes⟩ := validateMaster_ok hvalid
  have hnext : leNat (slice 40 8 (masterImage m)) = m.nextCheckpointSequence := by
    have hslice : slice 40 8 (masterImage m) = leBytes 8 m.nextCheckpointSequence := by
      simp [masterImage, slice_append_right, slice_append_head]
    rw [hslice, leNat_leBytes_of_lt hcanonical.next_lt]
  have hflags : slice 48 2 (masterImage m) = [m.initializedLaneMask, boolFlag m.hasCheckpoint] := by
    simp [masterImage, slice_append_right]
    rfl
  have hmask : byteAt 48 (masterImage m) = m.initializedLaneMask := by
    apply byteAt_of_slice_one
    have hinner := @slice_slice 48 2 0 1 (masterImage m) (by omega)
    rw [hflags] at hinner
    exact hinner.symm
  have hflag : byteAt 49 (masterImage m) = boolFlag m.hasCheckpoint := by
    apply byteAt_of_slice_one
    have hinner := @slice_slice 48 2 1 1 (masterImage m) (by omega)
    rw [hflags] at hinner
    exact hinner.symm
  obtain ⟨head, hsplit, hhead⟩ : ∃ head, masterImage m = head ++ (zeros 14 ++ (encodePoolIdentityV1 m.identity ++
      (encodePolicyBytes m.verifierPolicy ++ (zeros 8 ++ encodeLaneSequences m.lastCheckpointLaneSequences)))) ∧
      head.length = 50 :=
    ⟨masterPreamble ++ (POOL_V1_PAIR_FOREST_ACCOUNT_FORMAT_BINDING ++ (leBytes 8 m.nextCheckpointSequence ++
      [m.initializedLaneMask, boolFlag m.hasCheckpoint])), by simp [masterImage], by simp⟩
  have hreserved : slice 50 14 (masterImage m) = zeros 14 := by
    simp [hsplit, hhead, slice_append_right, slice_append_head]
  have hidentity : slice 64 144 (masterImage m) = encodePoolIdentityV1 m.identity := by
    simp [hsplit, hhead, slice_append_right, slice_append_head]
  have hpolicyBytes : slice 208 104 (masterImage m) = encodePolicyBytes m.verifierPolicy := by
    simp [hsplit, hhead, slice_append_right, slice_append_head]
  have hgap : slice 312 8 (masterImage m) = zeros 8 := by
    simp [hsplit, hhead, slice_append_right, slice_append_head]
  have hbinding : slice 8 32 (masterImage m) = POOL_V1_PAIR_FOREST_ACCOUNT_FORMAT_BINDING := by
    simp [masterImage, slice_append_right, slice_append_head]
  have hsequences : decodeLaneSequences 320 (masterImage m) = m.lastCheckpointLaneSequences := by
    apply decode_encodeLaneSequences _ fun lane => capacity_lt (hlanes lane)
    simp [hsplit, hhead, slice_append_right, slice_all]
  simp only [decodePoolV1PairForestMasterV1, except_bind_eq_ok, require_eq_ok, mapErr_eq_ok, except_pure_eq_ok,
    decodeBoolean_eq_ok, hnext, hmask, hreserved, hidentity, hpolicyBytes, hgap, hbinding, hsequences]
  exact ⟨(), by simp [POOL_V1_PAIR_FOREST_MASTER_ACCOUNT_BYTES], (), rfl, (), rfl, (), rfl, (), rfl, (),
    ⟨rfl, by simp, trivial⟩, (), trivial, m.hasCheckpoint, hflag, m.identity,
    decode_encodePoolIdentityV1 hcanonical.asset_canonical, m.verifierPolicy, decode_encodePolicyBytes hpolicy, (),
    hvalid, rfl⟩

theorem masterImage_of_decode {bytes : Bytes} {m : PoolV1PairForestMasterV1}
    (h : decodePoolV1PairForestMasterV1 bytes = .ok m) :
    masterImage m = bytes ∧ CanonicalMaster m ∧ validateMaster m = .ok () := by
  simp only [decodePoolV1PairForestMasterV1, except_bind_eq_ok, require_eq_ok, mapErr_eq_ok, except_pure_eq_ok,
    decodeBoolean_eq_ok] at h
  obtain ⟨-, hlen, -, hmagic, -, hversion, -, hcount, -, hencoding, -, ⟨hzero, hreserved, hgap⟩, -, hbinding,
    hasCheckpoint, hflag, identity, hidentity, policy, hpolicy, _, hvalid, rfl⟩ := h
  simp only [POOL_V1_PAIR_FOREST_MASTER_ACCOUNT_BYTES] at hlen
  obtain ⟨hidentityBytes, hasset⟩ := encodePoolIdentityV1_of_decode hidentity
  obtain ⟨hpolicyBytes, -⟩ := encodePolicyBytes_of_decode hpolicy
  have hpreamble : masterPreamble = slice 0 8 bytes := by
    rw [slice_split 0 4 4, slice_split 4 1 3, slice_split 5 1 2, slice_split 6 1 1, hmagic, slice_one (by omega),
      slice_one (by omega), slice_one (by omega), slice_one (by omega), hversion, hcount, hencoding, hzero]
    rfl
  have hflags : [byteAt 48 bytes, boolFlag hasCheckpoint] = slice 48 2 bytes := by
    rw [slice_split 48 1 1, slice_one (by omega), slice_one (by omega), hflag]
    rfl
  have hzeros : zeros 14 = slice 50 14 bytes := by
    rw [eq_zeros_of_allZero hreserved, length_slice_of_le (by omega)]
  refine ⟨?_, ⟨hasset, ?_⟩, hvalid⟩
  · simp only [masterImage, hpreamble, hflags, hzeros, hidentityBytes, hpolicyBytes, ← hbinding, ← hgap]
    simp (disch := omega) only [leBytes_leNat_slice, encode_decodeLaneSequences, slice_join]
    exact slice_all hlen
  · have hlt := leNat_lt (slice 40 8 bytes)
    rw [length_slice_of_le (by omega)] at hlt
    exact hlt

theorem master_exact : (Format.ofExcept decodePoolV1PairForestMasterV1 encodePoolV1PairForestMasterV1
    CanonicalMaster).Exact := by
  apply Format.exact_ofExcept
  · intro bytes m hcanonical h
    simp only [encodePoolV1PairForestMasterV1, except_bind_eq_ok, except_pure_eq_ok] at h
    obtain ⟨_, hvalid, rfl⟩ := h
    exact decode_masterImage hcanonical hvalid
  · intro bytes m h
    obtain ⟨hbytes, hcanonical, hvalid⟩ := masterImage_of_decode h
    refine ⟨hcanonical, ?_⟩
    simp only [encodePoolV1PairForestMasterV1, except_bind_eq_ok, except_pure_eq_ok]
    exact ⟨(), hvalid, hbytes⟩

/-! ### Lanes -/

section
variable {env : Environment}

@[simp] theorem length_lanePreamble (laneId : UInt8) : (lanePreamble laneId).length = 8 := by simp [lanePreamble]

@[simp] theorem length_laneImage (lane : PoolV1PairForestLaneStateV1) : (laneImage lane).length = 768 := by
  simp [laneImage]

theorem drop_laneImage (lane : PoolV1PairForestLaneStateV1) : (laneImage lane).drop 80 = encodeTree lane.tree := by
  have hsplit : laneImage lane = (lanePreamble lane.laneId ++ (POOL_V1_PAIR_FOREST_ACCOUNT_FORMAT_BINDING ++
      (lane.master.bytes ++ zeros 8))) ++ encodeTree lane.tree := by
    simp [laneImage]
  rw [hsplit, List.drop_left' (by simp)]

theorem decode_laneImage {lane : PoolV1PairForestLaneStateV1} {bytes : Bytes} (hcanonical : CanonicalTree lane.tree)
    (h : encodePoolV1PairForestLaneStateV1 env lane = .ok bytes) :
    decodePoolV1PairForestLaneStateV1 env bytes = .ok lane := by
  simp only [encodePoolV1PairForestLaneStateV1, except_bind_eq_ok, require_eq_ok, mapErr_eq_ok, except_pure_eq_ok] at h
  obtain ⟨-, hlane, -, hmaster, -, hindex, _, hvalid, rfl⟩ := h
  have hbinding : slice 8 32 (laneImage lane) = POOL_V1_PAIR_FOREST_ACCOUNT_FORMAT_BINDING := by
    simp [laneImage, slice_append_right, slice_append_head]
  have hread : Bytes32.read 40 (laneImage lane) = lane.master := Bytes32.read_eq (by
    simp [laneImage, slice_append_right, slice_append_head])
  have hreserved : slice 72 8 (laneImage lane) = zeros 8 := by
    simp [laneImage, slice_append_right, slice_append_head]
  have htree : decodePairTree env (encodeTree lane.tree) = .ok lane.tree := by
    simp only [decodePairTree, except_bind_eq_ok, except_pure_eq_ok]
    exact ⟨lane.tree, decode_encodeTree (.of_validated hcanonical hvalid), (), hvalid, rfl⟩
  simp only [decodePoolV1PairForestLaneStateV1, except_bind_eq_ok, require_eq_ok, mapErr_eq_ok, except_pure_eq_ok,
    hbinding, hread, hreserved, drop_laneImage]
  exact ⟨(), by simp [POOL_V1_PAIR_FOREST_LANE_ACCOUNT_BYTES], (), rfl, (), rfl, (), hlane, (), rfl, (), rfl, (),
    trivial, (), hmaster, (), by simp, lane.tree, htree, (), hindex, rfl⟩

theorem laneImage_of_decode {bytes : Bytes} {lane : PoolV1PairForestLaneStateV1}
    (h : decodePoolV1PairForestLaneStateV1 env bytes = .ok lane) :
    CanonicalTree lane.tree ∧ encodePoolV1PairForestLaneStateV1 env lane = .ok bytes := by
  simp only [decodePoolV1PairForestLaneStateV1, decodePairTree, except_bind_eq_ok, require_eq_ok, mapErr_eq_ok,
    except_pure_eq_ok] at h
  obtain ⟨-, hlen, -, hmagic, -, hversion, -, hlane, -, hcount, -, hdepth, -, hbinding, -, hmaster, -, hreserved, tree,
    ⟨_, htree, _, hvalid, rfl⟩, -, hindex, rfl⟩ := h
  simp only [POOL_V1_PAIR_FOREST_LANE_ACCOUNT_BYTES] at hlen
  obtain ⟨htreeBytes, hroot, hfrontier⟩ := encodeTree_of_decode htree
  have hpreamble : lanePreamble (byteAt 5 bytes) = slice 0 8 bytes := by
    rw [slice_split 0 4 4, slice_split 4 1 3, slice_split 5 1 2, slice_split 6 1 1, hmagic, slice_one (by omega),
      slice_one (by omega), slice_one (by omega), slice_one (by omega), hversion, hcount, hdepth]
    rfl
  have hzeros : zeros 8 = slice 72 8 bytes := by
    rw [eq_zeros_of_allZero hreserved, length_slice_of_le (by omega)]
  have hdrop : bytes.drop 80 = slice 80 688 bytes := by
    rw [slice, List.take_of_length_le (by rw [List.length_drop]; omega)]
  refine ⟨⟨hroot, hfrontier⟩, ?_⟩
  simp only [encodePoolV1PairForestLaneStateV1, except_bind_eq_ok, require_eq_ok, mapErr_eq_ok, except_pure_eq_ok]
  refine ⟨(), hlane, (), hmaster, (), hindex, (), hvalid, ?_⟩
  simp only [laneImage, hpreamble, htreeBytes, hzeros, hdrop, ← hbinding]
  simp (disch := omega) only [Bytes32.read_bytes, slice_join]
  exact slice_all hlen

theorem lane_exact : (Format.ofExcept (decodePoolV1PairForestLaneStateV1 env) (encodePoolV1PairForestLaneStateV1 env)
    fun lane => CanonicalTree lane.tree).Exact :=
  Format.exact_ofExcept (fun _ _ => decode_laneImage) fun _ _ => laneImage_of_decode

end

/-! ### Checkpoints -/

@[simp] theorem length_checkpointPreamble : checkpointPreamble.length = 8 := by simp [checkpointPreamble]

@[simp] theorem length_checkpointImage (c : PoolV1PairForestCheckpointV1) : (checkpointImage c).length = 192 := by
  simp [checkpointImage]

theorem decode_checkpointImage {c : PoolV1PairForestCheckpointV1} {bytes : Bytes}
    (hsequence : c.checkpointSequence < U64_LIMIT) (h : encodePoolV1PairForestCheckpointV1 c = .ok bytes) :
    decodePoolV1PairForestCheckpointV1 bytes = .ok c := by
  simp only [encodePoolV1PairForestCheckpointV1, except_bind_eq_ok, require_eq_ok, except_pure_eq_ok] at h
  obtain ⟨-, hbound, -, hroot, -, hlanes, rfl⟩ := h
  have hmaster : Bytes32.read 8 (checkpointImage c) = c.master := Bytes32.read_eq (by
    simp [checkpointImage, slice_append_right, slice_append_head])
  have hdomain : Bytes32.read 40 (checkpointImage c) = c.deploymentDomain := Bytes32.read_eq (by
    simp [checkpointImage, slice_append_right, slice_append_head])
  have hnumber : leNat (slice 72 8 (checkpointImage c)) = c.checkpointSequence := by
    have hslice : slice 72 8 (checkpointImage c) = leBytes 8 c.checkpointSequence := by
      simp [checkpointImage, slice_append_right, slice_append_head]
    rw [hslice, leNat_leBytes_of_lt hsequence]
  have hglobal : slice 80 32 (checkpointImage c) = encodeDigestCanonical c.globalRoot := by
    simp [checkpointImage, slice_append_right, slice_append_head]
  have hsequences : decodeLaneSequences 112 (checkpointImage c) = c.laneSequences := by
    apply decode_encodeLaneSequences _ fun lane => capacity_lt (hlanes lane)
    simp [checkpointImage, slice_append_right, slice_append_head]
  have htail : (checkpointImage c).drop 176 = zeros 16 := by
    have hslice : slice 176 16 (checkpointImage c) = zeros 16 := by
      simp [checkpointImage, slice_append_right, slice_all]
    rwa [slice, List.take_of_length_le (by simp)] at hslice
  simp only [decodePoolV1PairForestCheckpointV1, except_bind_eq_ok, require_eq_ok, okOr_eq_ok, except_pure_eq_ok,
    hmaster, hdomain, hnumber, hglobal, hsequences, htail, decode_encodeDigestCanonical hroot]
  exact ⟨(), by simp [POOL_V1_PAIR_FOREST_CHECKPOINT_ACCOUNT_BYTES], (), rfl, (), rfl, (), rfl, (), rfl, (),
    ⟨rfl, by simp⟩, (), hbound, _, rfl, (), hlanes, rfl⟩

theorem checkpointImage_of_decode {bytes : Bytes} {c : PoolV1PairForestCheckpointV1}
    (h : decodePoolV1PairForestCheckpointV1 bytes = .ok c) :
    c.checkpointSequence < U64_LIMIT ∧ encodePoolV1PairForestCheckpointV1 c = .ok bytes := by
  simp only [decodePoolV1PairForestCheckpointV1, except_bind_eq_ok, require_eq_ok, okOr_eq_ok, except_pure_eq_ok] at h
  obtain ⟨-, hlen, -, hmagic, -, hversion, -, hcount, -, hencoding, -, ⟨hzero, hreserved⟩, -, hbound, root, hroot, -,
    hlanes, rfl⟩ := h
  simp only [POOL_V1_PAIR_FOREST_CHECKPOINT_ACCOUNT_BYTES] at hlen
  have hpreamble : checkpointPreamble = slice 0 8 bytes := by
    rw [slice_split 0 4 4, slice_split 4 1 3, slice_split 5 1 2, slice_split 6 1 1, hmagic, slice_one (by omega),
      slice_one (by omega), slice_one (by omega), slice_one (by omega), hversion, hcount, hencoding, hzero]
    rfl
  have htail : zeros 16 = slice 176 16 bytes := by
    have hdrop : bytes.drop 176 = slice 176 16 bytes := by
      rw [slice, List.take_of_length_le (by rw [List.length_drop]; omega)]
    rw [← hdrop, eq_zeros_of_allZero hreserved, List.length_drop, hlen]
  constructor
  · have hlt := leNat_lt (slice 72 8 bytes)
    rw [length_slice_of_le (by omega)] at hlt
    exact hlt
  · simp only [encodePoolV1PairForestCheckpointV1, except_bind_eq_ok, require_eq_ok, except_pure_eq_ok]
    refine ⟨(), hbound, (), decodeDigestCanonical_canonical hroot, (), hlanes, ?_⟩
    rw [checkpointImage, encodeDigestCanonical_slice (by omega) hroot, hpreamble, htail]
    simp (disch := omega) only [Bytes32.read_bytes, leBytes_leNat_slice, encode_decodeLaneSequences, slice_join]
    exact slice_all hlen

theorem checkpoint_exact : (Format.ofExcept decodePoolV1PairForestCheckpointV1 encodePoolV1PairForestCheckpointV1
    fun c => c.checkpointSequence < U64_LIMIT).Exact :=
  Format.exact_ofExcept (fun _ _ => decode_checkpointImage) fun _ _ => checkpointImage_of_decode

end Aspis.Forest
