import Aspis.Lib.Format
import Aspis.Pool.State

/-! The pool state and its parts are read exactly: the bytes a strict decoder
accepts are the encoding of the value it returns. -/

namespace Aspis.Pool

open Lib Chain Statement

/-! ### Identity and policy -/

theorem M31.toLeBytes_slice {off : ℕ} {bytes : Bytes} (hlen : off + 4 ≤ bytes.length) :
    M31.toLeBytes ⟨UInt32.ofNat (leNat (slice off 4 bytes))⟩ = slice off 4 bytes := by
  have hlt := leNat_lt (slice off 4 bytes)
  rw [length_slice_of_le hlen] at hlt
  have hnat : (UInt32.ofNat (leNat (slice off 4 bytes))).toNat = leNat (slice off 4 bytes) := by
    rw [UInt32.toNat_ofNat']
    exact Nat.mod_eq_of_lt hlt
  rw [M31.toLeBytes, hnat, leBytes_leNat_slice hlen]

theorem encodePoolIdentityV1_of_decode {bytes : Bytes} {i : PoolIdentityV1} (h : decodePoolIdentityV1 bytes = .ok i) :
    encodePoolIdentityV1 i = bytes ∧ i.assetId.Canonical := by
  simp only [decodePoolIdentityV1, except_bind_eq_ok, require_eq_ok, except_pure_eq_ok] at h
  obtain ⟨-, hlen, -, hmagic, -, hversion, -, ⟨hreserved, hzeros⟩, -, hasset, rfl⟩ := h
  have hpreamble : identityPreamble = slice 0 8 bytes := by
    rw [slice_split 0 4 4, slice_split 4 1 3, hmagic, hversion, hreserved]
    rfl
  constructor
  · simp (disch := omega) only [encodePoolIdentityV1, hpreamble, Bytes32.read_bytes, M31.toLeBytes_slice, ← hzeros,
      slice_join]
    exact slice_all hlen
  · have hP : P < 2 ^ 32 := by decide
    simp only [M31.Canonical, UInt32.toNat_ofNat']
    omega

theorem encodePolicyBytes_of_decode {bytes : Bytes} {p : VerifierPolicyV1} (h : decodeVerifierPolicyV1 bytes = .ok p) :
    encodePolicyBytes p = bytes ∧ validateVerifierPolicyV1 p = .ok () := by
  simp only [decodeVerifierPolicyV1, except_bind_eq_ok, require_eq_ok, except_pure_eq_ok] at h
  obtain ⟨-, hlen, -, hmagic, -, hversion, -, hreserved, _, hvalid, rfl⟩ := h
  have hpreamble : policyPreamble (byteAt 5 bytes) = slice 0 8 bytes := by
    rw [slice_split 0 4 4, slice_split 4 1 3, slice_split 5 1 2, hmagic, hversion, hreserved, slice_one (by omega)]
    rfl
  constructor
  · simp (disch := omega) only [encodePolicyBytes, hpreamble, Bytes32.read_bytes, slice_join]
    exact slice_all hlen
  · exact hvalid

/-! ### Digests in consecutive slots -/

/-- Digests that stand one after another from `off` on. -/
theorem rootsBytes_ofFn_slice {bytes : Bytes} {off n : ℕ} {d : Fin n → Digest}
    (h : ∀ i : Fin n, encodeDigestCanonical (d i) = slice (off + 32 * i) 32 bytes) :
    rootsBytes (List.ofFn d) = slice off (32 * n) bytes := by
  induction n generalizing off with
  | zero => simp [rootsBytes, slice]
  | succ n ih =>
    have hrest := @ih (off + 32) (fun i => d i.succ) fun i => by
      rw [h i.succ, Fin.val_succ, show off + 32 * (i + 1 : ℕ) = off + 32 + 32 * i by ring]
    have hfirst : encodeDigestCanonical (d 0) = slice off 32 bytes := h 0
    have hcons : rootsBytes (List.ofFn d) = encodeDigestCanonical (d 0) ++ rootsBytes (List.ofFn fun i => d i.succ) := by
      rw [List.ofFn_succ]
      rfl
    rw [hcons, hrest, hfirst, slice_join _ rfl, show 32 + 32 * n = 32 * (n + 1) by ring]

/-- The digests in consecutive slots from `off` on; one that is not canonical makes them all invalid. -/
def decodeDigestsAt (off : ℕ) (bytes : Bytes) : Option (Fin POOL_V1_TREE_DEPTH → Digest) :=
  if h : ∀ i : Fin POOL_V1_TREE_DEPTH, (decodeDigestCanonical (slice (off + 32 * i) 32 bytes)).isSome = true then
    some fun i => (decodeDigestCanonical (slice (off + 32 * i) 32 bytes)).get (h i)
  else none

theorem decodeDigestsAt_eq_some {off : ℕ} {bytes : Bytes} {d : Fin POOL_V1_TREE_DEPTH → Digest} :
    decodeDigestsAt off bytes = some d ↔ ∀ i : Fin POOL_V1_TREE_DEPTH,
      decodeDigestCanonical (slice (off + 32 * i) 32 bytes) = some (d i) := by
  unfold decodeDigestsAt
  split_ifs with hsome
  · constructor
    · intro h i
      obtain rfl := Option.some.inj h
      simp
    · intro h
      congr 1
      funext i
      simp [h i]
  · constructor
    · intro h
      cases h
    · intro h
      exact absurd (fun i => by rw [h i]; rfl) hsome

/-- Canonical digests are read back from where they were written. -/
theorem decodeDigestsAt_rootsBytes {off : ℕ} {bytes : Bytes} {d : Fin POOL_V1_TREE_DEPTH → Digest}
    (h : slice off 640 bytes = rootsBytes (List.ofFn d)) (hcanonical : ∀ i, DigestIsCanonical (d i)) :
    decodeDigestsAt off bytes = some d := by
  rw [decodeDigestsAt_eq_some]
  intro i
  have hi : (i : ℕ) < 20 := i.isLt
  have hslice := @slice_rootsBytes (List.ofFn d) i (by simp)
  rw [← h, slice_slice bytes (by omega), List.getElem_ofFn] at hslice
  rw [hslice, decode_encodeDigestCanonical (hcanonical i)]

theorem rootsBytes_decodeDigestsAt {off : ℕ} {bytes : Bytes} {d : Fin POOL_V1_TREE_DEPTH → Digest}
    (hlen : off + 640 ≤ bytes.length) (h : decodeDigestsAt off bytes = some d) :
    rootsBytes (List.ofFn d) = slice off 640 bytes ∧ ∀ i, DigestIsCanonical (d i) := by
  have hdecode := decodeDigestsAt_eq_some.mp h
  refine ⟨rootsBytes_ofFn_slice fun i => encodeDigestCanonical_slice ?_ (hdecode i),
    fun i => decodeDigestCanonical_canonical (hdecode i)⟩
  have hi : (i : ℕ) < 20 := i.isLt
  omega

/-! ### The tree -/

theorem decodeFrontier_eq_some {bytes : Bytes} {f : Fin POOL_V1_TREE_DEPTH → Digest} :
    decodeFrontier bytes = some f ↔ ∀ level : Fin POOL_V1_TREE_DEPTH,
      decodeDigestCanonical (slice (48 + 32 * level) 32 bytes) = some (f level) := decodeDigestsAt_eq_some

theorem encodeTree_of_decode {bytes : Bytes} {t : PoolTree} (h : decodeTreeImageUnvalidated bytes = .ok t) :
    encodeTree t = bytes ∧ DigestIsCanonical t.root ∧ ∀ level, DigestIsCanonical (t.frontier level) := by
  simp only [decodeTreeImageUnvalidated, except_bind_eq_ok, require_eq_ok, okOr_eq_ok, except_pure_eq_ok] at h
  obtain ⟨-, hlen, -, hmagic, -, hversion, -, hdepth, -, hhash, -, hencoding, root, hroot, frontier, hfrontier, rfl⟩ := h
  have hlevel := decodeFrontier_eq_some.mp hfrontier
  have hpreamble : treePreamble = slice 0 8 bytes := by
    rw [slice_split 0 4 4, slice_split 4 1 3, slice_split 5 1 2, slice_split 6 1 1, hmagic, hversion, hdepth, hhash,
      hencoding]
    rfl
  have hslots : rootsBytes (List.ofFn frontier) = slice 48 640 bytes :=
    rootsBytes_ofFn_slice fun level =>
      encodeDigestCanonical_slice (by have := level.isLt; simp only [POOL_V1_TREE_DEPTH] at this; omega) (hlevel level)
  refine ⟨?_, decodeDigestCanonical_canonical hroot, fun level => decodeDigestCanonical_canonical (hlevel level)⟩
  rw [encodeTree, hpreamble, encodeDigestCanonical_slice (by omega) hroot, hslots]
  simp (disch := omega) only [leBytes_leNat_slice, slice_join]
  exact slice_all hlen

/-- The stored digests of a tree are canonical. -/
structure CanonicalTree (t : PoolTree) : Prop where
  root_canonical : DigestIsCanonical t.root
  frontier_canonical : ∀ level, DigestIsCanonical (t.frontier level)

section
variable (parent : Digest → Digest → Digest) (empty : ℕ → Digest)

/-- The tree encoder against a table of empty roots. -/
def encodeWithEmptyRoots (t : PoolTree) : Except PoolV1TreeError Bytes := do
  t.validateWithEmptyRoots parent empty
  return encodeTree t

/-- The strict tree decoder against a table of empty roots. -/
def decodeWithEmptyRoots (bytes : Bytes) : Except PoolV1TreeError PoolTree := do
  let t ← decodeTreeImageUnvalidated bytes
  t.validateWithEmptyRoots parent empty
  return t

end

section
variable {parent : Digest → Digest → Digest} {empty : ℕ → Digest} {t : PoolTree}

/-- What the complete check of a tree says. -/
theorem validateWithEmptyRoots_ok {u : Unit} (h : t.validateWithEmptyRoots parent empty = .ok u) :
    t.nextLeafIndex ≤ POOL_V1_LEAF_CAPACITY ∧
      (∀ level : Fin POOL_V1_TREE_DEPTH, t.nextLeafIndex.testBit level = false → t.frontier level = empty level) ∧
      (t.nextLeafIndex = 0 → t.root = empty POOL_V1_TREE_DEPTH) := by
  unfold IncrementalMerkleTreeV1.validateWithEmptyRoots at h
  split_ifs at h with hindex hfrontier hzero hroot
  all_goals
    simp only [not_exists, not_and, not_not] at hfrontier
    refine ⟨by simp only [POOL_V1_LEAF_CAPACITY]; omega, hfrontier, fun hz => ?_⟩
  · exact hroot
  · exact absurd hz hzero
  · exact absurd hz hzero

theorem EncodableTree.of_validated {u : Unit} (hcanonical : CanonicalTree t)
    (h : t.validateWithEmptyRoots parent empty = .ok u) : EncodableTree t :=
  ⟨(validateWithEmptyRoots_ok h).1, hcanonical.root_canonical, hcanonical.frontier_canonical⟩

theorem tree_exact : (Format.ofExcept (decodeWithEmptyRoots parent empty) (encodeWithEmptyRoots parent empty)
    CanonicalTree).Exact := by
  apply Format.exact_ofExcept
  · intro bytes t hcanonical h
    simp only [encodeWithEmptyRoots, except_bind_eq_ok, except_pure_eq_ok] at h
    obtain ⟨_, hvalid, rfl⟩ := h
    simp only [decodeWithEmptyRoots, except_bind_eq_ok, except_pure_eq_ok]
    exact ⟨t, decode_encodeTree (.of_validated hcanonical hvalid), (), hvalid, rfl⟩
  · intro bytes t h
    simp only [decodeWithEmptyRoots, except_bind_eq_ok, except_pure_eq_ok] at h
    obtain ⟨_, hdecode, _, hvalid, rfl⟩ := h
    obtain ⟨hbytes, hroot, hfrontier⟩ := encodeTree_of_decode hdecode
    refine ⟨⟨hroot, hfrontier⟩, ?_⟩
    simp only [encodeWithEmptyRoots, except_bind_eq_ok, except_pure_eq_ok]
    exact ⟨(), hvalid, hbytes⟩

end

/-! ### The state -/

section
variable {env : Environment}

/-- At an empty tree the encoder compares with the table and skips the root walk. -/
theorem validateTreeEncoding_ok {t : PoolTree} {u : Unit} :
    validateTreeEncoding env t = .ok u ↔ validateTree env t = .ok u := by
  unfold validateTreeEncoding
  split_ifs with hzero
  · rw [require_eq_ok]
    constructor
    · rintro ⟨hroot, hfrontier⟩
      unfold validateTree IncrementalMerkleTreeV1.validateWithEmptyRoots
      rw [if_neg (by rw [hzero]; exact Nat.not_lt_zero _), if_neg (by simpa using fun level _ => hfrontier level),
        if_pos hzero, if_pos hroot]
    · intro h
      obtain ⟨-, hfrontier, hroot⟩ := validateWithEmptyRoots_ok h
      exact ⟨hroot hzero, fun level => hfrontier level (by rw [hzero, Nat.zero_testBit])⟩
  · exact mapErr_eq_ok

variable (env) in
def PoolStateV1.encode (s : PoolStateV1) : Except ProgramError Bytes := do
  s.validateEncoding env
  return s.writeEncodingPrevalidated

/-- A state of the given pool whose limbs are canonical. -/
structure CanonicalState (pool : Pubkey) (s : PoolStateV1) : Prop where
  pool_eq : s.identity.pool = pool
  asset_canonical : s.identity.assetId.Canonical
  tree_canonical : CanonicalTree s.tree

theorem validateEncoding_ok {s : PoolStateV1} {u : Unit} : s.validateEncoding env = .ok u ↔
    validateTree env s.tree = .ok () ∧ validateVerifierPolicyV1 s.verifierPolicy = .ok () := by
  simp only [PoolStateV1.validateEncoding, except_bind_eq_ok, mapErr_eq_ok, validateTreeEncoding_ok]
  constructor
  · rintro ⟨_, htree, hpolicy⟩
    exact ⟨htree, hpolicy⟩
  · rintro ⟨htree, hpolicy⟩
    exact ⟨(), htree, hpolicy⟩

/-- Accepted state bytes are the encoding of the state that is returned. -/
theorem writeEncoding_of_decode {data : Bytes} {pool : Pubkey} {s : PoolStateV1}
    (h : PoolStateV1.decodeWithValidatedTree env data pool = .ok s) :
    s.writeEncodingPrevalidated = data ∧ CanonicalState pool s ∧ validateTree env s.tree = .ok () ∧
      validateVerifierPolicyV1 s.verifierPolicy = .ok () := by
  simp only [PoolStateV1.decodeWithValidatedTree, decodeStateWith, decodeTree, except_bind_eq_ok, require_eq_ok,
    mapErr_eq_ok, except_pure_eq_ok] at h
  obtain ⟨-, ⟨hlen, hpreamble, hbinding, hreserved⟩, identity, hidentity, -, hpool, policy, hpolicy, tree,
    ⟨_, htree, _, hvalid, rfl⟩, -, ⟨hsequence, hpage, hslot⟩, rfl⟩ := h
  simp only [POOL_V1_STATE_ACCOUNT_BYTES] at hlen
  obtain ⟨hidentityBytes, hasset⟩ := encodePoolIdentityV1_of_decode hidentity
  obtain ⟨hpolicyBytes, hpolicyValid⟩ := encodePolicyBytes_of_decode hpolicy
  obtain ⟨htreeBytes, hroot, hfrontier⟩ := encodeTree_of_decode htree
  refine ⟨?_, ⟨hpool, hasset, ⟨hroot, hfrontier⟩⟩, hvalid, hpolicyValid⟩
  simp only [PoolStateV1.writeEncodingPrevalidated, stateHeader, PoolStateV1.currentRootSequence, hidentityBytes,
    hpolicyBytes, htreeBytes]
  rw [← hpreamble, ← hbinding, ← hreserved, ← hpage, ← hslot, ← hsequence]
  simp (disch := omega) only [leBytes_leNat_slice, slice_join]
  exact slice_all hlen

theorem state_exact (pool : Pubkey) : (Format.ofExcept (PoolStateV1.decodeWithValidatedTree env · pool)
    (PoolStateV1.encode env) (CanonicalState pool)).Exact := by
  apply Format.exact_ofExcept
  · intro bytes s hcanonical h
    simp only [PoolStateV1.encode, except_bind_eq_ok, except_pure_eq_ok, validateEncoding_ok] at h
    obtain ⟨_, ⟨htree, hpolicy⟩, rfl⟩ := h
    rw [← hcanonical.pool_eq]
    exact decodeWithValidatedTree_writeEncoding env
      ⟨hcanonical.asset_canonical, hpolicy, .of_validated hcanonical.tree_canonical htree⟩ htree
  · intro bytes s h
    obtain ⟨hbytes, hcanonical, htree, hpolicy⟩ := writeEncoding_of_decode h
    refine ⟨hcanonical, ?_⟩
    simp only [PoolStateV1.encode, except_bind_eq_ok, except_pure_eq_ok, validateEncoding_ok]
    exact ⟨(), ⟨htree, hpolicy⟩, hbytes⟩

end

end Aspis.Pool
