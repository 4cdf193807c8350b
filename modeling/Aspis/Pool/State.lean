import Aspis.Pool.Environment
import Aspis.Pool.History

/-! The 1000-byte pool state account: header and cursor, identity, verifier
policy and the incremental tree, each in its fixed place. The strict decoder
recomputes the tree root; the program-invariant decoder of the prepared path
checks everything but that relation. -/

namespace Aspis.Pool

open Lib Chain Statement

def POOL_V1_STATE_ACCOUNT_BYTES : ℕ := 1000

def POOL_V1_FORMAT_BINDING : Bytes :=
  [65, 83, 80, 80, 79, 79, 76, 49, 2, 2, 1, 3, 1, 20, 8, 1, 1, 1, 1, 1, 1] ++ zeros 11

def LEGACY_SPL_TOKEN_PROGRAM_ID : Pubkey :=
  ⟨[6, 221, 246, 225, 215, 101, 161, 147, 217, 203, 225, 70, 206, 235, 121, 172, 28, 180, 133, 237, 95, 91,
    55, 145, 58, 140, 245, 133, 126, 255, 0, 169], rfl⟩

/-- Errors of the identity and policy codecs. -/
inductive PoolV1FormatError
  | wrongLength
  | wrongMagic
  | wrongVersion
  | nonZeroReserved
  | nonCanonicalAssetId
  | unsupportedFlags
  | zeroRequiredBinding
  | invalidAuthorityMode
  deriving DecidableEq, Repr

structure PoolIdentityV1 where
  pool : Pubkey
  assetMint : Pubkey
  tokenProgram : Pubkey
  assetId : M31
  deploymentDomain : Bytes32
  deriving DecidableEq

structure VerifierPolicyV1 where
  flags : UInt8
  registryProgram : Pubkey
  registryAuthority : Pubkey
  policyBinding : Bytes32
  deriving DecidableEq

structure PoolInitializationV1 where
  assetMint : Pubkey
  tokenProgram : Pubkey
  assetId : M31
  deploymentDomain : Bytes32
  verifierPolicy : VerifierPolicyV1
  deriving DecidableEq

structure PoolStateV1 where
  identity : PoolIdentityV1
  verifierPolicy : VerifierPolicyV1
  tree : PoolTree
  deriving DecidableEq

namespace PoolStateV1

def currentRootSequence (s : PoolStateV1) : ℕ := s.tree.nextLeafIndex

end PoolStateV1

/-! ### Identity and policy records -/

def identityPreamble : Bytes := [65, 83, 80, 73, 1, 0, 0, 0]

def encodePoolIdentityV1 (i : PoolIdentityV1) : Bytes :=
  identityPreamble ++ (i.pool.bytes ++ (i.assetMint.bytes ++ (i.tokenProgram.bytes ++
    (i.assetId.toLeBytes ++ (zeros 4 ++ i.deploymentDomain.bytes)))))

def decodePoolIdentityV1 (bytes : Bytes) : Except PoolV1FormatError PoolIdentityV1 := do
  require (bytes.length = 144) .wrongLength
  require (slice 0 4 bytes = [65, 83, 80, 73]) .wrongMagic
  require (slice 4 1 bytes = [1]) .wrongVersion
  require (slice 5 3 bytes = zeros 3 ∧ slice 108 4 bytes = zeros 4) .nonZeroReserved
  require (leNat (slice 104 4 bytes) < P) .nonCanonicalAssetId
  return ⟨Bytes32.read 8 bytes, Bytes32.read 40 bytes, Bytes32.read 72 bytes,
    ⟨UInt32.ofNat (leNat (slice 104 4 bytes))⟩, Bytes32.read 112 bytes⟩

/-- The immutable-registry flag and a zero authority go together, and an
immutable deployment needs an immutable registry. -/
def validateVerifierPolicyV1 (p : VerifierPolicyV1) : Except PoolV1FormatError Unit := do
  require (p.flags &&& ~~~ 3 = 0) .unsupportedFlags
  require (p.registryProgram ≠ Bytes32.zero ∧ p.policyBinding ≠ Bytes32.zero) .zeroRequiredBinding
  require (¬ (p.flags &&& 2 ≠ 0 ∧ p.flags &&& 1 = 0)) .invalidAuthorityMode
  require (p.flags &&& 1 ≠ 0 ↔ p.registryAuthority = Bytes32.zero) .invalidAuthorityMode

def policyPreamble (flags : UInt8) : Bytes := [65, 83, 80, 80, 1, flags, 0, 0]

def encodePolicyBytes (p : VerifierPolicyV1) : Bytes :=
  policyPreamble p.flags ++ (p.registryProgram.bytes ++ (p.registryAuthority.bytes ++
    p.policyBinding.bytes))

def decodeVerifierPolicyV1 (bytes : Bytes) : Except PoolV1FormatError VerifierPolicyV1 := do
  require (bytes.length = 104) .wrongLength
  require (slice 0 4 bytes = [65, 83, 80, 80]) .wrongMagic
  require (slice 4 1 bytes = [1]) .wrongVersion
  require (slice 6 2 bytes = zeros 2) .nonZeroReserved
  let policy : VerifierPolicyV1 :=
    ⟨byteAt 5 bytes, Bytes32.read 8 bytes, Bytes32.read 40 bytes, Bytes32.read 72 bytes⟩
  validateVerifierPolicyV1 policy
  return policy

/-! ### The tree image -/

def treePreamble : Bytes := [65, 83, 80, 84, 1, 20, 3, 1]

def encodeTree (t : PoolTree) : Bytes :=
  treePreamble ++ (leBytes 8 t.nextLeafIndex ++ (encodeDigestCanonical t.root ++
    rootsBytes (List.ofFn t.frontier)))

/-- The frontier slots; one that is not canonical makes the whole image invalid. -/
def decodeFrontier (bytes : Bytes) : Option (Fin POOL_V1_TREE_DEPTH → Digest) :=
  if h : ∀ level : Fin POOL_V1_TREE_DEPTH,
      (decodeDigestCanonical (slice (48 + 32 * level) 32 bytes)).isSome = true then
    some fun level => (decodeDigestCanonical (slice (48 + 32 * level) 32 bytes)).get (h level)
  else none

def decodeTreeImageUnvalidated (bytes : Bytes) : Except PoolV1TreeError PoolTree := do
  require (bytes.length = 688) .wrongLength
  require (slice 0 4 bytes = [65, 83, 80, 84]) .wrongMagic
  require (slice 4 1 bytes = [1]) .wrongVersion
  require (slice 5 1 bytes = [20]) .wrongDepth
  require (slice 6 1 bytes = [3]) .wrongTreeHash
  require (slice 7 1 bytes = [1]) .wrongDigestEncoding
  let root ← okOr (decodeDigestCanonical (slice 16 32 bytes)) .nonCanonicalDigest
  let frontier ← okOr (decodeFrontier bytes) .nonCanonicalDigest
  return ⟨leNat (slice 8 8 bytes), root, frontier⟩

section
variable (env : Environment)

def validateTree (t : PoolTree) : Except PoolV1TreeError Unit :=
  t.validateWithEmptyRoots env.treeParent env.emptyRoots

/-- Decode and check the whole frontier and root relation. -/
def decodeTree (bytes : Bytes) : Except ProgramError PoolTree := do
  let t ← mapErr (fun _ => .invalidAccountData) (decodeTreeImageUnvalidated bytes)
  mapErr (fun _ => .invalidAccountData) (validateTree env t)
  return t

/-- Decode without recomputing the root of a live frontier. -/
def decodeTreeFromProgramInvariant (bytes : Bytes) : Except ProgramError PoolTree := do
  let t ← mapErr (fun _ => .invalidAccountData) (decodeTreeImageUnvalidated bytes)
  require (t.nextLeafIndex ≤ POOL_V1_LEAF_CAPACITY) .invalidAccountData
  require (∀ level : Fin POOL_V1_TREE_DEPTH, t.nextLeafIndex.testBit level = false →
    t.frontier level = env.emptyRoots level) .invalidAccountData
  require (t.nextLeafIndex = 0 → t.root = env.emptyRoots POOL_V1_TREE_DEPTH) .invalidAccountData
  return t

/-! ### The state account -/

/-- Magic, versions, tree depth and page capacity of a state account. -/
def statePreamble : Bytes := [65, 83, 80, 75, 2, 2, 20, 8]

def stateHeader (sequence : ℕ) : Bytes :=
  statePreamble ++ (POOL_V1_FORMAT_BINDING ++ (leBytes 8 sequence ++
    (leBytes 8 (rootHistoryLocation sequence).pageNumber ++
      (leBytes 2 (rootHistoryLocation sequence).slot ++ zeros 6))))

/-- The exact state image. -/
def PoolStateV1.writeEncodingPrevalidated (s : PoolStateV1) : Bytes :=
  stateHeader s.currentRootSequence ++ (encodePoolIdentityV1 s.identity ++
    (encodePolicyBytes s.verifierPolicy ++ encodeTree s.tree))

/-- An empty tree is compared with the empty roots, any other is reconstructed. -/
def validateTreeEncoding (t : PoolTree) : Except ProgramError Unit :=
  if t.nextLeafIndex = 0 then
    require (t.root = env.emptyRoots POOL_V1_TREE_DEPTH ∧
      ∀ level : Fin POOL_V1_TREE_DEPTH, t.frontier level = env.emptyRoots level) .invalidAccountData
  else mapErr (fun _ => .invalidAccountData) (validateTree env t)

def PoolStateV1.validateEncoding (s : PoolStateV1) : Except ProgramError Unit := do
  validateTreeEncoding env s.tree
  mapErr (fun _ => .invalidAccountData) (validateVerifierPolicyV1 s.verifierPolicy)

/-- Both decoders: they differ in how the tree image is checked. -/
def decodeStateWith (decode : Bytes → Except ProgramError PoolTree) (data : Bytes) (expectedPool : Pubkey) :
    Except ProgramError PoolStateV1 := do
  require (data.length = POOL_V1_STATE_ACCOUNT_BYTES ∧ slice 0 8 data = statePreamble ∧
    slice 8 32 data = POOL_V1_FORMAT_BINDING ∧ slice 58 6 data = zeros 6)
    (PoolV1ProgramError.invalidAccountType : ProgramError)
  let identity ← mapErr (fun _ => .invalidAccountData) (decodePoolIdentityV1 (slice 64 144 data))
  require (identity.pool = expectedPool) (PoolV1ProgramError.stateHistoryMismatch : ProgramError)
  let policy ← mapErr (fun _ => .invalidAccountData) (decodeVerifierPolicyV1 (slice 208 104 data))
  let tree ← decode (slice 312 688 data)
  require (leNat (slice 40 8 data) = tree.nextLeafIndex ∧
    leNat (slice 48 8 data) = (rootHistoryLocation tree.nextLeafIndex).pageNumber ∧
    leNat (slice 56 2 data) = (rootHistoryLocation tree.nextLeafIndex).slot)
    (PoolV1ProgramError.stateHistoryMismatch : ProgramError)
  return ⟨identity, policy, tree⟩

namespace PoolStateV1

def decodeWithValidatedTree (data : Bytes) (expectedPool : Pubkey) : Except ProgramError PoolStateV1 :=
  decodeStateWith (decodeTree env) data expectedPool

def decodeFromProgramInvariant (data : Bytes) (expectedPool : Pubkey) : Except ProgramError PoolStateV1 :=
  decodeStateWith (decodeTreeFromProgramInvariant env) data expectedPool

/-- The state of a new pool: the empty tree. -/
def genesis (pool : Pubkey) (init : PoolInitializationV1) : Except ProgramError PoolStateV1 := do
  require init.assetId.Canonical .invalidInstructionData
  require (init.tokenProgram = LEGACY_SPL_TOKEN_PROGRAM_ID)
    (PoolV1ProgramError.invalidTokenProgram : ProgramError)
  mapErr (fun _ => .invalidInstructionData) (validateVerifierPolicyV1 init.verifierPolicy)
  return ⟨⟨pool, init.assetMint, init.tokenProgram, init.assetId, init.deploymentDomain⟩, init.verifierPolicy,
    ⟨0, env.emptyRoots POOL_V1_TREE_DEPTH, fun level => env.emptyRoots level⟩⟩

end PoolStateV1

def poolV1StateAddress (assetMint : Pubkey) : Pubkey × UInt8 :=
  env.programAddress [[97, 115, 112, 105, 115, 45, 112, 111, 111, 108, 45, 115, 116, 97, 116, 101, 45, 118, 49],
    assetMint.bytes]

/-- How the tree of a decoded state was checked in this instruction. -/
inductive CanonicalTreeEvidenceV1
  | reconstructed
  | programInvariant
  deriving DecidableEq

/-- A state decoded from its canonical account. -/
structure CanonicalPoolStateV1 where
  pool : Pubkey
  state : PoolStateV1
  treeEvidence : CanonicalTreeEvidenceV1
  deriving DecidableEq

/-- The account checks both decoders share. -/
def decodeAccountWith (decode : Bytes → Pubkey → Except ProgramError PoolStateV1)
    (evidence : CanonicalTreeEvidenceV1) (account : AccountInfo) (l : Ledger) :
    Except ProgramError CanonicalPoolStateV1 := do
  requireProgramAccount env.programId account l true
  require (account.isSigner = false) .invalidAccountData
  let state ← decode (account.data l) account.key
  require (account.key = (poolV1StateAddress env state.identity.assetMint).1)
    (PoolV1ProgramError.invalidPoolStateAddress : ProgramError)
  return ⟨account.key, state, evidence⟩

namespace CanonicalPoolStateV1

def decodeAccount (account : AccountInfo) (l : Ledger) : Except ProgramError CanonicalPoolStateV1 :=
  decodeAccountWith env (PoolStateV1.decodeWithValidatedTree env) .reconstructed account l

def decodeAccountFromProgramInvariant (account : AccountInfo) (l : Ledger) :
    Except ProgramError CanonicalPoolStateV1 :=
  decodeAccountWith env (PoolStateV1.decodeFromProgramInvariant env) .programInvariant account l

/-- The account is still the one the state was decoded from. -/
def requireSameWritableAccount (s : CanonicalPoolStateV1) (account : AccountInfo) (l : Ledger) :
    Except ProgramError Unit := do
  requireProgramAccount env.programId account l true
  require (account.isSigner = false ∧ s.pool = account.key ∧ s.state.identity.pool = account.key)
    .invalidAccountData

end CanonicalPoolStateV1

/-! ### Reading back what was written -/

@[simp] theorem length_identityPreamble : identityPreamble.length = 8 := by simp [identityPreamble]

@[simp] theorem length_policyPreamble (flags : UInt8) : (policyPreamble flags).length = 8 := by
  simp [policyPreamble]

@[simp] theorem length_treePreamble : treePreamble.length = 8 := by simp [treePreamble]

@[simp] theorem length_statePreamble : statePreamble.length = 8 := by simp [statePreamble]

@[simp] theorem length_POOL_V1_FORMAT_BINDING : POOL_V1_FORMAT_BINDING.length = 32 := by
  simp [POOL_V1_FORMAT_BINDING]

@[simp] theorem length_encodePoolIdentityV1 (i : PoolIdentityV1) : (encodePoolIdentityV1 i).length = 144 := by
  simp [encodePoolIdentityV1]

@[simp] theorem length_encodePolicyBytes (p : VerifierPolicyV1) : (encodePolicyBytes p).length = 104 := by
  simp [encodePolicyBytes]

@[simp] theorem length_encodeTree (t : PoolTree) : (encodeTree t).length = 688 := by
  simp [encodeTree, POOL_V1_TREE_DEPTH]

@[simp] theorem length_stateHeader (sequence : ℕ) : (stateHeader sequence).length = 64 := by
  simp [stateHeader]

@[simp] theorem length_writeEncodingPrevalidated (s : PoolStateV1) :
    s.writeEncodingPrevalidated.length = POOL_V1_STATE_ACCOUNT_BYTES := by
  simp [PoolStateV1.writeEncodingPrevalidated, POOL_V1_STATE_ACCOUNT_BYTES]

theorem decode_encodePoolIdentityV1 {i : PoolIdentityV1} (h : i.assetId.Canonical) :
    decodePoolIdentityV1 (encodePoolIdentityV1 i) = .ok i := by
  have hasset : slice 104 4 (encodePoolIdentityV1 i) = i.assetId.toLeBytes := by
    simp [encodePoolIdentityV1, slice_append_right, slice_append_head]
  have hpool : Bytes32.read 8 (encodePoolIdentityV1 i) = i.pool := Bytes32.read_eq (by
    simp [encodePoolIdentityV1, slice_append_right, slice_append_head])
  have hmint : Bytes32.read 40 (encodePoolIdentityV1 i) = i.assetMint := Bytes32.read_eq (by
    simp [encodePoolIdentityV1, slice_append_right, slice_append_head])
  have htoken : Bytes32.read 72 (encodePoolIdentityV1 i) = i.tokenProgram := Bytes32.read_eq (by
    simp [encodePoolIdentityV1, slice_append_right, slice_append_head])
  have hdomain : Bytes32.read 112 (encodePoolIdentityV1 i) = i.deploymentDomain := Bytes32.read_eq (by
    simp [encodePoolIdentityV1, slice_append_right, slice_all])
  have hreserved : slice 108 4 (encodePoolIdentityV1 i) = zeros 4 := by
    simp [encodePoolIdentityV1, slice_append_right, slice_append_head]
  simp only [decodePoolIdentityV1, except_bind_eq_ok, require_eq_ok, except_pure_eq_ok]
  refine ⟨(), by simp, (), rfl, (), rfl, (), ⟨rfl, hreserved⟩, (), ?_, ?_⟩
  · rw [hasset, M31.leNat_toLeBytes]
    exact h
  · rw [hasset, M31.ofNat_leNat_toLeBytes, hpool, hmint, htoken, hdomain]

theorem decode_encodePolicyBytes {p : VerifierPolicyV1} (h : validateVerifierPolicyV1 p = .ok ()) :
    decodeVerifierPolicyV1 (encodePolicyBytes p) = .ok p := by
  have hprogram : Bytes32.read 8 (encodePolicyBytes p) = p.registryProgram := Bytes32.read_eq (by
    simp [encodePolicyBytes, slice_append_right, slice_append_head])
  have hauthority : Bytes32.read 40 (encodePolicyBytes p) = p.registryAuthority := Bytes32.read_eq (by
    simp [encodePolicyBytes, slice_append_right, slice_append_head])
  have hbinding : Bytes32.read 72 (encodePolicyBytes p) = p.policyBinding := Bytes32.read_eq (by
    simp [encodePolicyBytes, slice_append_right, slice_all])
  have hread : (⟨byteAt 5 (encodePolicyBytes p), Bytes32.read 8 (encodePolicyBytes p),
      Bytes32.read 40 (encodePolicyBytes p), Bytes32.read 72 (encodePolicyBytes p)⟩ : VerifierPolicyV1) = p := by
    rw [hprogram, hauthority, hbinding]
    rfl
  simp only [decodeVerifierPolicyV1, except_bind_eq_ok, require_eq_ok, except_pure_eq_ok, hread]
  exact ⟨(), by simp, (), rfl, (), rfl, (), rfl, (), h, trivial⟩

/-- A tree all of whose stored digests are canonical and whose cursor is in range. -/
structure EncodableTree (t : PoolTree) : Prop where
  index_le : t.nextLeafIndex ≤ POOL_V1_LEAF_CAPACITY
  root_canonical : DigestIsCanonical t.root
  frontier_canonical : ∀ level, DigestIsCanonical (t.frontier level)

theorem slice_encodeTree_frontier (t : PoolTree) (level : Fin POOL_V1_TREE_DEPTH) :
    slice (48 + 32 * level) 32 (encodeTree t) = encodeDigestCanonical (t.frontier level) := by
  have hsplit : encodeTree t = (treePreamble ++ leBytes 8 t.nextLeafIndex ++ encodeDigestCanonical t.root) ++
      rootsBytes (List.ofFn t.frontier) := by
    simp [encodeTree]
  have hlevel : (level : ℕ) < (List.ofFn t.frontier).length := by simp
  rw [hsplit, slice_append_right (by simp)]
  have hoff : 48 + 32 * (level : ℕ) - (treePreamble ++ leBytes 8 t.nextLeafIndex ++
      encodeDigestCanonical t.root).length = 32 * level := by
    simp
  rw [hoff, slice_rootsBytes hlevel, List.getElem_ofFn]

theorem decodeFrontier_encodeTree {t : PoolTree} (h : EncodableTree t) :
    decodeFrontier (encodeTree t) = some t.frontier := by
  have hdecode : ∀ level : Fin POOL_V1_TREE_DEPTH,
      decodeDigestCanonical (slice (48 + 32 * level) 32 (encodeTree t)) = some (t.frontier level) := by
    intro level
    rw [slice_encodeTree_frontier, decode_encodeDigestCanonical (h.frontier_canonical level)]
  rw [decodeFrontier, dif_pos fun level => by rw [hdecode level]; rfl]
  congr 1
  funext level
  simp only [hdecode, Option.get_some]

theorem decode_encodeTree {t : PoolTree} (h : EncodableTree t) :
    decodeTreeImageUnvalidated (encodeTree t) = .ok t := by
  have hroot : slice 16 32 (encodeTree t) = encodeDigestCanonical t.root := by
    simp [encodeTree, slice_append_right, slice_append_head]
  have hindex : leNat (slice 8 8 (encodeTree t)) = t.nextLeafIndex := by
    have hle := h.index_le
    have hs : slice 8 8 (encodeTree t) = leBytes 8 t.nextLeafIndex := by
      simp [encodeTree, slice_append_right, slice_append_head]
    rw [hs, leNat_leBytes_of_lt]
    simp only [POOL_V1_LEAF_CAPACITY, POOL_V1_TREE_DEPTH] at hle
    omega
  simp only [decodeTreeImageUnvalidated, except_bind_eq_ok, require_eq_ok, okOr_eq_ok, except_pure_eq_ok,
    hroot, hindex, decode_encodeDigestCanonical h.root_canonical, decodeFrontier_encodeTree h]
  exact ⟨(), by simp, (), rfl, (), rfl, (), rfl, (), rfl, (), rfl, _, rfl, _, rfl, rfl⟩

/-- A state that the encoders of the program accept. -/
structure WellFormedState (s : PoolStateV1) : Prop where
  asset_canonical : s.identity.assetId.Canonical
  policy_valid : validateVerifierPolicyV1 s.verifierPolicy = .ok ()
  tree_encodable : EncodableTree s.tree

theorem decodeStateWith_writeEncoding {decode : Bytes → Except ProgramError PoolTree} {s : PoolStateV1}
    (h : WellFormedState s) (hdecode : decode (encodeTree s.tree) = .ok s.tree) :
    decodeStateWith decode s.writeEncodingPrevalidated s.identity.pool = .ok s := by
  have hle := h.tree_encodable.index_le
  simp only [POOL_V1_LEAF_CAPACITY, POOL_V1_TREE_DEPTH] at hle
  have hhead : ∀ off len, off + len ≤ 64 →
      slice off len s.writeEncodingPrevalidated = slice off len (stateHeader s.currentRootSequence) := by
    intro off len hlen
    rw [PoolStateV1.writeEncodingPrevalidated, slice_append_left (by simpa using hlen)]
  have hidentity : slice 64 144 s.writeEncodingPrevalidated = encodePoolIdentityV1 s.identity := by
    simp [PoolStateV1.writeEncodingPrevalidated, slice_append_right, slice_append_head]
  have hpolicy : slice 208 104 s.writeEncodingPrevalidated = encodePolicyBytes s.verifierPolicy := by
    simp [PoolStateV1.writeEncodingPrevalidated, slice_append_right, slice_append_head]
  have htree : slice 312 688 s.writeEncodingPrevalidated = encodeTree s.tree := by
    simp [PoolStateV1.writeEncodingPrevalidated, slice_append_right, slice_all]
  have hseq : slice 40 8 (stateHeader s.currentRootSequence) = leBytes 8 s.currentRootSequence := by
    simp [stateHeader, slice_append_right, slice_append_head]
  have hpage : slice 48 8 (stateHeader s.currentRootSequence) =
      leBytes 8 (rootHistoryLocation s.currentRootSequence).pageNumber := by
    simp [stateHeader, slice_append_right, slice_append_head]
  have hslot : slice 56 2 (stateHeader s.currentRootSequence) =
      leBytes 2 (rootHistoryLocation s.currentRootSequence).slot := by
    simp [stateHeader, slice_append_right, slice_append_head]
  have hbinding : slice 8 32 (stateHeader s.currentRootSequence) = POOL_V1_FORMAT_BINDING := by
    simp [stateHeader, slice_append_right, slice_append_head]
  have hreserved : slice 58 6 (stateHeader s.currentRootSequence) = zeros 6 := by
    simp [stateHeader, slice_append_right, slice_all]
  simp only [decodeStateWith, except_bind_eq_ok, require_eq_ok, mapErr_eq_ok, except_pure_eq_ok, hidentity,
    hpolicy, htree, hhead 0 8 (by omega), hhead 8 32 (by omega), hhead 58 6 (by omega), hhead 40 8 (by omega),
    hhead 48 8 (by omega), hhead 56 2 (by omega), hseq, hpage, hslot, hbinding, hreserved]
  refine ⟨(), ⟨by simp, rfl, trivial, trivial⟩, s.identity, decode_encodePoolIdentityV1 h.asset_canonical, (),
    rfl, s.verifierPolicy, decode_encodePolicyBytes h.policy_valid, s.tree, hdecode, (), ⟨?_, ?_, ?_⟩, rfl⟩
  · exact leNat_leBytes_of_lt (by simp only [PoolStateV1.currentRootSequence]; omega)
  · refine leNat_leBytes_of_lt ?_
    simp only [PoolStateV1.currentRootSequence, rootHistoryLocation, POOL_V1_ROOT_HISTORY_CAPACITY]
    omega
  · refine leNat_leBytes_of_lt ?_
    simp only [rootHistoryLocation, POOL_V1_ROOT_HISTORY_CAPACITY]
    omega

/-- The strict decoder reads back a state whose tree passes the full check. -/
theorem decodeWithValidatedTree_writeEncoding {s : PoolStateV1} (h : WellFormedState s)
    (hvalid : validateTree env s.tree = .ok ()) :
    PoolStateV1.decodeWithValidatedTree env s.writeEncodingPrevalidated s.identity.pool = .ok s := by
  apply decodeStateWith_writeEncoding h
  simp only [decodeTree, except_bind_eq_ok, mapErr_eq_ok, except_pure_eq_ok]
  exact ⟨s.tree, decode_encodeTree h.tree_encodable, (), hvalid, rfl⟩

/-- The program-invariant decoder reads back the same states. -/
theorem decodeFromProgramInvariant_writeEncoding {s : PoolStateV1} (h : WellFormedState s)
    (hinactive : ∀ level : Fin POOL_V1_TREE_DEPTH, s.tree.nextLeafIndex.testBit level = false →
      s.tree.frontier level = env.emptyRoots level)
    (hzero : s.tree.nextLeafIndex = 0 → s.tree.root = env.emptyRoots POOL_V1_TREE_DEPTH) :
    PoolStateV1.decodeFromProgramInvariant env s.writeEncodingPrevalidated s.identity.pool = .ok s := by
  apply decodeStateWith_writeEncoding h
  simp only [decodeTreeFromProgramInvariant, except_bind_eq_ok, mapErr_eq_ok, require_eq_ok,
    except_pure_eq_ok]
  exact ⟨s.tree, decode_encodeTree h.tree_encodable, (), h.tree_encodable.index_le, (), hinactive, (), hzero, rfl⟩

theorem magic_writeEncoding (s : PoolStateV1) : slice 0 8 s.writeEncodingPrevalidated = statePreamble := by
  simp [PoolStateV1.writeEncodingPrevalidated, stateHeader, slice_append_head]

theorem sequence_writeEncoding {s : PoolStateV1} (h : s.currentRootSequence < U64_LIMIT) :
    leNat (slice 40 8 s.writeEncodingPrevalidated) = s.currentRootSequence := by
  have hslice : slice 40 8 s.writeEncodingPrevalidated = leBytes 8 s.currentRootSequence := by
    simp [PoolStateV1.writeEncodingPrevalidated, stateHeader, slice_append_right, slice_append_head]
  rw [hslice, leNat_leBytes_of_lt h]

/-! ### What acceptance says about the bytes -/

/-- Accepted state bytes start with the state magic and have the exact length. -/
theorem decodeStateWith_magic {decode : Bytes → Except ProgramError PoolTree} {data : Bytes} {pool : Pubkey}
    {s : PoolStateV1} (h : decodeStateWith decode data pool = .ok s) :
    data.length = POOL_V1_STATE_ACCOUNT_BYTES ∧ slice 0 8 data = statePreamble ∧
      s.identity.pool = pool := by
  simp only [decodeStateWith, except_bind_eq_ok, require_eq_ok, mapErr_eq_ok, except_pure_eq_ok] at h
  obtain ⟨-, ⟨hlen, hmagic, -⟩, identity, -, -, hpool, policy, -, tree, -, -, -, rfl⟩ := h
  exact ⟨hlen, hmagic, hpool⟩

end

end Aspis.Pool
