import Aspis.Forest.UncheckedAppend
import Aspis.Lib.SortedKeys
import Aspis.Pool.StateExact
import Aspis.Wallet.DurableState
import Aspis.Wallet.WitnessState

/-! The durable image of the wallet's authentication paths: a header, a checksum, the
tree and one record for each path, in the order of the leaf index and the event. The
decoder imports the paths one after the other, so it checks each against the root. -/

namespace Aspis.Wallet

open Lib Statement Pool Forest

def WALLET_WITNESS_STATE_HEADER_BYTES_V1 : ℕ := 64

def WALLET_WITNESS_RECORD_BYTES_V1 : ℕ := 108 + 8 + 32 + 32 * POOL_V1_TREE_DEPTH

def POOL_V1_TREE_STATE_ACCOUNT_BYTES : ℕ := 688

def WALLET_WITNESS_CHECKSUM_OFFSET_V1 : ℕ := 32

def MAX_WALLET_WITNESS_IMAGE_BYTES_V1 : ℕ := 64 * 1024 * 1024

def WALLET_WITNESS_CHECKSUM_DOMAIN_V1 : Bytes := "aspis:pool-v1:wallet-witness-state:sha256:v1".toUTF8.toList

/-- The magic `ASWS`. -/
def WALLET_WITNESS_STATE_MAGIC_V1 : Bytes := [65, 83, 87, 83]

/-- The version, the depth and the versions of the hash and of the digest encoding. -/
def witnessParameters : Bytes := [1, 20, 3, 1]

@[simp] theorem length_WALLET_WITNESS_STATE_MAGIC_V1 : WALLET_WITNESS_STATE_MAGIC_V1.length = 4 := by
  simp [WALLET_WITNESS_STATE_MAGIC_V1]

@[simp] theorem length_witnessParameters : witnessParameters.length = 4 := by
  simp [witnessParameters]

/-- The bytes before the checksum. -/
def witnessHeader (count : ℕ) : Bytes :=
  WALLET_WITNESS_STATE_MAGIC_V1 ++ (witnessParameters ++ (leBytes 4 count ++ (leBytes 4 WALLET_WITNESS_RECORD_BYTES_V1 ++
    (leBytes 4 POOL_V1_TREE_STATE_ACCOUNT_BYTES ++ zeros 12))))

@[simp] theorem length_witnessHeader (count : ℕ) : (witnessHeader count).length = WALLET_WITNESS_CHECKSUM_OFFSET_V1 := by
  simp [witnessHeader, WALLET_WITNESS_CHECKSUM_OFFSET_V1]

/-! ### Identities -/

@[simp] theorem length_encodeEventIdV1 (id : DepositEventIdV1) : (encodeEventIdV1 id).length = 108 := by
  simp [encodeEventIdV1, id.signature_length]

def decodeEventIdV1 (bytes : Bytes) : Except WitnessStateErrorV1 DepositEventIdV1 := do
  require (bytes.length = 108) .wrongImageLength
  let point ← mapErr (fun _ => .invalidEventIdentity) (decodePoint 0 bytes)
  mapErr (fun _ => .invalidEventIdentity)
    (DepositEventIdV1.new point (slice 40 64 bytes) (leNat (slice 104 2 bytes)) (leNat (slice 106 2 bytes)))

theorem decodeEventIdV1_encode (id : DepositEventIdV1) : decodeEventIdV1 (encodeEventIdV1 id) = .ok id := by
  have hlen := id.signature_length
  have hpoint : decodePoint 0 (encodeEventIdV1 id) = .ok id.point := decodePoint_of_slice (by
    simp [encodeEventIdV1, slice_append_head])
  have hsignature : slice 40 64 (encodeEventIdV1 id) = id.transactionSignature := by
    simp [encodeEventIdV1, slice_append_right, slice_append_head, hlen]
  have hinstruction : leNat (slice 104 2 (encodeEventIdV1 id)) = id.instructionIndex := by
    have hslice : slice 104 2 (encodeEventIdV1 id) = leBytes 2 id.instructionIndex := by
      simp [encodeEventIdV1, slice_append_right, slice_append_head, hlen]
    have hlt := id.instructionIndex_lt
    rw [hslice, leNat_leBytes_of_lt (by omega)]
  have hevent : leNat (slice 106 2 (encodeEventIdV1 id)) = id.eventIndex := by
    have hslice : slice 106 2 (encodeEventIdV1 id) = leBytes 2 id.eventIndex := by
      simp [encodeEventIdV1, slice_append_right, slice_all, hlen]
    have hlt := id.eventIndex_lt
    rw [hslice, leNat_leBytes_of_lt (by omega)]
  rw [decodeEventIdV1, require_of _ (length_encodeEventIdV1 id), except_ok_bind, hpoint, hsignature, hinstruction, hevent]
  simp [mapErr, except_ok_bind, DepositEventIdV1.new_eq]

/-- An identity that was read has the bytes it was read from. -/
theorem encodeEventIdV1_of_decode {bytes : Bytes} {id : DepositEventIdV1}
    (h : decodeEventIdV1 bytes = .ok id) : encodeEventIdV1 id = bytes := by
  simp only [decodeEventIdV1, except_bind_eq_ok, require_eq_ok, mapErr_eq_ok] at h
  obtain ⟨_, hlen, point, hpoint, hnew⟩ := h
  unfold DepositEventIdV1.new at hnew
  split_ifs at hnew
  obtain rfl := Except.ok.inj hnew
  rw [encodeEventIdV1, encodePoint_of_decodePoint (by omega) hpoint]
  simp (disch := omega) only [leBytes_leNat_slice, slice_join]
  exact slice_all hlen

/-! ### The image -/

abbrev PoolWitness := TrackedMerkleWitnessV1 Digest

abbrev PoolWitnessState := WalletWitnessStateV1 Digest

/-- The order of the records: the leaf index, then the encoded event. -/
def witnessKey (w : PoolWitness) : ℕ × Bytes := (w.leafIndex, encodeEventIdV1 w.eventId)

abbrev WitnessKeyLt : ℕ × Bytes → ℕ × Bytes → Prop := Prod.Lex (· < ·) (· < ·)

def orderedWitnesses (tracked : List PoolWitness) : List PoolWitness := sortByKey WitnessKeyLt witnessKey tracked

def encodeWitnessRecord (w : PoolWitness) : Bytes :=
  encodeEventIdV1 w.eventId ++ (leBytes 8 w.leafIndex ++ (encodeDigestCanonical w.leaf ++ rootsBytes (List.ofFn w.siblings)))

section
variable (env : Environment) (sha256 : Bytes → Bytes32)

def walletWitnessChecksumV1 (bytes : Bytes) : Except WitnessStateErrorV1 Bytes32 := do
  require (WALLET_WITNESS_STATE_HEADER_BYTES_V1 ≤ bytes.length) .wrongImageLength
  return sha256 (WALLET_WITNESS_CHECKSUM_DOMAIN_V1 ++ maskedImage WALLET_WITNESS_CHECKSUM_OFFSET_V1 bytes)

def encodeWalletWitnessStateV1 (s : PoolWitnessState) : Except WitnessStateErrorV1 Bytes := do
  mapErr .tree (s.tree.validateWithEmptyRoots env.treeParent env.emptyRoots)
  let count := s.tracked.length
  require (WALLET_WITNESS_STATE_HEADER_BYTES_V1 + POOL_V1_TREE_STATE_ACCOUNT_BYTES + count * WALLET_WITNESS_RECORD_BYTES_V1 ≤
    MAX_WALLET_WITNESS_IMAGE_BYTES_V1) .countOverflow
  require (count < 2 ^ 32) .countOverflow
  let ordered := orderedWitnesses s.tracked
  require (ordered.IsChain fun a b => a.leafIndex ≠ b.leafIndex ∧ a.eventId ≠ b.eventId) .duplicateWitness
  let tree ← mapErr .tree (encodeWithEmptyRoots env.treeParent env.emptyRoots s.tree)
  let output := witnessHeader count ++ (zeros 32 ++ (tree ++ ordered.flatMap encodeWitnessRecord))
  let checksum ← walletWitnessChecksumV1 sha256 output
  return patch WALLET_WITNESS_CHECKSUM_OFFSET_V1 checksum.bytes output

/-- Read `count` records in strictly increasing order and import each into the state. -/
def decodeWitnessRecords : ℕ → Option (ℕ × Bytes) → ℕ → Bytes → PoolWitnessState →
    Except WitnessStateErrorV1 PoolWitnessState
  | 0, _, _, _, s => .ok s
  | count + 1, previous, off, bytes, s => do
    let encodedEvent := slice off 108 bytes
    let eventId ← decodeEventIdV1 encodedEvent
    let leafIndex := leNat (slice (off + 108) 8 bytes)
    require (∀ key ∈ previous, WitnessKeyLt key (leafIndex, encodedEvent)) .nonCanonicalOrder
    match (poolTreeDigests env).importCurrentWitnessV1 eventId leafIndex (Bytes32.read (off + 116) bytes)
      (fun level => Bytes32.read (off + 148 + 32 * level) bytes) s with
    | .error e _ => .error e
    | .ok _ next =>
      decodeWitnessRecords count (some (leafIndex, encodedEvent)) (off + WALLET_WITNESS_RECORD_BYTES_V1) bytes next

def decodeWalletWitnessStateV1 (bytes : Bytes) : Except WitnessStateErrorV1 PoolWitnessState := do
  require (WALLET_WITNESS_STATE_HEADER_BYTES_V1 + POOL_V1_TREE_STATE_ACCOUNT_BYTES ≤ bytes.length ∧
    bytes.length ≤ MAX_WALLET_WITNESS_IMAGE_BYTES_V1) .wrongImageLength
  require (slice 0 4 bytes = WALLET_WITNESS_STATE_MAGIC_V1) .wrongImageMagic
  require (slice 4 1 bytes = slice 0 1 witnessParameters) .wrongImageVersion
  require (slice 5 3 bytes = slice 1 3 witnessParameters ∧ leNat (slice 12 4 bytes) = WALLET_WITNESS_RECORD_BYTES_V1 ∧
    leNat (slice 16 4 bytes) = POOL_V1_TREE_STATE_ACCOUNT_BYTES) .wrongImageParameters
  require (allZero (slice 20 12 bytes) = true) .nonZeroReserved
  let checksum ← walletWitnessChecksumV1 sha256 bytes
  require (Bytes32.read WALLET_WITNESS_CHECKSUM_OFFSET_V1 bytes = checksum) .checksumMismatch
  let count := leNat (slice 8 4 bytes)
  require (WALLET_WITNESS_STATE_HEADER_BYTES_V1 + POOL_V1_TREE_STATE_ACCOUNT_BYTES + count * WALLET_WITNESS_RECORD_BYTES_V1 =
    bytes.length) .wrongImageLength
  let treeEnd := WALLET_WITNESS_STATE_HEADER_BYTES_V1 + POOL_V1_TREE_STATE_ACCOUNT_BYTES
  let tree ← mapErr .tree (decodeWithEmptyRoots env.treeParent env.emptyRoots
    (slice WALLET_WITNESS_STATE_HEADER_BYTES_V1 POOL_V1_TREE_STATE_ACCOUNT_BYTES bytes))
  let s ← (poolTreeDigests env).fromAuthenticatedTreeV1 tree ⟨encodeDigestCanonical tree.root, by simp⟩
  decodeWitnessRecords env count none treeEnd bytes s

end

/-! ### One record -/

@[simp] theorem length_encodeWitnessRecord (w : PoolWitness) :
    (encodeWitnessRecord w).length = WALLET_WITNESS_RECORD_BYTES_V1 := by
  simp only [encodeWitnessRecord, WALLET_WITNESS_RECORD_BYTES_V1, List.length_append, length_encodeEventIdV1, length_leBytes,
    length_encodeDigestCanonical, length_rootsBytes, List.length_ofFn]
  omega

/-- A path that the decoder imports into a state with this tree. -/
structure WitnessEntry (env : Environment) (tree : PoolTree) (w : PoolWitness) : Prop where
  index_lt : w.leafIndex < tree.nextLeafIndex
  leaf_canonical : DigestIsCanonical w.leaf
  siblings_canonical : ∀ level, DigestIsCanonical (w.siblings level)
  root_eq : (poolTreeDigests env).rootOf w = tree.root

/-- What a record says, read field by field at an offset. -/
structure ReadsWitness (env : Environment) (off : ℕ) (bytes : Bytes) (w : PoolWitness) : Prop where
  event : slice off 108 bytes = encodeEventIdV1 w.eventId
  index : leNat (slice (off + 108) 8 bytes) = w.leafIndex
  leaf : (poolTreeDigests env).decode (Bytes32.read (off + 116) bytes) = some w.leaf
  siblings : (poolTreeDigests env).decodeSiblings (fun level => Bytes32.read (off + 148 + 32 * level) bytes) = some w.siblings

section Record
variable {env : Environment} {off : ℕ} {bytes : Bytes} {w : PoolWitness}

theorem decodeSiblings_eq_some {siblingBytes : Fin POOL_V1_TREE_DEPTH → Bytes32} {siblings : Fin POOL_V1_TREE_DEPTH → Digest} :
    (poolTreeDigests env).decodeSiblings siblingBytes = some siblings ↔
      ∀ level, decodeDigestCanonical (siblingBytes level).bytes = some (siblings level) := by
  unfold TreeDigests.decodeSiblings
  split_ifs with hsome
  · constructor
    · intro h level
      obtain rfl := Option.some.inj h
      simp [poolTreeDigests]
    · intro h
      congr 1
      funext level
      simp [poolTreeDigests, h level]
  · constructor
    · intro h
      cases h
    · intro h
      exact absurd (fun level => by simp [poolTreeDigests, h level]) hsome

theorem readsWitness_of_slice (hslice : slice off WALLET_WITNESS_RECORD_BYTES_V1 bytes = encodeWitnessRecord w)
    (hindex : w.leafIndex < 2 ^ 64) (hleaf : DigestIsCanonical w.leaf) (hsiblings : ∀ level, DigestIsCanonical (w.siblings level)) :
    ReadsWitness env off bytes w := by
  have hpart : ∀ {o l : ℕ}, o + l ≤ 788 → slice (off + o) l bytes = slice o l (encodeWitnessRecord w) :=
    fun h => slice_of_part hslice h
  constructor
  · have hevent := @hpart 0 108 (by omega)
    rw [Nat.add_zero] at hevent
    rw [hevent, encodeWitnessRecord, slice_append_head (by simp)]
  · rw [hpart (by omega)]
    have hfield : slice 108 8 (encodeWitnessRecord w) = leBytes 8 w.leafIndex := by
      simp [encodeWitnessRecord, slice_append_right, slice_append_head]
    rw [hfield, leNat_leBytes_of_lt (by omega)]
  · have hfield : Bytes32.read (off + 116) bytes = ⟨encodeDigestCanonical w.leaf, by simp⟩ := Bytes32.read_eq (by
      rw [hpart (by omega)]
      simp [encodeWitnessRecord, slice_append_right, slice_append_head])
    rw [hfield]
    exact decode_encodeDigestCanonical hleaf
  · rw [decodeSiblings_eq_some]
    intro level
    have hlevel : (level : ℕ) < 20 := level.isLt
    have hslots : slice 148 640 (encodeWitnessRecord w) = rootsBytes (List.ofFn w.siblings) := by
      simp only [encodeWitnessRecord, slice_append_right, length_encodeEventIdV1, length_leBytes,
        length_encodeDigestCanonical, Nat.reduceLeDiff, Nat.reduceSub]
      exact slice_all (by rw [length_rootsBytes, List.length_ofFn]; rfl)
    have hfield : Bytes32.read (off + 148 + 32 * level) bytes = ⟨encodeDigestCanonical (w.siblings level), by simp⟩ :=
      Bytes32.read_eq (by
        have hslot := @slice_rootsBytes (List.ofFn w.siblings) level (by simp)
        rw [← hslots, slice_slice _ (by omega), List.getElem_ofFn] at hslot
        rw [Nat.add_assoc, hpart (by omega), hslot])
    rw [hfield]
    exact decode_encodeDigestCanonical (hsiblings level)

theorem ReadsWitness.slice_eq (h : ReadsWitness env off bytes w) (hlen : off + WALLET_WITNESS_RECORD_BYTES_V1 ≤ bytes.length) :
    slice off WALLET_WITNESS_RECORD_BYTES_V1 bytes = encodeWitnessRecord w ∧ DigestIsCanonical w.leaf ∧
      (∀ level, DigestIsCanonical (w.siblings level)) := by
  have hlen' : off + 788 ≤ bytes.length := hlen
  have hleaf := h.leaf
  have hread : (Bytes32.read (off + 116) bytes).bytes = slice (off + 116) 32 bytes := Bytes32.read_bytes (by omega)
  simp only [poolTreeDigests, hread] at hleaf
  have hsiblings := decodeSiblings_eq_some.mp h.siblings
  have hlevels : ∀ level : Fin POOL_V1_TREE_DEPTH,
      decodeDigestCanonical (slice (off + 148 + 32 * level) 32 bytes) = some (w.siblings level) := by
    intro level
    have hlevel : (level : ℕ) < 20 := level.isLt
    have hslot := hsiblings level
    rwa [Bytes32.read_bytes (by omega)] at hslot
  have hslots : rootsBytes (List.ofFn w.siblings) = slice (off + 148) 640 bytes :=
    rootsBytes_ofFn_slice fun level => encodeDigestCanonical_slice
      (by have hlevel : (level : ℕ) < 20 := level.isLt
          omega) (hlevels level)
  refine ⟨?_, decodeDigestCanonical_canonical hleaf, fun level => decodeDigestCanonical_canonical (hlevels level)⟩
  rw [encodeWitnessRecord, ← h.event, ← h.index, encodeDigestCanonical_slice (by omega) hleaf, hslots]
  simp (disch := omega) only [leBytes_leNat_slice, slice_join]
  rfl

end Record

/-! ### All records -/

/-- Two tracked paths differ in their event and in their leaf. -/
def DistinctWitness (a b : PoolWitness) : Prop := a.eventId ≠ b.eventId ∧ a.leafIndex ≠ b.leafIndex

/-- The records come in strictly increasing order, after a first key. -/
def SortedAfter (previous : Option (ℕ × Bytes)) (records : List PoolWitness) : Prop :=
  (records.Pairwise fun a b => WitnessKeyLt (witnessKey a) (witnessKey b)) ∧
    ∀ key ∈ previous, ∀ w ∈ records, WitnessKeyLt key (witnessKey w)

theorem sortedAfter_cons {previous : Option (ℕ × Bytes)} {w : PoolWitness} {records : List PoolWitness} :
    SortedAfter previous (w :: records) ↔
      (∀ key ∈ previous, WitnessKeyLt key (witnessKey w)) ∧ SortedAfter (some (witnessKey w)) records := by
  constructor
  · rintro ⟨hsorted, hprevious⟩
    obtain ⟨hfirst, hrest⟩ := List.pairwise_cons.mp hsorted
    exact ⟨fun key hkey => hprevious key hkey w List.mem_cons_self, hrest, fun key hkey v hv => by
      obtain rfl := Option.some.inj hkey
      exact hfirst v hv⟩
  · rintro ⟨hprevious, hrest, hafter⟩
    refine ⟨List.pairwise_cons.mpr ⟨hafter _ rfl, hrest⟩, fun key hkey v hv => ?_⟩
    rcases List.mem_cons.mp hv with rfl | hv
    · exact hprevious key hkey
    · exact trans_of WitnessKeyLt (hprevious key hkey) (hafter _ rfl v hv)

section Records
variable {env : Environment} {tree : PoolTree} {tracked records : List PoolWitness} {s s' : PoolWitnessState}
  {previous : Option (ℕ × Bytes)} {off count : ℕ} {bytes : Bytes}

/-- The import of a path that was read. -/
theorem importCurrentWitnessV1_eq_ok {eventId : DepositEventIdV1} {leafIndex : ℕ} {leafBytes : Bytes32}
    {siblingBytes : Fin POOL_V1_TREE_DEPTH → Bytes32} {u : Unit} :
    (poolTreeDigests env).importCurrentWitnessV1 eventId leafIndex leafBytes siblingBytes s = .ok u s' ↔
      ∃ leaf siblings, leafIndex < s.tree.nextLeafIndex ∧
        (∀ v ∈ s.tracked, v.eventId ≠ eventId ∧ v.leafIndex ≠ leafIndex) ∧
        (poolTreeDigests env).decode leafBytes = some leaf ∧
        (poolTreeDigests env).decodeSiblings siblingBytes = some siblings ∧
        (poolTreeDigests env).rootOf ⟨eventId, leafIndex, leaf, siblings⟩ = s.tree.root ∧
        s' = { s with tracked := s.tracked ++ [⟨eventId, leafIndex, leaf, siblings⟩] } := by
  simp only [TreeDigests.importCurrentWitnessV1, Exec.bind_ok, Exec.query_ok, Exec.update_ok, except_bind_eq_ok,
    require_eq_ok, okOr_eq_ok, except_pure_eq_ok, not_exists, not_and, not_or]
  constructor
  · rintro ⟨witness, _, ⟨⟨_, hindex, _, hnew, leaf, hleaf, siblings, hsiblings, _, hroot, rfl⟩, rfl⟩, rfl⟩
    exact ⟨leaf, siblings, hindex, hnew, hleaf, hsiblings, hroot, rfl⟩
  · rintro ⟨leaf, siblings, hindex, hnew, hleaf, hsiblings, hroot, rfl⟩
    exact ⟨_, _, ⟨⟨(), hindex, (), hnew, leaf, hleaf, siblings, hsiblings, (), hroot, rfl⟩, rfl⟩, rfl⟩

/-- Sorted records of importable paths are read into the state. -/
theorem decodeWitnessRecords_flatMap {before : Bytes} (hentries : ∀ w ∈ records, WitnessEntry env tree w)
    (hroom : tree.nextLeafIndex ≤ POOL_V1_LEAF_CAPACITY) (hsorted : SortedAfter previous records)
    (hdistinct : records.Pairwise DistinctWitness) (hnew : ∀ v ∈ tracked, ∀ w ∈ records, DistinctWitness v w) :
    decodeWitnessRecords env records.length previous before.length (before ++ records.flatMap encodeWitnessRecord)
      ⟨tree, tracked⟩ = .ok ⟨tree, tracked ++ records⟩ := by
  induction records generalizing previous before tracked with
  | nil => rw [List.length_nil, decodeWitnessRecords, List.append_nil]
  | cons w records ih =>
    obtain ⟨hfirst, hrest⟩ := List.pairwise_cons.mp hdistinct
    obtain ⟨hprevious, hafter⟩ := sortedAfter_cons.mp hsorted
    have hw := hentries w List.mem_cons_self
    have hcap : POOL_V1_LEAF_CAPACITY < 2 ^ 64 := by decide
    have hindex := hw.index_lt
    have hslice : slice before.length WALLET_WITNESS_RECORD_BYTES_V1
        (before ++ (encodeWitnessRecord w ++ records.flatMap encodeWitnessRecord)) = encodeWitnessRecord w := by
      rw [slice_append_right le_rfl, Nat.sub_self, slice_append_head (length_encodeWitnessRecord w).symm]
    have hread : ReadsWitness env before.length _ w :=
      readsWitness_of_slice hslice (by omega) hw.leaf_canonical hw.siblings_canonical
    have himport : (poolTreeDigests env).importCurrentWitnessV1 w.eventId w.leafIndex
        (Bytes32.read (before.length + 116) (before ++ (encodeWitnessRecord w ++ records.flatMap encodeWitnessRecord)))
        (fun level => Bytes32.read (before.length + 148 + 32 * level)
          (before ++ (encodeWitnessRecord w ++ records.flatMap encodeWitnessRecord))) ⟨tree, tracked⟩ =
          .ok () ⟨tree, tracked ++ [w]⟩ :=
      importCurrentWitnessV1_eq_ok.mpr ⟨w.leaf, w.siblings, hindex, fun v hv => hnew v hv w List.mem_cons_self, hread.leaf,
        hread.siblings, hw.root_eq, rfl⟩
    have hnext := @ih (tracked ++ [w]) (some (witnessKey w)) (before ++ encodeWitnessRecord w)
      (fun v hv => hentries v (List.mem_cons_of_mem w hv)) hafter hrest (fun v hv u hu => by
        rcases List.mem_append.mp hv with hv | hv
        · exact hnew v hv u (List.mem_cons_of_mem w hu)
        · obtain rfl := List.mem_singleton.mp hv
          exact hfirst u hu)
    rw [List.length_append, length_encodeWitnessRecord, List.append_assoc, List.append_assoc, List.singleton_append] at hnext
    have hkey : ∀ key ∈ previous, WitnessKeyLt key (w.leafIndex, encodeEventIdV1 w.eventId) := hprevious
    rw [List.flatMap_cons, List.length_cons, decodeWitnessRecords]
    dsimp only
    rw [hread.event, decodeEventIdV1_encode, except_ok_bind, hread.index, require_of _ hkey, except_ok_bind, himport]
    exact hnext

/-- Records that were read are the bytes behind the offset, sorted, distinct and importable. -/
theorem flatMap_of_decodeWitnessRecords (h : decodeWitnessRecords env count previous off bytes s = .ok s')
    (hlen : off + count * WALLET_WITNESS_RECORD_BYTES_V1 ≤ bytes.length) :
    ∃ records, s' = ⟨s.tree, s.tracked ++ records⟩ ∧ records.length = count ∧
      slice off (count * WALLET_WITNESS_RECORD_BYTES_V1) bytes = records.flatMap encodeWitnessRecord ∧
      (∀ w ∈ records, WitnessEntry env s.tree w) ∧ SortedAfter previous records ∧ records.Pairwise DistinctWitness ∧
      ∀ v ∈ s.tracked, ∀ w ∈ records, DistinctWitness v w := by
  induction count generalizing previous off s with
  | zero =>
    obtain rfl := Except.ok.inj h
    refine ⟨[], by rw [List.append_nil], rfl, ?_, by simp, ⟨List.Pairwise.nil, by simp⟩, List.Pairwise.nil, by simp⟩
    rw [Nat.zero_mul, List.flatMap_nil, slice, List.take_zero]
  | succ count ih =>
    rw [decodeWitnessRecords] at h
    simp only [except_bind_eq_ok, require_eq_ok] at h
    obtain ⟨eventId, hevent, _, hprevious, h⟩ := h
    split at h
    · cases h
    · rename_i next himport
      obtain ⟨leaf, siblings, hindex, hfresh, hleaf, hsiblings, hroot, rfl⟩ := importCurrentWitnessV1_eq_ok.mp himport
      have hsize : (count + 1) * WALLET_WITNESS_RECORD_BYTES_V1 =
        WALLET_WITNESS_RECORD_BYTES_V1 + count * WALLET_WITNESS_RECORD_BYTES_V1 := by ring
      rw [hsize] at hlen ⊢
      obtain ⟨records, rfl, rfl, hbytes, hentries, hsorted, hdistinct, hnew⟩ := ih h (by omega)
      have hencoded := (encodeEventIdV1_of_decode hevent).symm
      set w : PoolWitness := ⟨eventId, leNat (slice (off + 108) 8 bytes), leaf, siblings⟩ with hw
      have hread : ReadsWitness env off bytes w := ⟨hencoded, rfl, hleaf, hsiblings⟩
      obtain ⟨hslice, hleafCanonical, hsiblingsCanonical⟩ := hread.slice_eq (by omega)
      rw [hencoded] at hprevious hsorted
      refine ⟨w :: records, ?_, rfl, ?_, ?_, sortedAfter_cons.mpr ⟨hprevious, hsorted⟩, ?_, ?_⟩
      · rw [List.append_assoc, List.singleton_append]
      · rw [slice_split, hslice, hbytes, List.flatMap_cons]
      · intro v hv
        rcases List.mem_cons.mp hv with rfl | hv
        · exact ⟨hindex, hleafCanonical, hsiblingsCanonical, hroot⟩
        · exact hentries v hv
      · refine List.pairwise_cons.mpr ⟨fun v hv => ?_, hdistinct⟩
        exact hnew w (List.mem_append_right _ (List.mem_singleton_self w)) v hv
      · intro v hv u hu
        rcases List.mem_cons.mp hu with rfl | hu
        · exact hfresh v hv
        · exact hnew v (List.mem_append_left _ hv) u hu

end Records

/-! ### Whole images -/

section
variable (sha256 : Bytes → Bytes32) (tree : PoolTree) (records : List PoolWitness)

def witnessChecksum : Bytes32 :=
  sha256 (WALLET_WITNESS_CHECKSUM_DOMAIN_V1 ++ maskedImage WALLET_WITNESS_CHECKSUM_OFFSET_V1
    (witnessHeader records.length ++ (zeros 32 ++ (encodeTree tree ++ records.flatMap encodeWitnessRecord))))

/-- The one image of a tree and a list of records. -/
def witnessImage : Bytes :=
  witnessHeader records.length ++ ((witnessChecksum sha256 tree records).bytes ++
    (encodeTree tree ++ records.flatMap encodeWitnessRecord))

end

/-- A state whose tree and paths have been checked. -/
structure CheckedWitnesses (env : Environment) (s : PoolWitnessState) : Prop where
  tree_valid : s.tree.validateWithEmptyRoots env.treeParent env.emptyRoots = .ok ()
  tree_canonical : CanonicalTree s.tree
  entries : ∀ w ∈ s.tracked, WitnessEntry env s.tree w
  distinct : s.tracked.Pairwise DistinctWitness

/-- The image of the state stays below the limit. -/
def FitsWitnessImage (s : PoolWitnessState) : Prop :=
  WALLET_WITNESS_STATE_HEADER_BYTES_V1 + POOL_V1_TREE_STATE_ACCOUNT_BYTES + s.tracked.length * WALLET_WITNESS_RECORD_BYTES_V1 ≤
    MAX_WALLET_WITNESS_IMAGE_BYTES_V1

instance (s : PoolWitnessState) : Decidable (FitsWitnessImage s) := inferInstanceAs (Decidable (_ ≤ _))

section Images
variable {env : Environment} {sha256 : Bytes → Bytes32} {s : PoolWitnessState} {tree : PoolTree}
  {tracked records : List PoolWitness} {bytes : Bytes}

theorem orderedWitnesses_perm (tracked : List PoolWitness) : (orderedWitnesses tracked).Perm tracked :=
  sortByKey_perm _ _ tracked

theorem distinctWitness_symm {a b : PoolWitness} (h : DistinctWitness a b) : DistinctWitness b a := ⟨h.1.symm, h.2.symm⟩

theorem orderedWitnesses_distinct (h : tracked.Pairwise DistinctWitness) :
    (orderedWitnesses tracked).Pairwise DistinctWitness :=
  (orderedWitnesses_perm tracked).symm.pairwise h fun h => distinctWitness_symm h

theorem orderedWitnesses_sorted (h : tracked.Pairwise DistinctWitness) :
    (orderedWitnesses tracked).Pairwise fun a b => WitnessKeyLt (witnessKey a) (witnessKey b) := by
  apply sortByKey_pairwise
  rw [List.Nodup, List.pairwise_map]
  refine h.imp ?_
  intro a b hab heq
  exact hab.2 (Prod.mk.inj heq).1

theorem orderedWitnesses_of_sorted (h : tracked.Pairwise fun a b => WitnessKeyLt (witnessKey a) (witnessKey b)) :
    orderedWitnesses tracked = tracked := sortByKey_of_pairwise _ _ h

theorem length_flatMap_encodeWitnessRecord (records : List PoolWitness) :
    (records.flatMap encodeWitnessRecord).length = records.length * WALLET_WITNESS_RECORD_BYTES_V1 := by
  induction records with
  | nil => rfl
  | cons w records ih =>
    rw [List.flatMap_cons, List.length_append, ih, length_encodeWitnessRecord, List.length_cons]
    ring

theorem length_witnessImage : (witnessImage sha256 tree records).length =
    WALLET_WITNESS_STATE_HEADER_BYTES_V1 + POOL_V1_TREE_STATE_ACCOUNT_BYTES +
      records.length * WALLET_WITNESS_RECORD_BYTES_V1 := by
  rw [witnessImage, List.length_append, List.length_append, List.length_append, length_witnessHeader, Bytes32.length_eq,
    length_encodeTree, length_flatMap_encodeWitnessRecord]
  simp only [WALLET_WITNESS_STATE_HEADER_BYTES_V1, POOL_V1_TREE_STATE_ACCOUNT_BYTES, WALLET_WITNESS_CHECKSUM_OFFSET_V1]
  omega

/-- The checksum does not depend on what stands in its place. -/
theorem witnessChecksum_eq (c : Bytes32) :
    witnessChecksum sha256 tree records =
      sha256 (WALLET_WITNESS_CHECKSUM_DOMAIN_V1 ++ maskedImage WALLET_WITNESS_CHECKSUM_OFFSET_V1
        (witnessHeader records.length ++ (c.bytes ++ (encodeTree tree ++ records.flatMap encodeWitnessRecord)))) :=
  congrArg (fun d => sha256 (WALLET_WITNESS_CHECKSUM_DOMAIN_V1 ++ d))
    (maskedImage_congr Bytes32.zero c (length_witnessHeader records.length))

/-- A checked state that fits is written as the image of its sorted records. -/
theorem encodeWalletWitnessStateV1_of_fits (h : CheckedWitnesses env s) (hfits : FitsWitnessImage s) :
    encodeWalletWitnessStateV1 env sha256 s = .ok (witnessImage sha256 s.tree (orderedWitnesses s.tracked)) := by
  have hlength : (orderedWitnesses s.tracked).length = s.tracked.length := (orderedWitnesses_perm s.tracked).length_eq
  have hchain : (orderedWitnesses s.tracked).IsChain fun a b => a.leafIndex ≠ b.leafIndex ∧ a.eventId ≠ b.eventId :=
    ((orderedWitnesses_distinct h.distinct).imp fun hab => ⟨hab.2, hab.1⟩).isChain
  have hcount : s.tracked.length < 2 ^ 32 := by
    have hle : _ ≤ 64 * 1024 * 1024 := hfits
    have hrecord : WALLET_WITNESS_RECORD_BYTES_V1 = 788 := rfl
    rw [hrecord] at hle
    omega
  simp only [encodeWalletWitnessStateV1, walletWitnessChecksumV1, encodeWithEmptyRoots, except_bind_eq_ok, require_eq_ok,
    mapErr_eq_ok, except_pure_eq_ok]
  refine ⟨(), h.tree_valid, (), hfits, (), hcount, (), hchain, encodeTree s.tree, ⟨(), h.tree_valid, rfl⟩, _,
    ⟨(), ?_, rfl⟩, ?_⟩
  · simp only [List.length_append, length_witnessHeader, length_zeros, WALLET_WITNESS_STATE_HEADER_BYTES_V1,
      WALLET_WITNESS_CHECKSUM_OFFSET_V1]
    omega
  · rw [patch_checksum _ (length_witnessHeader _), witnessImage, witnessChecksum, hlength]

/-- A checked state above the limit is refused. -/
theorem encodeWalletWitnessStateV1_of_not_fits (h : CheckedWitnesses env s) (hfits : ¬ FitsWitnessImage s) :
    encodeWalletWitnessStateV1 env sha256 s = .error .countOverflow := by
  have hvalid : mapErr WitnessStateErrorV1.tree (s.tree.validateWithEmptyRoots env.treeParent env.emptyRoots) = .ok () := by
    rw [h.tree_valid]
    rfl
  rw [encodeWalletWitnessStateV1, hvalid, except_ok_bind]
  unfold FitsWitnessImage at hfits
  dsimp only
  rw [require, if_neg hfits]
  rfl

/-- A field before the checksum reads as in the header alone. -/
theorem slice_witnessImage {off len : ℕ} {b : Bytes} (hlen : off + len ≤ 32)
    (h : slice off len (witnessHeader records.length) = b) : slice off len (witnessImage sha256 tree records) = b := by
  rw [witnessImage, slice_append_left (by rw [length_witnessHeader]; exact hlen), h]

theorem decodeWalletWitnessStateV1_witnessImage (h : CheckedWitnesses env s) (hfits : FitsWitnessImage s)
    (hsorted : s.tracked.Pairwise fun a b => WitnessKeyLt (witnessKey a) (witnessKey b)) :
    decodeWalletWitnessStateV1 env sha256 (witnessImage sha256 s.tree s.tracked) = .ok s := by
  have hle : 752 + s.tracked.length * 788 ≤ 67108864 := hfits
  have hlength := @length_witnessImage sha256 s.tree s.tracked
  have hmagic : slice 0 4 (witnessImage sha256 s.tree s.tracked) = WALLET_WITNESS_STATE_MAGIC_V1 :=
    slice_witnessImage (by omega) (by rw [witnessHeader, slice_append_head (by simp)])
  have hparameters : slice 4 4 (witnessImage sha256 s.tree s.tracked) = witnessParameters :=
    slice_witnessImage (by omega) (by simp [witnessHeader, slice_append_right, slice_append_head])
  have hversion : slice 4 1 (witnessImage sha256 s.tree s.tracked) = slice 0 1 witnessParameters := by
    rw [← hparameters, slice_slice _ (by omega)]
  have hversions : slice 5 3 (witnessImage sha256 s.tree s.tracked) = slice 1 3 witnessParameters := by
    rw [← hparameters, slice_slice _ (by omega)]
  have hcount : leNat (slice 8 4 (witnessImage sha256 s.tree s.tracked)) = s.tracked.length := by
    have hfield : slice 8 4 (witnessImage sha256 s.tree s.tracked) = leBytes 4 s.tracked.length :=
      slice_witnessImage (by omega) (by simp [witnessHeader, slice_append_right, slice_append_head])
    rw [hfield, leNat_leBytes_of_lt (by omega)]
  have hrecord : leNat (slice 12 4 (witnessImage sha256 s.tree s.tracked)) = WALLET_WITNESS_RECORD_BYTES_V1 := by
    have hfield : slice 12 4 (witnessImage sha256 s.tree s.tracked) = leBytes 4 WALLET_WITNESS_RECORD_BYTES_V1 :=
      slice_witnessImage (by omega) (by simp [witnessHeader, slice_append_right, slice_append_head])
    rw [hfield, leNat_leBytes_of_lt (by decide)]
  have htree : leNat (slice 16 4 (witnessImage sha256 s.tree s.tracked)) = POOL_V1_TREE_STATE_ACCOUNT_BYTES := by
    have hfield : slice 16 4 (witnessImage sha256 s.tree s.tracked) = leBytes 4 POOL_V1_TREE_STATE_ACCOUNT_BYTES :=
      slice_witnessImage (by omega) (by simp [witnessHeader, slice_append_right, slice_append_head])
    rw [hfield, leNat_leBytes_of_lt (by decide)]
  have hreserved : allZero (slice 20 12 (witnessImage sha256 s.tree s.tracked)) = true := by
    have hfield : slice 20 12 (witnessImage sha256 s.tree s.tracked) = zeros 12 :=
      slice_witnessImage (by omega) (by simp [witnessHeader, slice_append_right, slice_all])
    rw [hfield]
    decide
  have hchecksum : Bytes32.read WALLET_WITNESS_CHECKSUM_OFFSET_V1 (witnessImage sha256 s.tree s.tracked) =
      witnessChecksum sha256 s.tree s.tracked := Bytes32.read_eq (by
    rw [witnessImage, slice_append_right (by rw [length_witnessHeader]), length_witnessHeader, Nat.sub_self,
      slice_append_head (Bytes32.length_eq _).symm])
  have htreeBytes : slice WALLET_WITNESS_STATE_HEADER_BYTES_V1 POOL_V1_TREE_STATE_ACCOUNT_BYTES
      (witnessImage sha256 s.tree s.tracked) = encodeTree s.tree := by
    rw [witnessImage, ← List.append_assoc]
    have hfront : (witnessHeader s.tracked.length ++ (witnessChecksum sha256 s.tree s.tracked).bytes).length =
        WALLET_WITNESS_STATE_HEADER_BYTES_V1 := by
      rw [List.length_append, length_witnessHeader, Bytes32.length_eq]
      rfl
    rw [slice_append_right hfront.le, hfront, Nat.sub_self]
    exact slice_append_head (length_encodeTree _).symm
  have htreeDecode : decodeWithEmptyRoots env.treeParent env.emptyRoots (encodeTree s.tree) = .ok s.tree := by
    simp only [decodeWithEmptyRoots, except_bind_eq_ok, except_pure_eq_ok]
    exact ⟨_, decode_encodeTree (.of_validated h.tree_canonical h.tree_valid), (), h.tree_valid, rfl⟩
  have hstart : (poolTreeDigests env).fromAuthenticatedTreeV1 s.tree ⟨encodeDigestCanonical s.tree.root, by simp⟩ =
      .ok ⟨s.tree, []⟩ := by
    simp only [TreeDigests.fromAuthenticatedTreeV1, except_bind_eq_ok, require_eq_ok, okOr_eq_ok, mapErr_eq_ok,
      except_pure_eq_ok]
    exact ⟨(), h.tree_valid, s.tree.root, decode_encodeDigestCanonical h.tree_canonical.root_canonical, (), rfl, trivial⟩
  have hrecords := @decodeWitnessRecords_flatMap env s.tree [] s.tracked none
    (witnessHeader s.tracked.length ++ ((witnessChecksum sha256 s.tree s.tracked).bytes ++ encodeTree s.tree)) h.entries
    (validateWithEmptyRoots_ok h.tree_valid).1 ⟨hsorted, by simp⟩ h.distinct (by simp)
  have hfront : (witnessHeader s.tracked.length ++ ((witnessChecksum sha256 s.tree s.tracked).bytes ++
      encodeTree s.tree)).length = WALLET_WITNESS_STATE_HEADER_BYTES_V1 + POOL_V1_TREE_STATE_ACCOUNT_BYTES := by
    rw [List.length_append, List.length_append, length_witnessHeader, Bytes32.length_eq, length_encodeTree]
    rfl
  rw [hfront, List.append_assoc, List.append_assoc] at hrecords
  simp only [decodeWalletWitnessStateV1, walletWitnessChecksumV1, except_bind_eq_ok, require_eq_ok, mapErr_eq_ok,
    except_pure_eq_ok]
  refine ⟨(), ⟨by omega, by rw [hlength]; exact hfits⟩, (), hmagic, (), hversion, (), ⟨hversions, hrecord, htree⟩, (), hreserved, _,
    ⟨(), ?_, rfl⟩, (), ?_, (), ?_, s.tree, ?_, _, hstart, ?_⟩
  · rw [hlength, Nat.add_assoc]
    exact Nat.le_add_right _ _
  · rw [hchecksum]
    exact witnessChecksum_eq _
  · rw [hcount, hlength]
  · rw [htreeBytes]
    exact htreeDecode
  · rw [hcount]
    exact hrecords

/-- An accepted image is the image of the state it stands for. -/
theorem witnessImage_of_decode (h : decodeWalletWitnessStateV1 env sha256 bytes = .ok s) :
    CheckedWitnesses env s ∧ FitsWitnessImage s ∧
      (s.tracked.Pairwise fun a b => WitnessKeyLt (witnessKey a) (witnessKey b)) ∧
      bytes = witnessImage sha256 s.tree s.tracked := by
  simp only [decodeWalletWitnessStateV1, walletWitnessChecksumV1, TreeDigests.fromAuthenticatedTreeV1, decodeWithEmptyRoots,
    except_bind_eq_ok, require_eq_ok, okOr_eq_ok, mapErr_eq_ok, except_pure_eq_ok] at h
  obtain ⟨_, ⟨hlong, hshort⟩, _, hmagic, _, hversion, _, ⟨hversions, hrecord, htreeSize⟩, _, hreserved, _, ⟨_, _, rfl⟩, _,
    hchecksum, _, hlength, _, ⟨tree, htree, _, hvalid, rfl⟩, _, ⟨_, _, root, _, _, _, rfl⟩, hrun⟩ := h
  have hlong' : 752 ≤ bytes.length := hlong
  obtain ⟨records, rfl, hcount, hrecords, hentries, hsorted, hdistinct, -⟩ := flatMap_of_decodeWitnessRecords hrun hlength.le
  obtain ⟨htreeBytes, hroot, hfrontier⟩ := encodeTree_of_decode htree
  have hheader : slice 0 WALLET_WITNESS_CHECKSUM_OFFSET_V1 bytes = witnessHeader records.length := by
    have hparameters : witnessParameters = slice 4 4 bytes := by
      rw [slice_split 4 1 3, hversion, hversions]
      rfl
    rw [witnessHeader, hcount, ← hmagic, hparameters, ← hrecord, ← htreeSize, zeros_of_allZero (by omega) hreserved]
    simp (disch := omega) only [leBytes_leNat_slice, slice_join]
    rfl
  have hrest : bytes.drop (WALLET_WITNESS_CHECKSUM_OFFSET_V1 + 32) =
      encodeTree tree ++ records.flatMap encodeWitnessRecord := by
    rw [htreeBytes, ← hrecords, slice_join _ rfl, slice, List.take_of_length_le]
    · rfl
    · rw [List.length_drop]
      omega
  have hsplit := @split_checksum WALLET_WITNESS_CHECKSUM_OFFSET_V1 bytes (by
    simp only [WALLET_WITNESS_CHECKSUM_OFFSET_V1]
    omega)
  rw [hheader, hrest] at hsplit
  refine ⟨⟨hvalid, ⟨hroot, hfrontier⟩, hentries, hdistinct⟩, ?_, hsorted.1, ?_⟩
  · unfold FitsWitnessImage
    dsimp only
    rw [List.nil_append, hcount, hlength]
    exact hshort
  · dsimp only
    rw [List.nil_append, witnessImage, witnessChecksum_eq (Bytes32.read WALLET_WITNESS_CHECKSUM_OFFSET_V1 bytes), hsplit,
      ← hchecksum, hsplit]

/-- The decoder accepts exactly the images of checked states with sorted records that fit. -/
theorem decodeWalletWitnessStateV1_eq_ok :
    decodeWalletWitnessStateV1 env sha256 bytes = .ok s ↔
      CheckedWitnesses env s ∧ FitsWitnessImage s ∧
        (s.tracked.Pairwise fun a b => WitnessKeyLt (witnessKey a) (witnessKey b)) ∧
        bytes = witnessImage sha256 s.tree s.tracked := by
  constructor
  · exact witnessImage_of_decode
  · rintro ⟨hchecked, hfits, hsorted, rfl⟩
    exact decodeWalletWitnessStateV1_witnessImage hchecked hfits hsorted

end Images

end Aspis.Wallet
