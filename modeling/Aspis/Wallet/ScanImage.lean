import Aspis.Lib.Records
import Aspis.Wallet.ScanChain

/-! The stored image of a scan cursor: a fixed header with the cursor at both
ends, one record for every retained block and every retained event, and a
checksum over everything but itself. -/

namespace Aspis.Wallet

open Lib Statement Pool

/-! ### Checked constructors -/

def FinalizedChainPointV1.new (slot : ℕ) (blockHash : Bytes32) : Except ScanStateErrorV1 FinalizedChainPointV1 :=
  if h : slot < 2 ^ 64 ∧ blockHash ≠ Bytes32.zero then .ok ⟨slot, blockHash, h.1, h.2⟩ else .error .invalidChainPoint

def FinalizedBlockV1.new (point parent : FinalizedChainPointV1) : Except ScanStateErrorV1 FinalizedBlockV1 :=
  if h : parent.slot < point.slot then .ok ⟨point, parent, h⟩ else .error .invalidChainPoint

def DepositEventIdV1.new (point : FinalizedChainPointV1) (transactionSignature : Bytes) (instructionIndex eventIndex : ℕ) :
    Except ScanStateErrorV1 DepositEventIdV1 :=
  if h : transactionSignature.length = 64 ∧ transactionSignature ≠ zeros 64 ∧ instructionIndex < 2 ^ 16 ∧
      eventIndex < 2 ^ 16 then
    .ok ⟨point, transactionSignature, instructionIndex, eventIndex, h.1, h.2.1, h.2.2.1, h.2.2.2⟩
  else .error .invalidEventIdentity

def DepositScanIdentityV1.new (pool deploymentDomain assetMint vaultTokenAccount : Bytes32) (assetId : ℕ) :
    Except ScanStateErrorV1 DepositScanIdentityV1 :=
  if h : pool ≠ Bytes32.zero ∧ deploymentDomain ≠ Bytes32.zero ∧ assetMint ≠ Bytes32.zero ∧
      vaultTokenAccount ≠ Bytes32.zero ∧ assetId < P then
    .ok ⟨pool, deploymentDomain, assetMint, vaultTokenAccount, assetId, h.1, h.2.1, h.2.2.1, h.2.2.2.1, h.2.2.2.2⟩
  else .error .invalidIdentity

theorem FinalizedChainPointV1.new_eq (p : FinalizedChainPointV1) : FinalizedChainPointV1.new p.slot p.blockHash = .ok p :=
  dif_pos ⟨p.slot_lt, p.hash_ne⟩

theorem FinalizedBlockV1.new_eq (b : FinalizedBlockV1) : FinalizedBlockV1.new b.point b.parent = .ok b :=
  dif_pos b.parent_lt

theorem DepositEventIdV1.new_eq (id : DepositEventIdV1) :
    DepositEventIdV1.new id.point id.transactionSignature id.instructionIndex id.eventIndex = .ok id :=
  dif_pos ⟨id.signature_length, id.signature_ne, id.instructionIndex_lt, id.eventIndex_lt⟩

theorem DepositScanIdentityV1.new_eq (i : DepositScanIdentityV1) :
    DepositScanIdentityV1.new i.pool i.deploymentDomain i.assetMint i.vaultTokenAccount i.assetId = .ok i :=
  dif_pos ⟨i.pool_ne, i.domain_ne, i.mint_ne, i.vault_ne, i.assetId_lt⟩

/-! ### Records -/

def POOL_V1_SCAN_STATE_HEADER_BYTES : ℕ := 344

def POOL_V1_SCAN_STATE_BLOCK_BYTES : ℕ := 128

def POOL_V1_SCAN_STATE_EVENT_BYTES : ℕ := 212

def STATE_CHECKSUM_OFFSET : ℕ := 312

/-- A point as it stands in every record: slot and block hash. -/
def encodePoint (p : FinalizedChainPointV1) : Bytes := leBytes 8 p.slot ++ p.blockHash.bytes

def decodePoint (off : ℕ) (d : Bytes) : Except ScanStateErrorV1 FinalizedChainPointV1 :=
  FinalizedChainPointV1.new (leNat (slice off 8 d)) (Bytes32.read (off + 8) d)

def encodeBlock (c : BlockCheckpointV1) : Bytes :=
  encodePoint c.block.point ++ (encodePoint c.block.parent ++ (leBytes 8 c.nextLeafIndexBefore ++ (c.rootBefore.bytes ++
    (leBytes 4 c.processedEventCountBefore ++ zeros 4))))

def decodeBlock (entry : Bytes) : Except ScanStateErrorV1 BlockCheckpointV1 := do
  require (slice 124 4 entry = zeros 4) .nonZeroReserved
  let point ← decodePoint 0 entry
  let parent ← decodePoint 40 entry
  let block ← FinalizedBlockV1.new point parent
  return ⟨block, leNat (slice 80 8 entry), Bytes32.read 88 entry, leNat (slice 120 4 entry)⟩

def encodeEvent (e : ProcessedDepositEventV1) : Bytes :=
  encodePoint e.id.point ++ (e.id.transactionSignature ++ (leBytes 2 e.id.instructionIndex ++ (leBytes 2 e.id.eventIndex ++
    (leBytes 8 e.leafIndex ++ (e.fingerprint.bytes ++ (e.noteCommitment.bytes ++ e.root.bytes))))))

def decodeEvent (entry : Bytes) : Except ScanStateErrorV1 ProcessedDepositEventV1 := do
  let point ← decodePoint 0 entry
  let id ← DepositEventIdV1.new point (slice 40 64 entry) (leNat (slice 104 2 entry)) (leNat (slice 106 2 entry))
  return ⟨id, leNat (slice 108 8 entry), Bytes32.read 116 entry, Bytes32.read 148 entry, Bytes32.read 180 entry⟩

@[simp] theorem length_encodePoint (p : FinalizedChainPointV1) : (encodePoint p).length = 40 := by simp [encodePoint]

@[simp] theorem length_encodeBlock (c : BlockCheckpointV1) : (encodeBlock c).length = POOL_V1_SCAN_STATE_BLOCK_BYTES := by
  simp [encodeBlock, POOL_V1_SCAN_STATE_BLOCK_BYTES]

@[simp] theorem length_encodeEvent (e : ProcessedDepositEventV1) :
    (encodeEvent e).length = POOL_V1_SCAN_STATE_EVENT_BYTES := by
  simp [encodeEvent, POOL_V1_SCAN_STATE_EVENT_BYTES, e.id.signature_length]

theorem encodePoint_of_decodePoint {off : ℕ} {d : Bytes} {p : FinalizedChainPointV1} (hlen : off + 40 ≤ d.length)
    (h : decodePoint off d = .ok p) : encodePoint p = slice off 40 d := by
  simp only [decodePoint, FinalizedChainPointV1.new] at h
  split_ifs at h
  obtain rfl := Except.ok.inj h
  rw [encodePoint]
  simp (disch := omega) only [Bytes32.read_bytes, leBytes_leNat_slice, slice_join]

/-- A point reads back wherever it stands. -/
theorem decodePoint_of_slice {off : ℕ} {d : Bytes} {p : FinalizedChainPointV1} (h : slice off 40 d = encodePoint p) :
    decodePoint off d = .ok p := by
  have hslot : slice off 8 d = leBytes 8 p.slot := by
    have hfront := @slice_slice off 40 0 8 d (by omega)
    rw [h, Nat.add_zero] at hfront
    rw [← hfront]
    simp [encodePoint, slice_append_head]
  have hhash : Bytes32.read (off + 8) d = p.blockHash := Bytes32.read_eq (by
    have hback := @slice_slice off 40 8 32 d (by omega)
    rw [h] at hback
    rw [← hback]
    simp [encodePoint, slice_append_right, slice_all])
  have hlt := p.slot_lt
  rw [decodePoint, hslot, hhash, leNat_leBytes_of_lt (by omega), FinalizedChainPointV1.new_eq]

theorem decodeBlock_encodeBlock {c : BlockCheckpointV1} (hnext : c.nextLeafIndexBefore < 2 ^ 64)
    (hcount : c.processedEventCountBefore < 2 ^ 32) : decodeBlock (encodeBlock c) = .ok c := by
  have hpoint : decodePoint 0 (encodeBlock c) = .ok c.block.point := decodePoint_of_slice (by
    simp [encodeBlock, slice_append_head])
  have hparent : decodePoint 40 (encodeBlock c) = .ok c.block.parent := decodePoint_of_slice (by
    simp [encodeBlock, slice_append_right, slice_append_head])
  have hleaf : leNat (slice 80 8 (encodeBlock c)) = c.nextLeafIndexBefore := by
    have hslice : slice 80 8 (encodeBlock c) = leBytes 8 c.nextLeafIndexBefore := by
      simp [encodeBlock, slice_append_right, slice_append_head]
    rw [hslice, leNat_leBytes_of_lt (by omega)]
  have hroot : Bytes32.read 88 (encodeBlock c) = c.rootBefore := Bytes32.read_eq (by
    simp [encodeBlock, slice_append_right, slice_append_head])
  have hevents : leNat (slice 120 4 (encodeBlock c)) = c.processedEventCountBefore := by
    have hslice : slice 120 4 (encodeBlock c) = leBytes 4 c.processedEventCountBefore := by
      simp [encodeBlock, slice_append_right, slice_append_head]
    rw [hslice, leNat_leBytes_of_lt (by omega)]
  have hreserved : slice 124 4 (encodeBlock c) = zeros 4 := by
    simp [encodeBlock, slice_append_right, slice_all]
  rw [decodeBlock, require_of _ hreserved, except_ok_bind, hpoint, except_ok_bind, hparent, except_ok_bind,
    FinalizedBlockV1.new_eq, except_ok_bind, hleaf, hroot, hevents]
  rfl

theorem decodeEvent_encodeEvent {e : ProcessedDepositEventV1} (hleaf : e.leafIndex < 2 ^ 64) :
    decodeEvent (encodeEvent e) = .ok e := by
  have hlen := e.id.signature_length
  have hpoint : decodePoint 0 (encodeEvent e) = .ok e.id.point := decodePoint_of_slice (by
    simp [encodeEvent, slice_append_head])
  have hsignature : slice 40 64 (encodeEvent e) = e.id.transactionSignature := by
    simp [encodeEvent, slice_append_right, slice_append_head, hlen]
  have hinstruction : leNat (slice 104 2 (encodeEvent e)) = e.id.instructionIndex := by
    have hslice : slice 104 2 (encodeEvent e) = leBytes 2 e.id.instructionIndex := by
      simp [encodeEvent, slice_append_right, slice_append_head, hlen]
    have hlt := e.id.instructionIndex_lt
    rw [hslice, leNat_leBytes_of_lt (by omega)]
  have hevent : leNat (slice 106 2 (encodeEvent e)) = e.id.eventIndex := by
    have hslice : slice 106 2 (encodeEvent e) = leBytes 2 e.id.eventIndex := by
      simp [encodeEvent, slice_append_right, slice_append_head, hlen]
    have hlt := e.id.eventIndex_lt
    rw [hslice, leNat_leBytes_of_lt (by omega)]
  have hindex : leNat (slice 108 8 (encodeEvent e)) = e.leafIndex := by
    have hslice : slice 108 8 (encodeEvent e) = leBytes 8 e.leafIndex := by
      simp [encodeEvent, slice_append_right, slice_append_head, hlen]
    rw [hslice, leNat_leBytes_of_lt (by omega)]
  have hfingerprint : Bytes32.read 116 (encodeEvent e) = e.fingerprint := Bytes32.read_eq (by
    simp [encodeEvent, slice_append_right, slice_append_head, hlen])
  have hcommitment : Bytes32.read 148 (encodeEvent e) = e.noteCommitment := Bytes32.read_eq (by
    simp [encodeEvent, slice_append_right, slice_append_head, hlen])
  have hroot : Bytes32.read 180 (encodeEvent e) = e.root := Bytes32.read_eq (by
    simp [encodeEvent, slice_append_right, slice_all, hlen])
  rw [decodeEvent, hpoint, except_ok_bind, hsignature, hinstruction, hevent, DepositEventIdV1.new_eq, except_ok_bind, hindex,
    hfingerprint, hcommitment, hroot]
  rfl

/-! ### The image -/

/-- Magic `ASWS`, version, digest encoding version and two reserved bytes. -/
def scanStatePreamble : Bytes := [65, 83, 87, 83, 1, 1, 0, 0]

@[simp] theorem length_scanStatePreamble : scanStatePreamble.length = 8 := by simp [scanStatePreamble]

/-- The header up to the checksum. -/
def encodeScanHeader (s : ScanStateV1) : Bytes :=
  scanStatePreamble ++ (s.identity.pool.bytes ++ (s.identity.deploymentDomain.bytes ++ (s.identity.assetMint.bytes ++
    (s.identity.vaultTokenAccount.bytes ++ (leBytes 4 s.identity.assetId ++ (zeros 4 ++ (encodePoint s.anchor ++
      (leBytes 8 s.anchorNextLeafIndex ++ (s.anchorRoot.bytes ++ (encodePoint s.head ++ (leBytes 8 s.nextLeafIndex ++
        (s.root.bytes ++ (leBytes 4 s.blocks.length ++ leBytes 4 s.processedEvents.length)))))))))))))

/-- The records after the header. -/
def encodeScanRecords (s : ScanStateV1) : Bytes := s.blocks.flatMap encodeBlock ++ s.processedEvents.flatMap encodeEvent

def stateImageLengthV1 (blockCount eventCount : ℕ) : Except ScanStateErrorV1 ℕ := do
  let length := POOL_V1_SCAN_STATE_HEADER_BYTES + blockCount * POOL_V1_SCAN_STATE_BLOCK_BYTES +
    eventCount * POOL_V1_SCAN_STATE_EVENT_BYTES
  require (length < U64_LIMIT) .countOverflow
  return length

/-- The ASCII bytes `aspis:pool-v1:wallet:scan-state-checksum:sha256:v1`. -/
def POOL_V1_SCAN_STATE_CHECKSUM_DOMAIN : Bytes := "aspis:pool-v1:wallet:scan-state-checksum:sha256:v1".toUTF8.toList

section
variable (sha256 : Bytes → Bytes32)

/-- The checksum reads the image with zeros in its own place. -/
def scanStateChecksumV1 (bytes : Bytes) : Bytes32 :=
  sha256 (POOL_V1_SCAN_STATE_CHECKSUM_DOMAIN ++ (leBytes 8 bytes.length ++
    if POOL_V1_SCAN_STATE_HEADER_BYTES ≤ bytes.length then
      slice 0 STATE_CHECKSUM_OFFSET bytes ++ (zeros 32 ++ bytes.drop POOL_V1_SCAN_STATE_HEADER_BYTES)
    else bytes))

def encodeScanStateV1 (s : ScanStateV1) : Except ScanStateErrorV1 Bytes := do
  validateStateInvariantsV1 s
  require (s.blocks.length < U32_LIMIT) .countOverflow
  require (s.processedEvents.length < U32_LIMIT) .countOverflow
  let _ ← stateImageLengthV1 s.blocks.length s.processedEvents.length
  let output := encodeScanHeader s ++ (zeros 32 ++ encodeScanRecords s)
  return patch STATE_CHECKSUM_OFFSET (scanStateChecksumV1 sha256 output).bytes output

def decodeScanStateV1 (bytes : Bytes) : Except ScanStateErrorV1 ScanStateV1 := do
  require (POOL_V1_SCAN_STATE_HEADER_BYTES ≤ bytes.length) .wrongStateLength
  require (slice 0 4 bytes = slice 0 4 scanStatePreamble) .wrongStateMagic
  require (slice 4 2 bytes = slice 4 2 scanStatePreamble) .wrongStateVersion
  require (slice 6 2 bytes = zeros 2 ∧ slice 140 4 bytes = zeros 4) .nonZeroReserved
  let blockCount := leNat (slice 304 4 bytes)
  let eventCount := leNat (slice 308 4 bytes)
  let length ← stateImageLengthV1 blockCount eventCount
  require (length = bytes.length) .wrongStateLength
  require (Bytes32.read STATE_CHECKSUM_OFFSET bytes = scanStateChecksumV1 sha256 bytes) .checksumMismatch
  let identity ← DepositScanIdentityV1.new (Bytes32.read 8 bytes) (Bytes32.read 40 bytes) (Bytes32.read 72 bytes)
    (Bytes32.read 104 bytes) (leNat (slice 136 4 bytes))
  let anchor ← decodePoint 144 bytes
  let encodedHead ← decodePoint 224 bytes
  let blocks ← decodeRecords POOL_V1_SCAN_STATE_BLOCK_BYTES decodeBlock blockCount POOL_V1_SCAN_STATE_HEADER_BYTES bytes
  let processedEvents ← decodeRecords POOL_V1_SCAN_STATE_EVENT_BYTES decodeEvent eventCount
    (POOL_V1_SCAN_STATE_HEADER_BYTES + blockCount * POOL_V1_SCAN_STATE_BLOCK_BYTES) bytes
  let s : ScanStateV1 := ⟨identity, anchor, leNat (slice 184 8 bytes), Bytes32.read 192 bytes, leNat (slice 264 8 bytes),
    Bytes32.read 272 bytes, blocks, processedEvents⟩
  validateStateInvariantsV1 s
  require (s.head = encodedHead) .stateInvariant
  return s

end

@[simp] theorem length_encodeScanHeader (s : ScanStateV1) : (encodeScanHeader s).length = STATE_CHECKSUM_OFFSET := by
  simp [encodeScanHeader, STATE_CHECKSUM_OFFSET]

theorem length_encodeScanRecords (s : ScanStateV1) : (encodeScanRecords s).length =
    s.blocks.length * POOL_V1_SCAN_STATE_BLOCK_BYTES + s.processedEvents.length * POOL_V1_SCAN_STATE_EVENT_BYTES := by
  rw [encodeScanRecords, List.length_append, length_flatMap_const fun c _ => length_encodeBlock c,
    length_flatMap_const fun e _ => length_encodeEvent e]

/-- Numbers of a state that fit their fields. -/
structure FitsImage (s : ScanStateV1) : Prop where
  valid : validateStateInvariantsV1 s = .ok ()
  anchorNext_lt : s.anchorNextLeafIndex < 2 ^ 64
  next_lt : s.nextLeafIndex < 2 ^ 64
  blocks_fit : ∀ c ∈ s.blocks, c.nextLeafIndexBefore < 2 ^ 64 ∧ c.processedEventCountBefore < 2 ^ 32
  events_fit : ∀ e ∈ s.processedEvents, e.leafIndex < 2 ^ 64
  blocks_lt : s.blocks.length < U32_LIMIT
  events_lt : s.processedEvents.length < U32_LIMIT

/-- The image with a given checksum in its place. -/
def scanImageWith (checksum : Bytes32) (s : ScanStateV1) : Bytes :=
  encodeScanHeader s ++ (checksum.bytes ++ encodeScanRecords s)

theorem length_scanImageWith (checksum : Bytes32) (s : ScanStateV1) : (scanImageWith checksum s).length =
    POOL_V1_SCAN_STATE_HEADER_BYTES + s.blocks.length * POOL_V1_SCAN_STATE_BLOCK_BYTES +
      s.processedEvents.length * POOL_V1_SCAN_STATE_EVENT_BYTES := by
  rw [scanImageWith, List.length_append, List.length_append, length_encodeScanHeader, checksum.length_eq,
    length_encodeScanRecords, STATE_CHECKSUM_OFFSET, POOL_V1_SCAN_STATE_HEADER_BYTES]
  omega

theorem stateImageLengthV1_eq {s : ScanStateV1} (h : FitsImage s) (checksum : Bytes32) :
    stateImageLengthV1 s.blocks.length s.processedEvents.length = .ok (scanImageWith checksum s).length := by
  have hblocks := h.blocks_lt
  have hevents := h.events_lt
  rw [length_scanImageWith, stateImageLengthV1]
  simp only [except_bind_eq_ok, require_eq_ok, except_pure_eq_ok]
  simp only [U32_LIMIT, U64_LIMIT, POOL_V1_SCAN_STATE_HEADER_BYTES, POOL_V1_SCAN_STATE_BLOCK_BYTES,
    POOL_V1_SCAN_STATE_EVENT_BYTES] at *
  exact ⟨(), by omega, trivial⟩

section
variable {sha256 : Bytes → Bytes32} {s : ScanStateV1}

/-- The checksum does not depend on what stands in its place. -/
theorem scanStateChecksumV1_scanImageWith (checksum checksum' : Bytes32) :
    scanStateChecksumV1 sha256 (scanImageWith checksum s) = scanStateChecksumV1 sha256 (scanImageWith checksum' s) := by
  have hdrop : ∀ c : Bytes32, (scanImageWith c s).drop POOL_V1_SCAN_STATE_HEADER_BYTES = encodeScanRecords s := by
    intro c
    have hfront : (encodeScanHeader s ++ c.bytes).length = POOL_V1_SCAN_STATE_HEADER_BYTES := by
      simp [STATE_CHECKSUM_OFFSET, POOL_V1_SCAN_STATE_HEADER_BYTES]
    rw [scanImageWith, ← List.append_assoc, List.drop_left' hfront]
  have hslice : ∀ c : Bytes32, slice 0 STATE_CHECKSUM_OFFSET (scanImageWith c s) = encodeScanHeader s := by
    intro c
    rw [scanImageWith, slice_append_head (length_encodeScanHeader s).symm]
  have hlong : ∀ c : Bytes32, POOL_V1_SCAN_STATE_HEADER_BYTES ≤ (scanImageWith c s).length := by
    intro c
    rw [length_scanImageWith]
    omega
  have hlength : (scanImageWith checksum s).length = (scanImageWith checksum' s).length := by
    rw [length_scanImageWith, length_scanImageWith]
  rw [scanStateChecksumV1, scanStateChecksumV1, if_pos (hlong _), if_pos (hlong _), hdrop, hdrop, hslice, hslice, hlength]

theorem encodeScanStateV1_eq (h : FitsImage s) : encodeScanStateV1 sha256 s =
    .ok (scanImageWith (scanStateChecksumV1 sha256 (scanImageWith Bytes32.zero s)) s) := by
  have hpatch : ∀ c : Bytes32, patch STATE_CHECKSUM_OFFSET c.bytes (scanImageWith Bytes32.zero s) = scanImageWith c s := by
    intro c
    rw [scanImageWith, patch_append_at (length_encodeScanHeader s).symm, List.append_assoc, c.length_eq,
      List.drop_left' Bytes32.zero.length_eq]
    rfl
  rw [encodeScanStateV1, h.valid, except_ok_bind, require_of _ h.blocks_lt, except_ok_bind, require_of _ h.events_lt,
    except_ok_bind, stateImageLengthV1_eq h Bytes32.zero, except_ok_bind]
  exact congrArg Except.ok (hpatch _)

/-- A field of the header reads as in the header alone. -/
theorem slice_scanImageWith {checksum : Bytes32} {off len : ℕ} {b : Bytes} (hlen : off + len ≤ 312)
    (h : slice off len (encodeScanHeader s) = b) : slice off len (scanImageWith checksum s) = b := by
  rw [scanImageWith, slice_append_left (by simpa [STATE_CHECKSUM_OFFSET] using hlen), h]

theorem decodeRecords_blocks (h : FitsImage s) (checksum : Bytes32) :
    decodeRecords POOL_V1_SCAN_STATE_BLOCK_BYTES decodeBlock s.blocks.length POOL_V1_SCAN_STATE_HEADER_BYTES
      (scanImageWith checksum s) = .ok s.blocks := by
  have hfront : (encodeScanHeader s ++ checksum.bytes).length = POOL_V1_SCAN_STATE_HEADER_BYTES := by
    simp [STATE_CHECKSUM_OFFSET, POOL_V1_SCAN_STATE_HEADER_BYTES]
  rw [scanImageWith, ← List.append_assoc, encodeScanRecords]
  apply decodeRecords_flatMap hfront fun c _ => length_encodeBlock c
  exact fun c hc => decodeBlock_encodeBlock (h.blocks_fit c hc).1 (h.blocks_fit c hc).2

theorem decodeRecords_events (h : FitsImage s) (checksum : Bytes32) :
    decodeRecords POOL_V1_SCAN_STATE_EVENT_BYTES decodeEvent s.processedEvents.length
      (POOL_V1_SCAN_STATE_HEADER_BYTES + s.blocks.length * POOL_V1_SCAN_STATE_BLOCK_BYTES) (scanImageWith checksum s) =
      .ok s.processedEvents := by
  have hfront : (encodeScanHeader s ++ (checksum.bytes ++ s.blocks.flatMap encodeBlock)).length =
      POOL_V1_SCAN_STATE_HEADER_BYTES + s.blocks.length * POOL_V1_SCAN_STATE_BLOCK_BYTES := by
    rw [List.length_append, List.length_append, length_flatMap_const fun c _ => length_encodeBlock c,
      length_encodeScanHeader, checksum.length_eq, STATE_CHECKSUM_OFFSET, POOL_V1_SCAN_STATE_HEADER_BYTES]
    omega
  have hsplit : scanImageWith checksum s = (encodeScanHeader s ++ (checksum.bytes ++ s.blocks.flatMap encodeBlock)) ++
      (s.processedEvents.flatMap encodeEvent ++ []) := by
    simp only [scanImageWith, encodeScanRecords, List.append_assoc, List.append_nil]
  rw [hsplit]
  apply decodeRecords_flatMap hfront fun e _ => length_encodeEvent e
  exact fun e he => decodeEvent_encodeEvent (h.events_fit e he)

/-- What was encoded is read back whole. -/
theorem decodeScanStateV1_scanImageWith (h : FitsImage s) {checksum : Bytes32}
    (hchecksum : checksum = scanStateChecksumV1 sha256 (scanImageWith checksum s)) :
    decodeScanStateV1 sha256 (scanImageWith checksum s) = .ok s := by
  have hblocks := h.blocks_lt
  have hevents := h.events_lt
  have hasset := s.identity.assetId_lt
  simp only [U32_LIMIT] at hblocks hevents
  simp only [P] at hasset
  have hlong : POOL_V1_SCAN_STATE_HEADER_BYTES ≤ (scanImageWith checksum s).length := by
    rw [length_scanImageWith]
    omega
  have hmagic : slice 0 4 (scanImageWith checksum s) = slice 0 4 scanStatePreamble := slice_scanImageWith (by omega) (by
    rw [encodeScanHeader, slice_append_left (by simp)])
  have hversion : slice 4 2 (scanImageWith checksum s) = slice 4 2 scanStatePreamble := slice_scanImageWith (by omega) (by
    rw [encodeScanHeader, slice_append_left (by simp)])
  have hreserved : slice 6 2 (scanImageWith checksum s) = zeros 2 := slice_scanImageWith (by omega) (by
    rw [encodeScanHeader, slice_append_left (by simp)]
    rfl)
  have hreserved' : slice 140 4 (scanImageWith checksum s) = zeros 4 := slice_scanImageWith (by omega) (by
    simp [encodeScanHeader, slice_append_right, slice_append_head])
  have hblockCount : leNat (slice 304 4 (scanImageWith checksum s)) = s.blocks.length := by
    rw [slice_scanImageWith (b := leBytes 4 s.blocks.length) (by omega) (by
      simp [encodeScanHeader, slice_append_right, slice_append_head]), leNat_leBytes_of_lt (by omega)]
  have heventCount : leNat (slice 308 4 (scanImageWith checksum s)) = s.processedEvents.length := by
    rw [slice_scanImageWith (b := leBytes 4 s.processedEvents.length) (by omega) (by
      simp [encodeScanHeader, slice_append_right, slice_all]), leNat_leBytes_of_lt (by omega)]
  have hstored : Bytes32.read STATE_CHECKSUM_OFFSET (scanImageWith checksum s) = checksum := Bytes32.read_eq (by
    rw [scanImageWith, slice_append_right (by simp), length_encodeScanHeader, Nat.sub_self,
      slice_append_head checksum.length_eq.symm])
  have hpool : Bytes32.read 8 (scanImageWith checksum s) = s.identity.pool :=
    Bytes32.read_eq (slice_scanImageWith (by omega) (by simp [encodeScanHeader, slice_append_right, slice_append_head]))
  have hdomain : Bytes32.read 40 (scanImageWith checksum s) = s.identity.deploymentDomain :=
    Bytes32.read_eq (slice_scanImageWith (by omega) (by simp [encodeScanHeader, slice_append_right, slice_append_head]))
  have hmint : Bytes32.read 72 (scanImageWith checksum s) = s.identity.assetMint :=
    Bytes32.read_eq (slice_scanImageWith (by omega) (by simp [encodeScanHeader, slice_append_right, slice_append_head]))
  have hvault : Bytes32.read 104 (scanImageWith checksum s) = s.identity.vaultTokenAccount :=
    Bytes32.read_eq (slice_scanImageWith (by omega) (by simp [encodeScanHeader, slice_append_right, slice_append_head]))
  have hassetId : leNat (slice 136 4 (scanImageWith checksum s)) = s.identity.assetId := by
    rw [slice_scanImageWith (b := leBytes 4 s.identity.assetId) (by omega) (by
      simp [encodeScanHeader, slice_append_right, slice_append_head]), leNat_leBytes_of_lt (by omega)]
  have hanchor : decodePoint 144 (scanImageWith checksum s) = .ok s.anchor :=
    decodePoint_of_slice (slice_scanImageWith (by omega) (by
      simp [encodeScanHeader, slice_append_right, slice_append_head]))
  have hanchorNext : leNat (slice 184 8 (scanImageWith checksum s)) = s.anchorNextLeafIndex := by
    have hlt := h.anchorNext_lt
    rw [slice_scanImageWith (b := leBytes 8 s.anchorNextLeafIndex) (by omega) (by
      simp [encodeScanHeader, slice_append_right, slice_append_head]), leNat_leBytes_of_lt (by omega)]
  have hanchorRoot : Bytes32.read 192 (scanImageWith checksum s) = s.anchorRoot :=
    Bytes32.read_eq (slice_scanImageWith (by omega) (by simp [encodeScanHeader, slice_append_right, slice_append_head]))
  have hhead : decodePoint 224 (scanImageWith checksum s) = .ok s.head :=
    decodePoint_of_slice (slice_scanImageWith (by omega) (by
      simp [encodeScanHeader, slice_append_right, slice_append_head]))
  have hnext : leNat (slice 264 8 (scanImageWith checksum s)) = s.nextLeafIndex := by
    have hlt := h.next_lt
    rw [slice_scanImageWith (b := leBytes 8 s.nextLeafIndex) (by omega) (by
      simp [encodeScanHeader, slice_append_right, slice_append_head]), leNat_leBytes_of_lt (by omega)]
  have hroot : Bytes32.read 272 (scanImageWith checksum s) = s.root :=
    Bytes32.read_eq (slice_scanImageWith (by omega) (by simp [encodeScanHeader, slice_append_right, slice_append_head]))
  rw [decodeScanStateV1, require_of _ hlong, except_ok_bind, require_of _ hmagic, except_ok_bind, require_of _ hversion,
    except_ok_bind, require_of _ ⟨hreserved, hreserved'⟩, except_ok_bind]
  dsimp only
  rw [hblockCount, heventCount, stateImageLengthV1_eq h checksum, except_ok_bind, require_of _ rfl, except_ok_bind,
    require_of _ (hstored.trans hchecksum), except_ok_bind, hpool, hdomain, hmint, hvault, hassetId,
    DepositScanIdentityV1.new_eq, except_ok_bind, hanchor, except_ok_bind, hhead, except_ok_bind,
    decodeRecords_blocks h, except_ok_bind, decodeRecords_events h, except_ok_bind, hanchorNext, hanchorRoot, hnext, hroot]
  rw [h.valid, except_ok_bind, require_of _ rfl, except_ok_bind]
  rfl

theorem decode_encodeScanStateV1 (h : FitsImage s) : ∃ image, encodeScanStateV1 sha256 s = .ok image ∧
    decodeScanStateV1 sha256 image = .ok s :=
  ⟨_, encodeScanStateV1_eq h, decodeScanStateV1_scanImageWith h (scanStateChecksumV1_scanImageWith _ _)⟩

end

/-- The stored cursors grow along the chain. -/
theorem mem_checkpointsFrom_le {next : ℕ} {root : Bytes32} {count : ℕ} {xs : List Segment} {c : BlockCheckpointV1}
    (h : c ∈ checkpointsFrom next root count xs) : c.nextLeafIndexBefore ≤ next + (eventsOf xs).length ∧
      c.processedEventCountBefore ≤ count + (eventsOf xs).length := by
  induction xs generalizing next root count with
  | nil => cases h
  | cons g rest ih =>
    rw [eventsOf_cons, List.length_append]
    rcases List.mem_cons.mp h with rfl | hrest
    · exact ⟨Nat.le_add_right _ _, Nat.le_add_right _ _⟩
    · have hle := ih hrest
      omega

/-- The numbers of a valid chain fit the image, if its blocks can be counted. -/
theorem ScanChain.Valid.fitsImage {C : ScanChain} (h : C.Valid) (hblocks : C.toState.blocks.length < U32_LIMIT) :
    FitsImage C.toState := by
  have hcapacity := h.capacity
  simp only [POOL_V1_LEAF_CAPACITY, POOL_V1_TREE_DEPTH] at hcapacity
  constructor
  case valid => exact h.validateStateInvariantsV1
  case anchorNext_lt =>
    change C.anchorNextLeafIndex < _
    omega
  case next_lt =>
    change C.anchorNextLeafIndex + (eventsOf C.segments).length < _
    omega
  case blocks_fit =>
    intro c hc
    have hle := mem_checkpointsFrom_le hc
    omega
  case events_fit =>
    intro e he
    have hleaf : e.leafIndex ∈ List.range' C.anchorNextLeafIndex (eventsOf C.segments).length := by
      rw [← h.leaves]
      exact List.mem_map_of_mem he
    have hrange := List.mem_range'_1.mp hleaf
    omega
  case blocks_lt => exact hblocks
  case events_lt =>
    change (eventsOf C.segments).length < U32_LIMIT
    rw [U32_LIMIT]
    omega

end Aspis.Wallet
