import Aspis.Relayer.ExecutionJournal

/-! The journal's image, read exactly. A byte string is accepted if and only if it
is the image of a strictly sorted list of valid records, in one of the two versions;
the encoder sorts its records and writes the second version. -/

namespace Aspis.Relayer

open Lib Chain Pool

section
variable (sha256 : Bytes → Bytes32)

def journalChecksum (version : UInt8) (records : List RelayerExecutionRecordV1) : Bytes32 :=
  sha256 (RELAYER_EXECUTION_CHECKSUM_DOMAIN_V1 ++ maskedImage RELAYER_EXECUTION_CHECKSUM_OFFSET_V1
    (executionHeader version records.length ++ (zeros 32 ++ records.flatMap encodeExecutionRecord)))

/-- The one image of a list of records in a version. -/
def journalImage (version : UInt8) (records : List RelayerExecutionRecordV1) : Bytes :=
  executionHeader version records.length ++
    ((journalChecksum sha256 version records).bytes ++ records.flatMap encodeExecutionRecord)

end

/-- A list of records as an image holds it. -/
structure Storable (records : List RelayerExecutionRecordV1) : Prop where
  sorted : records.Pairwise fun a b => a.requestId.bytes < b.requestId.bytes
  valid : ∀ r ∈ records, validateRecordV1 r = .ok ()
  count_le : records.length ≤ MAX_RELAYER_EXECUTION_RECORDS_V1
  size_le : RELAYER_EXECUTION_HEADER_BYTES_V1 + (records.flatMap encodeExecutionRecord).length ≤
    MAX_RELAYER_EXECUTION_IMAGE_BYTES_V1

theorem length_flatMap_encodeExecutionRecord (records : List RelayerExecutionRecordV1) :
    (records.flatMap encodeExecutionRecord).length =
      records.length * RELAYER_EXECUTION_RECORD_BYTES_V1 + payloadLength records := by
  induction records with
  | nil => rfl
  | cons r records ih =>
    rw [List.flatMap_cons, List.length_append, ih, encodeExecutionRecord, List.length_append, List.length_append,
      length_encodeRecordHeaderV1, payloadLength, payloadLength, List.map_cons, List.sum_cons, List.length_cons,
      lookupLength]
    ring

theorem validateRecordsV1_eq_ok {records : List RelayerExecutionRecordV1} {u : Unit} :
    validateRecordsV1 records = .ok u ↔ ∀ r ∈ records, validateRecordV1 r = .ok () := by
  induction records with
  | nil => simp [validateRecordsV1]
  | cons r records ih =>
    simp only [validateRecordsV1, except_bind_eq_ok, ih, List.forall_mem_cons]
    constructor
    · rintro ⟨_, hr, hrest⟩
      exact ⟨hr, hrest⟩
    · rintro ⟨hr, hrest⟩
      exact ⟨(), hr, hrest⟩

/-! ### Encoding -/

variable {sha256 : Bytes → Bytes32} {records : List RelayerExecutionRecordV1}

theorem orderedRecords_perm (records : List RelayerExecutionRecordV1) : (orderedRecords records).Perm records :=
  sortByKey_perm _ _ records

theorem orderedRecords_of_sorted (h : records.Pairwise fun a b => a.requestId.bytes < b.requestId.bytes) :
    orderedRecords records = records := sortByKey_of_pairwise _ _ h

/-- Neighbours with different ids are in strict order, because the list is sorted. -/
theorem orderedRecords_isChain_iff :
    (orderedRecords records).IsChain (fun a b => a.requestId ≠ b.requestId) ↔
      (orderedRecords records).Pairwise fun a b => a.requestId.bytes < b.requestId.bytes := by
  constructor
  · intro h
    refine pairwise_of_neighbours_ne _ (fun r : RelayerExecutionRecordV1 => r.requestId.bytes) (sortByKey_sorted _ _ _) ?_
    exact h.imp fun a b hne heq => hne (Bytes32.ext heq)
  · intro h
    refine (h.imp ?_).isChain
    intro a b hlt heq
    exact irrefl_of (· < ·) _ (heq ▸ hlt)

/-- The encoder accepts what is storable once it is sorted, and writes its image in the second version. -/
theorem encodeExecutionJournalV1_eq_ok {image : Bytes} :
    encodeExecutionJournalV1 sha256 records = .ok image ↔
      Storable (orderedRecords records) ∧
        image = journalImage sha256 RELAYER_EXECUTION_VERSION_V2 (orderedRecords records) := by
  have hlength : (orderedRecords records).length = records.length := (orderedRecords_perm records).length_eq
  have hsize := length_flatMap_encodeExecutionRecord (orderedRecords records)
  have hpatch := @patch_checksum RELAYER_EXECUTION_CHECKSUM_OFFSET_V1
    (executionHeader RELAYER_EXECUTION_VERSION_V2 records.length) ((orderedRecords records).flatMap encodeExecutionRecord)
    (journalChecksum sha256 RELAYER_EXECUTION_VERSION_V2 (orderedRecords records)) (length_executionHeader _ _)
  have himage : journalImage sha256 RELAYER_EXECUTION_VERSION_V2 (orderedRecords records) =
      patch RELAYER_EXECUTION_CHECKSUM_OFFSET_V1
        (journalChecksum sha256 RELAYER_EXECUTION_VERSION_V2 (orderedRecords records)).bytes
        (executionHeader RELAYER_EXECUTION_VERSION_V2 records.length ++
          (zeros 32 ++ (orderedRecords records).flatMap encodeExecutionRecord)) := by
    rw [hpatch, journalImage, hlength]
  simp only [encodeExecutionJournalV1, executionJournalChecksumV1, except_bind_eq_ok, require_eq_ok, except_pure_eq_ok,
    orderedRecords_isChain_iff, validateRecordsV1_eq_ok]
  constructor
  · rintro ⟨-, hcount, -, hsorted, -, hvalid, -, hle, checksum, ⟨-, -, rfl⟩, rfl⟩
    refine ⟨⟨hsorted, hvalid, hlength ▸ hcount, by rw [hsize, hlength]; omega⟩, ?_⟩
    rw [himage, journalChecksum, hlength]
  · rintro ⟨⟨hsorted, hvalid, hcount, hle⟩, rfl⟩
    rw [hsize, hlength] at hle
    refine ⟨(), hlength ▸ hcount, (), hsorted, (), hvalid, (), by omega, _, ⟨(), ?_, rfl⟩, ?_⟩
    · simp only [List.length_append, length_executionHeader, length_zeros, RELAYER_EXECUTION_CHECKSUM_OFFSET_V1,
        RELAYER_EXECUTION_HEADER_BYTES_V1]
      omega
    · rw [himage, journalChecksum, hlength]

/-! ### Decoding -/

/-- Sorted valid records read back, in any version that knows their outcomes. -/
theorem decodeExecutionRecords_flatMap {version : UInt8} {previous : Option Bytes32} {before : Bytes}
    (hvalid : ∀ r ∈ records, validateRecordV1 r = .ok ())
    (hcode : ∀ r ∈ records, outcomeCode r.outcome ≤ maxOutcomeCode version)
    (hsorted : records.Pairwise fun a b => a.requestId.bytes < b.requestId.bytes)
    (hprevious : ∀ id ∈ previous, ∀ r ∈ records, id.bytes < r.requestId.bytes) :
    decodeExecutionRecords version records.length previous before.length
      (before ++ records.flatMap encodeExecutionRecord) =
        .ok (records, before.length + (records.flatMap encodeExecutionRecord).length) := by
  induction records generalizing previous before with
  | nil => rfl
  | cons r records ih =>
    obtain ⟨hfirst, hrest⟩ := List.pairwise_cons.mp hsorted
    have hread := decodeExecutionRecord_encode (hvalid r List.mem_cons_self) (hcode r List.mem_cons_self)
      (fun id hid => hprevious id hid r List.mem_cons_self) before (records.flatMap encodeExecutionRecord)
    have htail := @ih (some r.requestId) (before ++ encodeExecutionRecord r)
      (fun s hs => hvalid s (List.mem_cons_of_mem r hs)) (fun s hs => hcode s (List.mem_cons_of_mem r hs)) hrest
      (fun id hid s hs => by
        obtain rfl := Option.some.inj hid
        exact hfirst s hs)
    rw [List.length_append, List.append_assoc] at htail
    rw [List.flatMap_cons, List.length_cons, decodeExecutionRecords, hread, except_ok_bind]
    dsimp only
    rw [htail, except_ok_bind, List.length_append, Nat.add_assoc]
    rfl

/-- Records that were read are sorted and valid, and their bytes are their encodings. -/
theorem flatMap_of_decodeExecutionRecords {version : UInt8} {count : ℕ} {previous : Option Bytes32} {off last : ℕ}
    {bytes : Bytes} (hoff : off ≤ bytes.length)
    (h : decodeExecutionRecords version count previous off bytes = .ok (records, last)) :
    (records.length = count ∧ last = off + (records.flatMap encodeExecutionRecord).length ∧ last ≤ bytes.length ∧
      slice off (records.flatMap encodeExecutionRecord).length bytes = records.flatMap encodeExecutionRecord) ∧
      (∀ r ∈ records, validateRecordV1 r = .ok () ∧ outcomeCode r.outcome ≤ maxOutcomeCode version) ∧
      (records.Pairwise fun a b => a.requestId.bytes < b.requestId.bytes) ∧
      ∀ id ∈ previous, ∀ r ∈ records, id.bytes < r.requestId.bytes := by
  induction count generalizing previous off records with
  | zero =>
    obtain ⟨rfl, rfl⟩ := Prod.mk.inj (Except.ok.inj h)
    simp [slice, hoff]
  | succ count ih =>
    simp only [decodeExecutionRecords, except_bind_eq_ok, except_pure_eq_ok] at h
    obtain ⟨⟨r, next⟩, hfirst, ⟨rest, last'⟩, hrest, heq⟩ := h
    obtain ⟨rfl, rfl⟩ := Prod.mk.inj heq
    obtain ⟨⟨rfl, hle, hslice⟩, hvalid, habove, hcode⟩ := encodeExecutionRecord_of_decode hfirst
    obtain ⟨⟨rfl, rfl, hlast, htail⟩, hvalids, hsorted, hprevious⟩ := ih hle hrest
    have hfirstBelow := hprevious r.requestId rfl
    rw [List.flatMap_cons, List.length_append]
    refine ⟨⟨rfl, Nat.add_assoc _ _ _, hlast, by rw [slice_split, hslice, htail]⟩, ?_, ?_, ?_⟩
    · intro s hs
      rcases List.mem_cons.mp hs with rfl | hs
      · exact ⟨hvalid, hcode⟩
      · exact hvalids s hs
    · exact List.pairwise_cons.mpr ⟨hfirstBelow, hsorted⟩
    · intro id hid s hs
      rcases List.mem_cons.mp hs with rfl | hs
      · exact habove id hid
      · exact trans_of (· < ·) (habove id hid) (hfirstBelow s hs)

/-- The versions an image may have. -/
def KnownVersion (version : UInt8) : Prop :=
  version = RELAYER_EXECUTION_VERSION_V1 ∨ version = RELAYER_EXECUTION_VERSION_V2

/-- The records have outcomes that the version knows. -/
def KnownOutcomes (version : UInt8) (records : List RelayerExecutionRecordV1) : Prop :=
  ∀ r ∈ records, outcomeCode r.outcome ≤ maxOutcomeCode version

theorem length_journalImage (version : UInt8) (records : List RelayerExecutionRecordV1) :
    (journalImage sha256 version records).length =
      RELAYER_EXECUTION_HEADER_BYTES_V1 + (records.flatMap encodeExecutionRecord).length := by
  rw [journalImage, List.length_append, List.length_append, length_executionHeader, Bytes32.length_eq]
  simp only [RELAYER_EXECUTION_CHECKSUM_OFFSET_V1, RELAYER_EXECUTION_HEADER_BYTES_V1]
  omega

/-- The checksum of an image does not depend on what stands in its place. -/
theorem journalChecksum_eq (version : UInt8) (records : List RelayerExecutionRecordV1) (c : Bytes32) :
    journalChecksum sha256 version records =
      sha256 (RELAYER_EXECUTION_CHECKSUM_DOMAIN_V1 ++ maskedImage RELAYER_EXECUTION_CHECKSUM_OFFSET_V1
        (executionHeader version records.length ++ (c.bytes ++ records.flatMap encodeExecutionRecord))) :=
  congrArg (fun d => sha256 (RELAYER_EXECUTION_CHECKSUM_DOMAIN_V1 ++ d))
    (maskedImage_congr Bytes32.zero c (length_executionHeader version records.length))

/-- A field before the checksum reads as in the header alone. -/
theorem slice_journalImage {version : UInt8} {off len : ℕ} {b : Bytes} (hlen : off + len ≤ 56)
    (h : slice off len (executionHeader version records.length) = b) :
    slice off len (journalImage sha256 version records) = b := by
  rw [journalImage, slice_append_left (by rw [length_executionHeader]; exact hlen), h]

theorem decodeExecutionJournalV1_journalImage {version : UInt8} (hstorable : Storable records)
    (hversion : KnownVersion version) (hknown : KnownOutcomes version records) :
    decodeExecutionJournalV1 sha256 (journalImage sha256 version records) = .ok records := by
  have hcount := hstorable.count_le
  simp only [MAX_RELAYER_EXECUTION_RECORDS_V1] at hcount
  have hlong : RELAYER_EXECUTION_HEADER_BYTES_V1 ≤ (journalImage sha256 version records).length := by
    rw [length_journalImage]
    omega
  have hmagic : slice 0 4 (journalImage sha256 version records) = RELAYER_EXECUTION_MAGIC_V1 :=
    slice_journalImage (by omega) (by rw [executionHeader, slice_append_head (by simp)])
  have hbyte : byteAt 4 (journalImage sha256 version records) = version := byteAt_of_slice
    (slice_journalImage (by omega) (by
      simp [executionHeader, slice_append_right, slice_append_head]))
  have hreserved : slice 5 3 (journalImage sha256 version records) = zeros 3 := slice_journalImage (by omega) (by
    simp [executionHeader, slice_append_right, slice_append_head])
  have hreserved' : slice 12 44 (journalImage sha256 version records) = zeros 44 := slice_journalImage (by omega) (by
    simp [executionHeader, slice_append_right, slice_all])
  have hwritten : slice 8 4 (journalImage sha256 version records) = leBytes 4 records.length :=
    slice_journalImage (by omega) (by
      simp [executionHeader, slice_append_right, slice_append_head])
  have hchecksum : Bytes32.read RELAYER_EXECUTION_CHECKSUM_OFFSET_V1 (journalImage sha256 version records) =
      journalChecksum sha256 version records := Bytes32.read_eq (by
    rw [journalImage, slice_append_right (by rw [length_executionHeader]), length_executionHeader, Nat.sub_self,
      slice_append_head (Bytes32.length_eq _).symm])
  have hrun := @decodeExecutionRecords_flatMap records version none
    (executionHeader version records.length ++ (journalChecksum sha256 version records).bytes) hstorable.valid hknown
    hstorable.sorted (fun id hid => absurd hid (by simp))
  have hfront : (executionHeader version records.length ++ (journalChecksum sha256 version records).bytes).length =
      RELAYER_EXECUTION_HEADER_BYTES_V1 := by
    rw [List.length_append, length_executionHeader, Bytes32.length_eq]
    rfl
  rw [hfront, List.append_assoc] at hrun
  have hall : allZero (slice 5 3 (journalImage sha256 version records)) = true ∧
      allZero (slice 12 44 (journalImage sha256 version records)) = true := by
    rw [hreserved, hreserved']
    decide
  have hnat : leNat (slice 8 4 (journalImage sha256 version records)) = records.length := by
    rw [hwritten, leNat_leBytes_of_lt (by omega)]
  simp only [decodeExecutionJournalV1, executionJournalChecksumV1, except_bind_eq_ok, require_eq_ok, except_pure_eq_ok]
  refine ⟨(), ⟨hlong, ?_⟩, (), hmagic, (), hbyte.symm ▸ hversion, (), hall, _, ⟨(), hlong, rfl⟩, (), ?_, (), ?_, (records, _),
    ?_, (), (length_journalImage version records).symm, rfl⟩
  · rw [length_journalImage]
    exact hstorable.size_le
  · rw [hchecksum]
    exact journalChecksum_eq version records _
  · rw [hnat]
    exact hstorable.count_le
  · rw [hnat, hbyte]
    exact hrun

theorem journalImage_of_decode {bytes : Bytes} (h : decodeExecutionJournalV1 sha256 bytes = .ok records) :
    Storable records ∧ KnownVersion (byteAt 4 bytes) ∧ KnownOutcomes (byteAt 4 bytes) records ∧
      bytes = journalImage sha256 (byteAt 4 bytes) records := by
  simp only [decodeExecutionJournalV1, executionJournalChecksumV1, except_bind_eq_ok, require_eq_ok, except_pure_eq_ok] at h
  obtain ⟨-, ⟨hlong, hshort⟩, -, hmagic, -, hversion, -, ⟨hreserved, hreserved'⟩, _, ⟨-, -, rfl⟩, -, hchecksum, -, hcount,
    ⟨read, last⟩, hrun, -, hlast, rfl⟩ := h
  obtain ⟨⟨hlength, hend, -, hslice⟩, hvalid, hsorted, -⟩ := flatMap_of_decodeExecutionRecords hlong hrun
  have hheader : slice 0 RELAYER_EXECUTION_CHECKSUM_OFFSET_V1 bytes = executionHeader (byteAt 4 bytes) read.length := by
    unfold RELAYER_EXECUTION_HEADER_BYTES_V1 at hlong
    rw [executionHeader, hlength, ← hmagic, u8Bytes_byteAt (by omega), zeros_of_allZero (by omega) hreserved,
      zeros_of_allZero (by omega) hreserved']
    simp (disch := omega) only [leBytes_leNat_slice, slice_join]
    rfl
  have hrest : bytes.drop (RELAYER_EXECUTION_CHECKSUM_OFFSET_V1 + 32) = read.flatMap encodeExecutionRecord := by
    rw [← hslice, slice, List.take_of_length_le]
    · rfl
    · rw [List.length_drop]
      dsimp only at hlast hend
      omega
  have hsplit := @split_checksum RELAYER_EXECUTION_CHECKSUM_OFFSET_V1 bytes hlong
  rw [hheader, hrest] at hsplit
  refine ⟨⟨hsorted, fun r hr => (hvalid r hr).1, hlength ▸ hcount, by dsimp only at *; omega⟩, hversion, fun r hr => (hvalid r hr).2, ?_⟩
  rw [journalImage, journalChecksum_eq (byteAt 4 bytes) read (Bytes32.read RELAYER_EXECUTION_CHECKSUM_OFFSET_V1 bytes),
    hsplit, ← hchecksum, hsplit]

/-- The decoder accepts exactly the images of storable lists. -/
theorem decodeExecutionJournalV1_eq_ok {bytes : Bytes} :
    decodeExecutionJournalV1 sha256 bytes = .ok records ↔
      Storable records ∧ ∃ version, KnownVersion version ∧ KnownOutcomes version records ∧
        bytes = journalImage sha256 version records := by
  constructor
  · intro h
    obtain ⟨hstorable, hversion, hknown, himage⟩ := journalImage_of_decode h
    exact ⟨hstorable, _, hversion, hknown, himage⟩
  · rintro ⟨hstorable, version, hversion, hknown, rfl⟩
    exact decodeExecutionJournalV1_journalImage hstorable hversion hknown

end Aspis.Relayer
