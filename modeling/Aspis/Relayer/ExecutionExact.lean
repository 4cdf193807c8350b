import Aspis.Relayer.ExecutionRecord

/-! A record of the execution journal is read exactly: the bytes from which a
record is read are its encoding. Every field is copied, every unused byte must be
zero, and the stored lengths are those of the parts that follow. -/

namespace Aspis.Relayer

open Lib Chain Pool
open Wallet (FinalizedChainPointV1 encodePoint decodePoint)

theorem boolByte_of_decodeFlagV1 {b : UInt8} {flag : Bool} (h : decodeFlagV1 b = .ok flag) : boolByte flag = b := by
  unfold decodeFlagV1 at h
  split_ifs at h with hzero hone
  · obtain rfl := Except.ok.inj h
    exact hzero.symm
  · obtain rfl := Except.ok.inj h
    exact hone.symm

/-! ### Lookup tables -/

theorem eq_of_new {address owner : Pubkey} {observedSlot lamports : UInt64} {executable : Bool} {rentEpoch : UInt64}
    {commitment : SolanaRpcCommitmentV1} {digest : Bytes32} {data : Bytes} {t : AuthenticatedAddressLookupTableV1}
    (h : AuthenticatedAddressLookupTableV1.new address owner observedSlot lamports executable rentEpoch commitment digest
      data = some t) :
    t.address = address ∧ t.owner = owner ∧ t.observedSlot = observedSlot ∧ t.lamports = lamports ∧
      t.executable = executable ∧ t.rentEpoch = rentEpoch ∧ t.commitment = commitment ∧ t.providerSetDigest = digest ∧
      t.accountData = data := by
  unfold AuthenticatedAddressLookupTableV1.new at h
  split_ifs at h
  obtain rfl := Option.some.inj h
  exact ⟨rfl, rfl, rfl, rfl, rfl, rfl, rfl, rfl, rfl⟩

theorem decodeTable_readsExactly : ReadsExactly decodeTable encodeTable := by
  intro off d t next h
  simp only [decodeTable, except_bind_eq_ok, require_eq_ok, okOr_eq_ok, except_pure_eq_ok] at h
  obtain ⟨-, hheaderEnd, -, ⟨hreserved, hcode⟩, -, -, -, hroom, executable, hflag, table, hnew, heq⟩ := h
  obtain ⟨rfl, rfl⟩ := Prod.mk.inj heq
  obtain ⟨haddress, howner, hslot, hlamports, hexecutable, hepoch, hcommitment, hdigest, hdata⟩ := eq_of_new hnew
  have hheader : (slice off RELAYER_LOOKUP_TABLE_HEADER_BYTES_V1 d).length = 132 := length_slice_of_le hheaderEnd
  have hdataLength : table.accountData.length =
      leNat (slice 128 4 (slice off RELAYER_LOOKUP_TABLE_HEADER_BYTES_V1 d)) := by
    rw [hdata, length_slice_of_le hroom]
  have hbytes : tableHeader table = slice off RELAYER_LOOKUP_TABLE_HEADER_BYTES_V1 d := by
    generalize slice off RELAYER_LOOKUP_TABLE_HEADER_BYTES_V1 d = header at *
    have hflagByte : u8Bytes (boolByte table.executable) = slice 80 1 header := by
      rw [hexecutable, boolByte_of_decodeFlagV1 hflag, u8Bytes_byteAt (by omega)]
    have hcodeByte : u8Bytes (commitmentCode table.commitment) = slice 81 1 header := by
      rw [hcommitment, ← u8Bytes_byteAt (by omega), hcode]
      rfl
    rw [tableHeader, hflagByte, hcodeByte, zeros_of_allZero (by omega) hreserved, hdataLength, haddress, howner, hslot,
      hlamports, hepoch, hdigest]
    simp (disch := omega) only [Bytes32.read_bytes, u64Bytes_readU64, leBytes_leNat_slice, slice_join]
    exact slice_all hheader
  have hlength : (encodeTable table).length = RELAYER_LOOKUP_TABLE_HEADER_BYTES_V1 +
      leNat (slice 128 4 (slice off RELAYER_LOOKUP_TABLE_HEADER_BYTES_V1 d)) := by
    rw [length_encodeTable, hdataLength]
  refine ⟨?_, hroom, ?_⟩
  · rw [hlength, Nat.add_assoc]
  · rw [hlength, slice_split, encodeTable, hbytes, hdata]

theorem flatMap_of_decodeLookupTablesV1 {bytes : Bytes} {count : ℕ} {tables : List AuthenticatedAddressLookupTableV1}
    (h : decodeLookupTablesV1 bytes count = .ok tables) : tables.length = count ∧ tables.flatMap encodeTable = bytes := by
  simp only [decodeLookupTablesV1, except_bind_eq_ok, require_eq_ok, except_pure_eq_ok] at h
  obtain ⟨-, -, ⟨read, last⟩, hrun, -, hlast, rfl⟩ := h
  obtain ⟨hcount, hend, -, hslice⟩ := flatMap_of_decodeRun decodeTable_readsExactly (Nat.zero_le _) hrun
  rw [Nat.zero_add] at hend
  refine ⟨hcount, ?_⟩
  rw [← hslice, ← hend]
  exact slice_all hlast.symm

/-! ### The parts of the header -/

variable {header : Bytes}

theorem simulationFields_readSimulation (hlen : header.length = RELAYER_EXECUTION_RECORD_BYTES_V1) :
    simulationFields (readSimulation header) = slice 64 228 header := by
  unfold RELAYER_EXECUTION_RECORD_BYTES_V1 at hlen
  rw [simulationFields, readSimulation]
  simp (disch := omega) only [Bytes32.read_bytes, u64Bytes_readU64, u32Bytes_readU32, slice_join]

theorem encodePoint_of_decodeChainPointV1 {off : ℕ} {point : FinalizedChainPointV1} (hlen : off + 40 ≤ header.length)
    (h : decodeChainPointV1 off header = .ok point) : encodePoint point = slice off 40 header := by
  simp only [decodeChainPointV1, mapErr_eq_ok] at h
  exact Wallet.encodePoint_of_decodePoint hlen h

theorem outcomeFields_of_readOutcome {code : UInt8} {outcome : Option RelayerExecutionOutcomeV1}
    (hlen : header.length = RELAYER_EXECUTION_RECORD_BYTES_V1) (hcode : code ≤ 3)
    (h : readOutcome code header = .ok outcome) :
    outcomeCode outcome = code ∧ outcomeFields outcome = slice 404 152 header := by
  unfold RELAYER_EXECUTION_RECORD_BYTES_V1 at hlen
  unfold readOutcome at h
  split_ifs at h with hzero hone htwo
  · simp only [except_bind_eq_ok, require_eq_ok, except_pure_eq_ok] at h
    obtain ⟨-, hblank, rfl⟩ := h
    exact ⟨hzero.symm, zeros_of_allZero (by omega) hblank⟩
  · simp only [except_bind_eq_ok, except_pure_eq_ok] at h
    obtain ⟨point, hpoint, rfl⟩ := h
    refine ⟨hone.symm, ?_⟩
    rw [outcomeFields, encodePoint_of_decodeChainPointV1 (by omega) hpoint]
    simp (disch := omega) only [Bytes32.read_bytes, u64Bytes_readU64, slice_join]
  · simp only [except_bind_eq_ok, require_eq_ok, except_pure_eq_ok] at h
    obtain ⟨-, hblank, rfl⟩ := h
    refine ⟨htwo.symm, ?_⟩
    rw [outcomeFields, zeros_of_allZero (by omega) hblank]
    simp (disch := omega) only [Bytes32.read_bytes, u64Bytes_readU64, u32Bytes_readU32, slice_join]
  · simp only [except_bind_eq_ok, require_eq_ok, except_pure_eq_ok] at h
    obtain ⟨-, hblank, point, hpoint, rfl⟩ := h
    have hthree : (3 : UInt8) = code := by
      apply UInt8.toNat_inj.mp
      have hle := UInt8.le_iff_toNat_le.mp hcode
      have h0 : code.toNat ≠ 0 := fun h => hzero (UInt8.toNat_inj.mp h)
      have h1 : code.toNat ≠ 1 := fun h => hone (UInt8.toNat_inj.mp h)
      have h2 : code.toNat ≠ 2 := fun h => htwo (UInt8.toNat_inj.mp h)
      change 3 = code.toNat
      change code.toNat ≤ 3 at hle
      omega
    refine ⟨hthree, ?_⟩
    rw [outcomeFields, encodePoint_of_decodeChainPointV1 (by omega) hpoint, zeros_of_allZero (by omega) hblank]
    simp (disch := omega) only [Bytes32.read_bytes, u64Bytes_readU64, slice_join]

theorem signedFields_read {flag : Bool} {wire : Bytes} (hlen : header.length = RELAYER_EXECUTION_RECORD_BYTES_V1)
    (hwire : wire.length = leNat (slice 360 4 header))
    (hblank : flag = false → allZero (slice 296 68 header) = true) :
    signedFields (if flag then some ⟨readFixed 64 296 header, wire⟩ else none) = slice 296 68 header := by
  unfold RELAYER_EXECUTION_RECORD_BYTES_V1 at hlen
  cases flag with
  | false =>
    rw [if_neg (by decide), signedFields]
    exact zeros_of_allZero (by omega) (hblank rfl)
  | true =>
    rw [if_pos rfl, signedFields, hwire, readFixed_bytes (by omega), leBytes_leNat_slice (by omega), slice_join _ rfl]

theorem submissionFields_read {flag : Bool} (hlen : header.length = RELAYER_EXECUTION_RECORD_BYTES_V1)
    (hblank : flag = false → allZero (slice 364 40 header) = true) :
    submissionFields (if flag then some ⟨readU64 364 header, Bytes32.read 372 header⟩ else none) =
      slice 364 40 header := by
  unfold RELAYER_EXECUTION_RECORD_BYTES_V1 at hlen
  cases flag with
  | false =>
    rw [if_neg (by decide), submissionFields]
    exact zeros_of_allZero (by omega) (hblank rfl)
  | true =>
    rw [if_pos rfl, submissionFields]
    simp (disch := omega) only [Bytes32.read_bytes, u64Bytes_readU64, slice_join]

theorem maxOutcomeCode_le (version : UInt8) : maxOutcomeCode version ≤ 3 := by
  unfold maxOutcomeCode
  split_ifs <;> decide

/-- The wire of a record that was read: the bytes behind the tables, or nothing. -/
theorem wireOf_read {flag : Bool} {wire : Bytes} {r : RelayerExecutionRecordV1} {signature : FixedBytes 64}
    (hsigned : r.signed = if flag then some ⟨signature, wire⟩ else none) (hflag : flag = true ↔ wire.length ≠ 0) :
    wireOf r = wire := by
  cases flag with
  | false =>
    have hzero : wire.length = 0 := by simpa using hflag
    rw [wireOf, hsigned, List.length_eq_zero_iff.mp hzero]
    rfl
  | true =>
    rw [wireOf, hsigned]
    rfl

/-- The bytes of a record that was read are its encoding, for either version of the image. -/
theorem encodeExecutionRecord_of_decode {version : UInt8} {previous : Option Bytes32} {off next : ℕ} {bytes : Bytes}
    {r : RelayerExecutionRecordV1} (h : decodeExecutionRecord version previous off bytes = .ok (r, next)) :
    (next = off + (encodeExecutionRecord r).length ∧ next ≤ bytes.length ∧
      slice off (encodeExecutionRecord r).length bytes = encodeExecutionRecord r) ∧
      validateRecordV1 r = .ok () ∧ (∀ id ∈ previous, id.bytes < r.requestId.bytes) ∧
      outcomeCode r.outcome ≤ maxOutcomeCode version := by
  simp only [decodeExecutionRecord, except_bind_eq_ok, require_eq_ok, except_pure_eq_ok] at h
  obtain ⟨-, hheaderEnd, -, hprevious, signedFlag, hsignedFlag, submittedFlag, hsubmittedFlag, -,
    ⟨hkind, hreserved, hreserved', hreserved''⟩, -, -, -, ⟨hwireFlag, -⟩, -, -, tables, htables, -, hroom, -,
    ⟨hblankSigned, hblankSubmission⟩, outcome, houtcome, _, hvalid, heq⟩ := h
  obtain ⟨rfl, rfl⟩ := Prod.mk.inj heq
  have hheader : (slice off RELAYER_EXECUTION_RECORD_BYTES_V1 bytes).length = RELAYER_EXECUTION_RECORD_BYTES_V1 :=
    length_slice_of_le hheaderEnd
  obtain ⟨hcount, htableBytes⟩ := flatMap_of_decodeLookupTablesV1 htables
  have htablesLength : (tables.flatMap encodeTable).length =
      leNat (slice 568 4 (slice off RELAYER_EXECUTION_RECORD_BYTES_V1 bytes)) := by
    rw [htableBytes, length_slice_of_le (by omega)]
  have hwireLength := length_slice_of_le hroom
  obtain ⟨hcode, hfields⟩ := outcomeFields_of_readOutcome hheader
    (UInt8.le_trans hkind (maxOutcomeCode_le version)) houtcome
  generalize hrecord : (⟨_, _, _, tables, _, _, outcome⟩ : RelayerExecutionRecordV1) = r at *
  have hwire : wireOf r = slice (off + RELAYER_EXECUTION_RECORD_BYTES_V1 +
      leNat (slice 568 4 (slice off RELAYER_EXECUTION_RECORD_BYTES_V1 bytes)))
      (leNat (slice 360 4 (slice off RELAYER_EXECUTION_RECORD_BYTES_V1 bytes))) bytes :=
    wireOf_read (by rw [← hrecord]) (by rw [hwireLength]; exact hwireFlag)
  have hbytes : encodeRecordHeaderV1 r = slice off RELAYER_EXECUTION_RECORD_BYTES_V1 bytes := by
    rw [← hrecord, encodeRecordHeaderV1, lookupLength]
    dsimp only
    have hsigned := signedFields_read hheader hwireLength hblankSigned
    have hsubmission := submissionFields_read hheader hblankSubmission
    have hsimulation := simulationFields_readSimulation hheader
    generalize slice off RELAYER_EXECUTION_RECORD_BYTES_V1 bytes = header at *
    unfold RELAYER_EXECUTION_RECORD_BYTES_V1 at hheader
    have hsignedByte : ∀ wire : RelayerSignedWireV1, u8Bytes (boolByte (if signedFlag then some wire else none).isSome) =
        slice 292 1 header := by
      intro wire
      rw [← u8Bytes_byteAt (by omega), ← boolByte_of_decodeFlagV1 hsignedFlag]
      cases signedFlag <;> rfl
    have hsubmittedByte : ∀ submission : RelayerSubmissionEvidenceV1,
        u8Bytes (boolByte (if submittedFlag then some submission else none).isSome) = slice 293 1 header := by
      intro submission
      rw [← u8Bytes_byteAt (by omega), ← boolByte_of_decodeFlagV1 hsubmittedFlag]
      cases submittedFlag <;> rfl
    have hzeroByte : zeros 1 = slice 295 1 header := by
      rw [← u8Bytes_byteAt (by omega), hreserved]
      rfl
    rw [hsignedByte, hsubmittedByte, hcode, u8Bytes_byteAt (by omega), hzeroByte, hsigned, hsubmission, hfields,
      hsimulation, hcount, zeros_of_allZero (by omega) hreserved', htablesLength, zeros_of_allZero (by omega) hreserved'',
      readSimulation]
    simp (disch := omega) only [Bytes32.read_bytes, u64Bytes_readU64, leBytes_leNat_slice, slice_join]
    exact slice_all hheader
  have htablesOf : r.simulationLookupTables = tables := by rw [← hrecord]
  have hlength : (encodeExecutionRecord r).length = RELAYER_EXECUTION_RECORD_BYTES_V1 +
      (leNat (slice 568 4 (slice off RELAYER_EXECUTION_RECORD_BYTES_V1 bytes)) +
        leNat (slice 360 4 (slice off RELAYER_EXECUTION_RECORD_BYTES_V1 bytes))) := by
    rw [encodeExecutionRecord, List.length_append, List.length_append, length_encodeRecordHeaderV1, htablesOf, htablesLength,
      hwire, hwireLength]
  refine ⟨⟨?_, hroom, ?_⟩, hvalid, ?_, ?_⟩
  · rw [hlength]
    omega
  · rw [hlength, slice_split, slice_split, encodeExecutionRecord, hbytes, htablesOf, htableBytes, hwire]
  · rw [← hrecord]
    exact hprevious
  · rw [← hrecord]
    exact hcode ▸ hkind

end Aspis.Relayer
