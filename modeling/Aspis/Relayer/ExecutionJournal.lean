import Aspis.Lib.SortedKeys
import Aspis.Relayer.ExecutionExact

/-! The execution journal: its image and the calls that write it. The image holds
the records in the order of their request ids behind a header and a checksum. Every
call plans the next list of records on a copy and persists it as a whole. -/

namespace Aspis.Relayer

open Lib Chain Pool
open Wallet (FinalizedChainPointV1)

/-! ### The image -/

def RELAYER_EXECUTION_HEADER_BYTES_V1 : ℕ := 88

def RELAYER_EXECUTION_CHECKSUM_OFFSET_V1 : ℕ := 56

def MAX_RELAYER_EXECUTION_IMAGE_BYTES_V1 : ℕ := 64 * 1024 * 1024

def MAX_RELAYER_EXECUTION_RECORDS_V1 : ℕ := 100000

def RELAYER_EXECUTION_VERSION_V1 : UInt8 := 1

def RELAYER_EXECUTION_VERSION_V2 : UInt8 := 2

/-- The magic `ASRJ`. -/
def RELAYER_EXECUTION_MAGIC_V1 : Bytes := [65, 83, 82, 74]

@[simp] theorem length_RELAYER_EXECUTION_MAGIC_V1 : RELAYER_EXECUTION_MAGIC_V1.length = 4 := by
  simp [RELAYER_EXECUTION_MAGIC_V1]

def RELAYER_EXECUTION_CHECKSUM_DOMAIN_V1 : Bytes := "aspis:pool-v1:relayer-execution-journal:sha256:v1".toUTF8.toList

/-- The bytes before the checksum. -/
def executionHeader (version : UInt8) (count : ℕ) : Bytes :=
  RELAYER_EXECUTION_MAGIC_V1 ++ (u8Bytes version ++ (zeros 3 ++ (leBytes 4 count ++ zeros 44)))

@[simp] theorem length_executionHeader (version : UInt8) (count : ℕ) :
    (executionHeader version count).length = RELAYER_EXECUTION_CHECKSUM_OFFSET_V1 := by
  simp [executionHeader, RELAYER_EXECUTION_CHECKSUM_OFFSET_V1]

/-- The records in the order of their request ids. -/
def orderedRecords (records : List RelayerExecutionRecordV1) : List RelayerExecutionRecordV1 :=
  sortByKey (· < ·) (fun r : RelayerExecutionRecordV1 => r.requestId.bytes) records

/-- The bytes that stand behind the fixed parts of the records. -/
def payloadLength (records : List RelayerExecutionRecordV1) : ℕ :=
  (records.map fun r => lookupLength r + (wireOf r).length).sum

def validateRecordsV1 : List RelayerExecutionRecordV1 → Except RelayerExecutionJournalErrorV1 Unit
  | [] => .ok ()
  | r :: rest => do
    validateRecordV1 r
    validateRecordsV1 rest

/-- Read `count` records; each request id must be above the one before. -/
def decodeExecutionRecords (version : UInt8) : ℕ → Option Bytes32 → ℕ → Bytes →
    Except RelayerExecutionJournalErrorV1 (List RelayerExecutionRecordV1 × ℕ)
  | 0, _, off, _ => .ok ([], off)
  | count + 1, previous, off, bytes => do
    let (r, next) ← decodeExecutionRecord version previous off bytes
    let (rest, last) ← decodeExecutionRecords version count (some r.requestId) next bytes
    return (r :: rest, last)

section
variable (sha256 : Bytes → Bytes32)

def executionJournalChecksumV1 (bytes : Bytes) : Except RelayerExecutionJournalErrorV1 Bytes32 := do
  require (RELAYER_EXECUTION_HEADER_BYTES_V1 ≤ bytes.length) .wrongLength
  return sha256 (RELAYER_EXECUTION_CHECKSUM_DOMAIN_V1 ++ maskedImage RELAYER_EXECUTION_CHECKSUM_OFFSET_V1 bytes)

def encodeExecutionJournalV1 (records : List RelayerExecutionRecordV1) : Except RelayerExecutionJournalErrorV1 Bytes := do
  require (records.length ≤ MAX_RELAYER_EXECUTION_RECORDS_V1) .countOverflow
  let ordered := orderedRecords records
  require (ordered.IsChain fun a b => a.requestId ≠ b.requestId) .duplicateRequest
  validateRecordsV1 ordered
  require (RELAYER_EXECUTION_HEADER_BYTES_V1 + records.length * RELAYER_EXECUTION_RECORD_BYTES_V1 + payloadLength ordered ≤
    MAX_RELAYER_EXECUTION_IMAGE_BYTES_V1) .countOverflow
  let output := executionHeader RELAYER_EXECUTION_VERSION_V2 records.length ++
    (zeros 32 ++ ordered.flatMap encodeExecutionRecord)
  let checksum ← executionJournalChecksumV1 sha256 output
  return patch RELAYER_EXECUTION_CHECKSUM_OFFSET_V1 checksum.bytes output

def decodeExecutionJournalV1 (bytes : Bytes) : Except RelayerExecutionJournalErrorV1 (List RelayerExecutionRecordV1) := do
  require (RELAYER_EXECUTION_HEADER_BYTES_V1 ≤ bytes.length ∧ bytes.length ≤ MAX_RELAYER_EXECUTION_IMAGE_BYTES_V1)
    .wrongLength
  require (slice 0 4 bytes = RELAYER_EXECUTION_MAGIC_V1) .wrongMagic
  let version := byteAt 4 bytes
  require (version = RELAYER_EXECUTION_VERSION_V1 ∨ version = RELAYER_EXECUTION_VERSION_V2) .wrongVersion
  require (allZero (slice 5 3 bytes) = true ∧ allZero (slice 12 44 bytes) = true) .nonZeroReserved
  let checksum ← executionJournalChecksumV1 sha256 bytes
  require (Bytes32.read RELAYER_EXECUTION_CHECKSUM_OFFSET_V1 bytes = checksum) .checksumMismatch
  let count := leNat (slice 8 4 bytes)
  require (count ≤ MAX_RELAYER_EXECUTION_RECORDS_V1) .countOverflow
  let (records, last) ← decodeExecutionRecords version count none RELAYER_EXECUTION_HEADER_BYTES_V1 bytes
  require (last = bytes.length) .wrongLength
  return records

end

/-! ### The calls -/

inductive RelayerExecutionJournalUpdateV1
  | inserted
  | alreadyPresent
  deriving DecidableEq, Repr

/-- What a call wants: nothing to write, or the next list of records. -/
inductive JournalPlan
  | alreadyPresent
  | persist (records : List RelayerExecutionRecordV1)
  deriving DecidableEq

structure InspectedSignedTransactionV1 where
  transactionSignature : FixedBytes 64
  feePayer : Bytes32
  unsignedMessageSha256 : Bytes32
  deriving DecidableEq

def recordV1 (records : List RelayerExecutionRecordV1) (requestId : Bytes32) : Option RelayerExecutionRecordV1 :=
  records.find? (·.requestId = requestId)

/-- Change the first record of a request. -/
def updateRecord (requestId : Bytes32) (change : RelayerExecutionRecordV1 → RelayerExecutionRecordV1) :
    List RelayerExecutionRecordV1 → List RelayerExecutionRecordV1
  | [] => []
  | r :: rest => if r.requestId = requestId then change r :: rest else r :: updateRecord requestId change rest

def recordSimulationV1 (requestId policyId : Bytes32) (simulation : RelayerSimulationEvidenceV1)
    (lookupTables : List AuthenticatedAddressLookupTableV1) (records : List RelayerExecutionRecordV1) :
    Except RelayerExecutionJournalErrorV1 JournalPlan := do
  validateSimulationV1 requestId policyId simulation
  validateLookupTablesV1 simulation lookupTables
  match recordV1 records requestId with
  | some existing => do
    require (existing.policyId = policyId ∧ existing.simulation = simulation ∧
      existing.simulationLookupTables = lookupTables) .duplicateRequest
    return .alreadyPresent
  | none => do
    require (records.length < MAX_RELAYER_EXECUTION_RECORDS_V1) .countOverflow
    return .persist (records ++ [⟨requestId, policyId, simulation, lookupTables, none, none, none⟩])

def recordSignedWireV1 (inspector : Bytes → Option InspectedSignedTransactionV1) (requestId : Bytes32) (signedWire : Bytes)
    (records : List RelayerExecutionRecordV1) : Except RelayerExecutionJournalErrorV1 JournalPlan := do
  require (signedWire ≠ [] ∧ signedWire.length ≤ MAX_SIGNED_TRANSACTION_WIRE_BYTES_V1) .signedWireTooLarge
  let inspected ← okOr (inspector signedWire) .signedTransactionRejected
  require (inspected.transactionSignature.1 ≠ zeros 64) .signedTransactionRejected
  let record ← okOr (recordV1 records requestId) .invalidTransition
  require (inspected.feePayer = record.simulation.feePayer ∧
    inspected.unsignedMessageSha256 = record.simulation.unsignedMessageSha256) .signedTransactionMismatch
  let signed : RelayerSignedWireV1 := ⟨inspected.transactionSignature, signedWire⟩
  match record.signed with
  | some existing => do
    require (existing = signed) .signedTransactionMismatch
    return .alreadyPresent
  | none => do
    require (record.outcome = none) .signedTransactionMismatch
    return .persist (updateRecord requestId (fun r => { r with signed := some signed }) records)

def recordSubmissionV1 (requestId : Bytes32) (transactionSignature : FixedBytes 64)
    (submission : RelayerSubmissionEvidenceV1) (records : List RelayerExecutionRecordV1) :
    Except RelayerExecutionJournalErrorV1 JournalPlan := do
  require (submission.providerSetDigest ≠ Bytes32.zero) .invalidRecord
  let record ← okOr (recordV1 records requestId) .invalidTransition
  let signed ← okOr record.signed .invalidTransition
  require (signed.transactionSignature = transactionSignature ∧
    record.simulation.simulatedAtSlot ≤ submission.submittedAtSlot) .submissionMismatch
  match record.submission with
  | some existing => do
    require (existing = submission) .submissionMismatch
    return .alreadyPresent
  | none => do
    require (record.outcome = none) .submissionMismatch
    return .persist (updateRecord requestId (fun r => { r with submission := some submission }) records)

/-- The end shared by the three calls that record an outcome. -/
def recordOutcome (requestId : Bytes32) (record : RelayerExecutionRecordV1) (outcome : RelayerExecutionOutcomeV1)
    (records : List RelayerExecutionRecordV1) : Except RelayerExecutionJournalErrorV1 JournalPlan :=
  match record.outcome with
  | some existing => do
    require (existing = outcome) .outcomeMismatch
    return .alreadyPresent
  | none => return .persist (updateRecord requestId (fun r => { r with outcome := some outcome }) records)

def recordFinalizedV1 (requestId : Bytes32) (transactionSignature : FixedBytes 64) (finalized : RelayerFinalizedEvidenceV1)
    (records : List RelayerExecutionRecordV1) : Except RelayerExecutionJournalErrorV1 JournalPlan := do
  require (finalized.executionResultSha256 ≠ Bytes32.zero ∧ finalized.poststateSha256 ≠ Bytes32.zero ∧
    finalized.providerSetDigest ≠ Bytes32.zero) .invalidRecord
  let record ← okOr (recordV1 records requestId) .invalidTransition
  let signed ← okOr record.signed .invalidTransition
  require (signed.transactionSignature = transactionSignature ∧
    Landed record.simulation finalized.point finalized.feeLamports finalized.computeUnitsConsumed) .outcomeMismatch
  recordOutcome requestId record (.finalized finalized) records

def recordTerminalFailureV1 (requestId : Bytes32) (terminal : RelayerTerminalFailureEvidenceV1)
    (records : List RelayerExecutionRecordV1) : Except RelayerExecutionJournalErrorV1 JournalPlan := do
  require (terminal.failureCode ≠ 0 ∧ terminal.evidenceSha256 ≠ Bytes32.zero ∧ terminal.providerSetDigest ≠ Bytes32.zero)
    .invalidRecord
  let record ← okOr (recordV1 records requestId) .invalidTransition
  require (record.signed.isSome = true → record.simulation.lastValidBlockHeight < terminal.observedBlockHeight)
    .outcomeMismatch
  recordOutcome requestId record (.terminalFailure terminal) records

def recordFinalizedFailureV1 (requestId : Bytes32) (transactionSignature : FixedBytes 64)
    (failed : RelayerFinalizedFailureEvidenceV1) (records : List RelayerExecutionRecordV1) :
    Except RelayerExecutionJournalErrorV1 JournalPlan := do
  require (failed.failureEvidenceSha256 ≠ Bytes32.zero ∧ failed.providerSetDigest ≠ Bytes32.zero) .invalidRecord
  let record ← okOr (recordV1 records requestId) .invalidTransition
  let signed ← okOr record.signed .invalidTransition
  require (signed.transactionSignature = transactionSignature ∧
    Landed record.simulation failed.point failed.feeLamports failed.computeUnitsConsumed) .outcomeMismatch
  recordOutcome requestId record (.finalizedFailure failed) records

end Aspis.Relayer
