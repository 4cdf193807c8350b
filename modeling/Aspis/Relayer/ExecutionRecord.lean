import Aspis.Relayer.Image
import Aspis.Wallet.ScanImage

/-! One record of the relayer's execution journal: the simulation that was
accepted, the exact wire that was signed, the submission and the outcome, and
what of it a stored image holds. -/

namespace Aspis.Relayer

open Lib Chain Pool
open Wallet (FinalizedChainPointV1 encodePoint decodePoint decodePoint_of_slice length_encodePoint)

def RELAYER_EXECUTION_RECORD_BYTES_V1 : ℕ := 576

def MAX_SIGNED_TRANSACTION_WIRE_BYTES_V1 : ℕ := 4096

def RELAYER_LOOKUP_TABLE_HEADER_BYTES_V1 : ℕ := 132

def MAX_RELAYER_LOOKUP_TABLES_V1 : ℕ := 256

def MAX_RELAYER_LOOKUP_TABLE_DATA_BYTES_V1 : ℕ := 56 + 256 * 32

/-- The address of the lookup-table program, `AddressLookupTab1e1111111111111111111111111`. -/
def ADDRESS_LOOKUP_TABLE_ID : Pubkey :=
  ⟨[2, 119, 166, 175, 151, 51, 155, 122, 200, 141, 24, 146, 201, 4, 70, 245, 0, 2, 48, 146, 102, 246, 46, 83, 193, 24, 36,
    73, 130, 0, 0, 0], rfl⟩

inductive RelayerExecutionJournalErrorV1
  | durable (error : DurableStateErrorV1)
  | invalidRecord
  | invalidTransition
  | duplicateRequest
  | signedWireTooLarge
  | signedTransactionRejected
  | signedTransactionMismatch
  | submissionMismatch
  | outcomeMismatch
  | wrongLength
  | wrongMagic
  | wrongVersion
  | nonZeroReserved
  | checksumMismatch
  | countOverflow
  | nonCanonicalOrder
  deriving DecidableEq, Repr

inductive SolanaRpcCommitmentV1
  | processed
  | confirmed
  | finalized
  deriving DecidableEq, Repr

/-! ### The data -/

structure RelayerSimulationEvidenceV1 where
  simulatedAtSlot : UInt64
  recentBlockhash : Bytes32
  lastValidBlockHeight : UInt64
  feePayer : Bytes32
  unsignedMessageSha256 : Bytes32
  simulationResultSha256 : Bytes32
  simulationAccountsSha256 : Bytes32
  startupReceiptDigest : Bytes32
  computeUnitLimit : UInt32
  computeUnitPriceMicroLamports : UInt64
  computeUnitsConsumed : UInt64
  estimatedFeeLamports : UInt64
  deriving DecidableEq

/-- A finalized image of a lookup table. Its constructor checks it, so no other table can be written down. -/
structure AuthenticatedAddressLookupTableV1 where
  address : Pubkey
  owner : Pubkey
  observedSlot : UInt64
  lamports : UInt64
  executable : Bool
  rentEpoch : UInt64
  commitment : SolanaRpcCommitmentV1
  providerSetDigest : Bytes32
  accountData : Bytes
  checked : address ≠ Bytes32.zero ∧ observedSlot ≠ 0 ∧ lamports ≠ 0 ∧ executable = false ∧ commitment = .finalized ∧
    providerSetDigest ≠ Bytes32.zero ∧ 56 ≤ accountData.length ∧ accountData.length ≤ MAX_RELAYER_LOOKUP_TABLE_DATA_BYTES_V1
  deriving DecidableEq

def AuthenticatedAddressLookupTableV1.new (address owner : Pubkey) (observedSlot lamports : UInt64) (executable : Bool)
    (rentEpoch : UInt64) (commitment : SolanaRpcCommitmentV1) (providerSetDigest : Bytes32) (accountData : Bytes) :
    Option AuthenticatedAddressLookupTableV1 :=
  if h : address ≠ Bytes32.zero ∧ observedSlot ≠ 0 ∧ lamports ≠ 0 ∧ executable = false ∧ commitment = .finalized ∧
      providerSetDigest ≠ Bytes32.zero ∧ 56 ≤ accountData.length ∧ accountData.length ≤ MAX_RELAYER_LOOKUP_TABLE_DATA_BYTES_V1
  then some ⟨address, owner, observedSlot, lamports, executable, rentEpoch, commitment, providerSetDigest, accountData, h⟩
  else none

structure RelayerSignedWireV1 where
  transactionSignature : FixedBytes 64
  signedWire : Bytes
  deriving DecidableEq

structure RelayerSubmissionEvidenceV1 where
  submittedAtSlot : UInt64
  providerSetDigest : Bytes32
  deriving DecidableEq

structure RelayerFinalizedEvidenceV1 where
  point : FinalizedChainPointV1
  feeLamports : UInt64
  computeUnitsConsumed : UInt64
  executionResultSha256 : Bytes32
  poststateSha256 : Bytes32
  providerSetDigest : Bytes32
  deriving DecidableEq

structure RelayerFinalizedFailureEvidenceV1 where
  point : FinalizedChainPointV1
  feeLamports : UInt64
  computeUnitsConsumed : UInt64
  failureEvidenceSha256 : Bytes32
  providerSetDigest : Bytes32
  deriving DecidableEq

structure RelayerTerminalFailureEvidenceV1 where
  observedBlockHeight : UInt64
  failureCode : UInt32
  evidenceSha256 : Bytes32
  providerSetDigest : Bytes32
  deriving DecidableEq

inductive RelayerExecutionOutcomeV1
  | finalized (evidence : RelayerFinalizedEvidenceV1)
  | terminalFailure (evidence : RelayerTerminalFailureEvidenceV1)
  | finalizedFailure (evidence : RelayerFinalizedFailureEvidenceV1)
  deriving DecidableEq

structure RelayerExecutionRecordV1 where
  requestId : Bytes32
  policyId : Bytes32
  simulation : RelayerSimulationEvidenceV1
  simulationLookupTables : List AuthenticatedAddressLookupTableV1
  signed : Option RelayerSignedWireV1
  submission : Option RelayerSubmissionEvidenceV1
  outcome : Option RelayerExecutionOutcomeV1
  deriving DecidableEq

/-! ### Checks -/

/-- The priority fee that the limit and the price imply, rounded up. -/
def minimumPriorityFee (s : RelayerSimulationEvidenceV1) : ℕ :=
  (s.computeUnitLimit.toNat * s.computeUnitPriceMicroLamports.toNat + 999999) / 1000000

def validateSimulationV1 (requestId policyId : Bytes32) (s : RelayerSimulationEvidenceV1) :
    Except RelayerExecutionJournalErrorV1 Unit :=
  require (requestId ≠ Bytes32.zero ∧ policyId ≠ Bytes32.zero ∧ s.simulatedAtSlot ≠ 0 ∧ s.recentBlockhash ≠ Bytes32.zero ∧
    s.lastValidBlockHeight ≠ 0 ∧ s.feePayer ≠ Bytes32.zero ∧ s.unsignedMessageSha256 ≠ Bytes32.zero ∧
    s.simulationResultSha256 ≠ Bytes32.zero ∧ s.simulationAccountsSha256 ≠ Bytes32.zero ∧
    s.startupReceiptDigest ≠ Bytes32.zero ∧ s.computeUnitLimit ≠ 0 ∧
    s.computeUnitsConsumed.toNat ≤ s.computeUnitLimit.toNat ∧ s.estimatedFeeLamports ≠ 0 ∧
    minimumPriorityFee s ≤ s.estimatedFeeLamports.toNat) .invalidRecord

def TableFits (s : RelayerSimulationEvidenceV1) (t : AuthenticatedAddressLookupTableV1) : Prop :=
  t.observedSlot = s.simulatedAtSlot ∧ t.owner = ADDRESS_LOOKUP_TABLE_ID ∧ t.lamports ≠ 0 ∧ t.executable = false ∧
    t.commitment = .finalized ∧ t.providerSetDigest ≠ Bytes32.zero ∧ 56 ≤ t.accountData.length ∧
    t.accountData.length ≤ MAX_RELAYER_LOOKUP_TABLE_DATA_BYTES_V1

instance (s : RelayerSimulationEvidenceV1) (t : AuthenticatedAddressLookupTableV1) : Decidable (TableFits s t) :=
  inferInstanceAs (Decidable (_ ∧ _))

def validateLookupTablesV1 (s : RelayerSimulationEvidenceV1) (tables : List AuthenticatedAddressLookupTableV1) :
    Except RelayerExecutionJournalErrorV1 Unit := do
  require (tables.length ≤ MAX_RELAYER_LOOKUP_TABLES_V1) .countOverflow
  require (tables.IsChain (fun a b => a.address.bytes < b.address.bytes) ∧ ∀ t ∈ tables, TableFits s t) .invalidRecord

/-- What a landed transaction reports fits the simulation it was built from. -/
def Landed (s : RelayerSimulationEvidenceV1) (point : FinalizedChainPointV1) (fee consumed : UInt64) : Prop :=
  s.simulatedAtSlot.toNat ≤ point.slot ∧ fee = s.estimatedFeeLamports ∧ consumed ≠ 0 ∧
    consumed.toNat ≤ s.computeUnitLimit.toNat

instance (s : RelayerSimulationEvidenceV1) (point : FinalizedChainPointV1) (fee consumed : UInt64) :
    Decidable (Landed s point fee consumed) := inferInstanceAs (Decidable (_ ∧ _))

def OutcomeFits (r : RelayerExecutionRecordV1) : RelayerExecutionOutcomeV1 → Prop
  | .finalized e => r.signed.isSome = true ∧ e.executionResultSha256 ≠ Bytes32.zero ∧ e.poststateSha256 ≠ Bytes32.zero ∧
      e.providerSetDigest ≠ Bytes32.zero ∧ Landed r.simulation e.point e.feeLamports e.computeUnitsConsumed
  | .terminalFailure e => e.failureCode ≠ 0 ∧ e.evidenceSha256 ≠ Bytes32.zero ∧ e.providerSetDigest ≠ Bytes32.zero ∧
      (r.signed.isSome = true → r.simulation.lastValidBlockHeight < e.observedBlockHeight)
  | .finalizedFailure e => r.signed.isSome = true ∧ e.failureEvidenceSha256 ≠ Bytes32.zero ∧
      e.providerSetDigest ≠ Bytes32.zero ∧ Landed r.simulation e.point e.feeLamports e.computeUnitsConsumed

instance (r : RelayerExecutionRecordV1) (o : RelayerExecutionOutcomeV1) : Decidable (OutcomeFits r o) :=
  match o with
  | .finalized _ => inferInstanceAs (Decidable (_ ∧ _))
  | .terminalFailure _ => inferInstanceAs (Decidable (_ ∧ _))
  | .finalizedFailure _ => inferInstanceAs (Decidable (_ ∧ _))

def validateRecordV1 (r : RelayerExecutionRecordV1) : Except RelayerExecutionJournalErrorV1 Unit := do
  validateSimulationV1 r.requestId r.policyId r.simulation
  validateLookupTablesV1 r.simulation r.simulationLookupTables
  require ((r.submission.isSome = true → r.signed.isSome = true) ∧
    (∀ signed ∈ r.signed, signed.transactionSignature.1 ≠ zeros 64 ∧ signed.signedWire ≠ [] ∧
      signed.signedWire.length ≤ MAX_SIGNED_TRANSACTION_WIRE_BYTES_V1) ∧
    (∀ submission ∈ r.submission, submission.providerSetDigest ≠ Bytes32.zero ∧
      r.simulation.simulatedAtSlot ≤ submission.submittedAtSlot)) .invalidRecord
  require (∀ outcome ∈ r.outcome, OutcomeFits r outcome) .invalidRecord

/-! ### Lookup tables -/

def commitmentCode : SolanaRpcCommitmentV1 → UInt8
  | .processed => 0
  | .confirmed => 1
  | .finalized => 2

def tableHeader (t : AuthenticatedAddressLookupTableV1) : Bytes :=
  t.address.bytes ++ (t.owner.bytes ++ (u64Bytes t.observedSlot ++ (u64Bytes t.lamports ++
    (u8Bytes (boolByte t.executable) ++ (u8Bytes (commitmentCode t.commitment) ++ (zeros 6 ++ (u64Bytes t.rentEpoch ++
      (t.providerSetDigest.bytes ++ leBytes 4 t.accountData.length))))))))

def encodeTable (t : AuthenticatedAddressLookupTableV1) : Bytes := tableHeader t ++ t.accountData

def encodeLookupTablesV1 (tables : List AuthenticatedAddressLookupTableV1) :
    Except RelayerExecutionJournalErrorV1 Bytes := do
  require (tables.length ≤ MAX_RELAYER_LOOKUP_TABLES_V1) .countOverflow
  return tables.flatMap encodeTable

def decodeFlagV1 (b : UInt8) : Except RelayerExecutionJournalErrorV1 Bool :=
  if b = 0 then .ok false else if b = 1 then .ok true else .error .invalidRecord

def decodeTable (off : ℕ) (bytes : Bytes) :
    Except RelayerExecutionJournalErrorV1 (AuthenticatedAddressLookupTableV1 × ℕ) := do
  let headerEnd := off + RELAYER_LOOKUP_TABLE_HEADER_BYTES_V1
  require (headerEnd ≤ bytes.length) .wrongLength
  let header := slice off RELAYER_LOOKUP_TABLE_HEADER_BYTES_V1 bytes
  require (allZero (slice 82 6 header) = true ∧ byteAt 81 header = 2) .invalidRecord
  let dataLength := leNat (slice 128 4 header)
  require (56 ≤ dataLength ∧ dataLength ≤ MAX_RELAYER_LOOKUP_TABLE_DATA_BYTES_V1) .invalidRecord
  require (headerEnd + dataLength ≤ bytes.length) .wrongLength
  let executable ← decodeFlagV1 (byteAt 80 header)
  let table ← okOr (AuthenticatedAddressLookupTableV1.new (Bytes32.read 0 header) (Bytes32.read 32 header)
    (readU64 64 header) (readU64 72 header) executable (readU64 88 header) .finalized (Bytes32.read 96 header)
    (slice headerEnd dataLength bytes)) .invalidRecord
  return (table, headerEnd + dataLength)

def decodeLookupTablesV1 (bytes : Bytes) (count : ℕ) :
    Except RelayerExecutionJournalErrorV1 (List AuthenticatedAddressLookupTableV1) := do
  require (count ≤ MAX_RELAYER_LOOKUP_TABLES_V1) .countOverflow
  let (tables, last) ← decodeRun decodeTable count 0 bytes
  require (last = bytes.length) .wrongLength
  return tables

@[simp] theorem length_tableHeader (t : AuthenticatedAddressLookupTableV1) :
    (tableHeader t).length = RELAYER_LOOKUP_TABLE_HEADER_BYTES_V1 := by
  simp [tableHeader, RELAYER_LOOKUP_TABLE_HEADER_BYTES_V1]

theorem length_encodeTable (t : AuthenticatedAddressLookupTableV1) :
    (encodeTable t).length = RELAYER_LOOKUP_TABLE_HEADER_BYTES_V1 + t.accountData.length := by
  rw [encodeTable, List.length_append, length_tableHeader]

theorem decodeFlagV1_boolByte (b : Bool) : decodeFlagV1 (boolByte b) = .ok b := by
  cases b <;> rfl

theorem new_of_table (t : AuthenticatedAddressLookupTableV1) :
    AuthenticatedAddressLookupTableV1.new t.address t.owner t.observedSlot t.lamports t.executable t.rentEpoch .finalized
      t.providerSetDigest t.accountData = some t := by
  obtain ⟨address, owner, slot, lamports, executable, epoch, commitment, digest, data, hchecked⟩ := t
  obtain rfl : commitment = .finalized := hchecked.2.2.2.2.1
  exact dif_pos hchecked

theorem decodeTable_readsBack (t : AuthenticatedAddressLookupTableV1) : ReadsBack decodeTable encodeTable t := by
  intro before after
  have hdata := t.checked.2.2.2.2.2.2
  have hcommitment : commitmentCode t.commitment = 2 := by rw [t.checked.2.2.2.2.1]; rfl
  have hsplit : before ++ (encodeTable t ++ after) = before ++ (tableHeader t ++ (t.accountData ++ after)) := by
    rw [encodeTable, List.append_assoc]
  have hheader : slice before.length RELAYER_LOOKUP_TABLE_HEADER_BYTES_V1
      (before ++ (tableHeader t ++ (t.accountData ++ after))) = tableHeader t := by
    rw [slice_append_right le_rfl, Nat.sub_self, slice_append_head (length_tableHeader t).symm]
  have hbody : slice (before.length + RELAYER_LOOKUP_TABLE_HEADER_BYTES_V1) t.accountData.length
      (before ++ (tableHeader t ++ (t.accountData ++ after))) = t.accountData := by
    rw [slice_append_right (by omega), Nat.add_sub_cancel_left, slice_append_right (by simp), length_tableHeader,
      Nat.sub_self, slice_append_head rfl]
  have hroom : before.length + RELAYER_LOOKUP_TABLE_HEADER_BYTES_V1 ≤
      (before ++ (tableHeader t ++ (t.accountData ++ after))).length := by
    simp only [List.length_append, length_tableHeader]
    omega
  have hroom' : before.length + RELAYER_LOOKUP_TABLE_HEADER_BYTES_V1 + t.accountData.length ≤
      (before ++ (tableHeader t ++ (t.accountData ++ after))).length := by
    simp only [List.length_append, length_tableHeader]
    omega
  have hreserved : allZero (slice 82 6 (tableHeader t)) = true := by
    simp [tableHeader, slice_append_right, slice_append_head]
  have hcode : byteAt 81 (tableHeader t) = 2 := by
    rw [← hcommitment]
    exact byteAt_of_slice (by simp [tableHeader, slice_append_right, slice_append_head])
  have hlength : leNat (slice 128 4 (tableHeader t)) = t.accountData.length := by
    have hslice : slice 128 4 (tableHeader t) = leBytes 4 t.accountData.length := by
      simp [tableHeader, slice_append_right, slice_all]
    have hle := hdata.2
    simp only [MAX_RELAYER_LOOKUP_TABLE_DATA_BYTES_V1] at hle
    rw [hslice, leNat_leBytes_of_lt (by omega)]
  have hexecutable : byteAt 80 (tableHeader t) = boolByte t.executable := byteAt_of_slice (by
    simp [tableHeader, slice_append_right, slice_append_head])
  have haddress : Bytes32.read 0 (tableHeader t) = t.address := Bytes32.read_eq (by simp [tableHeader, slice_append_head])
  have howner : Bytes32.read 32 (tableHeader t) = t.owner := Bytes32.read_eq (by
    simp [tableHeader, slice_append_right, slice_append_head])
  have hslot : readU64 64 (tableHeader t) = t.observedSlot := readU64_of_slice (by
    simp [tableHeader, slice_append_right, slice_append_head])
  have hlamports : readU64 72 (tableHeader t) = t.lamports := readU64_of_slice (by
    simp [tableHeader, slice_append_right, slice_append_head])
  have hepoch : readU64 88 (tableHeader t) = t.rentEpoch := readU64_of_slice (by
    simp [tableHeader, slice_append_right, slice_append_head])
  have hdigest : Bytes32.read 96 (tableHeader t) = t.providerSetDigest := Bytes32.read_eq (by
    simp [tableHeader, slice_append_right, slice_append_head])
  rw [hsplit, length_encodeTable, decodeTable]
  dsimp only
  rw [require_of _ hroom, except_ok_bind, hheader, require_of _ ⟨hreserved, hcode⟩, except_ok_bind, hlength,
    require_of _ hdata, except_ok_bind, require_of _ hroom', except_ok_bind, hexecutable, decodeFlagV1_boolByte,
    except_ok_bind, haddress, howner, hslot, hlamports, hepoch, hdigest, hbody, new_of_table, Nat.add_assoc]
  rfl

theorem decodeLookupTablesV1_flatMap {tables : List AuthenticatedAddressLookupTableV1}
    (h : tables.length ≤ MAX_RELAYER_LOOKUP_TABLES_V1) :
    decodeLookupTablesV1 (tables.flatMap encodeTable) tables.length = .ok tables := by
  have hrun := @decodeRun_flatMap _ _ decodeTable encodeTable tables [] [] fun t _ => decodeTable_readsBack t
  rw [List.nil_append, List.append_nil, List.length_nil, Nat.zero_add] at hrun
  rw [decodeLookupTablesV1, require_of _ h, except_ok_bind, hrun, except_ok_bind]
  dsimp only
  rw [require_of _ rfl, except_ok_bind]
  rfl

/-! ### The fixed part of a record -/

def signedFields : Option RelayerSignedWireV1 → Bytes
  | some signed => signed.transactionSignature.1 ++ leBytes 4 signed.signedWire.length
  | none => zeros 68

def submissionFields : Option RelayerSubmissionEvidenceV1 → Bytes
  | some submission => u64Bytes submission.submittedAtSlot ++ submission.providerSetDigest.bytes
  | none => zeros 40

def outcomeCode : Option RelayerExecutionOutcomeV1 → UInt8
  | none => 0
  | some (.finalized _) => 1
  | some (.terminalFailure _) => 2
  | some (.finalizedFailure _) => 3

def outcomeFields : Option RelayerExecutionOutcomeV1 → Bytes
  | none => zeros 152
  | some (.finalized e) => encodePoint e.point ++ (u64Bytes e.feeLamports ++ (u64Bytes e.computeUnitsConsumed ++
      (e.executionResultSha256.bytes ++ (e.poststateSha256.bytes ++ e.providerSetDigest.bytes))))
  | some (.terminalFailure e) => u64Bytes e.observedBlockHeight ++ (u32Bytes e.failureCode ++ (e.evidenceSha256.bytes ++
      (e.providerSetDigest.bytes ++ zeros 76)))
  | some (.finalizedFailure e) => encodePoint e.point ++ (u64Bytes e.feeLamports ++ (u64Bytes e.computeUnitsConsumed ++
      (e.failureEvidenceSha256.bytes ++ (e.providerSetDigest.bytes ++ zeros 32))))

def simulationFields (s : RelayerSimulationEvidenceV1) : Bytes :=
  u64Bytes s.simulatedAtSlot ++ (s.recentBlockhash.bytes ++ (u64Bytes s.lastValidBlockHeight ++ (s.feePayer.bytes ++
    (s.unsignedMessageSha256.bytes ++ (s.simulationResultSha256.bytes ++ (s.simulationAccountsSha256.bytes ++
      (s.startupReceiptDigest.bytes ++ (u32Bytes s.computeUnitLimit ++ (u64Bytes s.computeUnitsConsumed ++
        u64Bytes s.estimatedFeeLamports)))))))))

/-- The bytes that stand after the fixed part for the lookup tables. -/
def lookupLength (r : RelayerExecutionRecordV1) : ℕ := (r.simulationLookupTables.flatMap encodeTable).length

/-- The exact wire, if it was signed. -/
def wireOf (r : RelayerExecutionRecordV1) : Bytes := (r.signed.map (·.signedWire)).getD []

def encodeRecordHeaderV1 (r : RelayerExecutionRecordV1) : Bytes :=
  r.requestId.bytes ++ (r.policyId.bytes ++ (simulationFields r.simulation ++ (u8Bytes (boolByte r.signed.isSome) ++
    (u8Bytes (boolByte r.submission.isSome) ++ (u8Bytes (outcomeCode r.outcome) ++ (zeros 1 ++ (signedFields r.signed ++
      (submissionFields r.submission ++ (outcomeFields r.outcome ++
        (u64Bytes r.simulation.computeUnitPriceMicroLamports ++ (leBytes 2 r.simulationLookupTables.length ++ (zeros 2 ++
          (leBytes 4 (lookupLength r) ++ zeros 4)))))))))))))

def encodeExecutionRecord (r : RelayerExecutionRecordV1) : Bytes :=
  encodeRecordHeaderV1 r ++ (r.simulationLookupTables.flatMap encodeTable ++ wireOf r)

def readSimulation (header : Bytes) : RelayerSimulationEvidenceV1 :=
  ⟨readU64 64 header, Bytes32.read 72 header, readU64 104 header, Bytes32.read 112 header, Bytes32.read 144 header,
    Bytes32.read 176 header, Bytes32.read 208 header, Bytes32.read 240 header, readU32 272 header, readU64 556 header,
    readU64 276 header, readU64 284 header⟩

def decodeChainPointV1 (off : ℕ) (header : Bytes) : Except RelayerExecutionJournalErrorV1 FinalizedChainPointV1 :=
  mapErr (fun _ => .invalidRecord) (decodePoint off header)

def readOutcome (code : UInt8) (header : Bytes) : Except RelayerExecutionJournalErrorV1 (Option RelayerExecutionOutcomeV1) :=
  if code = 0 then do
    require (allZero (slice 404 152 header) = true) .nonZeroReserved
    return none
  else if code = 1 then do
    let point ← decodeChainPointV1 404 header
    return some (.finalized ⟨point, readU64 444 header, readU64 452 header, Bytes32.read 460 header, Bytes32.read 492 header,
      Bytes32.read 524 header⟩)
  else if code = 2 then do
    require (allZero (slice 480 76 header) = true) .nonZeroReserved
    return some (.terminalFailure ⟨readU64 404 header, readU32 412 header, Bytes32.read 416 header, Bytes32.read 448 header⟩)
  else do
    require (allZero (slice 524 32 header) = true) .nonZeroReserved
    let point ← decodeChainPointV1 404 header
    return some (.finalizedFailure ⟨point, readU64 444 header, readU64 452 header, Bytes32.read 460 header,
      Bytes32.read 492 header⟩)

/-- The highest outcome code that an image version knows. -/
def maxOutcomeCode (version : UInt8) : UInt8 := if version = 1 then 2 else 3

/-- Read the record at an offset; `previous` is the request before it. -/
def decodeExecutionRecord (version : UInt8) (previous : Option Bytes32) (off : ℕ) (bytes : Bytes) :
    Except RelayerExecutionJournalErrorV1 (RelayerExecutionRecordV1 × ℕ) := do
  let headerEnd := off + RELAYER_EXECUTION_RECORD_BYTES_V1
  require (headerEnd ≤ bytes.length) .wrongLength
  let header := slice off RELAYER_EXECUTION_RECORD_BYTES_V1 bytes
  let requestId := Bytes32.read 0 header
  require (∀ id ∈ previous, id.bytes < requestId.bytes) .nonCanonicalOrder
  let signedFlag ← decodeFlagV1 (byteAt 292 header)
  let submittedFlag ← decodeFlagV1 (byteAt 293 header)
  let outcomeKind := byteAt 294 header
  require (outcomeKind ≤ maxOutcomeCode version ∧ byteAt 295 header = 0 ∧ allZero (slice 566 2 header) = true ∧
    allZero (slice 572 4 header) = true) .nonZeroReserved
  let wireLength := leNat (slice 360 4 header)
  let tableCount := leNat (slice 564 2 header)
  let tablesLength := leNat (slice 568 4 header)
  require (tableCount ≤ MAX_RELAYER_LOOKUP_TABLES_V1) .countOverflow
  require ((signedFlag = true ↔ wireLength ≠ 0) ∧ wireLength ≤ MAX_SIGNED_TRANSACTION_WIRE_BYTES_V1) .invalidRecord
  require (headerEnd + tablesLength ≤ bytes.length) .wrongLength
  let tables ← decodeLookupTablesV1 (slice headerEnd tablesLength bytes) tableCount
  require (headerEnd + tablesLength + wireLength ≤ bytes.length) .wrongLength
  let wire := slice (headerEnd + tablesLength) wireLength bytes
  require ((signedFlag = false → allZero (slice 296 68 header) = true) ∧
    (submittedFlag = false → allZero (slice 364 40 header) = true)) .nonZeroReserved
  let outcome ← readOutcome outcomeKind header
  let record : RelayerExecutionRecordV1 := ⟨requestId, Bytes32.read 32 header, readSimulation header, tables,
    if signedFlag then some ⟨readFixed 64 296 header, wire⟩ else none,
    if submittedFlag then some ⟨readU64 364 header, Bytes32.read 372 header⟩ else none, outcome⟩
  validateRecordV1 record
  return (record, headerEnd + tablesLength + wireLength)

/-! ### Reading a record back -/

@[simp] theorem length_signedFields (signed : Option RelayerSignedWireV1) : (signedFields signed).length = 68 := by
  cases signed with
  | none => simp [signedFields]
  | some signed => simp [signedFields, signed.transactionSignature.2]

@[simp] theorem length_submissionFields (submission : Option RelayerSubmissionEvidenceV1) :
    (submissionFields submission).length = 40 := by
  cases submission <;> simp [submissionFields]

@[simp] theorem length_outcomeFields (outcome : Option RelayerExecutionOutcomeV1) : (outcomeFields outcome).length = 152 := by
  match outcome with
  | none => simp [outcomeFields]
  | some (.finalized _) => simp [outcomeFields]
  | some (.terminalFailure _) => simp [outcomeFields]
  | some (.finalizedFailure _) => simp [outcomeFields]

@[simp] theorem length_simulationFields (s : RelayerSimulationEvidenceV1) : (simulationFields s).length = 228 := by
  simp [simulationFields]

@[simp] theorem length_encodeRecordHeaderV1 (r : RelayerExecutionRecordV1) :
    (encodeRecordHeaderV1 r).length = RELAYER_EXECUTION_RECORD_BYTES_V1 := by
  simp [encodeRecordHeaderV1, RELAYER_EXECUTION_RECORD_BYTES_V1]

theorem slice_simulation (r : RelayerExecutionRecordV1) :
    slice 64 228 (encodeRecordHeaderV1 r) = simulationFields r.simulation := by
  simp [encodeRecordHeaderV1, slice_append_right, slice_append_head]

theorem slice_signed (r : RelayerExecutionRecordV1) : slice 296 68 (encodeRecordHeaderV1 r) = signedFields r.signed := by
  simp [encodeRecordHeaderV1, slice_append_right, slice_append_head]

theorem slice_submission (r : RelayerExecutionRecordV1) :
    slice 364 40 (encodeRecordHeaderV1 r) = submissionFields r.submission := by
  simp [encodeRecordHeaderV1, slice_append_right, slice_append_head]

theorem slice_outcome (r : RelayerExecutionRecordV1) : slice 404 152 (encodeRecordHeaderV1 r) = outcomeFields r.outcome := by
  simp [encodeRecordHeaderV1, slice_append_right, slice_append_head]

theorem readSimulation_header (r : RelayerExecutionRecordV1) : readSimulation (encodeRecordHeaderV1 r) = r.simulation := by
  have hpart : ∀ o l, o + l ≤ 228 → slice (64 + o) l (encodeRecordHeaderV1 r) = slice o l (simulationFields r.simulation) :=
    fun o l h => slice_of_part (slice_simulation r) h
  have hprice : readU64 556 (encodeRecordHeaderV1 r) = r.simulation.computeUnitPriceMicroLamports := readU64_of_slice (by
    simp [encodeRecordHeaderV1, slice_append_right, slice_append_head])
  have hslot : readU64 64 (encodeRecordHeaderV1 r) = r.simulation.simulatedAtSlot := readU64_of_slice (by
    rw [hpart 0 8 (by omega)]
    simp [simulationFields, slice_append_head])
  have hhash : Bytes32.read 72 (encodeRecordHeaderV1 r) = r.simulation.recentBlockhash := Bytes32.read_eq (by
    rw [hpart 8 32 (by omega)]
    simp [simulationFields, slice_append_right, slice_append_head])
  have hheight : readU64 104 (encodeRecordHeaderV1 r) = r.simulation.lastValidBlockHeight := readU64_of_slice (by
    rw [hpart 40 8 (by omega)]
    simp [simulationFields, slice_append_right, slice_append_head])
  have hpayer : Bytes32.read 112 (encodeRecordHeaderV1 r) = r.simulation.feePayer := Bytes32.read_eq (by
    rw [hpart 48 32 (by omega)]
    simp [simulationFields, slice_append_right, slice_append_head])
  have hmessage : Bytes32.read 144 (encodeRecordHeaderV1 r) = r.simulation.unsignedMessageSha256 := Bytes32.read_eq (by
    rw [hpart 80 32 (by omega)]
    simp [simulationFields, slice_append_right, slice_append_head])
  have hresult : Bytes32.read 176 (encodeRecordHeaderV1 r) = r.simulation.simulationResultSha256 := Bytes32.read_eq (by
    rw [hpart 112 32 (by omega)]
    simp [simulationFields, slice_append_right, slice_append_head])
  have haccounts : Bytes32.read 208 (encodeRecordHeaderV1 r) = r.simulation.simulationAccountsSha256 := Bytes32.read_eq (by
    rw [hpart 144 32 (by omega)]
    simp [simulationFields, slice_append_right, slice_append_head])
  have hreceipt : Bytes32.read 240 (encodeRecordHeaderV1 r) = r.simulation.startupReceiptDigest := Bytes32.read_eq (by
    rw [hpart 176 32 (by omega)]
    simp [simulationFields, slice_append_right, slice_append_head])
  have hlimit : readU32 272 (encodeRecordHeaderV1 r) = r.simulation.computeUnitLimit := readU32_of_slice (by
    rw [hpart 208 4 (by omega)]
    simp [simulationFields, slice_append_right, slice_append_head])
  have hconsumed : readU64 276 (encodeRecordHeaderV1 r) = r.simulation.computeUnitsConsumed := readU64_of_slice (by
    rw [hpart 212 8 (by omega)]
    simp [simulationFields, slice_append_right, slice_append_head])
  have hfee : readU64 284 (encodeRecordHeaderV1 r) = r.simulation.estimatedFeeLamports := readU64_of_slice (by
    rw [hpart 220 8 (by omega)]
    simp [simulationFields, slice_append_right, slice_all])
  rw [readSimulation, hprice, hslot, hhash, hheight, hpayer, hmessage, hresult, haccounts, hreceipt, hlimit, hconsumed, hfee]

theorem readOutcome_header (r : RelayerExecutionRecordV1) :
    readOutcome (outcomeCode r.outcome) (encodeRecordHeaderV1 r) = .ok r.outcome := by
  have hpart : ∀ o l, o + l ≤ 152 → slice (404 + o) l (encodeRecordHeaderV1 r) = slice o l (outcomeFields r.outcome) :=
    fun o l h => slice_of_part (slice_outcome r) h
  generalize encodeRecordHeaderV1 r = header at hpart
  match r.outcome, hpart with
  | none, hpart =>
    have hzero : allZero (slice 404 152 header) = true := by
      rw [hpart 0 152 (by omega)]
      simp [outcomeFields, slice_all]
    rw [outcomeCode, readOutcome, if_pos rfl, require_of _ hzero]
    rfl
  | some (.finalized e), hpart =>
    have hpoint : decodePoint 404 header = .ok e.point := decodePoint_of_slice (by
      rw [hpart 0 40 (by omega)]
      simp [outcomeFields, slice_append_head])
    have hfee : readU64 444 header = e.feeLamports := readU64_of_slice (by
      rw [hpart 40 8 (by omega)]
      simp [outcomeFields, slice_append_right, slice_append_head])
    have hconsumed : readU64 452 header = e.computeUnitsConsumed := readU64_of_slice (by
      rw [hpart 48 8 (by omega)]
      simp [outcomeFields, slice_append_right, slice_append_head])
    have hresult : Bytes32.read 460 header = e.executionResultSha256 := Bytes32.read_eq (by
      rw [hpart 56 32 (by omega)]
      simp [outcomeFields, slice_append_right, slice_append_head])
    have hstate : Bytes32.read 492 header = e.poststateSha256 := Bytes32.read_eq (by
      rw [hpart 88 32 (by omega)]
      simp [outcomeFields, slice_append_right, slice_append_head])
    have hdigest : Bytes32.read 524 header = e.providerSetDigest := Bytes32.read_eq (by
      rw [hpart 120 32 (by omega)]
      simp [outcomeFields, slice_append_right, slice_all])
    rw [outcomeCode, readOutcome, if_neg (by decide), if_pos rfl, decodeChainPointV1, hpoint, hfee, hconsumed, hresult, hstate,
      hdigest]
    rfl
  | some (.terminalFailure e), hpart =>
    have hzero : allZero (slice 480 76 header) = true := by
      rw [hpart 76 76 (by omega)]
      simp [outcomeFields, slice_append_right, slice_all]
    have hheight : readU64 404 header = e.observedBlockHeight := readU64_of_slice (by
      rw [hpart 0 8 (by omega)]
      simp [outcomeFields, slice_append_head])
    have hcode : readU32 412 header = e.failureCode := readU32_of_slice (by
      rw [hpart 8 4 (by omega)]
      simp [outcomeFields, slice_append_right, slice_append_head])
    have hevidence : Bytes32.read 416 header = e.evidenceSha256 := Bytes32.read_eq (by
      rw [hpart 12 32 (by omega)]
      simp [outcomeFields, slice_append_right, slice_append_head])
    have hdigest : Bytes32.read 448 header = e.providerSetDigest := Bytes32.read_eq (by
      rw [hpart 44 32 (by omega)]
      simp [outcomeFields, slice_append_right, slice_append_head])
    rw [outcomeCode, readOutcome, if_neg (by decide), if_neg (by decide), if_pos rfl, require_of _ hzero, hheight, hcode,
      hevidence, hdigest]
    rfl
  | some (.finalizedFailure e), hpart =>
    have hzero : allZero (slice 524 32 header) = true := by
      rw [hpart 120 32 (by omega)]
      simp [outcomeFields, slice_append_right, slice_all]
    have hpoint : decodePoint 404 header = .ok e.point := decodePoint_of_slice (by
      rw [hpart 0 40 (by omega)]
      simp [outcomeFields, slice_append_head])
    have hfee : readU64 444 header = e.feeLamports := readU64_of_slice (by
      rw [hpart 40 8 (by omega)]
      simp [outcomeFields, slice_append_right, slice_append_head])
    have hconsumed : readU64 452 header = e.computeUnitsConsumed := readU64_of_slice (by
      rw [hpart 48 8 (by omega)]
      simp [outcomeFields, slice_append_right, slice_append_head])
    have hevidence : Bytes32.read 460 header = e.failureEvidenceSha256 := Bytes32.read_eq (by
      rw [hpart 56 32 (by omega)]
      simp [outcomeFields, slice_append_right, slice_append_head])
    have hdigest : Bytes32.read 492 header = e.providerSetDigest := Bytes32.read_eq (by
      rw [hpart 88 32 (by omega)]
      simp [outcomeFields, slice_append_right, slice_append_head])
    rw [outcomeCode, readOutcome, if_neg (by decide), if_neg (by decide), if_neg (by decide), require_of _ hzero,
      decodeChainPointV1, hpoint, hfee, hconsumed, hevidence, hdigest]
    rfl

/-- What a valid record promises about the parts whose lengths are stored. -/
theorem sizes_of_valid {r : RelayerExecutionRecordV1} (h : validateRecordV1 r = .ok ()) :
    r.simulationLookupTables.length ≤ MAX_RELAYER_LOOKUP_TABLES_V1 ∧
      (wireOf r).length ≤ MAX_SIGNED_TRANSACTION_WIRE_BYTES_V1 ∧ (r.signed.isSome = true ↔ (wireOf r).length ≠ 0) := by
  simp only [validateRecordV1, validateLookupTablesV1, except_bind_eq_ok, require_eq_ok] at h
  obtain ⟨_, _, _, ⟨_, htables, _⟩, _, ⟨_, hsigned, _⟩, _⟩ := h
  refine ⟨htables, ?_⟩
  cases hcase : r.signed with
  | none => simp [wireOf, hcase]
  | some signed =>
    obtain ⟨_, hne, hle⟩ := hsigned signed hcase
    simpa [wireOf, hcase] using ⟨hle, hne⟩

theorem length_tables_le (tables : List AuthenticatedAddressLookupTableV1) :
    (tables.flatMap encodeTable).length ≤ tables.length * 8380 := by
  induction tables with
  | nil => simp
  | cons t tables ih =>
    have hdata := t.checked.2.2.2.2.2.2.2
    simp only [MAX_RELAYER_LOOKUP_TABLE_DATA_BYTES_V1] at hdata
    rw [List.flatMap_cons, List.length_append, length_encodeTable, List.length_cons]
    simp only [RELAYER_LOOKUP_TABLE_HEADER_BYTES_V1]
    omega

theorem readSigned_header {r : RelayerExecutionRecordV1} :
    (if r.signed.isSome then some (⟨readFixed 64 296 (encodeRecordHeaderV1 r), wireOf r⟩ : RelayerSignedWireV1) else none) =
      r.signed := by
  have hpart := slice_signed r
  cases hcase : r.signed with
  | none => rfl
  | some signed =>
    have hsignature : readFixed 64 296 (encodeRecordHeaderV1 r) = signed.transactionSignature := readFixed_of_slice (by
      have hfront := @slice_of_part 296 68 0 64 _ _ hpart (by omega)
      rw [Nat.add_zero] at hfront
      rw [hfront, hcase, signedFields, slice_append_head signed.transactionSignature.2.symm])
    rw [if_pos (by simp), hsignature, wireOf, hcase]
    rfl

theorem readSubmission_header {r : RelayerExecutionRecordV1} :
    (if r.submission.isSome then some (⟨readU64 364 (encodeRecordHeaderV1 r), Bytes32.read 372 (encodeRecordHeaderV1 r)⟩ :
      RelayerSubmissionEvidenceV1) else none) = r.submission := by
  have hpart := slice_submission r
  cases hcase : r.submission with
  | none => rfl
  | some submission =>
    rw [hcase] at hpart
    have hslot : readU64 364 (encodeRecordHeaderV1 r) = submission.submittedAtSlot := readU64_of_slice (by
      have hfront := @slice_of_part 364 40 0 8 _ _ hpart (by omega)
      rw [Nat.add_zero] at hfront
      rw [hfront, submissionFields, slice_append_head (length_u64Bytes _).symm])
    have hdigest : Bytes32.read 372 (encodeRecordHeaderV1 r) = submission.providerSetDigest := Bytes32.read_eq (by
      rw [@slice_of_part 364 40 8 32 _ _ hpart (by omega)]
      simp [submissionFields, slice_append_right, slice_all])
    rw [if_pos (by simp), hslot, hdigest]

/-- The current version knows every outcome. -/
theorem outcomeCode_le (outcome : Option RelayerExecutionOutcomeV1) : outcomeCode outcome ≤ maxOutcomeCode 2 := by
  match outcome with
  | none => exact (by decide : (0 : UInt8) ≤ maxOutcomeCode 2)
  | some (.finalized _) => exact (by decide : (1 : UInt8) ≤ maxOutcomeCode 2)
  | some (.terminalFailure _) => exact (by decide : (2 : UInt8) ≤ maxOutcomeCode 2)
  | some (.finalizedFailure _) => exact (by decide : (3 : UInt8) ≤ maxOutcomeCode 2)

theorem decodeExecutionRecord_encode {version : UInt8} {r : RelayerExecutionRecordV1}
    (hvalid : validateRecordV1 r = .ok ()) (hkindLe : outcomeCode r.outcome ≤ maxOutcomeCode version)
    {previous : Option Bytes32} (hprevious : ∀ id ∈ previous, id.bytes < r.requestId.bytes) (before after : Bytes) :
    decodeExecutionRecord version previous before.length (before ++ (encodeExecutionRecord r ++ after)) =
      .ok (r, before.length + (encodeExecutionRecord r).length) := by
  obtain ⟨htables, hwireLe, hwire⟩ := sizes_of_valid hvalid
  have htablesLe := length_tables_le r.simulationLookupTables
  have hcount := htables
  simp only [MAX_RELAYER_LOOKUP_TABLES_V1] at hcount
  simp only [MAX_SIGNED_TRANSACTION_WIRE_BYTES_V1] at hwireLe
  have hsplit : before ++ (encodeExecutionRecord r ++ after) = before ++ (encodeRecordHeaderV1 r ++
      (r.simulationLookupTables.flatMap encodeTable ++ (wireOf r ++ after))) := by
    simp only [encodeExecutionRecord, List.append_assoc]
  have hlength : (encodeExecutionRecord r).length =
      RELAYER_EXECUTION_RECORD_BYTES_V1 + (lookupLength r + (wireOf r).length) := by
    rw [encodeExecutionRecord, List.length_append, List.length_append, length_encodeRecordHeaderV1, lookupLength]
  rw [hsplit, hlength]
  generalize hbytes : before ++ (encodeRecordHeaderV1 r ++ (r.simulationLookupTables.flatMap encodeTable ++
    (wireOf r ++ after))) = bytes
  have htotal : before.length + RELAYER_EXECUTION_RECORD_BYTES_V1 + lookupLength r + (wireOf r).length ≤ bytes.length := by
    rw [← hbytes]
    simp only [List.length_append, length_encodeRecordHeaderV1, lookupLength]
    omega
  have hroom : before.length + RELAYER_EXECUTION_RECORD_BYTES_V1 ≤ bytes.length := by omega
  have hroomTables : before.length + RELAYER_EXECUTION_RECORD_BYTES_V1 + lookupLength r ≤ bytes.length := by omega
  have hheader : slice before.length RELAYER_EXECUTION_RECORD_BYTES_V1 bytes = encodeRecordHeaderV1 r := by
    rw [← hbytes, slice_append_right le_rfl, Nat.sub_self, slice_append_head (length_encodeRecordHeaderV1 r).symm]
  have hbody : slice (before.length + RELAYER_EXECUTION_RECORD_BYTES_V1) (lookupLength r) bytes =
      r.simulationLookupTables.flatMap encodeTable := by
    rw [← hbytes, slice_append_right (by omega), Nat.add_sub_cancel_left, slice_append_right (by simp),
      length_encodeRecordHeaderV1, Nat.sub_self, lookupLength, slice_append_head rfl]
  have hwireBytes : slice (before.length + RELAYER_EXECUTION_RECORD_BYTES_V1 + lookupLength r) (wireOf r).length bytes =
      wireOf r := by
    rw [← hbytes, slice_append_right (by omega), Nat.add_assoc, Nat.add_sub_cancel_left, slice_append_right (by simp),
      length_encodeRecordHeaderV1, Nat.add_sub_cancel_left, lookupLength, slice_append_right le_rfl, Nat.sub_self,
      slice_append_head rfl]
  have hrequest : Bytes32.read 0 (encodeRecordHeaderV1 r) = r.requestId := Bytes32.read_eq (by
    simp [encodeRecordHeaderV1, slice_append_head])
  have hpolicy : Bytes32.read 32 (encodeRecordHeaderV1 r) = r.policyId := Bytes32.read_eq (by
    simp [encodeRecordHeaderV1, slice_append_right, slice_append_head])
  have hsignedFlag : byteAt 292 (encodeRecordHeaderV1 r) = boolByte r.signed.isSome := byteAt_of_slice (by
    simp [encodeRecordHeaderV1, slice_append_right, slice_append_head])
  have hsubmittedFlag : byteAt 293 (encodeRecordHeaderV1 r) = boolByte r.submission.isSome := byteAt_of_slice (by
    simp [encodeRecordHeaderV1, slice_append_right, slice_append_head])
  have hkind : byteAt 294 (encodeRecordHeaderV1 r) = outcomeCode r.outcome := byteAt_of_slice (by
    simp [encodeRecordHeaderV1, slice_append_right, slice_append_head])
  have hreserved : byteAt 295 (encodeRecordHeaderV1 r) = 0 := byteAt_of_slice_one (by
    simp [encodeRecordHeaderV1, slice_append_right, slice_append_head]
    rfl)
  have hreserved' : allZero (slice 566 2 (encodeRecordHeaderV1 r)) = true := by
    simp [encodeRecordHeaderV1, slice_append_right, slice_append_head]
  have hreserved'' : allZero (slice 572 4 (encodeRecordHeaderV1 r)) = true := by
    simp [encodeRecordHeaderV1, slice_append_right, slice_all]
  have hwireLength : leNat (slice 360 4 (encodeRecordHeaderV1 r)) = (wireOf r).length := by
    rw [@slice_of_part 296 68 64 4 _ _ (slice_signed r) (by omega)]
    cases hcase : r.signed with
    | none =>
      rw [signedFields, slice_zeros (by omega), wireOf, hcase]
      rfl
    | some signed =>
      have hlen : signed.signedWire.length < 256 ^ 4 := by
        simp only [wireOf, hcase, Option.map_some, Option.getD_some] at hwireLe
        omega
      rw [signedFields, slice_append_right (by rw [signed.transactionSignature.2]), signed.transactionSignature.2,
        Nat.sub_self, slice_all (length_leBytes 4 _), leNat_leBytes_of_lt hlen, wireOf, hcase]
      rfl
  have htableCount : leNat (slice 564 2 (encodeRecordHeaderV1 r)) = r.simulationLookupTables.length := by
    have hslice : slice 564 2 (encodeRecordHeaderV1 r) = leBytes 2 r.simulationLookupTables.length := by
      simp [encodeRecordHeaderV1, slice_append_right, slice_append_head]
    rw [hslice, leNat_leBytes_of_lt (by omega)]
  have htablesLength : leNat (slice 568 4 (encodeRecordHeaderV1 r)) = lookupLength r := by
    have hslice : slice 568 4 (encodeRecordHeaderV1 r) = leBytes 4 (lookupLength r) := by
      simp [encodeRecordHeaderV1, slice_append_right, slice_append_head]
    rw [hslice, leNat_leBytes_of_lt (by rw [lookupLength]; omega)]
  have hblank : (r.signed.isSome = false → allZero (slice 296 68 (encodeRecordHeaderV1 r)) = true) ∧
      (r.submission.isSome = false → allZero (slice 364 40 (encodeRecordHeaderV1 r)) = true) := by
    rw [slice_signed, slice_submission]
    constructor
    · intro hnone
      rw [Option.isSome_eq_false_iff, Option.isNone_iff_eq_none] at hnone
      simp [hnone, signedFields]
    · intro hnone
      rw [Option.isSome_eq_false_iff, Option.isNone_iff_eq_none] at hnone
      simp [hnone, submissionFields]
  rw [decodeExecutionRecord]
  dsimp only
  rw [require_of _ hroom, except_ok_bind, hheader, hrequest, require_of _ hprevious, except_ok_bind, hsignedFlag,
    decodeFlagV1_boolByte, except_ok_bind, hsubmittedFlag, decodeFlagV1_boolByte, except_ok_bind, hkind,
    require_of _ ⟨hkindLe, hreserved, hreserved', hreserved''⟩, except_ok_bind, hwireLength, htableCount, htablesLength,
    require_of _ htables, except_ok_bind, require_of _ ⟨hwire, hwireLe⟩, except_ok_bind, require_of _ hroomTables,
    except_ok_bind, hbody, decodeLookupTablesV1_flatMap htables, except_ok_bind, require_of _ htotal, except_ok_bind,
    hwireBytes, require_of _ hblank, except_ok_bind, readOutcome_header, except_ok_bind, hpolicy, readSimulation_header,
    readSigned_header, readSubmission_header, hvalid, except_ok_bind, Nat.add_assoc, Nat.add_assoc]
  rfl

end Aspis.Relayer
