import Aspis.Lib.AtomicFile
import Aspis.Relayer.JournalImage

/-! Runs of the execution journal over its file. Every call plans on the records in
memory; a plan that writes replaces the whole file and only then the records in
memory. When a replacement reports an error after the new image is in place, the
records in memory stay behind the file. -/

namespace Aspis.Relayer

open Lib Chain Pool
open Wallet (FinalizedChainPointV1)

inductive JournalCall
  | simulation (requestId policyId : Bytes32) (evidence : RelayerSimulationEvidenceV1)
      (lookupTables : List AuthenticatedAddressLookupTableV1)
  | signedWire (requestId : Bytes32) (wire : Bytes)
  | submission (requestId : Bytes32) (transactionSignature : FixedBytes 64) (evidence : RelayerSubmissionEvidenceV1)
  | finalized (requestId : Bytes32) (transactionSignature : FixedBytes 64) (evidence : RelayerFinalizedEvidenceV1)
  | terminalFailure (requestId : Bytes32) (evidence : RelayerTerminalFailureEvidenceV1)
  | finalizedFailure (requestId : Bytes32) (transactionSignature : FixedBytes 64)
      (evidence : RelayerFinalizedFailureEvidenceV1)

def JournalCall.plan (inspector : Bytes → Option InspectedSignedTransactionV1) :
    JournalCall → List RelayerExecutionRecordV1 → Except RelayerExecutionJournalErrorV1 JournalPlan
  | .simulation requestId policyId evidence lookupTables => recordSimulationV1 requestId policyId evidence lookupTables
  | .signedWire requestId wire => recordSignedWireV1 inspector requestId wire
  | .submission requestId transactionSignature evidence => recordSubmissionV1 requestId transactionSignature evidence
  | .finalized requestId transactionSignature evidence => recordFinalizedV1 requestId transactionSignature evidence
  | .terminalFailure requestId evidence => recordTerminalFailureV1 requestId evidence
  | .finalizedFailure requestId transactionSignature evidence =>
    recordFinalizedFailureV1 requestId transactionSignature evidence

/-- The journal's file and, while it is open, the records in memory. -/
abbrev JournalState := StoredCopy Bytes (List RelayerExecutionRecordV1)

/-- The durable-state errors that a file replacement reports. -/
inductive ReplaceErrorV1
  | invalidPath
  | unsafePath
  | insecurePermissions
  | io
  | imageTooLarge
  deriving DecidableEq, Repr

/-- How a replacement of the journal's file ends. -/
abbrev JournalReplacement := Replacement ReplaceErrorV1

/-- The answer of a call is not kept: a caller may only learn from the state. -/
inductive JournalEvent
  | perform (call : JournalCall) (replacement : JournalReplacement)
  | openOrCreate (replacement : JournalReplacement)
  | close

section Step
variable (sha256 : Bytes → Bytes32) (inspector : Bytes → Option InspectedSignedTransactionV1)

/-- Encode, replace the file, and take the records over when the replacement succeeded. -/
def persistV1 (replacement : JournalReplacement) (next : List RelayerExecutionRecordV1) (s : JournalState) : JournalState :=
  match encodeExecutionJournalV1 sha256 next with
  | .error _ => s
  | .ok bytes =>
    match replacement with
    | .done => ⟨some bytes, some next, false⟩
    | .before _ => s
    | .after _ => ⟨some bytes, s.memory, true⟩

def performCall (call : JournalCall) (replacement : JournalReplacement) (s : JournalState) : JournalState :=
  match s.memory with
  | none => s
  | some records =>
    match call.plan inspector records with
    | .ok (.persist next) => persistV1 sha256 replacement next s
    | _ => s

/-- Read the file, or write the image of no records; the lock admits one open journal. -/
def openOrCreateJournalV1 (replacement : JournalReplacement) (s : JournalState) : JournalState :=
  match s.memory, s.file with
  | some _, _ => s
  | none, some bytes =>
    match decodeExecutionJournalV1 sha256 bytes with
    | .ok records => ⟨some bytes, some records, false⟩
    | .error _ => s
  | none, none =>
    match encodeExecutionJournalV1 sha256 [] with
    | .error _ => s
    | .ok bytes =>
      match replacement with
      | .done => ⟨some bytes, some [], false⟩
      | .before _ => s
      | .after _ => ⟨some bytes, none, false⟩

def JournalEvent.apply : JournalEvent → JournalState → JournalState
  | .perform call replacement => performCall sha256 inspector call replacement
  | .openOrCreate replacement => openOrCreateJournalV1 sha256 replacement
  | .close => fun s => ⟨s.file, none, false⟩

def JournalStep (s : JournalState) (e : JournalEvent) (t : JournalState) : Prop := t = e.apply sha256 inspector s

end Step

/-! ### What a plan may write -/

/-- What a record already says about the transaction stays. -/
structure Kept (r r' : RelayerExecutionRecordV1) : Prop where
  request : r'.requestId = r.requestId
  signed : ∀ w ∈ r.signed, w ∈ r'.signed
  submission : ∀ w ∈ r.submission, w ∈ r'.submission
  outcome : ∀ w ∈ r.outcome, w ∈ r'.outcome

theorem Kept.refl (r : RelayerExecutionRecordV1) : Kept r r := ⟨rfl, fun _ h => h, fun _ h => h, fun _ h => h⟩

theorem Kept.trans {a b c : RelayerExecutionRecordV1} (h : Kept a b) (h' : Kept b c) : Kept a c where
  request := h'.request.trans h.request
  signed w hw := h'.signed w (h.signed w hw)
  submission w hw := h'.submission w (h.submission w hw)
  outcome w hw := h'.outcome w (h.outcome w hw)

/-- Every record of the first list is kept by a record of the second. -/
def Grows (before after : List RelayerExecutionRecordV1) : Prop := ∀ r ∈ before, ∃ r' ∈ after, Kept r r'

theorem Grows.refl (records : List RelayerExecutionRecordV1) : Grows records records := fun r hr => ⟨r, hr, .refl r⟩

theorem Grows.trans {a b c : List RelayerExecutionRecordV1} (h : Grows a b) (h' : Grows b c) : Grows a c := by
  intro r hr
  obtain ⟨r', hr', hkept⟩ := h r hr
  obtain ⟨r'', hr'', hkept'⟩ := h' r' hr'
  exact ⟨r'', hr'', hkept.trans hkept'⟩

theorem grows_append (records : List RelayerExecutionRecordV1) (r : RelayerExecutionRecordV1) :
    Grows records (records ++ [r]) := fun s hs => ⟨s, List.mem_append_left [r] hs, .refl s⟩

theorem grows_updateRecord {records : List RelayerExecutionRecordV1} {requestId : Bytes32}
    {record : RelayerExecutionRecordV1} {change : RelayerExecutionRecordV1 → RelayerExecutionRecordV1}
    (hfind : recordV1 records requestId = some record) (hkept : Kept record (change record)) :
    Grows records (updateRecord requestId change records) := by
  induction records with
  | nil => cases hfind
  | cons r rest ih =>
    rw [updateRecord]
    by_cases hid : r.requestId = requestId
    · obtain rfl : r = record := by
        rw [recordV1, List.find?_cons_of_pos (by simpa using hid)] at hfind
        exact Option.some.inj hfind
      rw [if_pos hid]
      intro s hs
      rcases List.mem_cons.mp hs with rfl | hs
      · exact ⟨change s, List.mem_cons_self, hkept⟩
      · exact ⟨s, List.mem_cons_of_mem _ hs, .refl s⟩
    · rw [if_neg hid]
      rw [recordV1, List.find?_cons_of_neg (by simpa using hid)] at hfind
      intro s hs
      rcases List.mem_cons.mp hs with rfl | hs
      · exact ⟨s, List.mem_cons_self, .refl s⟩
      · obtain ⟨s', hs', hkeeps⟩ := ih hfind s hs
        exact ⟨s', List.mem_cons_of_mem _ hs', hkeeps⟩

theorem recordOutcome_grows {requestId : Bytes32} {record : RelayerExecutionRecordV1} {outcome : RelayerExecutionOutcomeV1}
    {records next : List RelayerExecutionRecordV1} (hfind : recordV1 records requestId = some record)
    (h : recordOutcome requestId record outcome records = .ok (.persist next)) : Grows records next := by
  unfold recordOutcome at h
  split at h
  · simp only [except_bind_eq_ok, except_pure_eq_ok] at h
    obtain ⟨_, _, h⟩ := h
    cases h
  · rename_i hnone
    obtain rfl := JournalPlan.persist.inj (Except.ok.inj h)
    refine grows_updateRecord hfind ⟨rfl, fun _ h => h, fun _ h => h, ?_⟩
    rw [hnone]
    simp

/-- No call takes back what a record says. -/
theorem JournalCall.plan_grows {inspector : Bytes → Option InspectedSignedTransactionV1} {call : JournalCall}
    {records next : List RelayerExecutionRecordV1} (h : call.plan inspector records = .ok (.persist next)) :
    Grows records next := by
  cases call with
  | simulation requestId policyId evidence lookupTables =>
    simp only [plan, recordSimulationV1, except_bind_eq_ok] at h
    obtain ⟨_, _, _, _, h⟩ := h
    split at h
    · simp only [except_bind_eq_ok, except_pure_eq_ok] at h
      obtain ⟨_, _, h⟩ := h
      cases h
    · simp only [except_bind_eq_ok, except_pure_eq_ok] at h
      obtain ⟨_, _, h⟩ := h
      obtain rfl := JournalPlan.persist.inj h
      exact grows_append records _
  | signedWire requestId wire =>
    simp only [plan, recordSignedWireV1, except_bind_eq_ok, okOr_eq_ok] at h
    obtain ⟨_, _, inspected, _, _, _, record, hfind, _, _, h⟩ := h
    split at h
    · simp only [except_bind_eq_ok, except_pure_eq_ok] at h
      obtain ⟨_, _, h⟩ := h
      cases h
    · rename_i hnone
      simp only [except_bind_eq_ok, except_pure_eq_ok] at h
      obtain ⟨_, _, h⟩ := h
      obtain rfl := JournalPlan.persist.inj h
      refine grows_updateRecord hfind ⟨rfl, ?_, fun _ h => h, fun _ h => h⟩
      rw [hnone]
      simp
  | submission requestId transactionSignature evidence =>
    simp only [plan, recordSubmissionV1, except_bind_eq_ok, okOr_eq_ok] at h
    obtain ⟨_, _, record, hfind, _, _, _, _, h⟩ := h
    split at h
    · simp only [except_bind_eq_ok, except_pure_eq_ok] at h
      obtain ⟨_, _, h⟩ := h
      cases h
    · rename_i hnone
      simp only [except_bind_eq_ok, except_pure_eq_ok] at h
      obtain ⟨_, _, h⟩ := h
      obtain rfl := JournalPlan.persist.inj h
      refine grows_updateRecord hfind ⟨rfl, fun _ h => h, ?_, fun _ h => h⟩
      rw [hnone]
      simp
  | finalized requestId transactionSignature evidence =>
    simp only [plan, recordFinalizedV1, except_bind_eq_ok, okOr_eq_ok] at h
    obtain ⟨_, _, record, hfind, _, _, _, _, h⟩ := h
    exact recordOutcome_grows hfind h
  | terminalFailure requestId evidence =>
    simp only [plan, recordTerminalFailureV1, except_bind_eq_ok, okOr_eq_ok] at h
    obtain ⟨_, _, record, hfind, _, _, h⟩ := h
    exact recordOutcome_grows hfind h
  | finalizedFailure requestId transactionSignature evidence =>
    simp only [plan, recordFinalizedFailureV1, except_bind_eq_ok, okOr_eq_ok] at h
    obtain ⟨_, _, record, hfind, _, _, _, _, h⟩ := h
    exact recordOutcome_grows hfind h

/-! ### Images of reachable journals -/

section Reachable
variable {sha256 : Bytes → Bytes32} {inspector : Bytes → Option InspectedSignedTransactionV1}
  {records next : List RelayerExecutionRecordV1} {s t : JournalState}

/-- The file content stands for the records, in the order of their request ids. -/
def HoldsRecords (sha256 : Bytes → Bytes32) (bytes : Bytes) (records : List RelayerExecutionRecordV1) : Prop :=
  decodeExecutionJournalV1 sha256 bytes = .ok (orderedRecords records)

theorem holdsRecords_of_encode {bytes : Bytes} (h : encodeExecutionJournalV1 sha256 next = .ok bytes) :
    HoldsRecords sha256 bytes next := by
  obtain ⟨hstorable, rfl⟩ := encodeExecutionJournalV1_eq_ok.mp h
  exact decodeExecutionJournalV1_journalImage hstorable (.inr rfl) fun r _ => outcomeCode_le r.outcome

/-- Decoded records are in order already. -/
theorem holdsRecords_of_decode {bytes : Bytes} (h : decodeExecutionJournalV1 sha256 bytes = .ok records) :
    HoldsRecords sha256 bytes records := by
  have hstorable := (journalImage_of_decode h).1
  rw [HoldsRecords, orderedRecords_of_sorted hstorable.sorted, h]

/-- The records in memory could be written as they are. -/
def JournalEncodable (s : JournalState) : Prop := ∀ records ∈ s.memory, Storable (orderedRecords records)

theorem persistV1_encodable {replacement : JournalReplacement} (h : JournalEncodable s) :
    JournalEncodable (persistV1 sha256 replacement next s) := by
  unfold persistV1
  split
  · exact h
  · rename_i bytes hencode
    cases replacement with
    | done =>
      intro records hrecords
      obtain rfl := Option.some.inj hrecords
      exact (encodeExecutionJournalV1_eq_ok.mp hencode).1
    | before e => exact h
    | after e => exact h

theorem JournalStep.encodable {e : JournalEvent} (hstep : JournalStep sha256 inspector s e t) (h : JournalEncodable s) :
    JournalEncodable t := by
  rw [hstep]
  cases e with
  | perform call replacement =>
    rw [JournalEvent.apply]
    unfold performCall
    split
    · exact h
    · split
      · exact persistV1_encodable h
      · exact h
  | openOrCreate replacement =>
    rw [JournalEvent.apply]
    unfold openOrCreateJournalV1
    split
    · exact h
    · split
      · rename_i bytes hfile _ records hdecode
        intro read hread
        obtain rfl := Option.some.inj hread
        have hstorable := (journalImage_of_decode hdecode).1
        rw [orderedRecords_of_sorted hstorable.sorted]
        exact hstorable
      · exact h
    · split
      · exact h
      · rename_i bytes hencode
        cases replacement with
        | done =>
          intro records hrecords
          obtain rfl := Option.some.inj hrecords
          exact (encodeExecutionJournalV1_eq_ok.mp hencode).1
        | before e => exact h
        | after e => exact fun records hrecords => nomatch hrecords
  | close => exact fun records hrecords => nomatch hrecords

theorem run_encodable {es : List JournalEvent} (hrun : Run (JournalStep sha256 inspector) s es t) (h : JournalEncodable s) :
    JournalEncodable t := by
  induction hrun with
  | nil => exact h
  | cons hstep _ ih => exact ih (hstep.encodable h)

/-! ### Runs of a careful caller -/

/-- A call that has something to write is not made while the records in memory are behind the file. -/
def CarefulEvent (inspector : Bytes → Option InspectedSignedTransactionV1) (s : JournalState) : JournalEvent → Prop
  | .perform call _ => s.stale = true → ∀ records ∈ s.memory, ∀ next, call.plan inspector records ≠ .ok (.persist next)
  | _ => True

/-- A step that meets the condition on it. -/
def CarefulStep (sha256 : Bytes → Bytes32) (inspector : Bytes → Option InspectedSignedTransactionV1) (s : JournalState)
    (e : JournalEvent) (t : JournalState) : Prop :=
  JournalStep sha256 inspector s e t ∧ CarefulEvent inspector s e

theorem CarefulStep.stored {e : JournalEvent} (hstep : CarefulStep sha256 inspector s e t)
    (hsynced : s.Synced (HoldsRecords sha256)) : StoredCopy.Step (HoldsRecords sha256) Grows s t := by
  have hkeep : StoredCopy.Step (HoldsRecords sha256) Grows s s := .keep s s.stale id
  obtain ⟨rfl, hcareful⟩ := hstep
  cases e with
  | perform call replacement =>
    rw [JournalEvent.apply]
    unfold performCall
    split
    · exact hkeep
    · rename_i records hmemory
      split
      · rename_i next hplan
        have hfresh : s.stale = false := by
          by_contra hstale
          exact hcareful (by simpa using hstale) records hmemory next hplan
        obtain ⟨bytes, hfile, -⟩ := hsynced records hmemory hfresh
        obtain ⟨file, memory, stale⟩ := s
        obtain rfl : memory = some records := hmemory
        obtain rfl : stale = false := hfresh
        obtain rfl : file = some bytes := hfile
        have hgrows := JournalCall.plan_grows hplan
        unfold persistV1
        split
        · exact hkeep
        · rename_i image hencode
          cases replacement with
          | done => exact .write hgrows (holdsRecords_of_encode hencode)
          | before e => exact hkeep
          | after e => exact .writeLost hgrows (holdsRecords_of_encode hencode)
      · exact hkeep
  | openOrCreate replacement =>
    obtain ⟨file, memory, stale⟩ := s
    rw [JournalEvent.apply]
    unfold openOrCreateJournalV1
    cases memory with
    | some records => exact hkeep
    | none =>
      cases file with
      | some bytes =>
        dsimp only
        split
        · rename_i records hdecode
          exact .open none stale (holdsRecords_of_decode hdecode)
        · exact hkeep
      | none =>
        dsimp only
        split
        · exact hkeep
        · rename_i image hencode
          cases replacement with
          | done => exact .create none stale true (holdsRecords_of_encode hencode)
          | before e => exact hkeep
          | after e => exact .create none stale false (holdsRecords_of_encode hencode)
  | close => exact .close s

/-- Once the file holds a signed wire, a submission or an outcome of a request, every later file content holds the same one,
if no call with something to write is made while the records in memory are behind the file. -/
theorem recorded_evidence_stays (sha256 : Bytes → Bytes32) (inspector : Bytes → Option InspectedSignedTransactionV1)
    (file : Option Bytes) {es es' : List JournalEvent} {s t : JournalState}
    (hrun : Run (CarefulStep sha256 inspector) ⟨file, none, false⟩ es s) (hlater : Run (CarefulStep sha256 inspector) s es' t)
    {bytes : Bytes} (hfile : s.file = some bytes) {records : List RelayerExecutionRecordV1}
    (hdecode : decodeExecutionJournalV1 sha256 bytes = .ok records) :
    ∃ bytes' records', t.file = some bytes' ∧ decodeExecutionJournalV1 sha256 bytes' = .ok records' ∧
      (records'.map (·.requestId)).Nodup ∧ ∀ r ∈ records, ∃ r' ∈ records', Kept r r' := by
  have hsame : ∀ k a b, HoldsRecords sha256 k a → HoldsRecords sha256 k b → Grows a b := by
    intro k a b ha hb r hr
    have heq := Except.ok.inj (ha.symm.trans hb)
    have hmem : r ∈ orderedRecords b := heq ▸ (orderedRecords_perm a).mem_iff.mpr hr
    exact ⟨r, (orderedRecords_perm b).mem_iff.mp hmem, .refl r⟩
  have hstart : StoredCopy.Synced (HoldsRecords sha256) (⟨file, none, false⟩ : JournalState) :=
    fun _ hm => nomatch hm
  obtain ⟨hsynced, -⟩ := StoredCopy.run_grown Grows.refl (fun _ _ _ => Grows.trans) hsame id
    (fun _ _ _ hstep hs => hstep.stored hs) hrun hstart
  obtain ⟨-, hgrown⟩ := StoredCopy.run_grown Grows.refl (fun _ _ _ => Grows.trans) hsame id
    (fun _ _ _ hstep hs => hstep.stored hs) hlater hsynced
  obtain ⟨bytes', hfile', hlaterHolds⟩ := hgrown bytes hfile
  obtain ⟨records', hholds, hgrows⟩ := hlaterHolds records (holdsRecords_of_decode hdecode)
  have hstorable := (journalImage_of_decode hholds).1
  refine ⟨bytes', _, hfile', hholds, ?_, ?_⟩
  · rw [List.Nodup, List.pairwise_map]
    refine hstorable.sorted.imp ?_
    intro a b hlt heq
    exact irrefl_of (· < ·) _ (heq ▸ hlt)
  · intro r hr
    obtain ⟨r', hr', hkept⟩ := hgrows r hr
    exact ⟨r', (orderedRecords_perm records').mem_iff.mpr hr', hkept⟩

end Reachable

/-! ### A caller that goes on after a late error -/

def sampleWord (n : UInt8) : Bytes32 := Bytes32.filled n

/-- A stand-in for the hash: the length of its input. -/
def lengthHash (bytes : Bytes) : Bytes32 := ⟨leBytes 32 bytes.length, by simp⟩

def sampleSimulation : RelayerSimulationEvidenceV1 :=
  ⟨1, sampleWord 1, 1, sampleWord 2, sampleWord 3, sampleWord 4, sampleWord 5, sampleWord 6, 1000000, 1, 1, 5000⟩

/-- A request that was simulated and then failed, or is still open. -/
def sampleRecord (failure : Option UInt32) : RelayerExecutionRecordV1 :=
  ⟨sampleWord 7, sampleWord 8, sampleSimulation, [], none, none,
    failure.map fun code => .terminalFailure ⟨2, code, sampleWord 9, sampleWord 10⟩⟩

def sampleFailure (code : UInt32) : JournalCall := .terminalFailure (sampleWord 7) ⟨2, code, sampleWord 9, sampleWord 10⟩

theorem storable_sampleRecord {failure : Option UInt32} (h : validateRecordV1 (sampleRecord failure) = .ok ()) :
    Storable (orderedRecords [sampleRecord failure]) := by
  have hsingle : orderedRecords [sampleRecord failure] = [sampleRecord failure] := orderedRecords_of_sorted (by simp)
  rw [hsingle]
  have hpayload : payloadLength [sampleRecord failure] = 0 := rfl
  refine ⟨by simp, by simpa using h, by simp [MAX_RELAYER_EXECUTION_RECORDS_V1], ?_⟩
  rw [length_flatMap_encodeExecutionRecord, hpayload, List.length_singleton]
  decide

/-- A storable record alone in the journal is written and read back. -/
theorem encode_single {sha256 : Bytes → Bytes32} {r : RelayerExecutionRecordV1} (h : Storable (orderedRecords [r])) :
    ∃ bytes, encodeExecutionJournalV1 sha256 [r] = .ok bytes ∧ decodeExecutionJournalV1 sha256 bytes = .ok [r] := by
  have hencode := (@encodeExecutionJournalV1_eq_ok sha256 _ _).mpr ⟨h, rfl⟩
  have hdecode := holdsRecords_of_encode hencode
  have hsingle : orderedRecords [r] = [r] := orderedRecords_of_sorted (by simp)
  unfold HoldsRecords at hdecode
  rw [hsingle] at hencode hdecode
  exact ⟨_, hencode, hdecode⟩

theorem encode_no_records : ∃ bytes, encodeExecutionJournalV1 lengthHash [] = .ok bytes := by
  refine ⟨_, encodeExecutionJournalV1_eq_ok.mpr ⟨?_, rfl⟩⟩
  rw [orderedRecords_of_sorted List.Pairwise.nil]
  exact ⟨List.Pairwise.nil, fun r hr => absurd hr List.not_mem_nil, Nat.zero_le _, by decide⟩

theorem sampleFailure_plan_one : (sampleFailure 1).plan (fun _ => none) [sampleRecord none] =
    .ok (.persist [sampleRecord (some 1)]) := by decide +kernel

theorem sampleFailure_plan_two : (sampleFailure 2).plan (fun _ => none) [sampleRecord none] =
    .ok (.persist [sampleRecord (some 2)]) := by decide +kernel

theorem sampleSimulation_plan : (JournalCall.simulation (sampleWord 7) (sampleWord 8) sampleSimulation []).plan
    (fun _ => none) [] = .ok (.persist [sampleRecord none]) := by decide +kernel

/-- A call on an open journal whose plan is written in full. -/
theorem journalStep_write {call : JournalCall} {records next : List RelayerExecutionRecordV1} {bytes : Bytes}
    (hplan : call.plan (fun _ => none) records = .ok (.persist next))
    (hencode : encodeExecutionJournalV1 lengthHash next = .ok bytes) (file : Option Bytes) (stale : Bool) :
    JournalStep lengthHash (fun _ => none) ⟨file, some records, stale⟩ (.perform call .done) ⟨some bytes, some next, false⟩ := by
  simp only [JournalStep, JournalEvent.apply, performCall, hplan, persistV1, hencode]

theorem journalStep_late_error {call : JournalCall} {records next : List RelayerExecutionRecordV1} {bytes : Bytes}
    (hplan : call.plan (fun _ => none) records = .ok (.persist next))
    (hencode : encodeExecutionJournalV1 lengthHash next = .ok bytes) (file : Option Bytes) (stale : Bool) :
    JournalStep lengthHash (fun _ => none) ⟨file, some records, stale⟩ (.perform call (.after .io))
      ⟨some bytes, some records, true⟩ := by
  simp only [JournalStep, JournalEvent.apply, performCall, hplan, persistV1, hencode]

/-- An error after the new image is in place, and then another outcome for the same request: both become the file. -/
theorem outcome_replaced_after_late_error : ∃ s t bytes bytes',
    Run (JournalStep lengthHash fun _ => none) ⟨none, none, false⟩
      [.openOrCreate .done, .perform (.simulation (sampleWord 7) (sampleWord 8) sampleSimulation []) .done,
        .perform (sampleFailure 1) (.after .io)] s ∧
    Run (JournalStep lengthHash fun _ => none) s [.perform (sampleFailure 2) .done] t ∧
    s.file = some bytes ∧ decodeExecutionJournalV1 lengthHash bytes = .ok [sampleRecord (some 1)] ∧
    t.file = some bytes' ∧ decodeExecutionJournalV1 lengthHash bytes' = .ok [sampleRecord (some 2)] := by
  obtain ⟨empty, hempty⟩ := encode_no_records
  obtain ⟨opened, hopened, -⟩ := @encode_single lengthHash _ (@storable_sampleRecord none (by decide +kernel))
  obtain ⟨first, hfirst, hread⟩ := @encode_single lengthHash _ (@storable_sampleRecord (some 1) (by decide +kernel))
  obtain ⟨second, hsecond, hread'⟩ := @encode_single lengthHash _ (@storable_sampleRecord (some 2) (by decide +kernel))
  have hopen : JournalStep lengthHash (fun _ => none) ⟨none, none, false⟩ (.openOrCreate .done)
      ⟨some empty, some [], false⟩ := by
    simp only [JournalStep, JournalEvent.apply, openOrCreateJournalV1, hempty]
  exact ⟨_, _, first, second,
    .cons hopen (.cons (journalStep_write sampleSimulation_plan hopened _ _)
      (.cons (journalStep_late_error sampleFailure_plan_one hfirst _ _) (.nil _))),
    .cons (journalStep_write sampleFailure_plan_two hsecond _ _) (.nil _), rfl, hread, rfl, hread'⟩

/-- A failure is written and the journal closed: the file still holds it. -/
theorem recorded_evidence_stays_sample : ∃ s bytes,
    Run (CarefulStep lengthHash fun _ => none) ⟨none, none, false⟩
      [.openOrCreate .done, .perform (.simulation (sampleWord 7) (sampleWord 8) sampleSimulation []) .done,
        .perform (sampleFailure 1) .done] s ∧
    s.file = some bytes ∧ decodeExecutionJournalV1 lengthHash bytes = .ok [sampleRecord (some 1)] ∧
    ∃ bytes' records', s.file = some bytes' ∧ decodeExecutionJournalV1 lengthHash bytes' = .ok records' ∧
      (records'.map (·.requestId)).Nodup ∧ ∀ r ∈ [sampleRecord (some 1)], ∃ r' ∈ records', Kept r r' := by
  obtain ⟨empty, hempty⟩ := encode_no_records
  obtain ⟨opened, hopened, -⟩ := @encode_single lengthHash _ (@storable_sampleRecord none (by decide +kernel))
  obtain ⟨first, hfirst, hread⟩ := @encode_single lengthHash _ (@storable_sampleRecord (some 1) (by decide +kernel))
  have hopen : JournalStep lengthHash (fun _ => none) ⟨none, none, false⟩ (.openOrCreate .done)
      ⟨some empty, some [], false⟩ := by
    simp only [JournalStep, JournalEvent.apply, openOrCreateJournalV1, hempty]
  have hcareful : ∀ (file : Option Bytes) (memory : Option (List RelayerExecutionRecordV1)) (call : JournalCall),
      CarefulEvent (fun _ => none) ⟨file, memory, false⟩ (.perform call .done) :=
    fun _ _ _ hstale => absurd hstale Bool.false_ne_true
  have hrun : Run (CarefulStep lengthHash fun _ => none) ⟨none, none, false⟩
      [.openOrCreate .done, .perform (.simulation (sampleWord 7) (sampleWord 8) sampleSimulation []) .done,
        .perform (sampleFailure 1) .done] ⟨some first, some [sampleRecord (some 1)], false⟩ :=
    .cons ⟨hopen, trivial⟩ (.cons ⟨journalStep_write sampleSimulation_plan hopened _ _, hcareful _ _ _⟩
      (.cons ⟨journalStep_write sampleFailure_plan_one hfirst _ _, hcareful _ _ _⟩ (.nil _)))
  have hclose : Run (CarefulStep lengthHash fun _ => none) ⟨some first, some [sampleRecord (some 1)], false⟩ [.close]
      ⟨some first, none, false⟩ := .cons ⟨rfl, trivial⟩ (.nil _)
  exact ⟨_, first, hrun, rfl, hread, recorded_evidence_stays lengthHash (fun _ => none) none hrun hclose rfl hread⟩

end Aspis.Relayer
