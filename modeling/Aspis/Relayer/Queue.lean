import Aspis.Lib.Run
import Aspis.Relayer.Image

/-! The durable relayer queue. Every operation writes the whole new image before
it changes the copy in memory, so the file always holds that copy. What the queue
keeps true from one operation to the next is what reopening checks. -/

namespace Aspis.Relayer

open Lib Chain Pool

/-- An open queue and what its file holds. -/
structure DurableRelayerStateV1 where
  file : Bytes
  policyId : Bytes32
  rateWindowStartSlot : UInt64
  admissionsInWindow : UInt32
  entries : List DurableRelayerEntryV1
  deriving DecidableEq

inductive RelayerEnqueueOutcomeV1
  | inserted
  | alreadyPresent
  deriving DecidableEq, Repr

/-- How many entries have a status. -/
def countStatus (status : DurableRelayerStatusV1) (entries : List DurableRelayerEntryV1) : ℕ :=
  entries.countP (·.status = status)

section
variable (services : RelayerServicesV1)

/-! ### Opening -/

/-- The checks of the entries, with the request ids seen so far. -/
def validateEntries (start : UInt64) (admissions : UInt32) :
    List Bytes32 → List DurableRelayerEntryV1 → Except DurableStateErrorV1 Unit
  | _, [] => .ok ()
  | ids, e :: rest => do
    require (e.plan.requestId ∉ ids ∧ e.admission.requestId = e.plan.requestId ∧ e.admission.policyId ≠ Bytes32.zero ∧
      e.admission.kind = e.plan.kind ∧ e.admission.rateWindowStartSlot ≤ e.admission.admittedAtSlot ∧
      e.admission.admissionsInWindowAfter ≠ 0 ∧
      (e.admission.rateWindowStartSlot = start → e.admission.admissionsInWindowAfter ≤ admissions)) .invalidRelayerState
    let rebuilt ← mapErr .relayer (rebuildPlan services e.plan)
    require (rebuilt = e.plan) .invalidRelayerState
    validateEntries start admissions (e.plan.requestId :: ids) rest

def validateRelayerStateV1 (policy : RelayerPolicyV1) (start : UInt64) (admissions : UInt32)
    (entries : List DurableRelayerEntryV1) : Except DurableStateErrorV1 Unit := do
  require (entries.length ≤ MAX_RELAYER_RECORDS ∧ admissions ≤ policy.maxAdmissionsPerWindow) .invalidRelayerState
  require (countStatus .queued entries ≤ policy.maxQueueDepth.toNat ∧
    entries.length - countStatus .queued entries ≤ policy.maxInflight.toNat) .invalidRelayerState
  validateEntries services start admissions [] entries

/-- Write an image over the file. -/
def replaceFile (bytes : Bytes) (s : DurableRelayerStateV1) : Except DurableStateErrorV1 DurableRelayerStateV1 := do
  require (bytes.length ≤ MAX_DURABLE_IMAGE_BYTES) .imageTooLarge
  return { s with file := bytes }

/-- Open what the file holds. -/
def openExisting (policy : RelayerPolicyV1) (bytes : Bytes) : Except DurableStateErrorV1 DurableRelayerStateV1 := do
  require (bytes.length ≤ MAX_DURABLE_IMAGE_BYTES) .imageTooLarge
  let image ← decodeRelayerImageV1 services.sha256 bytes
  require (image.policyId = relayerPolicyIdV1 services.sha256 policy) .policyMismatch
  validateRelayerStateV1 services policy image.rateWindowStartSlot image.admissionsInWindow image.entries
  return ⟨bytes, image.policyId, image.rateWindowStartSlot, image.admissionsInWindow, image.entries⟩

/-- Write an empty queue. -/
def createFresh (policy : RelayerPolicyV1) : Except DurableStateErrorV1 DurableRelayerStateV1 := do
  let bytes ← encodeRelayerImageV1 services.sha256 (relayerPolicyIdV1 services.sha256 policy) 0 0 []
  replaceFile bytes ⟨[], relayerPolicyIdV1 services.sha256 policy, 0, 0, []⟩

/-- Open the queue at a path. The legacy-writer check reads other files: its answer is `authority`. -/
def openOrCreateV1 (authority : Except DurableStateErrorV1 Unit) (policy : RelayerPolicyV1) (file : Option Bytes) :
    Except DurableStateErrorV1 DurableRelayerStateV1 := do
  authority
  require (PolicyShape policy) (.admission .invalidPolicy)
  authority
  match file with
  | some bytes => openExisting services policy bytes
  | none => createFresh services policy

/-! ### Operations -/

/-- Write the image of the new contents, then keep them. -/
def persistWith (start : UInt64) (admissions : UInt32) (entries : List DurableRelayerEntryV1)
    (s : DurableRelayerStateV1) : Except DurableStateErrorV1 DurableRelayerStateV1 := do
  let bytes ← encodeRelayerImageV1 services.sha256 s.policyId start admissions entries
  let written ← replaceFile bytes s
  return { written with rateWindowStartSlot := start, admissionsInWindow := admissions, entries := entries }

def persistEntriesV1 (entries : List DurableRelayerEntryV1) (s : DurableRelayerStateV1) :
    Except DurableStateErrorV1 DurableRelayerStateV1 :=
  persistWith services s.rateWindowStartSlot s.admissionsInWindow entries s

/-- Admit a request that is not in the queue yet. -/
def admitNew (policy : RelayerPolicyV1) (nowSlot estimatedFee balance : UInt64) (plan : RelayerPlanV1)
    (s : DurableRelayerStateV1) : Except DurableStateErrorV1 (DurableRelayerStateV1 × RelayerEnqueueOutcomeV1) := do
  require (countStatus .queued s.entries < 2 ^ 32) .countOverflow
  require (countStatus .inflight s.entries < 2 ^ 32) .countOverflow
  let context : RelayerAdmissionContextV1 := ⟨nowSlot, countStatus .queued s.entries, countStatus .inflight s.entries,
    s.rateWindowStartSlot, s.admissionsInWindow, estimatedFee, balance⟩
  let admission ← mapErr .admission (admitRelayerPlanV1 services.sha256 policy context plan)
  require (s.entries.length < MAX_RELAYER_RECORDS) .countOverflow
  let s' ← persistWith services admission.rateWindowStartSlot admission.admissionsInWindowAfter
    (s.entries ++ [⟨plan, admission, .queued⟩]) s
  return (s', .inserted)

def admitAndEnqueueV1 (policy : RelayerPolicyV1) (nowSlot estimatedFee balance : UInt64) (plan : RelayerPlanV1)
    (s : DurableRelayerStateV1) : Except DurableStateErrorV1 (DurableRelayerStateV1 × RelayerEnqueueOutcomeV1) := do
  require (relayerPolicyIdV1 services.sha256 policy = s.policyId) .policyMismatch
  require (policy.paused = false) (.admission .paused)
  match s.entries.find? (·.plan.requestId = plan.requestId) with
  | some existing => if existing.plan = plan then .ok (s, .alreadyPresent) else .error .duplicateRecord
  | none => admitNew services policy nowSlot estimatedFee balance plan s

/-- The place of a request in the queue, if it has the given status. -/
def locate (requestId : Bytes32) (status : DurableRelayerStatusV1) (entries : List DurableRelayerEntryV1) :
    Except DurableStateErrorV1 (ℕ × DurableRelayerEntryV1) := do
  let index ← okOr (entries.findIdx? (·.plan.requestId = requestId)) .invalidQueueTransition
  let entry ← okOr entries[index]? .invalidQueueTransition
  require (entry.status = status) .invalidQueueTransition
  return (index, entry)

/-- The queue with another status for one entry. -/
def setStatus (index : ℕ) (status : DurableRelayerStatusV1) (entries : List DurableRelayerEntryV1) :
    List DurableRelayerEntryV1 :=
  entries.modify index fun e => { e with status := status }

def validateExecutionContextV1 (policy : RelayerPolicyV1) (plan : RelayerPlanV1) (nowSlot estimatedFee balance : UInt64) :
    Except DurableStateErrorV1 Unit := do
  require (plan.feePayer = policy.operatorFeePayer) (.admission .wrongFeePayer)
  require (kindEnabled policy plan.kind = true) (.admission .instructionKindDisabled)
  require (plan.snapshot.observedSlot ≤ nowSlot) (.admission .futureSnapshot)
  require (nowSlot - plan.snapshot.observedSlot ≤ policy.maxSnapshotAgeSlots) (.admission .staleSnapshot)
  require (estimatedFee ≤ policy.maxEstimatedFeeLamports) (.admission .feeEstimateTooHigh)
  require (FeeCovered policy estimatedFee balance) (.admission .insufficientFeeReserve)
  require (operatorSignerMatches plan = true) (.admission .operatorSignerMismatch)

def markInflightV1 (policy : RelayerPolicyV1) (requestId : Bytes32) (nowSlot estimatedFee balance : UInt64)
    (s : DurableRelayerStateV1) : Except DurableStateErrorV1 DurableRelayerStateV1 := do
  require (relayerPolicyIdV1 services.sha256 policy = s.policyId) .policyMismatch
  require (policy.paused = false) (.admission .paused)
  require (countStatus .inflight s.entries < policy.maxInflight.toNat) (.admission .inflightFull)
  let (index, entry) ← locate requestId .queued s.entries
  validateExecutionContextV1 policy entry.plan nowSlot estimatedFee balance
  persistEntriesV1 services (setStatus index .inflight s.entries) s

def cancelQueuedV1 (requestId : Bytes32) (s : DurableRelayerStateV1) :
    Except DurableStateErrorV1 DurableRelayerStateV1 := do
  let (index, _) ← locate requestId .queued s.entries
  persistEntriesV1 services (s.entries.eraseIdx index) s

/-- The queue depth is not looked at here. -/
def requeueInflightV1 (requestId : Bytes32) (s : DurableRelayerStateV1) :
    Except DurableStateErrorV1 DurableRelayerStateV1 := do
  let (index, _) ← locate requestId .inflight s.entries
  persistEntriesV1 services (setStatus index .queued s.entries) s

def completeInflightV1 (requestId : Bytes32) (s : DurableRelayerStateV1) :
    Except DurableStateErrorV1 DurableRelayerStateV1 := do
  let (index, _) ← locate requestId .inflight s.entries
  persistEntriesV1 services (s.entries.eraseIdx index) s

/-- A queue operation. -/
inductive QueueOperation
  | admitAndEnqueue (nowSlot estimatedFee balance : UInt64) (plan : RelayerPlanV1)
  | markInflight (requestId : Bytes32) (nowSlot estimatedFee balance : UInt64)
  | requeue (requestId : Bytes32)
  | cancel (requestId : Bytes32)
  | complete (requestId : Bytes32)

def QueueOperation.perform (policy : RelayerPolicyV1) (s : DurableRelayerStateV1) :
    QueueOperation → Except DurableStateErrorV1 DurableRelayerStateV1
  | .admitAndEnqueue nowSlot estimatedFee balance plan => do
      let (s', _) ← admitAndEnqueueV1 services policy nowSlot estimatedFee balance plan s
      return s'
  | .markInflight requestId nowSlot estimatedFee balance =>
      markInflightV1 services policy requestId nowSlot estimatedFee balance s
  | .requeue requestId => requeueInflightV1 services requestId s
  | .cancel requestId => cancelQueuedV1 services requestId s
  | .complete requestId => completeInflightV1 services requestId s

/-- What an operation has to be given: a plan that was prepared, or whose request is already in the queue, and room in the
queue for what goes back to it. -/
def QueueOperation.Meets (policy : RelayerPolicyV1) (s : DurableRelayerStateV1) : QueueOperation → Prop
  | .admitAndEnqueue _ _ _ plan => rebuildPlan services plan = .ok plan ∨ ∃ e ∈ s.entries, e.plan.requestId = plan.requestId
  | .requeue _ => countStatus .queued s.entries < policy.maxQueueDepth.toNat
  | _ => True

end

/-! ### What the queue keeps true -/

/-- What an entry carries besides its status. -/
def content (e : DurableRelayerEntryV1) : RelayerPlanV1 × RelayerAdmissionV1 := (e.plan, e.admission)

/-- An entry that reopening accepts, admitted in the current rate window or an earlier one. -/
structure EntryOk (services : RelayerServicesV1) (start : UInt64) (admissions : UInt32)
    (c : RelayerPlanV1 × RelayerAdmissionV1) : Prop where
  request_eq : c.2.requestId = c.1.requestId
  policy_ne : c.2.policyId ≠ Bytes32.zero
  kind_eq : c.2.kind = c.1.kind
  window_le : c.2.rateWindowStartSlot ≤ c.2.admittedAtSlot
  after_ne : c.2.admissionsInWindowAfter ≠ 0
  not_later : c.2.rateWindowStartSlot ≤ start
  counted : c.2.rateWindowStartSlot = start → c.2.admissionsInWindowAfter ≤ admissions
  rebuilds : rebuildPlan services c.1 = .ok c.1

/-- The queue under a policy. -/
structure Sound (services : RelayerServicesV1) (policy : RelayerPolicyV1) (s : DurableRelayerStateV1) : Prop where
  policy_eq : s.policyId = relayerPolicyIdV1 services.sha256 policy
  file_eq : encodeRelayerImageV1 services.sha256 s.policyId s.rateWindowStartSlot s.admissionsInWindow s.entries =
    .ok s.file
  file_small : s.file.length ≤ MAX_DURABLE_IMAGE_BYTES
  count_le : s.entries.length ≤ MAX_RELAYER_RECORDS
  admissions_le : s.admissionsInWindow ≤ policy.maxAdmissionsPerWindow
  queued_le : countStatus .queued s.entries ≤ policy.maxQueueDepth.toNat
  inflight_le : countStatus .inflight s.entries ≤ policy.maxInflight.toNat
  ids_nodup : (s.entries.map fun e => e.plan.requestId).Nodup
  entries_ok : ∀ c ∈ s.entries.map content, EntryOk services s.rateWindowStartSlot s.admissionsInWindow c

section
variable {services : RelayerServicesV1} {policy : RelayerPolicyV1} {s s' : DurableRelayerStateV1}

/-- Every entry is queued or in flight. -/
theorem countStatus_add (entries : List DurableRelayerEntryV1) :
    countStatus .queued entries + countStatus .inflight entries = entries.length := by
  induction entries with
  | nil => rfl
  | cons e rest ih =>
    rw [List.length_cons, ← ih]
    cases hstatus : e.status <;> simp [countStatus, hstatus] <;> omega

theorem validateEntries_ok {start : UInt64} {admissions : UInt32} {ids : List Bytes32}
    {entries : List DurableRelayerEntryV1} (hnodup : (entries.map fun e => e.plan.requestId).Nodup)
    (hids : ∀ e ∈ entries, e.plan.requestId ∉ ids)
    (hok : ∀ c ∈ entries.map content, EntryOk services start admissions c) :
    validateEntries services start admissions ids entries = .ok () := by
  induction entries generalizing ids with
  | nil => rfl
  | cons e rest ih =>
    have he : EntryOk services start admissions (content e) := hok _ List.mem_cons_self
    rw [List.map_cons, List.nodup_cons] at hnodup
    have hids' : ∀ e' ∈ rest, e'.plan.requestId ∉ e.plan.requestId :: ids := by
      intro e' he' hmem
      rcases List.mem_cons.mp hmem with heq | hold
      · exact hnodup.1 (List.mem_map.mpr ⟨e', he', heq⟩)
      · exact hids e' (List.mem_cons_of_mem e he') hold
    have hrest := ih hnodup.2 hids' fun c hc => hok c (List.mem_cons_of_mem _ hc)
    have hrebuild : rebuildPlan services e.plan = .ok e.plan := he.rebuilds
    rw [validateEntries, require_of _ ⟨hids e List.mem_cons_self, he.request_eq, he.policy_ne, he.kind_eq, he.window_le,
      he.after_ne, he.counted⟩, except_ok_bind, hrebuild, mapErr, except_ok_bind, require_of _ rfl, except_ok_bind, hrest]

theorem Sound.validate (h : Sound services policy s) :
    validateRelayerStateV1 services policy s.rateWindowStartSlot s.admissionsInWindow s.entries = .ok () := by
  have hsplit := countStatus_add s.entries
  have hinflight := h.inflight_le
  rw [validateRelayerStateV1, require_of _ ⟨h.count_le, h.admissions_le⟩, except_ok_bind,
    require_of _ ⟨h.queued_le, by omega⟩, except_ok_bind]
  exact validateEntries_ok h.ids_nodup (fun e _ => List.not_mem_nil) h.entries_ok

theorem Sound.decode (h : Sound services policy s) : decodeRelayerImageV1 services.sha256 s.file =
    .ok ⟨s.policyId, s.rateWindowStartSlot, s.admissionsInWindow, s.entries⟩ := by
  apply decode_encodeRelayerImageV1 h.file_eq _ h.count_le
  intro e he
  have hok := h.entries_ok (content e) (List.mem_map_of_mem he)
  exact ⟨hok.request_eq, hok.kind_eq⟩

/-- A sound queue opens again as it is. -/
theorem Sound.openExisting (h : Sound services policy s) : openExisting services policy s.file = .ok s := by
  rw [Relayer.openExisting, require_of _ h.file_small, except_ok_bind, h.decode, except_ok_bind,
    require_of _ h.policy_eq, except_ok_bind, h.validate, except_ok_bind]
  rfl

theorem persistWith_ok {start : UInt64} {admissions : UInt32} {entries : List DurableRelayerEntryV1}
    (h : persistWith services start admissions entries s = .ok s') : ∃ bytes,
      encodeRelayerImageV1 services.sha256 s.policyId start admissions entries = .ok bytes ∧
      bytes.length ≤ MAX_DURABLE_IMAGE_BYTES ∧ s' = ⟨bytes, s.policyId, start, admissions, entries⟩ := by
  simp only [persistWith, replaceFile, except_bind_eq_ok, require_eq_ok, except_pure_eq_ok] at h
  obtain ⟨bytes, hbytes, _, ⟨_, hsmall, rfl⟩, rfl⟩ := h
  exact ⟨bytes, hbytes, hsmall, rfl⟩

/-- Dropping entries, or changing their status within the limits, keeps the queue sound. -/
theorem Sound.persistEntries (h : Sound services policy s) {entries : List DurableRelayerEntryV1}
    (hok : persistEntriesV1 services entries s = .ok s')
    (hcontent : (entries.map content).Sublist (s.entries.map content))
    (hqueued : countStatus .queued entries ≤ policy.maxQueueDepth.toNat)
    (hinflight : countStatus .inflight entries ≤ policy.maxInflight.toNat) : Sound services policy s' := by
  obtain ⟨bytes, hbytes, hsmall, rfl⟩ := persistWith_ok hok
  have hids : (entries.map fun e => e.plan.requestId).Sublist (s.entries.map fun e => e.plan.requestId) := by
    have := hcontent.map fun c : RelayerPlanV1 × RelayerAdmissionV1 => c.1.requestId
    rwa [List.map_map, List.map_map] at this
  constructor
  case policy_eq => exact h.policy_eq
  case file_eq => exact hbytes
  case file_small => exact hsmall
  case count_le =>
    have hlength := hcontent.length_le
    rw [List.length_map, List.length_map] at hlength
    exact hlength.trans h.count_le
  case admissions_le => exact h.admissions_le
  case queued_le => exact hqueued
  case inflight_le => exact hinflight
  case ids_nodup => exact h.ids_nodup.sublist hids
  case entries_ok => exact fun c hc => h.entries_ok c (hcontent.subset hc)

theorem locate_ok {requestId : Bytes32} {status : DurableRelayerStatusV1} {entries : List DurableRelayerEntryV1} {index : ℕ}
    {e : DurableRelayerEntryV1} (h : locate requestId status entries = .ok (index, e)) :
    ∃ xs ys, entries = xs ++ e :: ys ∧ index = xs.length ∧ e.status = status := by
  simp only [locate, except_bind_eq_ok, okOr_eq_ok, require_eq_ok, except_pure_eq_ok, Prod.mk.injEq] at h
  obtain ⟨i, _, e', he, _, hstatus, rfl, rfl⟩ := h
  obtain ⟨hlt, rfl⟩ := List.getElem?_eq_some_iff.mp he
  refine ⟨entries.take i, entries.drop (i + 1), ?_, ?_, hstatus⟩
  · rw [← List.drop_eq_getElem_cons hlt, List.take_append_drop]
  · rw [List.length_take]
    omega

theorem setStatus_append {xs ys : List DurableRelayerEntryV1} {e : DurableRelayerEntryV1} {status : DurableRelayerStatusV1} :
    setStatus xs.length status (xs ++ e :: ys) = xs ++ { e with status := status } :: ys := by
  induction xs with
  | nil => rfl
  | cons x xs ih => exact congrArg (x :: ·) ih

theorem eraseIdx_append {xs ys : List DurableRelayerEntryV1} {e : DurableRelayerEntryV1} :
    (xs ++ e :: ys).eraseIdx xs.length = xs ++ ys := by
  induction xs with
  | nil => rfl
  | cons x xs ih => exact congrArg (x :: ·) ih

theorem countStatus_split {xs ys : List DurableRelayerEntryV1} {e : DurableRelayerEntryV1} (status : DurableRelayerStatusV1) :
    countStatus status (xs ++ e :: ys) = countStatus status (xs ++ ys) + if e.status = status then 1 else 0 := by
  rw [countStatus, countStatus, List.countP_append, List.countP_append, List.countP_cons, Nat.add_assoc]
  simp

/-- An entry leaves the queue. -/
theorem Sound.erase (h : Sound services policy s) {requestId : Bytes32} {status : DurableRelayerStatusV1} {index : ℕ}
    {e : DurableRelayerEntryV1} (hlocate : locate requestId status s.entries = .ok (index, e))
    (hok : persistEntriesV1 services (s.entries.eraseIdx index) s = .ok s') : Sound services policy s' := by
  obtain ⟨xs, ys, hsplit, rfl, _⟩ := locate_ok hlocate
  have hqueued := h.queued_le
  have hinflight := h.inflight_le
  rw [hsplit, countStatus_split] at hqueued hinflight
  rw [hsplit, eraseIdx_append] at hok
  apply h.persistEntries hok _ (by omega) (by omega)
  rw [hsplit, List.map_append, List.map_append, List.map_cons]
  exact (List.sublist_cons_self _ _).append_left _

/-- An entry changes its status, with room for it. -/
theorem Sound.setStatus (h : Sound services policy s) {requestId : Bytes32} {before after : DurableRelayerStatusV1}
    {index : ℕ} {e : DurableRelayerEntryV1} (hlocate : locate requestId before s.entries = .ok (index, e))
    (hok : persistEntriesV1 services (setStatus index after s.entries) s = .ok s')
    (hqueued : after = .queued → countStatus .queued s.entries < policy.maxQueueDepth.toNat)
    (hinflight : after = .inflight → countStatus .inflight s.entries < policy.maxInflight.toNat) :
    Sound services policy s' := by
  obtain ⟨xs, ys, hsplit, rfl, _⟩ := locate_ok hlocate
  have hqueuedLe := h.queued_le
  have hinflightLe := h.inflight_le
  rw [hsplit, countStatus_split] at hqueuedLe hinflightLe hqueued hinflight
  rw [hsplit, setStatus_append] at hok
  apply h.persistEntries hok
  · rw [hsplit, List.map_append, List.map_append, List.map_cons, List.map_cons]
    exact List.Sublist.refl _
  · rw [countStatus_split]
    cases after <;> simp at * <;> omega
  · rw [countStatus_split]
    cases after <;> simp at * <;> omega

/-- The window of an admission is the current one, or a new one that starts later. -/
theorem currentWindow_cases {context : RelayerAdmissionContextV1} (hslots : policy.rateWindowSlots ≠ 0)
    (hstart : context.rateWindowStartSlot ≤ context.nowSlot) :
    (currentWindow policy context = (context.nowSlot, 0) ∧ context.rateWindowStartSlot < context.nowSlot) ∨
    currentWindow policy context = (context.rateWindowStartSlot, context.admissionsInWindow) := by
  unfold currentWindow
  split_ifs with helapsed
  · refine .inl ⟨rfl, ?_⟩
    rw [UInt64.lt_iff_toNat_lt]
    rw [UInt64.le_iff_toNat_le] at hstart helapsed
    rw [UInt64.toNat_sub_of_le _ _ (UInt64.le_iff_toNat_le.mpr hstart)] at helapsed
    have hpositive : policy.rateWindowSlots.toNat ≠ 0 := fun hzero => hslots (UInt64.toNat_inj.mp hzero)
    omega
  · exact .inr rfl

theorem succ_le_of_lt {x y : UInt32} (h : x < y) : x + 1 ≤ y ∧ x + 1 ≠ 0 ∧ x ≤ x + 1 := by
  have hlt := y.toNat_lt
  have hsucc : (x + 1).toNat = x.toNat + 1 := by
    rw [UInt32.lt_iff_toNat_lt] at h
    rw [UInt32.toNat_add]
    exact Nat.mod_eq_of_lt (by change x.toNat + 1 < 2 ^ 32; omega)
  refine ⟨?_, fun hzero => ?_, ?_⟩
  · rw [UInt32.le_iff_toNat_le, hsucc]
    exact UInt32.lt_iff_toNat_lt.mp h
  · have := congrArg UInt32.toNat hzero
    rw [hsucc] at this
    cases this
  · rw [UInt32.le_iff_toNat_le, hsucc]
    exact Nat.le_succ _

/-- A new prepared request enters the queue. -/
theorem Sound.admitNew (h : Sound services policy s) (hid : relayerPolicyIdV1 services.sha256 policy ≠ Bytes32.zero)
    {nowSlot estimatedFee balance : UInt64} {plan : RelayerPlanV1} {outcome : RelayerEnqueueOutcomeV1}
    (hnew : ∀ e ∈ s.entries, e.plan.requestId ≠ plan.requestId) (hplan : rebuildPlan services plan = .ok plan)
    (hok : admitNew services policy nowSlot estimatedFee balance plan s = .ok (s', outcome)) :
    Sound services policy s' := by
  simp only [Relayer.admitNew, except_bind_eq_ok, require_eq_ok, mapErr_eq_ok, except_pure_eq_ok, Prod.mk.injEq] at hok
  obtain ⟨_, _, _, _, admission, hadmission, _, hroom, written, hpersist, rfl, _⟩ := hok
  simp only [admitRelayerPlanV1, except_bind_eq_ok, require_eq_ok, except_pure_eq_ok] at hadmission
  obtain ⟨_, hshape, _, _, _, _, _, _, _, _, _, _, _, _, _, hqueue, _, hinflight, _, _, _, _, _, hstart, _, hbefore,
    rfl⟩ := hadmission
  obtain ⟨bytes, hbytes, hsmall, rfl⟩ := persistWith_ok hpersist
  have hwindow := @currentWindow_cases policy ⟨nowSlot, countStatus .queued s.entries, countStatus .inflight s.entries,
    s.rateWindowStartSlot, s.admissionsInWindow, estimatedFee, balance⟩ hshape.2.2.2.2.1 hstart
  generalize hw : currentWindow policy _ = w at hbefore hbytes hwindow
  have hsucc := succ_le_of_lt hbefore
  have hlater : s.rateWindowStartSlot ≤ w.1 ∧ (w.1 = s.rateWindowStartSlot → s.admissionsInWindow ≤ w.2 + 1) ∧
      w.1 ≤ nowSlot := by
    rcases hwindow with ⟨rfl, hlt⟩ | rfl
    · exact ⟨UInt64.le_of_lt hlt, fun heq => absurd heq (UInt64.ne_of_lt hlt).symm, UInt64.le_refl _⟩
    · exact ⟨UInt64.le_refl _, fun _ => hsucc.2.2, hstart⟩
  constructor
  case policy_eq => exact h.policy_eq
  case file_eq => exact hbytes
  case file_small => exact hsmall
  case count_le =>
    rw [List.length_append]
    exact hroom
  case admissions_le => exact hsucc.1
  case queued_le =>
    rw [countStatus, List.countP_append]
    exact hqueue
  case inflight_le =>
    rw [countStatus, List.countP_append]
    exact hinflight.le
  case ids_nodup =>
    rw [List.map_append, List.map_singleton, ← List.concat_eq_append]
    apply List.Nodup.concat _ h.ids_nodup
    intro hmem
    obtain ⟨e, he, heq⟩ := List.mem_map.mp hmem
    exact hnew e he heq
  case entries_ok =>
    intro c hc
    rw [List.map_append, List.map_singleton] at hc
    rcases List.mem_append.mp hc with hold | hadded
    · have hc' := h.entries_ok c hold
      refine ⟨hc'.request_eq, hc'.policy_ne, hc'.kind_eq, hc'.window_le, hc'.after_ne, UInt64.le_trans hc'.not_later hlater.1,
        fun heq => ?_, hc'.rebuilds⟩
      have hstored : c.2.rateWindowStartSlot = w.1 := heq
      have hsame : w.1 = s.rateWindowStartSlot := UInt64.le_antisymm (hstored ▸ hc'.not_later) hlater.1
      exact UInt32.le_trans (hc'.counted (hstored.trans hsame)) (hlater.2.1 hsame)
    · rw [List.mem_singleton.mp hadded]
      exact ⟨rfl, hid, rfl, hlater.2.2, hsucc.2.1, UInt64.le_refl _, fun _ => UInt32.le_refl _, hplan⟩

theorem Sound.perform (h : Sound services policy s) (hid : relayerPolicyIdV1 services.sha256 policy ≠ Bytes32.zero)
    {op : QueueOperation} (hmeets : op.Meets services policy s) (hok : op.perform services policy s = .ok s') :
    Sound services policy s' := by
  cases op with
  | admitAndEnqueue nowSlot estimatedFee balance plan =>
    simp only [QueueOperation.perform, admitAndEnqueueV1, except_bind_eq_ok, require_eq_ok, except_pure_eq_ok] at hok
    obtain ⟨⟨t, outcome⟩, ⟨_, _, _, _, hfind⟩, rfl⟩ := hok
    cases hexisting : s.entries.find? (·.plan.requestId = plan.requestId) with
    | some existing =>
      rw [hexisting] at hfind
      dsimp only at hfind
      split_ifs at hfind with hsame
      obtain rfl := ((Prod.mk.injEq ..).mp (Except.ok.inj hfind)).1
      exact h
    | none =>
      rw [hexisting] at hfind
      have hnew : ∀ e ∈ s.entries, e.plan.requestId ≠ plan.requestId := by
        intro e he heq
        exact List.find?_eq_none.mp hexisting e he (decide_eq_true heq)
      have hplan : rebuildPlan services plan = .ok plan := by
        rcases hmeets with hrebuild | ⟨e, he, heq⟩
        · exact hrebuild
        · exact absurd heq (hnew e he)
      exact h.admitNew hid hnew hplan hfind
  | markInflight requestId nowSlot estimatedFee balance =>
    simp only [QueueOperation.perform, markInflightV1, except_bind_eq_ok, require_eq_ok] at hok
    obtain ⟨_, _, _, _, _, hroom, ⟨index, e⟩, hlocate, _, _, hpersist⟩ := hok
    exact h.setStatus hlocate hpersist (fun hqueued => by cases hqueued) fun _ => hroom
  | requeue requestId =>
    simp only [QueueOperation.perform, requeueInflightV1, except_bind_eq_ok] at hok
    obtain ⟨⟨index, e⟩, hlocate, hpersist⟩ := hok
    exact h.setStatus hlocate hpersist (fun _ => hmeets) fun hinflight => by cases hinflight
  | cancel requestId =>
    simp only [QueueOperation.perform, cancelQueuedV1, except_bind_eq_ok] at hok
    obtain ⟨⟨index, e⟩, hlocate, hpersist⟩ := hok
    exact h.erase hlocate hpersist
  | complete requestId =>
    simp only [QueueOperation.perform, completeInflightV1, except_bind_eq_ok] at hok
    obtain ⟨⟨index, e⟩, hlocate, hpersist⟩ := hok
    exact h.erase hlocate hpersist

/-- A queue that was just created. -/
theorem createFresh_sound (hok : createFresh services policy = .ok s) : Sound services policy s := by
  simp only [createFresh, replaceFile, except_bind_eq_ok, require_eq_ok, except_pure_eq_ok] at hok
  obtain ⟨bytes, hbytes, _, hsmall, rfl⟩ := hok
  exact ⟨rfl, hbytes, hsmall, Nat.zero_le _, UInt32.zero_le, Nat.zero_le _, Nat.zero_le _, List.nodup_nil,
    fun c hc => absurd hc List.not_mem_nil⟩

/-- Under the conditions of `Meets`, whatever the operations so far, the file opens again under the same policy with the
same entries and rate window, and all three limits hold. -/
theorem relayer_queue_reopens {authority : Except DurableStateErrorV1 Unit} {ops : List QueueOperation}
    {first : DurableRelayerStateV1} (hid : relayerPolicyIdV1 services.sha256 policy ≠ Bytes32.zero)
    (hopen : openOrCreateV1 services authority policy none = .ok first)
    (hrun : Run (fun s op t => op.Meets services policy s ∧ op.perform services policy s = .ok t) first ops s) :
    (∃ again, openOrCreateV1 services authority policy (some s.file) = .ok again ∧ again.entries = s.entries ∧
      again.rateWindowStartSlot = s.rateWindowStartSlot ∧ again.admissionsInWindow = s.admissionsInWindow) ∧
    countStatus .queued s.entries ≤ policy.maxQueueDepth.toNat ∧
    countStatus .inflight s.entries ≤ policy.maxInflight.toNat ∧
    s.admissionsInWindow ≤ policy.maxAdmissionsPerWindow := by
  simp only [openOrCreateV1, except_bind_eq_ok, require_eq_ok] at hopen
  obtain ⟨_, hauthority, _, hshape, _, _, hcreate⟩ := hopen
  have hkept : Sound services policy first → Sound services policy s :=
    hrun.relates (R := fun s t => Sound services policy s → Sound services policy t) (fun _ h => h)
      (fun hst htu h => htu (hst h)) fun _ _ _ hstep h => h.perform hid hstep.1 hstep.2
  have hsound := hkept (createFresh_sound hcreate)
  refine ⟨⟨s, ?_, rfl, rfl, rfl⟩, hsound.queued_le, hsound.inflight_le, hsound.admissions_le⟩
  rw [openOrCreateV1, hauthority, except_ok_bind, require_of _ hshape, except_ok_bind, except_ok_bind]
  exact hsound.openExisting

end

/-! ### A queue of depth one -/

namespace SampleQueue

/-- The last 32 bytes, as a stand-in for the hash. -/
def lastBytes (b : Bytes) : Bytes32 := ⟨(zeros 32 ++ b).drop b.length, by simp⟩

theorem lastBytes_append {front d : Bytes} (h : d.length = 32) : lastBytes (front ++ d) = ⟨d, h⟩ := by
  apply Bytes32.ext
  have hfront : (zeros 32 ++ front).length = (front ++ d).length := by simp [h, Nat.add_comm]
  change (zeros 32 ++ (front ++ d)).drop (front ++ d).length = d
  rw [← List.append_assoc, List.drop_left' hfront]

def services : RelayerServicesV1 := ⟨lastBytes, fun _ _ => .ok (), fun _ _ _ => .ok ()⟩

def policy : RelayerPolicyV1 where
  paused := false
  operatorFeePayer := Bytes32.filled 9
  allowInitialize := true
  allowDeposit := true
  allowPrepareSettlement := true
  allowSettlePrepared := true
  allowCancelPrepared := true
  allowPrivateTransfer := true
  allowWithdrawal := true
  maxSnapshotAgeSlots := 100
  maxQueueDepth := 1
  maxInflight := 2
  rateWindowSlots := 10
  maxAdmissionsPerWindow := 5
  maxEstimatedFeeLamports := 100
  minimumFeePayerReserveLamports := 0

def policyId : Bytes32 := relayerPolicyIdV1 lastBytes policy

def snapshot : RelayerSnapshotV1 := ⟨Bytes32.filled 1, Bytes32.filled 2, 0, 1, Bytes32.filled 3⟩

/-- A deposit instruction that ends in 32 equal bytes. -/
def instruction (n : UInt8) : UnsignedInstruction :=
  ⟨Bytes32.filled 1, [], [65, 83, 68, 73] ++ List.replicate 32 n⟩

def plan (n : UInt8) : RelayerPlanV1 := ⟨Bytes32.filled n, .deposit, snapshot, Bytes32.filled 9, none, instruction n⟩

theorem plan_rebuilds (n : UInt8) : rebuildPlan services (plan n) = .ok (plan n) := by
  have hid : lastBytes (requestPreimage snapshot (Bytes32.filled 9) none (instruction n)) = Bytes32.filled n := by
    rw [requestPreimage, instruction, ← List.append_assoc]
    exact lastBytes_append List.length_replicate
  have hprepare : rebuildPlan services (plan n) = .ok ⟨lastBytes (requestPreimage snapshot (Bytes32.filled 9) none
      (instruction n)), .deposit, snapshot, Bytes32.filled 9, none, instruction n⟩ := rfl
  rw [hprepare, hid]
  rfl

theorem policyId_ne : relayerPolicyIdV1 services.sha256 policy ≠ Bytes32.zero := by
  have hid : relayerPolicyIdV1 lastBytes policy = ⟨u32Bytes 2 ++ u64Bytes 10 ++ u32Bytes 5 ++ u64Bytes 100 ++ u64Bytes 0,
      by simp⟩ := by
    rw [relayerPolicyIdV1, List.append_assoc, List.append_assoc, List.append_assoc, List.append_assoc]
    exact lastBytes_append (by simp)
  change relayerPolicyIdV1 lastBytes policy ≠ _
  rw [hid]
  decide

/-- A queue with a few of the sample plans. -/
theorem persistWith_plans {s : DurableRelayerStateV1} {start : UInt64} {admissions : UInt32}
    {entries : List DurableRelayerEntryV1} (hcount : entries.length ≤ 2) (hplans : ∀ e ∈ entries, ∃ n, e.plan = plan n) :
    ∃ file, persistWith services start admissions entries s = .ok ⟨file, s.policyId, start, admissions, entries⟩ := by
  have hlengths : ∀ e ∈ entries, (encodeRecord e).length = 312 := by
    intro e he
    obtain ⟨n, hn⟩ := hplans e he
    rw [encodeRecord, hn]
    simp [RELAYER_RECORD_HEADER_BYTES, plan, instruction, encodeOptionalContext]
  have hfits : ∀ e ∈ entries, e.plan.instruction.accounts.length ≤ MAX_RELAYER_ACCOUNTS ∧
      e.plan.instruction.data.length ≤ MAX_RELAYER_INSTRUCTION_BYTES := by
    intro e he
    obtain ⟨n, hn⟩ := hplans e he
    rw [hn]
    simp [plan, instruction, MAX_RELAYER_ACCOUNTS, MAX_RELAYER_INSTRUCTION_BYTES]
  have hsmall : RELAYER_HEADER_BYTES + (entries.flatMap encodeRecord).length ≤ MAX_DURABLE_IMAGE_BYTES := by
    rw [length_flatMap_const hlengths, RELAYER_HEADER_BYTES, MAX_DURABLE_IMAGE_BYTES]
    omega
  obtain ⟨image, hencode, hlength⟩ := @encodeRelayerImageV1_of_fits services.sha256 s.policyId start admissions entries
    hfits hsmall (by omega)
  refine ⟨image, ?_⟩
  rw [persistWith, hencode, except_ok_bind, replaceFile, require_of _ hlength, except_ok_bind]
  rfl

def admission (n : UInt8) (after : UInt32) : RelayerAdmissionV1 := ⟨Bytes32.filled n, policyId, .deposit, 1, 0, after⟩

/-- Two requests, the first in flight when the second is admitted, and back in the queue at the end. -/
def operations : List QueueOperation :=
  [.admitAndEnqueue 1 0 0 (plan 1), .markInflight (Bytes32.filled 1) 1 0 0, .admitAndEnqueue 1 0 0 (plan 2), .requeue (Bytes32.filled 1)]

def entriesAfter (first : DurableRelayerStatusV1) : List DurableRelayerEntryV1 :=
  [⟨plan 1, admission 1 1, first⟩, ⟨plan 2, admission 2 2, .queued⟩]

theorem created : ∃ file, openOrCreateV1 services (.ok ()) policy none = .ok ⟨file, policyId, 0, 0, []⟩ := by
  obtain ⟨image, hencode, hlength⟩ := @encodeRelayerImageV1_of_fits services.sha256 policyId 0 0 []
    (fun e he => absurd he List.not_mem_nil) (by decide) (by decide)
  refine ⟨image, ?_⟩
  have hcreate : createFresh services policy = .ok ⟨image, policyId, 0, 0, []⟩ := by
    rw [createFresh]
    change (encodeRelayerImageV1 services.sha256 policyId 0 0 [] >>= _) = _
    rw [hencode, except_ok_bind, replaceFile, require_of _ hlength, except_ok_bind]
    rfl
  rw [openOrCreateV1, except_ok_bind, require_of _ (by decide), except_ok_bind, except_ok_bind]
  exact hcreate

/-- Admitting a sample plan that is not there yet. -/
theorem admit_plan {n : UInt8} {before : UInt32} {file : Bytes} {entries : List DurableRelayerEntryV1}
    (hnone : entries.find? (·.plan.requestId = (plan n).requestId) = none)
    (hqueued : countStatus .queued entries < 1) (hinflight : countStatus .inflight entries < 2) (hbefore : before < 5)
    (hcount : entries.length ≤ 1) (hplans : ∀ e ∈ entries ++ [⟨plan n, admission n (before + 1), .queued⟩], ∃ m, e.plan = plan m) :
    ∃ file', QueueOperation.perform services policy ⟨file, policyId, 0, before, entries⟩ (.admitAndEnqueue 1 0 0 (plan n)) =
      .ok ⟨file', policyId, 0, before + 1, entries ++ [⟨plan n, admission n (before + 1), .queued⟩]⟩ := by
  obtain ⟨file', hpersist⟩ := @persistWith_plans ⟨file, policyId, 0, before, entries⟩ 0 (before + 1)
    (entries ++ [⟨plan n, admission n (before + 1), .queued⟩]) (by rw [List.length_append]; exact Nat.succ_le_succ hcount) hplans
  have hadmit : admitRelayerPlanV1 services.sha256 policy
      ⟨1, countStatus .queued entries, countStatus .inflight entries, 0, before, 0, 0⟩ (plan n) =
      .ok (admission n (before + 1)) := by
    have hwindow : currentWindow policy
        ⟨1, countStatus .queued entries, countStatus .inflight entries, 0, before, 0, 0⟩ = (0, before) := by
      have helapsed : ¬ policy.rateWindowSlots ≤ 1 - 0 := by decide
      rw [currentWindow, if_neg helapsed]
    have hfresh : snapshot.observedSlot ≤ 1 ∧ 1 - snapshot.observedSlot ≤ policy.maxSnapshotAgeSlots := by decide
    simp only [admitRelayerPlanV1, except_bind_eq_ok, require_eq_ok, except_pure_eq_ok, hwindow]
    exact ⟨(), by decide, (), rfl, (), rfl, (), hfresh.1, (), hfresh.2, (), rfl, (), rfl, (), hqueued, (), hinflight,
      (), by decide, (), by decide, (), by decide, (), hbefore, rfl⟩
  refine ⟨file', ?_⟩
  have hnew : admitNew services policy 1 0 0 (plan n) ⟨file, policyId, 0, before, entries⟩ =
      .ok (⟨file', policyId, 0, before + 1, entries ++ [⟨plan n, admission n (before + 1), .queued⟩]⟩, .inserted) := by
    simp only [admitNew, except_bind_eq_ok, require_eq_ok, mapErr_eq_ok, except_pure_eq_ok]
    exact ⟨(), hqueued.trans (by decide), (), hinflight.trans (by decide), _, hadmit, (),
      lt_of_le_of_lt hcount (by decide), _, hpersist, rfl⟩
  have hoperation : admitAndEnqueueV1 services policy 1 0 0 (plan n) ⟨file, policyId, 0, before, entries⟩ =
      .ok (⟨file', policyId, 0, before + 1, entries ++ [⟨plan n, admission n (before + 1), .queued⟩]⟩, .inserted) := by
    simp only [admitAndEnqueueV1, except_bind_eq_ok, require_eq_ok]
    refine ⟨(), rfl, (), rfl, ?_⟩
    rw [hnone]
    exact hnew
  rw [QueueOperation.perform, hoperation, except_ok_bind]
  rfl

/-- Changing the status of the first sample request. -/
theorem status_changed {file : Bytes} {admissions : UInt32} {status : DurableRelayerStatusV1}
    {rest : List DurableRelayerEntryV1} (before : DurableRelayerStatusV1) (hcount : rest.length ≤ 1)
    (hplans : ∀ e ∈ rest, ∃ n, e.plan = plan n) :
    ∃ file', persistEntriesV1 services (setStatus 0 status (⟨plan 1, admission 1 1, before⟩ :: rest))
      ⟨file, policyId, 0, admissions, ⟨plan 1, admission 1 1, before⟩ :: rest⟩ =
        .ok ⟨file', policyId, 0, admissions, ⟨plan 1, admission 1 1, status⟩ :: rest⟩ := by
  apply persistWith_plans
  · exact Nat.succ_le_succ hcount
  intro e he
  rcases List.mem_cons.mp he with rfl | hmem
  · exact ⟨1, rfl⟩
  · exact hplans e hmem

/-- Every operation of the sample succeeds. -/
theorem operations_run : ∃ first last, openOrCreateV1 services (.ok ()) policy none = .ok first ∧
    Run (fun s op t => QueueOperation.perform services policy s op = .ok t) first operations last ∧
    last.entries = entriesAfter .queued ∧ last.policyId = policyId ∧
    encodeRelayerImageV1 services.sha256 policyId 0 2 (entriesAfter .queued) = .ok last.file := by
  have hsecond : ∀ e ∈ ([⟨plan 2, admission 2 2, .queued⟩] : List DurableRelayerEntryV1), ∃ n, e.plan = plan n := by
    intro e he
    rw [List.mem_singleton.mp he]
    exact ⟨2, rfl⟩
  obtain ⟨file₀, hopen⟩ := created
  obtain ⟨file₁, hadmit⟩ := @admit_plan 1 0 file₀ [] rfl (by decide) (by decide) (by decide) (by decide) (by
    intro e he
    rw [List.mem_singleton.mp he]
    exact ⟨1, rfl⟩)
  obtain ⟨file₂, hmark⟩ := @status_changed file₁ 1 .inflight [] .queued (by decide) fun e he => absurd he List.not_mem_nil
  obtain ⟨file₃, hadmit'⟩ := @admit_plan 2 1 file₂ [⟨plan 1, admission 1 1, .inflight⟩] (by decide) (by decide) (by decide)
    (by decide) (by decide) (by
      intro e he
      rcases List.mem_cons.mp he with rfl | hmem
      · exact ⟨1, rfl⟩
      · exact hsecond e hmem)
  obtain ⟨file₄, hrequeue⟩ := @status_changed file₃ 2 .queued [⟨plan 2, admission 2 2, .queued⟩] .inflight (by decide) hsecond
  have hmarked : QueueOperation.perform services policy ⟨file₁, policyId, 0, 1, [⟨plan 1, admission 1 1, .queued⟩]⟩
      (.markInflight (Bytes32.filled 1) 1 0 0) = .ok ⟨file₂, policyId, 0, 1, [⟨plan 1, admission 1 1, .inflight⟩]⟩ := by
    simp only [QueueOperation.perform, markInflightV1, except_bind_eq_ok, require_eq_ok]
    exact ⟨(), rfl, (), rfl, (), by decide, (0, ⟨plan 1, admission 1 1, .queued⟩), rfl, (), rfl, hmark⟩
  have hrequeued : QueueOperation.perform services policy ⟨file₃, policyId, 0, 2, entriesAfter .inflight⟩
      (.requeue (Bytes32.filled 1)) = .ok ⟨file₄, policyId, 0, 2, entriesAfter .queued⟩ := by
    simp only [QueueOperation.perform, requeueInflightV1, except_bind_eq_ok]
    exact ⟨(0, ⟨plan 1, admission 1 1, .inflight⟩), rfl, hrequeue⟩
  refine ⟨_, _, hopen, .cons hadmit (.cons hmarked (.cons hadmit' (.cons hrequeued (.nil _)))), rfl, rfl, ?_⟩
  obtain ⟨bytes, hbytes, _, hlast⟩ := persistWith_ok hrequeue
  rw [show file₄ = bytes from congrArg (·.file) hlast]
  exact hbytes

end SampleQueue

/-- The first three operations of the sample leave room in the queue, and what they wrote opens again. -/
theorem relayer_queue_reopens_two_requests : ∃ first last,
    Run (fun s op t => op.Meets SampleQueue.services SampleQueue.policy s ∧
      op.perform SampleQueue.services SampleQueue.policy s = .ok t) first (SampleQueue.operations.take 3) last ∧
    ∃ again, openOrCreateV1 SampleQueue.services (.ok ()) SampleQueue.policy (some last.file) = .ok again ∧
      again.entries = last.entries := by
  obtain ⟨first, _, hopen, hrun, _⟩ := SampleQueue.operations_run
  cases hrun with
  | cons hadmit hrun =>
    cases hrun with
    | cons hmark hrun =>
      cases hrun with
      | cons hadmit' hrun =>
        have hmeets : Run (fun s op t => QueueOperation.Meets SampleQueue.services SampleQueue.policy s op ∧
            QueueOperation.perform SampleQueue.services SampleQueue.policy s op = .ok t) first
            (SampleQueue.operations.take 3) _ :=
          .cons ⟨.inl (SampleQueue.plan_rebuilds 1), hadmit⟩ (.cons ⟨trivial, hmark⟩
            (.cons ⟨.inl (SampleQueue.plan_rebuilds 2), hadmit'⟩ (.nil _)))
        obtain ⟨⟨again, hreopen, hentries, _⟩, _⟩ := relayer_queue_reopens SampleQueue.policyId_ne hopen hmeets
        exact ⟨first, _, hmeets, again, hreopen, hentries⟩

/-- Four successful operations leave two queued requests under a policy that allows one, and a file that the same policy
does not open. -/
theorem requeue_overfills_queue : ∃ first last,
    openOrCreateV1 SampleQueue.services (.ok ()) SampleQueue.policy none = .ok first ∧
    Run (fun s op t => QueueOperation.perform SampleQueue.services SampleQueue.policy s op = .ok t) first
      SampleQueue.operations last ∧
    SampleQueue.policy.maxQueueDepth.toNat < countStatus .queued last.entries ∧
    openOrCreateV1 SampleQueue.services (.ok ()) SampleQueue.policy (some last.file) = .error .invalidRelayerState := by
  obtain ⟨first, last, hopen, hrun, hentries, _, hfile⟩ := SampleQueue.operations_run
  have hfull : SampleQueue.policy.maxQueueDepth.toNat < countStatus .queued (SampleQueue.entriesAfter .queued) := by decide
  refine ⟨first, last, hopen, hrun, hentries ▸ hfull, ?_⟩
  have hdecode := decode_encodeRelayerImageV1 hfile (by
    intro e he
    simp only [SampleQueue.entriesAfter, List.mem_cons, List.not_mem_nil, or_false] at he
    rcases he with rfl | rfl <;> exact ⟨rfl, rfl⟩) (by decide)
  have hsmall : last.file.length ≤ MAX_DURABLE_IMAGE_BYTES := by
    by_contra hlarge
    rw [decodeRelayerImageV1, validateHeaderV1] at hdecode
    simp only [except_bind_eq_ok, require_eq_ok] at hdecode
    obtain ⟨_, ⟨_, _, _, _, _, _, _, _, hlength⟩, _⟩ := hdecode
    exact hlarge hlength
  have hinvalid : validateRelayerStateV1 SampleQueue.services SampleQueue.policy 0 2 (SampleQueue.entriesAfter .queued) =
      .error .invalidRelayerState := by
    rw [validateRelayerStateV1, require_of _ (by decide), except_ok_bind, require, if_neg (by decide)]
    rfl
  have hfails : openExisting SampleQueue.services SampleQueue.policy last.file = .error .invalidRelayerState := by
    rw [openExisting, require_of _ hsmall, except_ok_bind, hdecode, except_ok_bind]
    dsimp only
    have hpolicy : SampleQueue.policyId = relayerPolicyIdV1 SampleQueue.services.sha256 SampleQueue.policy := rfl
    rw [require_of _ hpolicy, except_ok_bind, hinvalid]
    rfl
  rw [openOrCreateV1, except_ok_bind, require_of _ (by decide), except_ok_bind, except_ok_bind]
  exact hfails

end Aspis.Relayer
