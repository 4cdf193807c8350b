import Aspis.Wallet.DurableState
import Aspis.Wallet.ScanHistory

/-! What a durable wallet stands for: a chain of blocks, notes and plan events
that each belong to a slot. The wallet can be cut at a slot as its chain can, and
every call is seen on the cut: a commit changes nothing before the block it
commits, and a rollback is the cut itself. -/

namespace Aspis.Wallet

open Lib Statement Pool

/-! ### Notes up to a slot -/

/-- The note without the marker of a later transition. -/
def StoredSealedNoteV1.upTo (σ : ℕ) (note : StoredSealedNoteV1) : StoredSealedNoteV1 :=
  if ∃ spent ∈ note.spent, σ < spent.transitionOutputId.point.slot then { note with spent := none } else note

def notesUpTo (σ : ℕ) (notes : List StoredSealedNoteV1) : List StoredSealedNoteV1 :=
  (notes.filter (·.eventId.point.slot ≤ σ)).map (StoredSealedNoteV1.upTo σ)

/-- Every event that the notes name satisfies a condition. -/
def NamesOnly (known : DepositEventIdV1 → Prop) (notes : List StoredSealedNoteV1) : Prop :=
  ∀ note ∈ notes, known note.eventId ∧ ∀ spent ∈ note.spent, known spent.transitionOutputId

section Notes
variable {known known' : DepositEventIdV1 → Prop} {notes notes' : List StoredSealedNoteV1} {σ τ : ℕ}

theorem NamesOnly.mono (h : NamesOnly known notes) (himp : ∀ id, known id → known' id) : NamesOnly known' notes :=
  fun note hnote => ⟨himp _ (h note hnote).1, fun spent hspent => himp _ ((h note hnote).2 spent hspent)⟩

@[simp] theorem StoredSealedNoteV1.upTo_eventId (note : StoredSealedNoteV1) : (note.upTo σ).eventId = note.eventId := by
  unfold StoredSealedNoteV1.upTo
  split_ifs <;> rfl

theorem StoredSealedNoteV1.upTo_spent {note : StoredSealedNoteV1} {spent : SpentNoteMarkerV1}
    (h : spent ∈ (note.upTo σ).spent) : spent ∈ note.spent ∧ spent.transitionOutputId.point.slot ≤ σ := by
  unfold StoredSealedNoteV1.upTo at h
  split_ifs at h with hlater
  · cases h
  · refine ⟨h, ?_⟩
    by_contra hslot
    exact hlater ⟨spent, h, by omega⟩

theorem StoredSealedNoteV1.upTo_eq_self {note : StoredSealedNoteV1}
    (h : ∀ spent ∈ note.spent, spent.transitionOutputId.point.slot ≤ σ) : note.upTo σ = note := by
  apply if_neg
  rintro ⟨spent, hspent, hlater⟩
  have := h spent hspent
  omega

theorem StoredSealedNoteV1.upTo_upTo (note : StoredSealedNoteV1) (h : σ ≤ τ) : (note.upTo τ).upTo σ = note.upTo σ := by
  by_cases hτ : ∃ spent ∈ note.spent, τ < spent.transitionOutputId.point.slot
  · have hcleared : note.upTo τ = { note with spent := none } := if_pos hτ
    obtain ⟨spent, hspent, hlater⟩ := hτ
    have hσ : note.upTo σ = { note with spent := none } := if_pos ⟨spent, hspent, by omega⟩
    rw [hcleared, hσ]
    exact upTo_eq_self fun spent hnone => by cases hnone
  · rw [show note.upTo τ = note from if_neg hτ]

theorem notesUpTo_notesUpTo (h : σ ≤ τ) : notesUpTo σ (notesUpTo τ notes) = notesUpTo σ notes := by
  have hmap : StoredSealedNoteV1.upTo σ ∘ StoredSealedNoteV1.upTo τ = StoredSealedNoteV1.upTo σ := by
    funext note
    exact note.upTo_upTo h
  rw [notesUpTo, notesUpTo, notesUpTo, List.filter_map, List.map_map, List.filter_filter, hmap]
  apply congrArg
  apply List.filter_congr
  intro note _
  by_cases hσ : note.eventId.point.slot ≤ σ
  · simp [hσ, hσ.trans h]
  · simp [hσ]

/-- Notes that name nothing later are their own cut. -/
theorem notesUpTo_eq_self (h : NamesOnly (·.point.slot ≤ σ) notes) : notesUpTo σ notes = notes := by
  have hfilter : notes.filter (·.eventId.point.slot ≤ σ) = notes :=
    List.filter_eq_self.mpr fun note hnote => decide_eq_true (h note hnote).1
  rw [notesUpTo, hfilter]
  conv_rhs => rw [← List.map_id notes]
  exact List.map_congr_left fun note hnote => StoredSealedNoteV1.upTo_eq_self (h note hnote).2

theorem NamesOnly.upTo (h : NamesOnly known notes) :
    NamesOnly (fun id => known id ∧ id.point.slot ≤ σ) (notesUpTo σ notes) := by
  intro note hnote
  obtain ⟨whole, hwhole, rfl⟩ := List.mem_map.mp hnote
  obtain ⟨hmem, hslot⟩ := List.mem_filter.mp hwhole
  rw [StoredSealedNoteV1.upTo_eventId]
  refine ⟨⟨(h whole hmem).1, of_decide_eq_true hslot⟩, fun spent hspent => ?_⟩
  have hold := StoredSealedNoteV1.upTo_spent hspent
  exact ⟨(h whole hmem).2 spent hold.1, hold.2⟩

/-- Where the removed events are the later ones among those named, the rollback is the cut. -/
theorem rollbackNotes_eq {removed : List DepositEventIdV1}
    (h : NamesOnly (fun id => id ∈ removed ↔ σ < id.point.slot) notes) : rollbackNotes removed notes = notesUpTo σ notes := by
  have hfilter : notes.filter (·.eventId ∉ removed) = notes.filter (·.eventId.point.slot ≤ σ) := by
    apply List.filter_congr
    intro note hnote
    have hiff := (h note hnote).1
    by_cases hmem : note.eventId ∈ removed
    · simp [hmem, hiff.mp hmem]
    · have hslot := mt hiff.mpr hmem
      simp [hmem, not_lt.mp hslot]
  rw [rollbackNotes, hfilter, notesUpTo]
  apply List.map_congr_left
  intro note hnote
  have hiff := (h note (List.mem_filter.mp hnote).1).2
  have hsame : (∃ spent ∈ note.spent, spent.transitionOutputId ∈ removed) ↔
      ∃ spent ∈ note.spent, σ < spent.transitionOutputId.point.slot := by
    constructor
    · rintro ⟨spent, hspent, hmem⟩
      exact ⟨spent, hspent, (hiff spent hspent).mp hmem⟩
    · rintro ⟨spent, hspent, hslot⟩
      exact ⟨spent, hspent, (hiff spent hspent).mpr hslot⟩
  rw [clearRemovedSpend, StoredSealedNoteV1.upTo, if_congr hsame rfl rfl]

/-! ### Storing and spending -/

/-- An insertion finds the note already there or puts it at the end. -/
theorem insertSealedNoteV1_ok {recovered : SealedRecoveredNoteV1} (h : insertSealedNoteV1 notes recovered = .ok notes') :
    ((∃ existing ∈ notes, existing.eventId = recovered.eventId) ∧ notes' = notes) ∨
    ((∀ note ∈ notes, note.eventId ≠ recovered.eventId) ∧ notes.length < MAX_NOTE_RECORDS ∧
      notes' = notes ++ [⟨recovered.eventId, recovered.access, recovered.sealedNote, none⟩]) := by
  unfold insertSealedNoteV1 at h
  cases hfind : notes.find? (·.eventId = recovered.eventId) with
  | some existing =>
    rw [hfind] at h
    dsimp only at h
    split_ifs at h with hsame
    have hexists : ∃ existing ∈ notes, existing.eventId = recovered.eventId :=
      ⟨existing, List.mem_of_find?_eq_some hfind, by simpa using List.find?_some hfind⟩
    exact .inl ⟨hexists, (Except.ok.inj h).symm⟩
  | none =>
    rw [hfind] at h
    dsimp only at h
    split_ifs at h with hfull
    refine .inr ⟨fun note hnote => ?_, not_le.mp hfull, (Except.ok.inj h).symm⟩
    simpa using List.find?_eq_none.mp hfind note hnote

theorem insertSealedNoteV1_names {recovered : SealedRecoveredNoteV1}
    (h : insertSealedNoteV1 notes recovered = .ok notes') (hid : known recovered.eventId) (hnotes : NamesOnly known notes) :
    NamesOnly known notes' := by
  rcases insertSealedNoteV1_ok h with ⟨_, rfl⟩ | ⟨_, _, rfl⟩
  · exact hnotes
  · intro note hnote
    rcases List.mem_append.mp hnote with hold | hnew
    · exact hnotes note hold
    · rw [List.mem_singleton.mp hnew]
      exact ⟨hid, fun spent hspent => by cases hspent⟩

theorem insertSealedNoteV1_upTo {recovered : SealedRecoveredNoteV1} (h : insertSealedNoteV1 notes recovered = .ok notes')
    (hslot : σ < recovered.eventId.point.slot) : notesUpTo σ notes' = notesUpTo σ notes := by
  rcases insertSealedNoteV1_ok h with ⟨_, rfl⟩ | ⟨_, _, rfl⟩
  · rfl
  · have hdrop : ¬ recovered.eventId.point.slot ≤ σ := by omega
    simp [notesUpTo, List.filter_append, hdrop]

theorem setSpent_names {eventId : DepositEventIdV1} {marker : SpentNoteMarkerV1} (hid : known marker.transitionOutputId)
    (hnotes : NamesOnly known notes) : NamesOnly known (setSpent eventId marker notes) := by
  induction notes with
  | nil => exact hnotes
  | cons first rest ih =>
    have hfirst := hnotes first List.mem_cons_self
    have hrest : NamesOnly known rest := fun note hnote => hnotes note (List.mem_cons_of_mem first hnote)
    unfold setSpent
    split_ifs with heq
    · intro note hnote
      rcases List.mem_cons.mp hnote with rfl | hmem
      · exact ⟨hfirst.1, fun spent hspent => Option.mem_some_iff.mp hspent ▸ hid⟩
      · exact hrest note hmem
    · intro note hnote
      rcases List.mem_cons.mp hnote with rfl | hmem
      · exact hfirst
      · exact ih hrest note hmem

/-- A later marker on an unspent note is not seen on the cut. -/
theorem setSpent_upTo {eventId : DepositEventIdV1} {marker : SpentNoteMarkerV1} {note : StoredSealedNoteV1}
    (hfind : notes.find? (·.eventId = eventId) = some note) (hnone : note.spent = none)
    (hslot : σ < marker.transitionOutputId.point.slot) : notesUpTo σ (setSpent eventId marker notes) = notesUpTo σ notes := by
  induction notes with
  | nil => rfl
  | cons first rest ih =>
    unfold setSpent
    split_ifs with heq
    · obtain rfl : first = note := by
        rw [List.find?_cons_of_pos (by simpa using heq)] at hfind
        exact Option.some.inj hfind
      have hset : StoredSealedNoteV1.upTo σ { first with spent := some marker } = { first with spent := none } :=
        if_pos ⟨marker, rfl, hslot⟩
      have hself : first.upTo σ = first := StoredSealedNoteV1.upTo_eq_self fun spent hspent => by
        rw [hnone] at hspent
        cases hspent
      have hclear : { first with spent := none } = first := by rw [← hnone]
      simp only [notesUpTo, List.filter_cons]
      split_ifs with hkeep
      · rw [List.map_cons, List.map_cons, hset, hself, hclear]
      · rfl
    · rw [List.find?_cons_of_neg (by simpa using heq)] at hfind
      have hrest := ih hfind
      simp only [notesUpTo, List.filter_cons] at hrest ⊢
      split_ifs with hkeep
      · rw [List.map_cons, List.map_cons, hrest]
      · exact hrest

variable {WalletError : Type} {candidate : ScanStateV1} {result : FinalizedBlockIngestResultV1 WalletError}
  {recoveredNotes : List SealedRecoveredNoteV1} {spentUpdates : List AuthenticatedSpentNoteUpdateV1}
  {spendAuthenticator : LocalSpendAuthenticatorV1}

/-- Every event that a report says the block holds. -/
def FinalizedBlockIngestResultV1.reportedIds (result : FinalizedBlockIngestResultV1 WalletError) :
    List DepositEventIdV1 := result.depositEventIds ++ result.transitionIds

theorem requiredDeposits_ok {required : List (DepositEventIdV1 × SealedNoteAccessV1)}
    (h : requiredDeposits candidate result = .ok required) :
    required = (result.depositEventIds.zip result.depositOutcomes).filterMap requiredAccess := by
  simp only [requiredDeposits, except_bind_eq_ok, require_eq_ok, except_pure_eq_ok] at h
  obtain ⟨_, _, rfl⟩ := h
  rfl

theorem requiredAccess_id {deposit : DepositEventIdV1 × DepositScanOutcomeV1 WalletError}
    {required : DepositEventIdV1 × SealedNoteAccessV1} (h : requiredAccess deposit = some required) :
    required.1 = deposit.1 := by
  obtain ⟨id, outcome⟩ := deposit
  cases outcome <;> simp only [requiredAccess, Option.some.injEq, reduceCtorEq] at h
  all_goals
    rw [← h]

theorem mem_advancedTransitionIds {id : DepositEventIdV1} (h : id ∈ advancedTransitionIds result) :
    id ∈ result.transitionIds := by
  obtain ⟨⟨id', outcome⟩, hmem, heq⟩ := List.mem_filterMap.mp h
  dsimp only at heq
  split_ifs at heq
  rw [← Option.some.inj heq]
  exact (List.of_mem_zip hmem).1

/-- A note is only accepted for an event of the report. -/
theorem checkRecoveredAccess_ok {required : List (DepositEventIdV1 × SealedNoteAccessV1)}
    {recovered : SealedRecoveredNoteV1} {u : Unit} (hrequired : requiredDeposits candidate result = .ok required)
    (h : checkRecoveredAccess required (advancedTransitionIds result) recovered = .ok u) :
    recovered.eventId ∈ result.reportedIds := by
  unfold checkRecoveredAccess at h
  cases hfind : required.find? (·.1 = recovered.eventId) with
  | some found =>
    have hid : found.1 = recovered.eventId := by simpa using List.find?_some hfind
    have hmem := List.mem_of_find?_eq_some hfind
    rw [requiredDeposits_ok hrequired] at hmem
    obtain ⟨deposit, hdeposit, haccess⟩ := List.mem_filterMap.mp hmem
    rw [← hid, requiredAccess_id haccess]
    exact List.mem_append_left _ (List.of_mem_zip hdeposit).1
  | none =>
    rw [hfind] at h
    exact List.mem_append_right _ (mem_advancedTransitionIds (require_eq_ok.mp h))

/-- An accepted spend changes nothing, or marks an unspent note with a transition of the report. -/
theorem applySpentUpdate_ok {update : AuthenticatedSpentNoteUpdateV1}
    (h : applySpentUpdate spendAuthenticator result notes update = .ok notes') : notes' = notes ∨
    ∃ note, notes.find? (·.eventId = update.inputEventId) = some note ∧ note.spent = none ∧
      update.transitionOutputId ∈ result.reportedIds ∧
      notes' = setSpent update.inputEventId ⟨update.transitionOutputId, update.nullifier⟩ notes := by
  simp only [applySpentUpdate, except_bind_eq_ok, okOr_eq_ok, require_eq_ok] at h
  obtain ⟨evidence, hevidence, _, _, note, hnote, _, _, _, _, h⟩ := h
  have hid : update.transitionOutputId ∈ evidence.outputIds := by simpa using List.find?_some hevidence
  have hreported : update.transitionOutputId ∈ result.reportedIds :=
    List.mem_append_right _ (List.mem_flatMap.mpr ⟨evidence, List.mem_of_find?_eq_some hevidence, hid⟩)
  cases hspent : note.spent with
  | none =>
    rw [hspent] at h
    exact .inr ⟨note, hnote, hspent, hreported, (except_pure_eq_ok.mp h).symm⟩
  | some existing =>
    rw [hspent] at h
    simp only [except_bind_eq_ok, require_eq_ok, except_pure_eq_ok] at h
    obtain ⟨_, _, rfl⟩ := h
    exact .inl rfl

/-- What insertions and markers of reported events keep, the notes of a report keep. -/
theorem ingestNotes_keeps {P : List StoredSealedNoteV1 → Prop}
    (hinsert : ∀ recovered notes notes', recovered.eventId ∈ result.reportedIds →
      insertSealedNoteV1 notes recovered = .ok notes' → P notes → P notes')
    (hspend : ∀ update notes notes', applySpentUpdate spendAuthenticator result notes update = .ok notes' →
      P notes → P notes')
    (h : DurableWalletStateV1.ingestNotes candidate result recoveredNotes spentUpdates spendAuthenticator notes = .ok notes')
    (hP : P notes) : P notes' := by
  simp only [DurableWalletStateV1.ingestNotes, storeRecoveredNotes, except_bind_eq_ok, require_eq_ok,
    except_pure_eq_ok] at h
  obtain ⟨required, hrequired, _, ⟨stored, hstored, _, _, rfl⟩, hspent⟩ := h
  apply foldlM_keeps (fun update _ _ _ => hspend update _ _) hspent
  refine foldlM_keeps (P := fun acc => P acc.1) (fun recovered _ acc acc' hstep hacc => ?_) hstored hP
  simp only [storeRecoveredNote, except_bind_eq_ok, require_eq_ok, except_pure_eq_ok] at hstep
  obtain ⟨_, _, _, _, _, hcheck, next, hnext, rfl⟩ := hstep
  exact hinsert recovered acc.1 next (checkRecoveredAccess_ok hrequired hcheck) hnext hacc

theorem ingestNotes_names
    (h : DurableWalletStateV1.ingestNotes candidate result recoveredNotes spentUpdates spendAuthenticator notes = .ok notes')
    (hids : ∀ id ∈ result.reportedIds, known id) (hnotes : NamesOnly known notes) : NamesOnly known notes' := by
  refine ingestNotes_keeps (fun recovered notes notes' hid hinsert => insertSealedNoteV1_names hinsert (hids _ hid))
    (fun update notes notes' hspend hnotes => ?_) h hnotes
  rcases applySpentUpdate_ok hspend with rfl | ⟨_, _, _, hid, rfl⟩
  · exact hnotes
  · exact setSpent_names (hids _ hid) hnotes

/-- The notes of a report are not seen on a cut before its block. -/
theorem ingestNotes_upTo
    (h : DurableWalletStateV1.ingestNotes candidate result recoveredNotes spentUpdates spendAuthenticator notes = .ok notes')
    (hids : ∀ id ∈ result.reportedIds, σ < id.point.slot) : notesUpTo σ notes' = notesUpTo σ notes := by
  refine ingestNotes_keeps (P := fun later => notesUpTo σ later = notesUpTo σ notes)
    (fun recovered notes notes' hid hinsert hsame => ?_) (fun update notes notes' hspend hsame => ?_) h rfl
  · rw [insertSealedNoteV1_upTo hinsert (hids _ hid), hsame]
  · rcases applySpentUpdate_ok hspend with rfl | ⟨note, hfind, hnone, hid, rfl⟩
    · exact hsame
    · rw [setSpent_upTo hfind hnone (hids _ hid), hsame]

end Notes

/-! ### The chain of a candidate cursor -/

section Chain
variable {C D : ScanChain} {xs ys : List Segment} {p : FinalizedChainPointV1}

/-- The stored offsets say which block every event belongs to. -/
theorem segments_eq {next : ℕ} {root : Bytes32} {count : ℕ}
    (hblocks : checkpointsFrom next root count xs = checkpointsFrom next root count ys) (hevents : eventsOf xs = eventsOf ys) :
    xs = ys := by
  induction xs generalizing ys next root count with
  | nil =>
    cases ys with
    | nil => rfl
    | cons g rest => cases hblocks
  | cons g rest ih =>
    cases ys with
    | nil => cases hblocks
    | cons g' rest' =>
      simp only [checkpointsFrom, List.cons.injEq, BlockCheckpointV1.mk.injEq, and_true] at hblocks
      simp only [eventsOf_cons] at hevents
      obtain ⟨hblock, hrest⟩ := hblocks
      have hlength : g.events.length = g'.events.length := by
        have hcount := congrArg List.length hrest
        rw [length_checkpointsFrom, length_checkpointsFrom] at hcount
        cases rest with
        | nil =>
          obtain rfl := List.length_eq_zero_iff.mp hcount.symm
          simpa using congrArg List.length hevents
        | cons h rest =>
          cases rest' with
          | nil => cases hcount
          | cons h' rest' =>
            simp only [checkpointsFrom, List.cons.injEq, BlockCheckpointV1.mk.injEq] at hrest
            omega
      obtain ⟨hown, hlater⟩ := List.append_inj hevents hlength
      rw [hown] at hrest
      have hsegment : g = g' := Segment.ext hblock hown
      rw [hsegment, ih hrest hlater]

theorem ScanChain.toState_injective (h : C.toState = D.toState) : C = D := by
  obtain ⟨identity, anchor, next, root, segments⟩ := C
  obtain ⟨identity', anchor', next', root', segments'⟩ := D
  simp only [ScanChain.toState, ScanStateV1.mk.injEq] at h
  obtain ⟨rfl, rfl, rfl, rfl, _, _, hblocks, hevents⟩ := h
  rw [segments_eq hblocks hevents]

/-- The chain with one more block at its end. -/
def ScanChain.concat (C : ScanChain) (g : Segment) : ScanChain := { C with segments := C.segments ++ [g] }

def ScanChain.head (C : ScanChain) : FinalizedChainPointV1 := headFrom C.anchor C.segments

@[simp] theorem ScanChain.head_concat (C : ScanChain) (g : Segment) : (C.concat g).head = g.block.point := headFrom_append

theorem ScanChain.Valid.slot_le_head (h : C.Valid) (hp : OnChain C.anchor C.segments p) : p.slot ≤ C.head.slot := by
  rw [← show headFrom C.anchor (upToSlot p.slot C.segments) = p from hp]
  rcases List.eq_nil_or_concat (upToSlot p.slot C.segments) with hnil | ⟨init, g, hlast⟩
  · rw [hnil]
    exact h.linked.slot_le_head.1
  · rw [hlast, List.concat_eq_append, headFrom_append]
    apply h.linked.slot_le_head.2 g
    have hmem : g ∈ upToSlot p.slot C.segments := by rw [hlast]; simp
    exact (List.mem_filter.mp hmem).1

theorem onChain_head (h : C.Valid) : OnChain C.anchor C.segments C.head := by
  have hall : upToSlot C.head.slot C.segments = C.segments := upToSlot_eq_self h.linked.slot_le_head.2
  rw [OnChain, hall]
  rfl

/-- A chain that is one block longer, and rolls back to another, is that chain and one more block. -/
theorem concat_of_planRollback {added : RollbackSummaryV1} (hC : C.Valid)
    (hrollback : planRollback p C.toState = .ok (D.toState, added))
    (hcount : C.toState.blocks.length = D.toState.blocks.length + 1) :
    ∃ g, C = D.concat g ∧ p = D.head ∧ p.slot < g.slot ∧ added.removedEvents = g.events.map (·.id) := by
  have hp := onChain_of_planRollback hC hrollback
  have heq := Except.ok.inj ((hC.planRollback_eq hp).symm.trans hrollback)
  rw [Prod.mk.injEq] at heq
  obtain ⟨hstate, rfl⟩ := heq
  obtain rfl := ScanChain.toState_injective hstate
  have hcut := upToSlot_append_afterSlot hC.linked p.slot
  have hone : (afterSlot p.slot C.segments).length = 1 := by
    have hlength := congrArg List.length hcut
    simp only [ScanChain.toState, ScanChain.upTo, length_checkpointsFrom] at hcount
    rw [List.length_append] at hlength
    omega
  obtain ⟨g, hg⟩ := List.length_eq_one_iff.mp hone
  have hmem : g ∈ afterSlot p.slot C.segments := by rw [hg]; exact List.mem_cons_self
  refine ⟨g, ?_, hp.symm, of_decide_eq_true (List.mem_filter.mp hmem).2, ?_⟩
  · rw [hg] at hcut
    rw [ScanChain.concat, ScanChain.upTo, hcut]
  · rw [ScanChain.rollbackSummary, hg]
    simp

end Chain

/-! ### The wallet as a history -/

/-- The slot of a plan event. -/
def planSlot (event : FinalizedPreparedSettlementLifecycleV1) : ℕ := (planLifecycleEventIdV1 event).point.slot

def plansUpTo (σ : ℕ) (plans : List FinalizedPreparedSettlementLifecycleV1) :
    List FinalizedPreparedSettlementLifecycleV1 := plans.filter (planSlot · ≤ σ)

/-- The event is on the chain, or too old for the chain to tell. -/
def ScanChain.Knows (C : ScanChain) (id : DepositEventIdV1) : Prop :=
  id ∈ (eventsOf C.segments).map (·.id) ∨ id.point.slot ≤ C.anchor.slot

@[ext]
structure WalletHistory where
  chain : ScanChain
  noteCipherId : Bytes32
  notes : List StoredSealedNoteV1
  base : List AuthenticatedPreparedSettlementV1
  plans : List FinalizedPreparedSettlementLifecycleV1

namespace WalletHistory

structure Valid (H : WalletHistory) : Prop where
  chain : H.chain.Valid
  notes : NamesOnly H.chain.Knows H.notes
  plans : ∀ event ∈ H.plans, OnChain H.chain.anchor H.chain.segments (planLifecycleEventIdV1 event).point
  ordered : H.plans.Pairwise (planSlot · ≤ planSlot ·)

/-- The wallet without what comes after a slot. -/
def upTo (σ : ℕ) (H : WalletHistory) : WalletHistory :=
  { H with chain := H.chain.upTo σ, notes := notesUpTo σ H.notes, plans := plansUpTo σ H.plans }

end WalletHistory

/-- The wallet stores the history; the active plans are worked out anew whenever they are needed. -/
structure Stores (w : DurableWalletStateV1) (H : WalletHistory) : Prop where
  scanState : w.scanState = H.chain.toState
  noteCipherId : w.noteCipherId = H.noteCipherId
  notes : w.notes = H.notes
  base : w.basePreparedPlans = H.base
  plans : w.preparedPlanLifecycle = H.plans

theorem Stores.unique {w : DurableWalletStateV1} {H H' : WalletHistory} (h : Stores w H) (h' : Stores w H') : H = H' := by
  apply WalletHistory.ext
  · exact ScanChain.toState_injective (h.scanState.symm.trans h'.scanState)
  · exact h.noteCipherId.symm.trans h'.noteCipherId
  · exact h.notes.symm.trans h'.notes
  · exact h.base.symm.trans h'.base
  · exact h.plans.symm.trans h'.plans

/-- What ingestion guarantees of the cursor and the report it hands over for a commit: the cursor is one that the scan can
reach, the plan events are those of the block, and a block that replaces others is not itself on the chain yet. -/
structure Ingested {WalletError : Type} (previous candidate : ScanStateV1)
    (result : FinalizedBlockIngestResultV1 WalletError) : Prop where
  cursor : ∃ C : ScanChain, C.Valid ∧ candidate = C.toState
  plans : ∀ event ∈ result.planLifecycle, (planLifecycleEventIdV1 event).point = candidate.head
  fresh : result.rollback.isSome → ¬ previous.retainsChainPointV1 candidate.head

section History
variable {WalletError : Type} {result : FinalizedBlockIngestResultV1 WalletError} {C D : ScanChain} {H H' : WalletHistory}
  {w w' : DurableWalletStateV1} {σ τ : ℕ} {p : FinalizedChainPointV1}

theorem plansUpTo_plansUpTo {plans : List FinalizedPreparedSettlementLifecycleV1} (h : σ ≤ τ) :
    plansUpTo σ (plansUpTo τ plans) = plansUpTo σ plans := by
  rw [plansUpTo, plansUpTo, plansUpTo, List.filter_filter]
  apply List.filter_congr
  intro event _
  by_cases hσ : planSlot event ≤ σ
  · simp [hσ, hσ.trans h]
  · simp [hσ]

theorem WalletHistory.upTo_upTo (h : σ ≤ τ) : (H.upTo τ).upTo σ = H.upTo σ := by
  apply WalletHistory.ext
  · exact Wallet.upTo_upTo h
  · rfl
  · exact notesUpTo_notesUpTo h
  · rfl
  · exact plansUpTo_plansUpTo h

theorem ScanChain.Valid.event_slot (hC : C.Valid) {id : DepositEventIdV1} (h : id ∈ (eventsOf C.segments).map (·.id)) :
    C.anchor.slot < id.point.slot ∧ id.point.slot ≤ C.head.slot := by
  obtain ⟨e, he, rfl⟩ := List.mem_map.mp h
  obtain ⟨g, hg, heg⟩ := List.mem_flatMap.mp he
  rw [hC.own g hg e heg]
  exact ⟨hC.linked.slot_lt hg, hC.linked.slot_le_head.2 g hg⟩

theorem ScanChain.Valid.knows_slot (hC : C.Valid) {id : DepositEventIdV1} (h : C.Knows id) :
    id.point.slot ≤ C.head.slot := by
  rcases h with hmem | hold
  · exact (hC.event_slot hmem).2
  · exact hold.trans hC.linked.slot_le_head.1

/-- Among the events that a chain knows, those a rollback removes are the later ones. -/
theorem ScanChain.Valid.mem_removed (hC : C.Valid) (hp : OnChain C.anchor C.segments p) {id : DepositEventIdV1}
    (h : C.Knows id) : id ∈ (C.rollbackSummary p).removedEvents ↔ p.slot < id.point.slot := by
  have hcut := upToSlot_append_afterSlot hC.linked p.slot
  constructor
  · intro hmem
    obtain ⟨e, he, rfl⟩ := List.mem_map.mp hmem
    obtain ⟨g, hg, heg⟩ := List.mem_flatMap.mp he
    obtain ⟨hg', hslot⟩ := List.mem_filter.mp hg
    rw [hC.own g hg' e heg]
    exact of_decide_eq_true hslot
  · intro hslot
    rcases h with hmem | hold
    · obtain ⟨e, he, rfl⟩ := List.mem_map.mp hmem
      rw [← hcut, eventsOf_append] at he
      rcases List.mem_append.mp he with hearly | hlate
      · rw [hC.eventsOf_upTo] at hearly
        have hle : e.id.point.slot ≤ p.slot := of_decide_eq_true (List.mem_filter.mp hearly).2
        omega
      · exact List.mem_map.mpr ⟨e, hlate, rfl⟩
    · have hanchor := hC.anchor_le hp
      omega

theorem ScanChain.Valid.knows_upTo (hC : C.Valid) {id : DepositEventIdV1} (h : C.Knows id) (hslot : id.point.slot ≤ σ) :
    (C.upTo σ).Knows id := by
  rcases h with hmem | hold
  · obtain ⟨e, he, rfl⟩ := List.mem_map.mp hmem
    left
    apply List.mem_map.mpr
    refine ⟨e, ?_, rfl⟩
    change e ∈ eventsOf (upToSlot σ C.segments)
    rw [hC.eventsOf_upTo]
    exact List.mem_filter.mpr ⟨he, decide_eq_true hslot⟩
  · exact .inr hold

theorem WalletHistory.Valid.upTo (hH : H.Valid) (σ : ℕ) : (H.upTo σ).Valid where
  chain := hH.chain.upTo σ
  notes := hH.notes.upTo.mono fun _ hid => hH.chain.knows_upTo hid.1 hid.2
  plans := by
    intro event hevent
    obtain ⟨hmem, hslot⟩ := List.mem_filter.mp hevent
    exact onChain_upTo (hH.plans event hmem) (of_decide_eq_true hslot)
  ordered := hH.ordered.sublist List.filter_sublist

/-- A wallet is its own cut at its head. -/
theorem WalletHistory.Valid.upTo_head (hH : H.Valid) (h : H.chain.head.slot ≤ σ) : H.upTo σ = H := by
  apply WalletHistory.ext
  · exact hH.chain.upTo_eq_self h
  · rfl
  · apply notesUpTo_eq_self
    exact hH.notes.mono fun id hid => (hH.chain.knows_slot hid).trans h
  · rfl
  · apply List.filter_eq_self.mpr
    exact fun event hevent => decide_eq_true ((hH.chain.slot_le_head (hH.plans event hevent)).trans h)

/-! ### Committing a block on the head -/

/-- The candidate of a commit without rollback is the stored chain, or that chain and one more block. -/
theorem expectedEventIds_direct {ids : List DepositEventIdV1} (hC : C.Valid) (hrollback : result.rollback = none)
    (h : expectedEventIds D.toState C.toState result = .ok ids) :
    (C = D ∧ ids = D.toState.retainedEventIdsInBlockV1 D.toState.head) ∨
    ∃ g, C = D.concat g ∧ D.head.slot < g.slot ∧ ids = g.events.map (·.id) := by
  unfold expectedEventIds at h
  rw [hrollback] at h
  cases hadvance : result.advance with
  | alreadyCurrent =>
    rw [hadvance] at h
    simp only [except_bind_eq_ok, require_eq_ok, except_pure_eq_ok] at h
    obtain ⟨_, hsame, rfl⟩ := h
    exact .inl ⟨ScanChain.toState_injective hsame, rfl⟩
  | advanced =>
    rw [hadvance] at h
    simp only [except_bind_eq_ok, require_eq_ok, mapErr_eq_ok, except_pure_eq_ok] at h
    obtain ⟨_, hcount, ⟨reduced, added⟩, hreduced, _, rfl, rfl⟩ := h
    obtain ⟨g, rfl, hhead, hslot, hremoved⟩ := concat_of_planRollback hC hreduced hcount
    rw [hhead] at hslot
    exact .inr ⟨g, rfl, hslot, hremoved⟩

/-- Every event reported with such a candidate is one of its last block. -/
theorem reportedIds_direct {u : Unit} (hC : C.Valid) (hrollback : result.rollback = none)
    (h : validateCandidateTransitionV1 D.toState C.toState result = .ok u) :
    (C = D ∨ ∃ g, C = D.concat g ∧ D.head.slot < g.slot) ∧
    ∀ id ∈ result.reportedIds, id.point = C.head ∧ id ∈ (eventsOf C.segments).map (·.id) := by
  simp only [validateCandidateTransitionV1, validateReportedIds, except_bind_eq_ok, require_eq_ok, except_pure_eq_ok] at h
  obtain ⟨_, _, reported, ⟨_, _, _, _, _, _, _, _, _, _, rfl⟩, ids, hids, _, ⟨_, hsame⟩, _⟩ := h
  have hmem : ∀ id ∈ result.reportedIds, id ∈ ids := by
    intro id hid
    rw [← List.mem_toFinset, hsame, List.mem_toFinset]
    exact hid
  rcases expectedEventIds_direct hC hrollback hids with ⟨rfl, rfl⟩ | ⟨g, rfl, hslot, rfl⟩
  · refine ⟨.inl rfl, fun id hid => ?_⟩
    obtain ⟨e, he, rfl⟩ := List.mem_map.mp (hmem id hid)
    obtain ⟨hevent, hpoint⟩ := List.mem_filter.mp he
    have hhead := of_decide_eq_true hpoint
    rw [ScanChain.head_toState] at hhead
    exact ⟨hhead, List.mem_map.mpr ⟨e, hevent, rfl⟩⟩
  · refine ⟨.inr ⟨g, rfl, hslot⟩, fun id hid => ?_⟩
    obtain ⟨e, he, rfl⟩ := List.mem_map.mp (hmem id hid)
    have hg : g ∈ (D.concat g).segments := List.mem_append_right _ List.mem_cons_self
    rw [ScanChain.head_concat]
    exact ⟨hC.own g hg e he, List.mem_map.mpr ⟨e, List.mem_flatMap.mpr ⟨g, hg, he⟩, rfl⟩⟩

theorem recordPlanEvent_ok {candidate : ScanStateV1} {plans plans' : List FinalizedPreparedSettlementLifecycleV1}
    {event : FinalizedPreparedSettlementLifecycleV1} (h : DurableWalletStateV1.recordPlanEvent candidate plans event = .ok plans') :
    candidate.retainsChainPointV1 (planLifecycleEventIdV1 event).point ∧ (plans' = plans ∨ plans' = plans ++ [event]) := by
  simp only [DurableWalletStateV1.recordPlanEvent, except_bind_eq_ok, require_eq_ok] at h
  obtain ⟨_, hretained, h⟩ := h
  refine ⟨hretained, ?_⟩
  cases hfind : plans.find? (planLifecycleEventIdV1 · = planLifecycleEventIdV1 event) with
  | some existing =>
    rw [hfind] at h
    simp only [except_bind_eq_ok, require_eq_ok, except_pure_eq_ok] at h
    obtain ⟨_, _, rfl⟩ := h
    exact .inl rfl
  | none =>
    rw [hfind] at h
    exact .inr (except_pure_eq_ok.mp h).symm

/-- Plan events of the last block go to the end and are not seen on an earlier cut. -/
theorem recordPlanEvents_ok {plans plans' events : List FinalizedPreparedSettlementLifecycleV1} (hC : C.Valid)
    (hevents : ∀ event ∈ events, (planLifecycleEventIdV1 event).point = C.head)
    (hplans : ∀ event ∈ plans, OnChain C.anchor C.segments (planLifecycleEventIdV1 event).point)
    (hordered : plans.Pairwise (planSlot · ≤ planSlot ·))
    (h : events.foldlM (DurableWalletStateV1.recordPlanEvent C.toState) plans = .ok plans') :
    (∀ event ∈ plans', OnChain C.anchor C.segments (planLifecycleEventIdV1 event).point) ∧
    plans'.Pairwise (planSlot · ≤ planSlot ·) ∧ ∀ σ < C.head.slot, plansUpTo σ plans' = plansUpTo σ plans := by
  refine foldlM_keeps (P := fun later => (∀ event ∈ later,
    OnChain C.anchor C.segments (planLifecycleEventIdV1 event).point) ∧ later.Pairwise (planSlot · ≤ planSlot ·) ∧
    ∀ σ < C.head.slot, plansUpTo σ later = plansUpTo σ plans) (fun event hevent later later' hstep hlater => ?_) h
    ⟨hplans, hordered, fun _ _ => rfl⟩
  rcases (recordPlanEvent_ok hstep).2 with rfl | rfl
  · exact hlater
  · have hpoint := hevents event hevent
    refine ⟨fun other hother => ?_, ?_, fun σ hσ => ?_⟩
    · rcases List.mem_append.mp hother with hmem | hnew
      · exact hlater.1 other hmem
      · rw [List.mem_singleton.mp hnew, hpoint]
        exact onChain_head hC
    · rw [List.pairwise_append]
      refine ⟨hlater.2.1, List.pairwise_singleton _ _, fun other hother new hnew => ?_⟩
      rw [List.mem_singleton.mp hnew, planSlot, planSlot, hpoint]
      exact hC.slot_le_head (hlater.1 other hother)
    · have hdrop : ¬ planSlot event ≤ σ := by
        rw [planSlot, hpoint]
        omega
      rw [← hlater.2.2 σ hσ]
      simp [plansUpTo, List.filter_append, hdrop]

theorem onChain_concat_of_onChain {g : Segment} (hD : D.Valid) (hslot : D.head.slot < g.slot)
    (hp : OnChain D.anchor D.segments p) : OnChain (D.concat g).anchor (D.concat g).segments p := by
  have hle := hD.slot_le_head hp
  exact (onChain_concat (by omega)).mpr hp

/-- A commit without rollback, part by part. -/
theorem planFinalizedIngest_iff {candidate : ScanStateV1} {recoveredNotes : List SealedRecoveredNoteV1}
    {spentUpdates : List AuthenticatedSpentNoteUpdateV1} {spendAuthenticator : LocalSpendAuthenticatorV1}
    (hw : Stores w H) (hrollback : result.rollback = none) :
    w.planFinalizedIngest candidate result recoveredNotes spentUpdates spendAuthenticator = .ok w' ↔ ∃ notes plans active,
      validateCandidateTransitionV1 H.chain.toState candidate result = .ok () ∧
      DurableWalletStateV1.ingestNotes candidate result recoveredNotes spentUpdates spendAuthenticator H.notes = .ok notes ∧
      validateReportedPlanLifecycleV1 result = .ok () ∧
      result.planLifecycle.foldlM (DurableWalletStateV1.recordPlanEvent candidate) H.plans = .ok plans ∧
      plans.length ≤ MAX_PLAN_LIFECYCLE_RECORDS ∧ replayPreparedPlanLifecycleV1 H.base plans = .ok active ∧
      w' = ⟨candidate, H.noteCipherId, notes, H.base, plans, active⟩ := by
  simp only [DurableWalletStateV1.planFinalizedIngest, hrollback, DurableWalletStateV1.notesAfterRollback,
    DurableWalletStateV1.lifecycleAfterRollback, DurableWalletStateV1.ingestPlans, Option.isSome_none, Bool.false_eq_true,
    if_false, except_bind_eq_ok, except_pure_eq_ok, require_eq_ok, Except.ok.injEq, hw.scanState, hw.noteCipherId, hw.notes,
    hw.base, hw.plans]
  constructor
  · rintro ⟨_, hvalidate, _, rfl, notes, hnotes, _, ⟨_, hreported, plans, hplans, _, hlength, active, hactive, rfl⟩, rfl⟩
    exact ⟨notes, plans, active, hvalidate, hnotes, hreported, hplans, hlength, hactive, rfl⟩
  · rintro ⟨notes, plans, active, hvalidate, hnotes, hreported, hplans, hlength, hactive, rfl⟩
    exact ⟨(), hvalidate, _, rfl, notes, hnotes, _, ⟨(), hreported, plans, hplans, (), hlength, active, hactive, rfl⟩, rfl⟩

/-- A commit without rollback leaves every cut before its block as it was. -/
theorem planFinalizedIngest_direct {recoveredNotes : List SealedRecoveredNoteV1}
    {spentUpdates : List AuthenticatedSpentNoteUpdateV1} {spendAuthenticator : LocalSpendAuthenticatorV1}
    (hw : Stores w H) (hH : H.Valid) (hC : C.Valid)
    (hplans : ∀ event ∈ result.planLifecycle, (planLifecycleEventIdV1 event).point = C.head)
    (hrollback : result.rollback = none)
    (h : w.planFinalizedIngest C.toState result recoveredNotes spentUpdates spendAuthenticator = .ok w') :
    ∃ H', H'.Valid ∧ Stores w' H' ∧ H'.chain = C ∧ (C = H.chain ∨ ∃ g, C = H.chain.concat g ∧ H.chain.head.slot < g.slot) ∧
      ∀ σ < C.head.slot, H'.upTo σ = H.upTo σ := by
  obtain ⟨notes, plans, active, hvalidate, hnotes, _, hrecorded, _, _, rfl⟩ := (planFinalizedIngest_iff hw hrollback).mp h
  obtain ⟨hcases, hreported⟩ := reportedIds_direct hC hrollback hvalidate
  have hknows : ∀ id, H.chain.Knows id → C.Knows id := by
    rcases hcases with rfl | ⟨g, rfl, _⟩
    · exact fun id hid => hid
    · rintro id (hmem | hold)
      · left
        change id ∈ (eventsOf (H.chain.segments ++ [g])).map (·.id)
        rw [eventsOf_append, List.map_append]
        exact List.mem_append_left _ hmem
      · exact .inr hold
  have honchain : ∀ q, OnChain H.chain.anchor H.chain.segments q → OnChain C.anchor C.segments q := by
    rcases hcases with rfl | ⟨g, rfl, hslot⟩
    · exact fun q hq => hq
    · exact fun q hq => onChain_concat_of_onChain hH.chain hslot hq
  have hplans' := recordPlanEvents_ok hC hplans (fun event hevent => honchain _ (hH.plans event hevent)) hH.ordered hrecorded
  refine ⟨⟨C, H.noteCipherId, notes, H.base, plans⟩, ⟨hC, ?_, hplans'.1, hplans'.2.1⟩, ⟨rfl, rfl, rfl, rfl, rfl⟩, rfl, hcases,
    fun σ hσ => ?_⟩
  · exact ingestNotes_names hnotes (fun id hid => .inl (hreported id hid).2) (hH.notes.mono hknows)
  · apply WalletHistory.ext
    · rcases hcases with rfl | ⟨g, rfl, _⟩
      · rfl
      · rw [ScanChain.head_concat] at hσ
        exact congrArg (ScanChain.mk _ _ _ _) (upToSlot_concat_of_lt hσ)
    · rfl
    · apply ingestNotes_upTo hnotes
      intro id hid
      rw [(hreported id hid).1]
      exact hσ
    · rfl
    · exact hplans'.2.2 σ hσ

/-! ### Committing a block after a rollback -/

/-- The same report for a commit on the block that a rollback would go to. -/
def FinalizedBlockIngestResultV1.direct (result : FinalizedBlockIngestResultV1 WalletError) :
    FinalizedBlockIngestResultV1 WalletError := { result with rollback := none }

theorem validateCandidateTransitionV1_reorg {rollback : RollbackSummaryV1} {u : Unit} (hD : D.Valid)
    (hrollback : result.rollback = some rollback) (h : validateCandidateTransitionV1 D.toState C.toState result = .ok u) :
    result.advance = .advanced ∧ OnChain D.anchor D.segments rollback.head ∧ rollback = D.rollbackSummary rollback.head ∧
    validateCandidateTransitionV1 (D.upTo rollback.head.slot).toState C.toState result.direct = .ok u := by
  simp only [validateCandidateTransitionV1, except_bind_eq_ok, require_eq_ok] at h
  obtain ⟨_, hidentity, reported, hreported, ids, hids, _, hsame, happend⟩ := h
  unfold expectedEventIds at hids
  cases hadvance : result.advance with
  | alreadyCurrent =>
    rw [hadvance, hrollback] at hids
    cases hids
  | advanced =>
    rw [hadvance, hrollback] at hids
    simp only [except_bind_eq_ok, require_eq_ok, mapErr_eq_ok, except_pure_eq_ok] at hids
    obtain ⟨⟨previousBase, expected⟩, hprevious, _, ⟨rfl, hcount⟩, ⟨candidateBase, added⟩, hcandidate, _, rfl, rfl⟩ := hids
    have hp := onChain_of_planRollback hD hprevious
    have heq := Except.ok.inj ((hD.planRollback_eq hp).symm.trans hprevious)
    rw [Prod.mk.injEq] at heq
    obtain ⟨hbase, hsummary⟩ := heq
    dsimp only at hbase hsummary hp hcount hcandidate
    have hhead : (D.upTo expected.head.slot).toState.head = expected.head := (ScanChain.head_toState _).trans hp
    refine ⟨rfl, hp, hsummary.symm, ?_⟩
    have hidentity' : C.toState.identity = candidateBase.identity := hidentity.trans (congrArg (·.identity) hbase)
    dsimp only
    rw [hbase]
    rw [hbase] at hhead
    simp only [validateCandidateTransitionV1, except_bind_eq_ok, require_eq_ok]
    refine ⟨(), hidentity', reported, hreported, added.removedEvents, ?_, (), hsame, happend⟩
    unfold expectedEventIds
    rw [FinalizedBlockIngestResultV1.direct, hadvance]
    simp only [except_bind_eq_ok, require_eq_ok, mapErr_eq_ok, except_pure_eq_ok]
    refine ⟨(), hcount, (_, added), ?_, (), rfl, rfl⟩
    rw [hhead]
    exact hcandidate

/-- The points of a longer chain. -/
theorem onChain_concat_cases {g : Segment} (hD : D.Valid) (hslot : D.head.slot < g.slot)
    (hp : OnChain (D.concat g).anchor (D.concat g).segments p) : OnChain D.anchor D.segments p ∨ p = g.block.point := by
  rcases Nat.lt_or_ge p.slot g.slot with hbefore | hafter
  · exact .inl ((onChain_concat hbefore).mp hp)
  · right
    have hall : upToSlot p.slot (D.concat g).segments = D.segments ++ [g] := by
      apply upToSlot_eq_self
      intro x hx
      rcases List.mem_append.mp hx with hmem | hlast
      · have hle : x.slot ≤ D.head.slot := hD.linked.slot_le_head.2 x hmem
        omega
      · rw [List.mem_singleton.mp hlast]
        exact hafter
    rw [OnChain, hall, headFrom_append] at hp
    exact hp.symm

/-- After a rollback the candidate retains exactly the earlier plan events. -/
theorem lifecycleAfterRollback_eq {rollback : RollbackSummaryV1} {g : Segment} (hw : Stores w H) (hH : H.Valid)
    (hp : OnChain H.chain.anchor H.chain.segments p) (hC : C.Valid) (hconcat : C = (H.chain.upTo p.slot).concat g)
    (hslot : p.slot < g.slot) (hfresh : ¬ H.chain.toState.retainsChainPointV1 C.head) :
    w.lifecycleAfterRollback C.toState (some rollback) = plansUpTo p.slot H.plans := by
  have hcut : (H.chain.upTo p.slot).head = p := hp
  rw [DurableWalletStateV1.lifecycleAfterRollback, Option.isSome_some, if_pos rfl, hw.plans]
  apply List.filter_congr
  intro event hevent
  have hon := hH.plans event hevent
  rw [decide_eq_decide, ScanChain.retains_iff hC]
  constructor
  · intro hretained
    rw [hconcat] at hretained
    have hlater : (H.chain.upTo p.slot).head.slot < g.slot := by rwa [hcut]
    rcases onChain_concat_cases (hH.chain.upTo p.slot) hlater hretained with hearly | hnew
    · have hle := (hH.chain.upTo p.slot).slot_le_head hearly
      rw [hcut] at hle
      exact hle
    · -- the new block is not on the chain before
      apply absurd _ hfresh
      rw [hconcat, ScanChain.head_concat, ← hnew]
      exact (ScanChain.retains_iff hH.chain).mpr hon
  · intro hearly
    have hbefore : (planLifecycleEventIdV1 event).point.slot < g.slot := lt_of_le_of_lt hearly hslot
    rw [hconcat]
    exact (onChain_concat hbefore).mpr (onChain_upTo hon hearly)

/-- A commit after a rollback is the commit on the wallet cut at the block it goes back to. -/
theorem planFinalizedIngest_reorg {rollback : RollbackSummaryV1} {w₀ : DurableWalletStateV1}
    {recoveredNotes : List SealedRecoveredNoteV1} {spentUpdates : List AuthenticatedSpentNoteUpdateV1}
    {spendAuthenticator : LocalSpendAuthenticatorV1} (hw : Stores w H) (hH : H.Valid) (hC : C.Valid)
    (hfresh : ¬ H.chain.toState.retainsChainPointV1 C.head) (hrollback : result.rollback = some rollback)
    (hw₀ : Stores w₀ (H.upTo rollback.head.slot))
    (h : w.planFinalizedIngest C.toState result recoveredNotes spentUpdates spendAuthenticator = .ok w') :
    result.advance = .advanced ∧ OnChain H.chain.anchor H.chain.segments rollback.head ∧
    rollback = H.chain.rollbackSummary rollback.head ∧ rollback.head.slot < C.head.slot ∧
    w₀.planFinalizedIngest C.toState result.direct recoveredNotes spentUpdates spendAuthenticator = .ok w' := by
  simp only [DurableWalletStateV1.planFinalizedIngest, hrollback, except_bind_eq_ok, except_pure_eq_ok] at h
  obtain ⟨_, hvalidate, kept, hkept, notes, hnotes, ⟨plans, active⟩, hingested, rfl⟩ := h
  rw [hw.scanState] at hvalidate
  obtain ⟨hadvance, hp, hsummary, hdirect⟩ := validateCandidateTransitionV1_reorg hH.chain hrollback hvalidate
  have hcut : (H.chain.upTo rollback.head.slot).head = rollback.head := hp
  obtain ⟨g, hconcat, hslot⟩ : ∃ g, C = (H.chain.upTo rollback.head.slot).concat g ∧ rollback.head.slot < g.slot := by
    rcases (reportedIds_direct hC rfl hdirect).1 with hsame | hconcat
    · -- a candidate of a rollback has one block more
      apply absurd _ hfresh
      have hhead : C.head = rollback.head := by rw [hsame, hcut]
      rw [hhead]
      exact (ScanChain.retains_iff hH.chain).mpr hp
    · rwa [hcut] at hconcat
  have hlater : rollback.head.slot < C.head.slot := by
    rw [hconcat, ScanChain.head_concat]
    exact hslot
  refine ⟨hadvance, hp, hsummary, hlater, ?_⟩
  simp only [DurableWalletStateV1.notesAfterRollback, except_bind_eq_ok, require_eq_ok, except_pure_eq_ok] at hkept
  obtain ⟨_, _, rfl⟩ := hkept
  have hkept : rollbackNotes rollback.removedEvents w.notes = notesUpTo rollback.head.slot H.notes := by
    rw [hw.notes]
    apply rollbackNotes_eq
    apply hH.notes.mono
    intro id hid
    rw [hsummary]
    exact hH.chain.mem_removed hp hid
  rw [hkept] at hnotes
  have hlifecycle : w.lifecycleAfterRollback C.toState (some rollback) = plansUpTo rollback.head.slot H.plans :=
    lifecycleAfterRollback_eq hw hH hp hC hconcat hslot hfresh
  simp only [hlifecycle, hw.base, DurableWalletStateV1.ingestPlans, except_bind_eq_ok, require_eq_ok, except_pure_eq_ok,
    Prod.mk.injEq] at hingested
  obtain ⟨_, hreported, _, hrecorded, _, hlength, _, hreplay, rfl, rfl⟩ := hingested
  apply (planFinalizedIngest_iff hw₀ rfl).mpr
  refine ⟨notes, _, _, hdirect, hnotes, hreported, hrecorded, hlength, hreplay, ?_⟩
  rw [hw.noteCipherId, hw.base]
  rfl

end History

end Aspis.Wallet
