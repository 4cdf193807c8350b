import Aspis.Wallet.DurableSteps

/-! Reorganizations of a durable wallet. Along any run of calls the wallet cut at
an earlier block stays what it was when that block was the head, up to notes that
were delivered late for earlier blocks and up to plan events that a prune moved
into the base. A rollback with a replacement block is therefore the commit of that
block on the earlier wallet. -/

namespace Aspis.Wallet

open Lib Statement Pool

variable {WalletError : Type} {H : WalletHistory} {w w' : DurableWalletStateV1} {a p : FinalizedChainPointV1}

/-! ### Runs on the cut -/

/-- Steps that neither commit the block at `p` again nor change the cipher. -/
def Continues (sha256 : Bytes → Bytes32) (p : FinalizedChainPointV1) (w : DurableWalletStateV1) (e : WalletEvent WalletError)
    (w' : DurableWalletStateV1) : Prop := WalletStep sha256 w e w' ∧ e.commits p = false ∧ e.replacesCipher = false

/-- The history in which `p` was the head, with the notes that were delivered late for it and earlier blocks. -/
def WalletHistory.deliver (Y : WalletHistory) (p : FinalizedChainPointV1) (events : List (WalletEvent WalletError)) :
    WalletHistory := { Y with notes := deliverNotes p.slot Y.notes events }

/-- What a run leaves of the wallet in which `p` was the head, as long as `p` stays on the chain. -/
def KeepsCut (p : FinalizedChainPointV1) (Y : WalletHistory) (events : List (WalletEvent WalletError))
    (w : DurableWalletStateV1) : Prop :=
  ∃ H, H.Valid ∧ Stores w H ∧ (OnChain H.chain.anchor H.chain.segments p →
    Prunes (Y.deliver p events) (H.upTo p.slot) ∧
    ((∀ e ∈ events, e.prunes = false) → H.upTo p.slot = Y.deliver p events))

theorem KeepsCut.step {sha256 : Bytes → Bytes32} {Y : WalletHistory} (hY : Y.Valid)
    {events : List (WalletEvent WalletError)} {e : WalletEvent WalletError} (h : KeepsCut p Y events w)
    (hstep : Continues sha256 p w e w') : KeepsCut p Y (events ++ [e]) w' := by
  obtain ⟨H, hH, hw, hkeeps⟩ := h
  obtain ⟨hstep, hcommits, hcipher⟩ := hstep
  obtain ⟨H', hH', hw', hcut⟩ := hstep.cut hw hH
  refine ⟨H', hH', hw', fun hp => ?_⟩
  obtain ⟨hon, hchange⟩ := hcut p hp hcommits
  obtain ⟨hprunes, hexact⟩ := hkeeps hon
  have hdeliver : Y.deliver p (events ++ [e]) =
      { Y.deliver p events with notes := deliverNotes p.slot (Y.deliver p events).notes [e] } := by
    rw [WalletHistory.deliver, deliverNotes_concat]
    rfl
  rcases hchange hcipher with hsame | ⟨hprune, hnone, hpruned⟩
  · rw [hsame, hdeliver]
    refine ⟨hprunes.withNotes fun notes => deliverNotes p.slot notes [e], fun hno => ?_⟩
    rw [hexact fun e' he' => hno e' (List.mem_append_left _ he')]
  · have hnothing : Y.deliver p (events ++ [e]) = Y.deliver p events := by
      rw [hdeliver, deliverNotes, List.filterMap_cons_none hnone]
      rfl
    rw [hnothing]
    refine ⟨hprunes.trans hY.chain (hH.upTo p.slot).chain hpruned, fun hno => ?_⟩
    have := hno e (List.mem_append_right _ List.mem_cons_self)
    rw [hprune] at this
    cases this

/-- Along a run that does not commit `p` again, the wallet cut at `p` is the one in which `p` was the head. -/
theorem keepsCut_run {sha256 : Bytes → Bytes32} {s : DurableWalletStateV1} {Y : WalletHistory} (hY : Y.Valid) (hs : Stores s Y)
    (hhead : Y.chain.head = p) {events : List (WalletEvent WalletError)} (hrun : Run (WalletStep sha256) s events w)
    (hcommits : ∀ e ∈ events, e.commits p = false) (hcipher : ∀ e ∈ events, e.replacesCipher = false) :
    KeepsCut p Y events w := by
  have hself : Y.upTo p.slot = Y := hY.upTo_head (by rw [hhead])
  have hstart : KeepsCut p Y ([] : List (WalletEvent WalletError)) s := by
    refine ⟨Y, hY, hs, fun _ => ?_⟩
    rw [hself]
    exact ⟨Prunes.refl hY, fun _ => rfl⟩
  have hcontinues : Run (Continues sha256 p) s (events.map id) w :=
    hrun.map fun s t e he hstep => ⟨hstep, hcommits e he, hcipher e he⟩
  rw [List.map_id] at hcontinues
  have htraced := Run.traced (P := fun es t => KeepsCut p Y es t)
    (fun es t e u hkeeps hstep => hkeeps.step hY hstep) hstart hcontinues
  rwa [List.nil_append] at htraced

/-! ### Replaying plan events -/

theorem replayEvents_ok {plans : List FinalizedPreparedSettlementLifecycleV1}
    {acc acc' : List AuthenticatedPreparedSettlementV1 × List DepositEventIdV1}
    (h : plans.foldlM replayEvent acc = .ok acc') : plans.foldlM applyPreparedPlanLifecycleEventV1 acc.1 = .ok acc'.1 ∧
      acc'.2 = (plans.map planLifecycleEventIdV1).reverse ++ acc.2 := by
  induction plans generalizing acc with
  | nil =>
    rw [List.foldlM_nil, except_pure_eq_ok] at h
    rw [← h]
    exact ⟨rfl, rfl⟩
  | cons event plans ih =>
    rw [List.foldlM_cons, except_bind_eq_ok] at h
    obtain ⟨next, hevent, hrest⟩ := h
    simp only [replayEvent, except_bind_eq_ok, require_eq_ok, except_pure_eq_ok] at hevent
    obtain ⟨_, _, active, hactive, rfl⟩ := hevent
    obtain ⟨hopen, hids⟩ := ih hrest
    refine ⟨?_, ?_⟩
    · rw [List.foldlM_cons, hactive, except_ok_bind]
      exact hopen
    · rw [hids]
      simp

/-- Events of new identities that can be applied can be replayed. -/
theorem replayEvents_new {plans : List FinalizedPreparedSettlementLifecycleV1}
    {opened opened' : List AuthenticatedPreparedSettlementV1} {ids : List DepositEventIdV1}
    (hnew : ∀ event ∈ plans, planLifecycleEventIdV1 event ∉ ids) (hnodup : (plans.map planLifecycleEventIdV1).Nodup)
    (h : plans.foldlM applyPreparedPlanLifecycleEventV1 opened = .ok opened') :
    ∃ ids', plans.foldlM replayEvent (opened, ids) = .ok (opened', ids') := by
  induction plans generalizing opened ids with
  | nil =>
    rw [List.foldlM_nil, except_pure_eq_ok] at h
    exact ⟨ids, congrArg (fun x => Except.ok (x, ids)) h⟩
  | cons event plans ih =>
    rw [List.map_cons, List.nodup_cons] at hnodup
    rw [List.foldlM_cons, except_bind_eq_ok] at h
    obtain ⟨next, hevent, hrest⟩ := h
    have hlater : ∀ later ∈ plans, planLifecycleEventIdV1 later ∉ planLifecycleEventIdV1 event :: ids := by
      intro later hmem hin
      rcases List.mem_cons.mp hin with heq | hold
      · exact hnodup.1 (heq ▸ List.mem_map_of_mem hmem)
      · exact hnew later (List.mem_cons_of_mem event hmem) hold
    obtain ⟨ids', hids'⟩ := ih hlater hnodup.2 hrest
    refine ⟨ids', ?_⟩
    have hfirst : replayEvent (opened, ids) event = .ok (next, planLifecycleEventIdV1 event :: ids) := by
      rw [replayEvent, require_of _ (hnew event List.mem_cons_self), except_ok_bind, hevent]
      rfl
    rw [List.foldlM_cons, hfirst, except_ok_bind, hids']

theorem replayPreparedPlanLifecycleV1_ok {base active : List AuthenticatedPreparedSettlementV1}
    {plans : List FinalizedPreparedSettlementLifecycleV1} (h : replayPreparedPlanLifecycleV1 base plans = .ok active) :
    ∃ opened, plans.foldlM applyPreparedPlanLifecycleEventV1 base = .ok opened ∧ active = sortByCorePlan opened := by
  simp only [replayPreparedPlanLifecycleV1, except_bind_eq_ok, require_eq_ok, except_pure_eq_ok] at h
  obtain ⟨_, _, acc, hacc, rfl⟩ := h
  exact ⟨acc.1, (replayEvents_ok hacc).1, rfl⟩

/-- A replay goes on through events of new identities that can be applied. -/
theorem replayPreparedPlanLifecycleV1_append {base active opened : List AuthenticatedPreparedSettlementV1}
    {plans new : List FinalizedPreparedSettlementLifecycleV1} (h : replayPreparedPlanLifecycleV1 base plans = .ok active)
    (hopened : (plans ++ new).foldlM applyPreparedPlanLifecycleEventV1 base = .ok opened)
    (hnew : ∀ event ∈ new, ∀ other ∈ plans, planLifecycleEventIdV1 other ≠ planLifecycleEventIdV1 event)
    (hnodup : (new.map planLifecycleEventIdV1).Nodup) :
    replayPreparedPlanLifecycleV1 base (plans ++ new) = .ok (sortByCorePlan opened) := by
  simp only [replayPreparedPlanLifecycleV1, except_bind_eq_ok, require_eq_ok, except_pure_eq_ok] at h
  obtain ⟨_, hcores, acc, hacc, _⟩ := h
  obtain ⟨hfirst, hids⟩ := replayEvents_ok hacc
  rw [List.foldlM_append, hfirst, except_ok_bind] at hopened
  have hfresh : ∀ event ∈ new, planLifecycleEventIdV1 event ∉ acc.2 := by
    intro event hevent hmem
    rw [hids, List.append_nil, List.mem_reverse] at hmem
    obtain ⟨other, hother, heq⟩ := List.mem_map.mp hmem
    exact hnew event hevent other hother heq
  obtain ⟨ids', hids'⟩ := replayEvents_new hfresh hnodup hopened
  simp only [replayPreparedPlanLifecycleV1, except_bind_eq_ok, require_eq_ok, except_pure_eq_ok]
  refine ⟨(), hcores, (opened, ids'), ?_, rfl⟩
  rw [List.foldlM_append, hacc, except_ok_bind]
  exact hids'

/-- Moving early events into the base does not change which plans are active. -/
theorem Prunes.replay_eq {Y Z : WalletHistory} (h : Prunes Y Z) {new : List FinalizedPreparedSettlementLifecycleV1}
    {active active' : List AuthenticatedPreparedSettlementV1}
    (hY : replayPreparedPlanLifecycleV1 Y.base (Y.plans ++ new) = .ok active)
    (hZ : replayPreparedPlanLifecycleV1 Z.base (Z.plans ++ new) = .ok active') : active = active' := by
  obtain ⟨done, hplans, hbase⟩ := h.plans
  obtain ⟨open₁, hopen₁, rfl⟩ := replayPreparedPlanLifecycleV1_ok hY
  obtain ⟨open₂, hopen₂, rfl⟩ := replayPreparedPlanLifecycleV1_ok hZ
  rw [hplans, List.append_assoc, List.foldlM_append, hbase, except_ok_bind, hopen₂] at hopen₁
  rw [Except.ok.inj hopen₁]

/-- Plan events that are not recorded yet all go to the end. -/
theorem recordPlanEvents_new {candidate : ScanStateV1} {plans plans' events : List FinalizedPreparedSettlementLifecycleV1}
    (hnew : ∀ event ∈ events, ∀ other ∈ plans, planLifecycleEventIdV1 other ≠ planLifecycleEventIdV1 event)
    (hnodup : (events.map planLifecycleEventIdV1).Nodup) :
    events.foldlM (DurableWalletStateV1.recordPlanEvent candidate) plans = .ok plans' ↔
      (∀ event ∈ events, candidate.retainsChainPointV1 (planLifecycleEventIdV1 event).point) ∧ plans' = plans ++ events := by
  induction events generalizing plans with
  | nil =>
    rw [List.foldlM_nil, except_pure_eq_ok, List.append_nil]
    exact ⟨fun h => ⟨by simp, h.symm⟩, fun h => h.2.symm⟩
  | cons event events ih =>
    rw [List.map_cons, List.nodup_cons] at hnodup
    have hnone : plans.find? (planLifecycleEventIdV1 · = planLifecycleEventIdV1 event) = none := by
      rw [List.find?_eq_none]
      intro other hother
      simpa using hnew event List.mem_cons_self other hother
    have hlater : ∀ later ∈ events, ∀ other ∈ plans ++ [event],
        planLifecycleEventIdV1 other ≠ planLifecycleEventIdV1 later := by
      intro later hlater other hother
      rcases List.mem_append.mp hother with hold | hlast
      · exact hnew later (List.mem_cons_of_mem event hlater) other hold
      · rw [List.mem_singleton.mp hlast]
        exact fun heq => hnodup.1 (heq ▸ List.mem_map_of_mem hlater)
    have hsplit : plans ++ event :: events = plans ++ [event] ++ events := by simp
    simp only [List.foldlM_cons, DurableWalletStateV1.recordPlanEvent, hnone, except_bind_eq_ok, require_eq_ok,
      except_pure_eq_ok, List.forall_mem_cons, hsplit]
    constructor
    · rintro ⟨_, ⟨_, hretained, rfl⟩, hrest⟩
      have hall := (ih hlater hnodup.2).mp hrest
      exact ⟨⟨hretained, hall.1⟩, hall.2⟩
    · rintro ⟨⟨hretained, hall⟩, hplans⟩
      exact ⟨_, ⟨(), hretained, rfl⟩, (ih hlater hnodup.2).mpr ⟨hall, hplans⟩⟩

/-! ### The same block on the whole chain -/

/-- A block that can follow a pruned chain can follow the whole chain. -/
theorem valid_concat_of_prune {C : ScanChain} {g : Segment} (hC : C.Valid) (ha : OnChain C.anchor C.segments a)
    (h : ((C.prune a).concat g).Valid) (hslot : C.head.slot < g.slot) : (C.concat g).Valid := by
  have hcut := upToSlot_append_afterSlot hC.linked a.slot
  have hevents : eventsOf C.segments = eventsOf (upToSlot a.slot C.segments) ++ eventsOf (afterSlot a.slot C.segments) := by
    rw [← eventsOf_append, hcut]
  have hconcat : eventsOf (C.segments ++ [g]) = eventsOf C.segments ++ g.events := by simp
  have hpruned : eventsOf ((C.prune a).concat g).segments = eventsOf (afterSlot a.slot C.segments) ++ g.events := by
    change eventsOf (afterSlot a.slot C.segments ++ [g]) = _
    simp
  have hlast : g ∈ ((C.prune a).concat g).segments := List.mem_append_right _ List.mem_cons_self
  have hcount : (eventsOf C.segments).length = (eventsOf (upToSlot a.slot C.segments)).length +
      (eventsOf (afterSlot a.slot C.segments)).length := by rw [hevents, List.length_append]
  constructor
  case linked =>
    have hlinked := (linkedFrom_append.mp h.linked).2
    change LinkedFrom (headFrom (C.prune a).anchor (C.prune a).segments) [g] at hlinked
    rw [headFrom_prune hC ha] at hlinked
    exact linkedFrom_append.mpr ⟨hC.linked, hlinked⟩
  case own =>
    intro x hx
    rcases List.mem_append.mp hx with hmem | hnew
    · exact hC.own x hmem
    · rw [List.mem_singleton.mp hnew]
      exact h.own g hlast
  case leaves =>
    have hleaves := h.leaves
    rw [hpruned, List.map_append, List.length_append, ← List.range'_append_1] at hleaves
    have hnew := (List.append_inj hleaves (by simp)).2
    change (eventsOf (C.segments ++ [g])).map _ = List.range' C.anchorNextLeafIndex (eventsOf (C.segments ++ [g])).length
    rw [hconcat, List.map_append, List.length_append, ← List.range'_append_1, hC.leaves, hnew]
    change _ ++ List.range' (C.anchorNextLeafIndex + (eventsOf (upToSlot a.slot C.segments)).length + _) _ = _
    rw [hcount, Nat.add_assoc]
  case canonical =>
    intro e he
    change e ∈ eventsOf (C.segments ++ [g]) at he
    rw [hconcat] at he
    rcases List.mem_append.mp he with hold | hnew
    · exact hC.canonical e hold
    · exact h.canonical e (by rw [hpruned]; exact List.mem_append_right _ hnew)
  case fresh =>
    change ((eventsOf (C.segments ++ [g])).map (·.id)).Nodup
    have hnodup := h.fresh
    rw [hpruned, List.map_append] at hnodup
    rw [hconcat, List.map_append, List.nodup_append]
    refine ⟨hC.fresh, (List.nodup_append.mp hnodup).2.1, fun id hid id' hid' heq => ?_⟩
    obtain ⟨e, he, rfl⟩ := List.mem_map.mp hid'
    have hpoint := h.own g hlast e he
    have hle := (hC.event_slot hid).2
    rw [heq, hpoint] at hle
    exact absurd (lt_of_lt_of_le hslot hle) (lt_irrefl _)
  case capacity =>
    have hcapacity := h.capacity
    rw [hpruned, List.length_append] at hcapacity
    change C.anchorNextLeafIndex + (eventsOf (upToSlot a.slot C.segments)).length + _ ≤ _ at hcapacity
    change C.anchorNextLeafIndex + (eventsOf (C.segments ++ [g])).length ≤ _
    rw [hconcat, List.length_append]
    omega
  case anchor_canonical => exact hC.anchor_canonical

/-- Whether a report fits a chain and one more block does not depend on the chain. -/
theorem validateCandidateTransitionV1_concat {D : ScanChain} {g : Segment}
    {result : FinalizedBlockIngestResultV1 WalletError} {u : Unit} (hD : D.Valid) (hC : (D.concat g).Valid)
    (hslot : D.head.slot < g.slot) (hadvance : result.advance = .advanced) (hrollback : result.rollback = none) :
    validateCandidateTransitionV1 D.toState (D.concat g).toState result = .ok u ↔
      ∃ reported, validateReportedIds result = .ok reported ∧
        ((g.events.map (·.id)).Nodup ∧ (g.events.map (·.id)).toFinset = reported.toFinset) ∧
        result.appendEvidence.map (·.eventId) = g.events.map (·.id) := by
  have hon : OnChain (D.concat g).anchor (D.concat g).segments D.head := onChain_concat_of_onChain hD hslot (onChain_head hD)
  have hupTo : (D.concat g).upTo D.head.slot = D := by
    have hcut : upToSlot D.head.slot (D.concat g).segments = D.segments := by
      rw [show (D.concat g).segments = D.segments ++ [g] from rfl, upToSlot_concat_of_lt hslot]
      exact upToSlot_eq_self hD.linked.slot_le_head.2
    rw [ScanChain.upTo, hcut]
    rfl
  have hafter : afterSlot D.head.slot (D.concat g).segments = [g] := by
    apply afterSlot_of_cut hD.linked.slot_le_head.2
    intro x hx
    rwa [List.mem_singleton.mp hx]
  have hexpected : expectedEventIds D.toState (D.concat g).toState result = .ok (g.events.map (·.id)) := by
    have hroll := hC.planRollback_eq hon
    rw [hupTo] at hroll
    have hcount : (D.concat g).toState.blocks.length = D.toState.blocks.length + 1 := by
      simp [ScanChain.toState, ScanChain.concat]
    have hhead : D.toState.head = D.head := ScanChain.head_toState D
    rw [expectedEventIds, hadvance, hrollback]
    dsimp only
    rw [require_of _ hcount, except_ok_bind, hhead, hroll]
    simp [mapErr, except_ok_bind, require, ScanChain.rollbackSummary, hafter]
  simp only [validateCandidateTransitionV1, except_bind_eq_ok, require_eq_ok, hexpected, Except.ok.injEq]
  constructor
  · rintro ⟨_, _, reported, hreported, _, rfl, _, hsame, happend⟩
    exact ⟨reported, hreported, hsame, happend⟩
  · rintro ⟨reported, hreported, hsame, happend⟩
    exact ⟨(), rfl, reported, hreported, _, rfl, (), hsame, happend⟩

section Direct
variable {result : FinalizedBlockIngestResultV1 WalletError} {recoveredNotes : List SealedRecoveredNoteV1}
  {spentUpdates : List AuthenticatedSpentNoteUpdateV1} {spendAuthenticator : LocalSpendAuthenticatorV1}
  {w₀ w₁ next : DurableWalletStateV1} {Y Z : WalletHistory} {C : ScanChain} {candidate : ScanStateV1}

/-- The notes of a report depend on the candidate only in whether they are refused. -/
theorem ingestNotes_congr {candidate' : ScanStateV1} {notes notes' : List StoredSealedNoteV1} {required : List _}
    (hrequired : requiredDeposits candidate' result = .ok required)
    (h : DurableWalletStateV1.ingestNotes candidate result recoveredNotes spentUpdates spendAuthenticator notes = .ok notes') :
    DurableWalletStateV1.ingestNotes candidate' result recoveredNotes spentUpdates spendAuthenticator notes = .ok notes' := by
  simp only [DurableWalletStateV1.ingestNotes, except_bind_eq_ok] at h
  obtain ⟨required', hrequired', h⟩ := h
  have hsame : required = required' := (requiredDeposits_ok hrequired).trans (requiredDeposits_ok hrequired').symm
  simp only [DurableWalletStateV1.ingestNotes, except_bind_eq_ok]
  exact ⟨required, hrequired, hsame ▸ h⟩

/-- The block of a report is after everything that is recorded. -/
theorem planEvents_new (hY : Y.chain.Valid)
    (hon : ∀ event ∈ Y.plans, OnChain Y.chain.anchor Y.chain.segments (planLifecycleEventIdV1 event).point)
    (hslot : Y.chain.head.slot < C.head.slot)
    (hplans : ∀ event ∈ result.planLifecycle, (planLifecycleEventIdV1 event).point = C.head) :
    ∀ event ∈ result.planLifecycle, ∀ other ∈ Y.plans, planLifecycleEventIdV1 other ≠ planLifecycleEventIdV1 event := by
  intro event hevent other hother heq
  have hle := hY.slot_le_head (hon other hother)
  rw [heq, hplans event hevent] at hle
  omega

theorem reported_nodup {u : Unit} (h : validateReportedPlanLifecycleV1 result = .ok u) :
    (result.planLifecycle.map planLifecycleEventIdV1).Nodup := by
  simp only [validateReportedPlanLifecycleV1, except_bind_eq_ok, require_eq_ok] at h
  obtain ⟨_, _, _, _, hnodup⟩ := h
  exact hnodup

/-- The same report on the whole wallet and on the pruned one leaves the same notes and the same active plans. -/
theorem Prunes.ingest_eq (h : Prunes Y Z) (hY : Y.chain.Valid)
    (hon : ∀ event ∈ Y.plans, OnChain Y.chain.anchor Y.chain.segments (planLifecycleEventIdV1 event).point) (hZ : Z.Valid)
    (hslot : Y.chain.head.slot < C.head.slot) (hzslot : Z.chain.head.slot < C.head.slot)
    (hplans : ∀ event ∈ result.planLifecycle, (planLifecycleEventIdV1 event).point = C.head)
    (hrollback : result.rollback = none) (hw₀ : Stores w₀ Z) (hw₁ : Stores w₁ Y)
    (hpruned : w₀.planFinalizedIngest C.toState result recoveredNotes spentUpdates spendAuthenticator = .ok w')
    (hwhole : w₁.planFinalizedIngest candidate result recoveredNotes spentUpdates spendAuthenticator = .ok next) :
    next.notes = w'.notes ∧ next.activePreparedPlans = w'.activePreparedPlans := by
  obtain ⟨notes, plans, active, _, hnotes, hreported, hrecorded, _, hreplay, rfl⟩ :=
    (planFinalizedIngest_iff hw₀ hrollback).mp hpruned
  obtain ⟨notes', plans', active', _, hnotes', _, hrecorded', _, hreplay', rfl⟩ :=
    (planFinalizedIngest_iff hw₁ hrollback).mp hwhole
  have hnodup := reported_nodup hreported
  constructor
  · have hrequired : ∃ required, requiredDeposits candidate result = .ok required := by
      simp only [DurableWalletStateV1.ingestNotes, except_bind_eq_ok] at hnotes'
      obtain ⟨required, hrequired, _⟩ := hnotes'
      exact ⟨required, hrequired⟩
    obtain ⟨required, hrequired⟩ := hrequired
    have hsame := ingestNotes_congr hrequired hnotes
    rw [h.notes, hnotes'] at hsame
    exact Except.ok.inj hsame
  · obtain rfl := ((recordPlanEvents_new (planEvents_new hZ.chain hZ.plans hzslot hplans) hnodup).mp hrecorded).2
    obtain rfl := ((recordPlanEvents_new (planEvents_new hY hon hslot hplans) hnodup).mp hrecorded').2
    exact h.replay_eq hreplay' hreplay

/-- A report that the pruned wallet takes is taken by the whole wallet too, if it has room for the plan events. -/
theorem Prunes.ingest_exists (h : Prunes Y Z) (hY : Y.chain.Valid)
    (hon : ∀ event ∈ Y.plans, OnChain Y.chain.anchor Y.chain.segments (planLifecycleEventIdV1 event).point) (hZ : Z.Valid)
    (hC : C.Valid) (hslot : Z.chain.head.slot < C.head.slot)
    (hplans : ∀ event ∈ result.planLifecycle, (planLifecycleEventIdV1 event).point = C.head)
    (hadvance : result.advance = .advanced) (hrollback : result.rollback = none)
    {active₀ : List AuthenticatedPreparedSettlementV1} (hreplays : replayPreparedPlanLifecycleV1 Y.base Y.plans = .ok active₀)
    (hroom : Y.plans.length + result.planLifecycle.length ≤ MAX_PLAN_LIFECYCLE_RECORDS) (hw₀ : Stores w₀ Z)
    (hw₁ : Stores w₁ Y)
    (hpruned : w₀.planFinalizedIngest C.toState result recoveredNotes spentUpdates spendAuthenticator = .ok w') :
    ∃ candidate next, candidate.head = C.head ∧
      w₁.planFinalizedIngest candidate result recoveredNotes spentUpdates spendAuthenticator = .ok next := by
  obtain ⟨notes, plans, active, hvalidate, hnotes, hreported, hrecorded, _, hreplay, rfl⟩ :=
    (planFinalizedIngest_iff hw₀ hrollback).mp hpruned
  have hnodup := reported_nodup hreported
  obtain ⟨a, ha, hchain⟩ := h.chain
  have hhead : Z.chain.head = Y.chain.head := by
    rw [hchain]
    exact headFrom_prune hY ha
  obtain ⟨g, rfl, hg⟩ : ∃ g, C = Z.chain.concat g ∧ Z.chain.head.slot < g.slot := by
    rcases (reportedIds_direct hC hrollback hvalidate).1 with rfl | hconcat
    · exact absurd hslot (lt_irrefl _)
    · exact hconcat
  have hyslot : Y.chain.head.slot < g.slot := by rwa [← hhead]
  have hwhole : (Y.chain.concat g).Valid := valid_concat_of_prune hY ha (hchain ▸ hC) hyslot
  have hvalidate' : validateCandidateTransitionV1 Y.chain.toState (Y.chain.concat g).toState result = .ok () :=
    (validateCandidateTransitionV1_concat hY hwhole hyslot hadvance hrollback).mpr
      ((validateCandidateTransitionV1_concat hZ.chain hC hg hadvance hrollback).mp hvalidate)
  have hrequired : requiredDeposits (Y.chain.concat g).toState result =
      .ok ((result.depositEventIds.zip result.depositOutcomes).filterMap requiredAccess) := by
    have hids : ∀ deposit ∈ result.depositEventIds.zip result.depositOutcomes,
        deposit.1 ∈ (Y.chain.concat g).toState.retainedEventIdsInBlockV1 deposit.1.point := by
      intro deposit hdeposit
      have hreported : deposit.1 ∈ result.reportedIds := List.mem_append_left _ (List.of_mem_zip hdeposit).1
      obtain ⟨e, he, hid⟩ := List.mem_map.mp ((reportedIds_direct hwhole hrollback hvalidate').2 _ hreported).2
      refine List.mem_map.mpr ⟨e, List.mem_filter.mpr ⟨he, ?_⟩, hid⟩
      rw [hid]
      exact decide_eq_true rfl
    rw [requiredDeposits, require_of _ hids]
    rfl
  have hplans' : ∀ event ∈ result.planLifecycle, (planLifecycleEventIdV1 event).point = (Y.chain.concat g).head := by
    intro event hevent
    rw [hplans event hevent, ScanChain.head_concat, ScanChain.head_concat]
  have hnewY : ∀ event ∈ result.planLifecycle, ∀ other ∈ Y.plans,
      planLifecycleEventIdV1 other ≠ planLifecycleEventIdV1 event :=
    planEvents_new hY hon (by rw [ScanChain.head_concat]; exact hyslot) hplans'
  have hrecorded' : result.planLifecycle.foldlM (DurableWalletStateV1.recordPlanEvent (Y.chain.concat g).toState) Y.plans =
      .ok (Y.plans ++ result.planLifecycle) := by
    apply (recordPlanEvents_new hnewY hnodup).mpr
    refine ⟨fun event hevent => ?_, rfl⟩
    rw [ScanChain.retains_iff hwhole, hplans' event hevent]
    exact onChain_head hwhole
  have hreplay' : ∃ active, replayPreparedPlanLifecycleV1 Y.base (Y.plans ++ result.planLifecycle) = .ok active := by
    obtain rfl := ((recordPlanEvents_new (planEvents_new hZ.chain hZ.plans hslot hplans) hnodup).mp hrecorded).2
    obtain ⟨opened, hopened, _⟩ := replayPreparedPlanLifecycleV1_ok hreplay
    obtain ⟨done, hdone, hbase⟩ := h.plans
    have hall : (Y.plans ++ result.planLifecycle).foldlM applyPreparedPlanLifecycleEventV1 Y.base = .ok opened := by
      rw [hdone, List.append_assoc, List.foldlM_append, hbase, except_ok_bind, hopened]
    exact ⟨_, replayPreparedPlanLifecycleV1_append hreplays hall hnewY hnodup⟩
  obtain ⟨active', hactive'⟩ := hreplay'
  rw [h.notes] at hnotes
  refine ⟨(Y.chain.concat g).toState, _, ?_, (planFinalizedIngest_iff hw₁ hrollback).mpr ⟨notes, _, active', hvalidate',
    ingestNotes_congr hrequired hnotes, hreported, hrecorded', ?_, hactive', rfl⟩⟩
  · rw [ScanChain.head_toState]
    exact (ScanChain.head_concat _ _).trans (ScanChain.head_concat _ _).symm
  · rw [List.length_append]
    exact hroom

end Direct

/-! ### Reorganizations -/

section Reorganization
variable {sha256 : Bytes → Bytes32} {w₀ s : DurableWalletStateV1} {events before after : List (WalletEvent WalletError)}
  {e : WalletEvent WalletError}

theorem run_stores {H₀ : WalletHistory} (hw₀ : Stores w₀ H₀) (hH₀ : H₀.Valid) (hrun : Run (WalletStep sha256) w₀ events w) :
    ∃ H, H.Valid ∧ Stores w H := by
  refine hrun.relates (R := fun s t => (∃ H : WalletHistory, H.Valid ∧ Stores s H) → ∃ H : WalletHistory, H.Valid ∧ Stores t H)
    (fun _ h => h) (fun h h' hs => h' (h hs)) (fun s e t hstep hs => ?_) ⟨H₀, hH₀, hw₀⟩
  obtain ⟨H, hH, hs⟩ := hs
  obtain ⟨H', hH', ht, _⟩ := hstep.cut hs hH
  exact ⟨H', hH', ht⟩

/-- The active plans are the replay of what is stored. -/
def Replayed (w : DurableWalletStateV1) : Prop :=
  replayPreparedPlanLifecycleV1 w.basePreparedPlans w.preparedPlanLifecycle = .ok w.activePreparedPlans

theorem WalletStep.replayed (h : WalletStep sha256 w e w') (hw : Replayed w) : Replayed w' := by
  obtain ⟨call, replaced, taken⟩ := e
  cases taken with
  | false =>
    obtain ⟨rfl, _⟩ := h
    exact hw
  | true =>
    obtain ⟨_, h⟩ := h
    cases call with
    | commit candidate result recoveredNotes spentUpdates spendAuthenticator =>
      simp only [WalletCallV1.perform, DurableWalletStateV1.commitFinalizedIngestV1, DurableWalletStateV1.planFinalizedIngest,
        DurableWalletStateV1.ingestPlans, except_bind_eq_ok, require_eq_ok, except_pure_eq_ok] at h
      obtain ⟨_, ⟨_, _, _, _, _, _, _, ⟨_, _, _, _, _, _, _, hreplay, rfl⟩, rfl⟩, hreplace⟩ := h
      rw [replaceImage_ok hreplace]
      exact hreplay
    | prune ancestor =>
      simp only [WalletCallV1.perform, DurableWalletStateV1.pruneFinalizedHistoryThroughV1,
        DurableWalletStateV1.planPruneHistory, except_bind_eq_ok, except_pure_eq_ok] at h
      obtain ⟨_, ⟨_, ⟨_, _, _, _, _, hreplay, rfl⟩, _, hreplace, rfl⟩, rfl⟩ := h
      rw [replaceImage_ok hreplace]
      exact hreplay
    | deliver recovered =>
      simp only [WalletCallV1.perform, DurableWalletStateV1.storeAuthenticatedDeliveryV1, except_bind_eq_ok, require_eq_ok,
        except_pure_eq_ok] at h
      obtain ⟨_, ⟨_, _, _, _, _, _, h⟩, rfl⟩ := h
      split_ifs at h with hexists
      · rw [except_pure_eq_ok] at h
        rw [← h]
        exact hw
      · simp only [except_bind_eq_ok, except_pure_eq_ok] at h
        obtain ⟨_, hreplace, rfl⟩ := h
        rw [replaceImage_ok hreplace]
        exact hw
    | replaceCipher old new replacements =>
      simp only [WalletCallV1.perform, DurableWalletStateV1.replaceNoteCipherV1, except_bind_eq_ok, require_eq_ok] at h
      obtain ⟨_, _, _, _, _, _, _, _, hreplace⟩ := h
      rw [replaceImage_ok hreplace]
      exact hw

theorem run_replayed (hw₀ : Replayed w₀) (hrun : Run (WalletStep sha256) w₀ events w) : Replayed w :=
  hrun.relates (R := fun s t => Replayed s → Replayed t) (fun _ h => h) (fun h h' hs => h' (h hs))
    (fun _ _ _ hstep => hstep.replayed) hw₀

/-- In `s` the block at `p` was the head, and none of the calls since commits it again. -/
structure HeadSince (sha256 : Bytes → Bytes32) (p : FinalizedChainPointV1) (w₀ : DurableWalletStateV1)
    (before : List (WalletEvent WalletError)) (s : DurableWalletStateV1) (after : List (WalletEvent WalletError))
    (w : DurableWalletStateV1) : Prop where
  earlier : Run (WalletStep sha256) w₀ before s
  later : Run (WalletStep sha256) s after w
  head : s.scanState.head = p
  since : ∀ e ∈ after, e.commits p = false

theorem WalletStep.head (h : WalletStep sha256 w e w') (hcommits : e.commits p = true) : w'.scanState.head = p := by
  obtain ⟨call, replaced, taken⟩ := e
  cases taken with
  | false => cases hcommits
  | true =>
    obtain ⟨_, h⟩ := h
    cases call with
    | commit candidate result recoveredNotes spentUpdates spendAuthenticator =>
      simp only [WalletCallV1.perform, DurableWalletStateV1.commitFinalizedIngestV1, DurableWalletStateV1.planFinalizedIngest,
        except_bind_eq_ok, except_pure_eq_ok] at h
      obtain ⟨_, ⟨_, _, _, _, _, _, _, _, rfl⟩, hreplace⟩ := h
      rw [replaceImage_ok hreplace]
      exact of_decide_eq_true hcommits
    | prune ancestor => cases hcommits
    | deliver recovered => cases hcommits
    | replaceCipher old new replacements => cases hcommits

/-- Either a run has a last commit of `p`, or it never commits `p`. -/
theorem headSince_or_never (hrun : Run (WalletStep sha256) w₀ events w) :
    (∃ before after s, events = before ++ after ∧ HeadSince sha256 p w₀ before s after w) ∨ ∀ e ∈ events, e.commits p = false := by
  induction events using List.reverseRecOn generalizing w with
  | nil => exact .inr fun e he => absurd he List.not_mem_nil
  | append_singleton events e ih =>
    obtain ⟨x, hevents, hlast⟩ := hrun.split
    cases hlast with
    | cons hstep hnil =>
      cases hnil with
      | nil =>
        cases hcommits : e.commits p with
        | true =>
          refine .inl ⟨events ++ [e], [], w, (List.append_nil _).symm, hrun, .nil w, hstep.head hcommits, ?_⟩
          exact fun e' he' => absurd he' List.not_mem_nil
        | false =>
          rcases ih hevents with ⟨before, after, s, rfl, hsince⟩ | hnever
          · refine .inl ⟨before, after ++ [e], s, List.append_assoc .., hsince.earlier,
              hsince.later.append (.cons hstep (.nil w)), hsince.head, fun e' he' => ?_⟩
            rcases List.mem_append.mp he' with hmem | hnew
            · exact hsince.since e' hmem
            · rw [List.mem_singleton.mp hnew]
              exact hcommits
          · refine .inr fun e' he' => ?_
            rcases List.mem_append.mp he' with hmem | hnew
            · exact hnever e' hmem
            · rw [List.mem_singleton.mp hnew]
              exact hcommits

/-- A block on the chain that is never committed was on it from the start. -/
theorem onChain_start {H₀ : WalletHistory} (hw₀ : Stores w₀ H₀) (hH₀ : H₀.Valid) (hrun : Run (WalletStep sha256) w₀ events w)
    (hnever : ∀ e ∈ events, e.commits p = false) (hw : Stores w H) (hp : OnChain H.chain.anchor H.chain.segments p) :
    OnChain H₀.chain.anchor H₀.chain.segments p := by
  have hnever' : Run (fun s e t => WalletStep sha256 s e t ∧ WalletEvent.commits p e = false) w₀ (events.map id) w :=
    hrun.map fun s t e he hstep => ⟨hstep, hnever e he⟩
  have hback := hnever'.relates (R := fun s t => (∃ G : WalletHistory, G.Valid ∧ Stores s G ∧
      (OnChain G.chain.anchor G.chain.segments p → OnChain H₀.chain.anchor H₀.chain.segments p)) →
      ∃ G : WalletHistory, G.Valid ∧ Stores t G ∧
        (OnChain G.chain.anchor G.chain.segments p → OnChain H₀.chain.anchor H₀.chain.segments p))
    (fun _ h => h) (fun h h' hs => h' (h hs)) (fun s e t hstep hs => ?_) ⟨H₀, hH₀, hw₀, id⟩
  · obtain ⟨G, _, hG, himp⟩ := hback
    have hchain : G.chain = H.chain := ScanChain.toState_injective (hG.scanState.symm.trans hw.scanState)
    rw [← hchain] at hp
    exact himp hp
  · obtain ⟨G, hG, hs, himp⟩ := hs
    obtain ⟨G', hG', ht, hcut⟩ := hstep.1.cut hs hG
    exact ⟨G', hG', ht, fun hp => himp (hcut p hp hstep.2).1⟩

/-- The wallet with the notes that later calls deliver for its own blocks. -/
def DurableWalletStateV1.deliver (s : DurableWalletStateV1) (after : List (WalletEvent WalletError)) : DurableWalletStateV1 :=
  { s with notes := deliverNotes s.scanState.head.slot s.notes after }

variable {candidate : ScanStateV1} {result : FinalizedBlockIngestResultV1 WalletError} {rollback : RollbackSummaryV1}
  {recoveredNotes : List SealedRecoveredNoteV1} {spentUpdates : List AuthenticatedSpentNoteUpdateV1}
  {spendAuthenticator : LocalSpendAuthenticatorV1}

/-- Nothing that a commit after a rollback leaves names a removed event. -/
theorem removed_unnamed {C : ScanChain} (hH : H.Valid) (hC : C.Valid)
    (hfresh : ¬ H.chain.toState.retainsChainPointV1 C.head) (hstores : Stores w₀ (H.upTo p.slot))
    (hplan : w₀.planFinalizedIngest C.toState result.direct recoveredNotes spentUpdates spendAuthenticator = .ok w') :
    NamesOnly (· ∉ (H.chain.rollbackSummary p).removedEvents) w'.notes := by
  obtain ⟨notes, plans, active, hvalidate, hnotes, _, _, _, _, rfl⟩ := (planFinalizedIngest_iff hstores rfl).mp hplan
  have hreported := (reportedIds_direct hC rfl hvalidate).2
  have hnames : NamesOnly (fun id => id.point.slot ≤ p.slot ∨ id.point = C.head) notes :=
    ingestNotes_names hnotes (fun id hid => .inr (hreported id hid).1) (hH.notes.upTo.mono fun id hid => .inl hid.2)
  apply hnames.mono
  intro id hid hremoved
  obtain ⟨e, he, rfl⟩ := List.mem_map.mp hremoved
  obtain ⟨g, hg, heg⟩ := List.mem_flatMap.mp he
  obtain ⟨hmem, hslot⟩ := List.mem_filter.mp hg
  have hlater : p.slot < g.slot := of_decide_eq_true hslot
  rw [hH.chain.own g hmem e heg] at hid
  rcases hid with hearly | hhead
  · exact absurd (lt_of_lt_of_le hlater hearly) (lt_irrefl _)
  · apply hfresh
    rw [← hhead]
    exact (ScanChain.retains_iff hH.chain).mpr (onChain_of_mem hH.chain.linked hmem)

/-- After any history of a new wallet, a commit that rolls back to a retained block and adds a replacement block leaves what
its commit on the earlier wallet leaves, in which that block was the head: there is such an earlier wallet, nothing
left names a removed event, and for every such earlier wallet, with the notes delivered for its blocks since, the
replacement block committed directly leaves the same notes, the same spent markers and the same active plans, whatever was
pruned in between. It is accepted there whenever there is room for its plan events, and without a prune in between the
whole wallets are the same. -/
theorem reorganization_restores {identity : DepositScanIdentityV1} {anchor : FinalizedChainPointV1} {nextLeafIndex : ℕ}
    {root noteCipherId : Bytes32} {s₀ : ScanStateV1} {created replaced : Except DurableStateErrorV1 Unit}
    (hnew : ScanStateV1.new identity anchor nextLeafIndex root = .ok s₀)
    (hcreate : DurableWalletStateV1.createV1 sha256 created s₀ noteCipherId = .ok w₀)
    (hrun : Run (WalletStep sha256) w₀ events w) (hingested : Ingested w.scanState candidate result)
    (hrollback : result.rollback = some rollback)
    (hcommit : w.commitFinalizedIngestV1 sha256 replaced candidate result recoveredNotes spentUpdates spendAuthenticator =
      .ok w') :
    (∃ before after s, events = before ++ after ∧ HeadSince sha256 rollback.head w₀ before s after w) ∧
    (∀ note ∈ w'.notes, note.eventId ∉ rollback.removedEvents ∧
      ∀ spent ∈ note.spent, spent.transitionOutputId ∉ rollback.removedEvents) ∧
    ∀ before after s, events = before ++ after → HeadSince sha256 rollback.head w₀ before s after w →
      (∀ e ∈ after, e.replacesCipher = false) →
      (∀ candidate' next, (s.deliver after).planFinalizedIngest candidate' result.direct recoveredNotes spentUpdates
        spendAuthenticator = .ok next →
        next.notes = w'.notes ∧ next.activePreparedPlans = w'.activePreparedPlans) ∧
      (s.preparedPlanLifecycle.length + result.planLifecycle.length ≤ MAX_PLAN_LIFECYCLE_RECORDS →
        ∃ candidate' next, candidate'.head = candidate.head ∧ (s.deliver after).planFinalizedIngest candidate' result.direct
          recoveredNotes spentUpdates spendAuthenticator = .ok next) ∧
      ((∀ e ∈ after, e.prunes = false) → (s.deliver after).commitFinalizedIngestV1 sha256 replaced candidate result.direct
        recoveredNotes spentUpdates spendAuthenticator = .ok w') := by
  -- the new wallet
  obtain ⟨hstart, rfl⟩ := new_eq_toState hnew
  simp only [DurableWalletStateV1.createV1, except_bind_eq_ok, require_eq_ok] at hcreate
  obtain ⟨_, _, hcreate⟩ := hcreate
  obtain rfl := replaceImage_ok hcreate
  have hH₀ : WalletHistory.Valid ⟨⟨identity, anchor, nextLeafIndex, root, []⟩, noteCipherId, [], [], []⟩ :=
    ⟨hstart, fun _ h => absurd h List.not_mem_nil, fun _ h => absurd h List.not_mem_nil, List.Pairwise.nil⟩
  have hw₀ : Stores ⟨(ScanChain.mk identity anchor nextLeafIndex root []).toState, noteCipherId, [], [], [], []⟩
    ⟨⟨identity, anchor, nextLeafIndex, root, []⟩, noteCipherId, [], [], []⟩ := ⟨rfl, rfl, rfl, rfl, rfl⟩
  -- the commit is a direct one on the wallet cut at the retained block
  obtain ⟨H, hH, hw⟩ := run_stores hw₀ hH₀ hrun
  obtain ⟨⟨C, hC, rfl⟩, hplans, hfresh⟩ := hingested
  have hfresh' : ¬ H.chain.toState.retainsChainPointV1 C.head := by
    have := hfresh (by rw [hrollback]; rfl)
    rwa [hw.scanState, ScanChain.head_toState] at this
  rw [ScanChain.head_toState] at hplans
  simp only [DurableWalletStateV1.commitFinalizedIngestV1, except_bind_eq_ok] at hcommit
  obtain ⟨_, hplan, hreplace⟩ := hcommit
  obtain rfl := replaceImage_ok hreplace
  have hdirect : ∀ x, Stores x (H.upTo rollback.head.slot) → _ :=
    fun x hx => planFinalizedIngest_reorg hw hH hC hfresh' hrollback hx hplan
  have hcut : Stores ⟨(H.upTo rollback.head.slot).chain.toState, H.noteCipherId, (H.upTo rollback.head.slot).notes, H.base,
    (H.upTo rollback.head.slot).plans, []⟩ (H.upTo rollback.head.slot) := ⟨rfl, rfl, rfl, rfl, rfl⟩
  obtain ⟨hadvance, hp, hsummary, hlater, hcommitted⟩ := hdirect _ hcut
  have hhead : (H.upTo rollback.head.slot).chain.head = rollback.head := hp
  refine ⟨?_, ?_, fun before after s hsplit hsince hcipher => ?_⟩
  · rcases headSince_or_never hrun with hsince | hnever
    · exact hsince
    · have honly := onChain_start hw₀ hH₀ hrun hnever hw hp
      exact ⟨[], events, _, rfl, .nil _, hrun, honly, hnever⟩
  · rw [hsummary]
    exact removed_unnamed hH hC hfresh' hcut hcommitted
  · obtain ⟨Y, hY, hs⟩ := run_stores hw₀ hH₀ hsince.earlier
    have hYhead : Y.chain.head = rollback.head := by
      rw [← hsince.head, hs.scanState, ScanChain.head_toState]
      rfl
    obtain ⟨H₂, _, hw₂, hkeeps⟩ := keepsCut_run hY hs hYhead hsince.later hsince.since hcipher
    obtain rfl := hw₂.unique hw
    obtain ⟨hprunes, hexact⟩ := hkeeps hp
    have hdelivered : Stores (s.deliver after) (Y.deliver rollback.head after) := by
      refine ⟨hs.scanState, hs.noteCipherId, ?_, hs.base, hs.plans⟩
      change deliverNotes s.scanState.head.slot s.notes after = deliverNotes rollback.head.slot Y.notes after
      rw [hsince.head, hs.notes]
    have hplans' : ∀ event ∈ result.direct.planLifecycle, (planLifecycleEventIdV1 event).point = C.head := hplans
    have hyslot : Y.chain.head.slot < C.head.slot := by rwa [hYhead]
    have hzslot : (H₂.upTo rollback.head.slot).chain.head.slot < C.head.slot := by rwa [hhead]
    refine ⟨fun candidate' next hnext => ?_, fun hroom => ?_, fun hno => ?_⟩
    · exact hprunes.ingest_eq hY.chain hY.plans (hH.upTo _) hyslot hzslot hplans' rfl hcut hdelivered hcommitted hnext
    · have hempty : Replayed ⟨(ScanChain.mk identity anchor nextLeafIndex root []).toState, noteCipherId, [], [], [], []⟩ := by
        simp [Replayed, replayPreparedPlanLifecycleV1, require, sortByCorePlan]
      have hreplayed := run_replayed hempty hsince.earlier
      rw [Replayed, hs.base, hs.plans] at hreplayed
      rw [hs.plans] at hroom
      rw [ScanChain.head_toState]
      exact hprunes.ingest_exists hY.chain hY.plans (hH.upTo _) hC hzslot hplans' hadvance rfl hreplayed hroom hcut hdelivered
        hcommitted
    · rw [← hexact hno] at hdelivered
      have hplanned := (hdirect _ hdelivered).2.2.2.2
      simp only [DurableWalletStateV1.commitFinalizedIngestV1, except_bind_eq_ok]
      exact ⟨_, hplanned, hreplace⟩

end Reorganization

/-! ### A sample reorganization -/

namespace SampleWallet

open SampleScan

def sha256 : Bytes → Bytes32 := fun _ => Bytes32.zero

def noteCipherId : Bytes32 := Bytes32.filled 9

def created : DurableWalletStateV1 := ⟨start.toState, noteCipherId, [], [], [], []⟩

/-- A plan that the block at slot 1 opens. -/
def plan : AuthenticatedPreparedSettlementV1 where
  id := { output.id with
    transactionSignature := List.replicate 64 2
    signature_length := by decide
    signature_ne := by decide }
  transitionKind := .privateTransfer
  sourceRootSequence := 0
  notBeforeSlot := 0
  expiresAtSlot := 0
  planAuthority := Bytes32.filled 1
  authorizationReceipt := Bytes32.filled 1
  verifierRegistry := Bytes32.filled 1
  verifierEntry := Bytes32.filled 1
  verifierProfile := Bytes32.filled 1
  verifierRelease := Bytes32.filled 1
  corePlan := Bytes32.filled 1
  rolloverPage := none
  rolloverShard := none

/-- The report of a block in which nothing happens. -/
def quiet : FinalizedBlockIngestResultV1 Unit := ⟨.advanced, none, [], [], [], [], [], [], [], [], []⟩

/-- A private transfer whose only new output is the one of the block at slot 1. -/
def transfer : FinalizedTransitionEvidenceV1 :=
  ⟨⟨.privateTransfer, identity.pool, Digest.zero, Digest.zero, zeros 32, 0, 0, 0, 1, Digest.zero⟩, [output.id], none⟩

/-- The report of the block at slot 1: an output and a prepared plan. -/
def busy : FinalizedBlockIngestResultV1 Unit :=
  ⟨.advanced, none, [], [], [.advanced], [transfer], [⟨output.id, 0, 1, Bytes32.zero, Bytes32.zero⟩], [plan], [],
    [.prepared plan], [⟨output.id, 1, Bytes32.zero⟩]⟩

/-- The wallet's own note in that output. -/
def note : SealedRecoveredNoteV1 := ⟨output.id, .spendable, [1]⟩

def noAuthenticator : LocalSpendAuthenticatorV1 := fun _ _ _ => false

/-- The wallet after that block. -/
def committed : DurableWalletStateV1 :=
  ⟨oneBlock.toState, noteCipherId, [⟨output.id, .spendable, [1], none⟩], [], [.prepared plan], [plan]⟩

def busyCommit : WalletEvent Unit := ⟨.commit oneBlock.toState busy [note] [] noAuthenticator, .ok (), true⟩

/-- Another block at slot 1. -/
def otherBlock : FinalizedBlockV1 :=
  ⟨⟨1, Bytes32.filled 2, output.id.point.slot_lt, identity.domain_ne⟩, anchor, Nat.zero_lt_one⟩

def reorganization : FinalizedBlockIngestResultV1 Unit := { quiet with rollback := some (oneBlock.rollbackSummary anchor) }

/-- The wallet after the other block has taken the place of the first. -/
def reorganized : DurableWalletStateV1 := ⟨(start.extend otherBlock).toState, noteCipherId, [], [], [], []⟩

theorem ok_of_toOption {ε α : Type} {x : Except ε α} {a : α} (h : x.toOption = some a) : x = .ok a := by
  cases x with
  | error e => cases h
  | ok b => exact congrArg Except.ok (Option.some.inj h)

set_option maxRecDepth 10000 in
theorem calls_succeed :
    (DurableWalletStateV1.createV1 sha256 (.ok ()) start.toState noteCipherId).toOption = some created ∧
    (busyCommit.call.perform sha256 (.ok ()) created).toOption = some committed ∧
    (committed.commitFinalizedIngestV1 sha256 (.ok ()) (start.extend otherBlock).toState reorganization [] []
      noAuthenticator).toOption = some reorganized := by
  decide +kernel

end SampleWallet

open SampleScan SampleWallet in
/-- A block with a note and a prepared plan is replaced: the wallet is the new one with the other block committed. -/
theorem reorganization_restores_sample :
    committed.notes ≠ [] ∧ committed.activePreparedPlans = [plan] ∧
    (created.deliver [busyCommit]).commitFinalizedIngestV1 SampleWallet.sha256 (.ok ()) (start.extend otherBlock).toState
      reorganization.direct [] [] noAuthenticator = .ok reorganized := by
  obtain ⟨hcreate, hbusy, hreorganize⟩ := calls_succeed
  have hcommitted : Ingested created.scanState oneBlock.toState busy := by
    refine ⟨⟨oneBlock, oneBlock_valid, rfl⟩, fun event hevent => ?_, fun hrollback => by cases hrollback⟩
    rw [List.mem_singleton.mp hevent]
    rfl
  have hreplacing : Ingested committed.scanState (start.extend otherBlock).toState reorganization := by
    refine ⟨⟨start.extend otherBlock, start_valid.extend rfl, rfl⟩, fun event hevent => absurd hevent List.not_mem_nil,
      fun _ => ?_⟩
    decide
  have hrun : Run (WalletStep SampleWallet.sha256) created [busyCommit] committed :=
    .cons ⟨hcommitted, ok_of_toOption hbusy⟩ (.nil _)
  have hsince : HeadSince SampleWallet.sha256 (oneBlock.rollbackSummary anchor).head created [] created [busyCommit] committed :=
    ⟨.nil _, hrun, rfl, by decide⟩
  have hmain := reorganization_restores new_eq (ok_of_toOption hcreate) hrun hreplacing rfl (ok_of_toOption hreorganize)
  refine ⟨by decide, rfl, (hmain.2.2 [] [busyCommit] created rfl hsince (by decide)).2.2 (by decide)⟩

end Aspis.Wallet
