import Aspis.Lib.Run
import Aspis.Wallet.ScanImage
import Aspis.Wallet.ScanSteps

/-! Histories of a scan cursor: any calls, taken or refused, in any order. Cutting
the chain at a slot commutes with every call at or before the slot and hides every
call after it, so the cursor rolled back to a block is the cursor of the history
without the calls after that block. -/

namespace Aspis.Wallet

open Lib Statement Pool

variable {ViewingSecret KeyStore WalletError : Type}

/-- A call of the wallet on its cursor. -/
inductive ScanCallV1 (ViewingSecret KeyStore : Type)
  | advance (block : FinalizedBlockV1)
  | deposit (observation : FinalizedDepositRecordV1) (viewingSecret : ViewingSecret) (localKeys : KeyStore)
  | publicOutput (observation : FinalizedPublicOutputRecordV1)
  | prune (ancestor : FinalizedChainPointV1)
  | rollback (ancestor : FinalizedChainPointV1)

/-- Run a call for its effect alone. -/
def forget {α : Type} (x : Exec ScanStateErrorV1 ScanStateV1 α) : Exec ScanStateErrorV1 ScanStateV1 Unit := do
  let _ ← x
  return ()

theorem forget_ok {α : Type} {x : Exec ScanStateErrorV1 ScanStateV1 α} {s t : ScanStateV1} {u : Unit} :
    forget x s = .ok u t ↔ ∃ answer, x s = .ok answer t := by
  simp only [forget, Exec.bind_ok, Exec.pure_ok]
  constructor
  · rintro ⟨answer, t', hx, _, rfl⟩
    exact ⟨answer, hx⟩
  · rintro ⟨answer, hx⟩
    exact ⟨answer, t, hx, trivial, rfl⟩

theorem forget_error {α : Type} {x : Exec ScanStateErrorV1 ScanStateV1 α} {s t : ScanStateV1} {e : ScanStateErrorV1} :
    forget x s = .error e t ↔ x s = .error e t := by
  simp only [forget, Exec.bind_error, Exec.pure_ne_error, and_false, exists_false, or_false]

theorem commitPlan_error {α : Type} {plan : ScanStateV1 → Except ScanStateErrorV1 (ScanStateV1 × α)} {s t : ScanStateV1}
    {e : ScanStateErrorV1} (h : commitPlan plan s = .error e t) : plan s = .error e ∧ t = s := by
  simp only [commitPlan, Exec.bind_error, Exec.query_error, Exec.update_ne_error, Exec.pure_ne_error, and_false,
    exists_false, or_false] at h
  exact ⟨h.1, h.2.symm⟩

namespace ScanCallV1

/-- The slot of the block a call is about. -/
def slot : ScanCallV1 ViewingSecret KeyStore → ℕ
  | .advance block => block.point.slot
  | .deposit observation _ _ => observation.id.point.slot
  | .publicOutput observation => observation.id.point.slot
  | .prune ancestor => ancestor.slot
  | .rollback ancestor => ancestor.slot

def isPrune : ScanCallV1 ViewingSecret KeyStore → Bool
  | .prune _ => true
  | _ => false

def perform (services : ScanServicesV1 ViewingSecret KeyStore WalletError) :
    ScanCallV1 ViewingSecret KeyStore → Exec ScanStateErrorV1 ScanStateV1 Unit
  | .advance block => forget (advanceFinalizedBlockV1 block)
  | .deposit observation viewingSecret localKeys =>
      forget (ingestFinalizedDepositV1 services observation viewingSecret localKeys)
  | .publicOutput observation => forget (ingestFinalizedPublicOutputV1 services observation)
  | .prune ancestor => forget (pruneFinalizedHistoryThroughV1 ancestor)
  | .rollback ancestor => forget (rollbackToV1 ancestor)

/-- The cursor takes the call and goes from one state to the next. -/
def Takes (services : ScanServicesV1 ViewingSecret KeyStore WalletError) (s : ScanStateV1)
    (call : ScanCallV1 ViewingSecret KeyStore) (t : ScanStateV1) : Prop := call.perform services s = .ok () t

end ScanCallV1

/-! ### One call on the chain -/

/-- Accepted transitions that move the chain, and commute with cutting it: at a slot from `slot` on they do the same
to what is left, before `slot` they leave it as it is. -/
def CutsWith (slot : ℕ) (accepts : ScanStateV1 → ScanStateV1 → Prop) : Prop :=
  ∀ C : ScanChain, C.Valid → ∀ t, accepts C.toState t → ∃ C' : ScanChain, C'.Valid ∧ t = C'.toState ∧
    C.anchor.slot ≤ C'.anchor.slot ∧ ∀ σ, C'.anchor.slot ≤ σ →
      (slot ≤ σ → accepts (C.upTo σ).toState (C'.upTo σ).toState) ∧ (σ < slot → C'.upTo σ = C.upTo σ)

/-- Accepted transitions of a pruned chain that the whole chain can make too. -/
def UnprunesWith (accepts : ScanStateV1 → ScanStateV1 → Prop) : Prop :=
  ∀ (C : ScanChain) (a : FinalizedChainPointV1), C.Valid → OnChain C.anchor C.segments a →
    ∀ t, accepts (C.prune a).toState t → ∃ C' : ScanChain, C'.Valid ∧ OnChain C'.anchor C'.segments a ∧
      accepts C.toState C'.toState ∧ t = (C'.prune a).toState

/-- What a plan can do. -/
def Plans {α : Type} (plan : ScanStateV1 → Except ScanStateErrorV1 (ScanStateV1 × α)) (s t : ScanStateV1) : Prop :=
  ∃ answer, plan s = .ok (t, answer)

section Cut
variable {C : ScanChain} {xs : List Segment} {p a : FinalizedChainPointV1} {σ : ℕ}

theorem upToSlot_concat_of_lt {g : Segment} (h : σ < g.slot) : upToSlot σ (xs ++ [g]) = upToSlot σ xs := by
  have hg : ([g] : List Segment).filter (·.slot ≤ σ) = [] := by simpa using h
  rw [upToSlot, List.filter_append, hg, List.append_nil]
  rfl

theorem afterSlot_concat_of_lt {g : Segment} (h : σ < g.slot) : afterSlot σ (xs ++ [g]) = afterSlot σ xs ++ [g] := by
  have hg : ([g] : List Segment).filter (σ < ·.slot) = [g] := by simpa using h
  rw [afterSlot, List.filter_append, hg]
  rfl

/-- A point stays on the chain when the chain is cut after it. -/
theorem onChain_upTo (hp : OnChain C.anchor C.segments p) (h : p.slot ≤ σ) :
    OnChain (C.upTo σ).anchor (C.upTo σ).segments p := by
  have hcut : upToSlot p.slot (C.upTo σ).segments = upToSlot p.slot C.segments := upToSlot_upToSlot h
  rw [OnChain, hcut]
  exact hp

theorem upTo_upTo {τ : ℕ} (h : σ ≤ τ) : (C.upTo τ).upTo σ = C.upTo σ :=
  congrArg (ScanChain.mk C.identity C.anchor C.anchorNextLeafIndex C.anchorRoot) (upToSlot_upToSlot h)

theorem upTo_upTo_of_le {τ : ℕ} (h : σ ≤ τ) : (C.upTo σ).upTo τ = C.upTo σ :=
  congrArg (ScanChain.mk C.identity C.anchor C.anchorNextLeafIndex C.anchorRoot) (upToSlot_upToSlot_of_le h)

/-- Cutting the start and cutting the end of a chain commute. -/
theorem prune_upTo (h : a.slot ≤ σ) : (C.upTo σ).prune a = (C.prune a).upTo σ := by
  simp only [ScanChain.prune, ScanChain.upTo, upToSlot_upToSlot h, afterSlot_upToSlot]

theorem planAdvance_cutsWith (block : FinalizedBlockV1) : CutsWith block.point.slot (Plans (planAdvance block)) := by
  rintro C hC t ⟨answer, hok⟩
  rcases ScanChain.advance_cases hok with ⟨hlast, rfl⟩ | ⟨hparent, rfl⟩
  · have hhead : headFrom C.anchor C.segments = block.point := by
      have := congrArg (Option.map (·.point)) hlast
      rw [Option.map_map] at this
      rw [ScanChain.headFrom_eq]
      exact congrArg (Option.getD · C.anchor) this
    refine ⟨C, hC, rfl, le_rfl, fun σ _ => ⟨fun hσ => ?_, fun _ => rfl⟩⟩
    rw [hC.upTo_eq_self (hhead ▸ hσ)]
    exact ⟨answer, hok⟩
  · refine ⟨C.extend block, hC.extend hparent, rfl, le_rfl, fun σ _ => ⟨fun hσ => ?_, fun hσ => ?_⟩⟩
    · have hslot := block.parent_lt
      rw [hparent] at hslot
      have hhead : headFrom (C.extend block).anchor (C.extend block).segments = block.point := headFrom_append
      rw [hC.upTo_eq_self (hslot.le.trans hσ), (hC.extend hparent).upTo_eq_self (hhead ▸ hσ)]
      exact ⟨answer, hok⟩
    · have hcut : upToSlot σ (C.extend block).segments = upToSlot σ C.segments := upToSlot_concat_of_lt hσ
      rw [ScanChain.upTo, hcut]
      rfl

/-- Cutting the chain after the block of an event does not change whether the event is known. -/
theorem knownEvent_upTo (hC : C.Valid) {id : DepositEventIdV1} {f : Bytes32} (h : id.point.slot ≤ σ) :
    (C.upTo σ).toState.knownEvent id f = C.toState.knownEvent id f := by
  apply knownEvent_congr
  change (eventsOf (upToSlot σ C.segments)).find? _ = (eventsOf C.segments).find? _
  rw [hC.eventsOf_upTo, List.find?_filter]
  congr 1
  funext e
  by_cases he : e.id = id
  · simp [he, h]
  · simp [he]

theorem Ingests.cutsWith {α : Type} {id : DepositEventIdV1}
    {plan : ScanStateV1 → Except ScanStateErrorV1 (ScanStateV1 × α)} (h : Ingests id plan) :
    CutsWith id.point.slot (Plans plan) := by
  rintro C hC t ⟨answer, hok⟩
  obtain ⟨f, ⟨hknown, rfl, hsame⟩ | ⟨hnew, e, hfits, rfl, _⟩⟩ := h _ _ _ hok
  · refine ⟨C, hC, rfl, le_rfl, fun σ _ => ⟨fun hσ => ?_, fun _ => rfl⟩⟩
    exact hsame _ ((knownEvent_upTo hC hσ).trans hknown)
  · obtain ⟨xs, g, hsplit, hpoint⟩ := ScanChain.current_split hfits.current
    have hvalid := hC.record hfits (knownEvent_false.mp hnew)
    have hsegments := @ScanChain.segments_record C xs g e hsplit
    refine ⟨C.record e, hvalid, (ScanChain.toState_record hsplit).symm, le_rfl, fun σ _ => ⟨fun hσ => ?_, fun hσ => ?_⟩⟩
    · have hhead : headFrom C.anchor C.segments = id.point := by
        rw [hsplit, headFrom_append]
        exact hpoint
      have hhead' : headFrom (C.record e).anchor (C.record e).segments = id.point := by
        rw [hsegments, headFrom_append]
        exact hpoint
      rw [hC.upTo_eq_self (hhead ▸ hσ), hvalid.upTo_eq_self (hhead' ▸ hσ), ScanChain.toState_record hsplit]
      exact ⟨answer, hok⟩
    · have hg : σ < g.slot := by rwa [Segment.slot, hpoint]
      have hcut : upToSlot σ (C.record e).segments = upToSlot σ C.segments := by
        rw [hsegments, hsplit, upToSlot_concat_of_lt hg]
        exact upToSlot_concat_of_lt hg
      rw [ScanChain.upTo, hcut]
      rfl

/-- A rollback that is not refused goes to a point of the chain. -/
theorem onChain_of_planRollback (hC : C.Valid) {r : ScanStateV1 × RollbackSummaryV1}
    (hok : planRollback p C.toState = .ok r) : OnChain C.anchor C.segments p := by
  simp only [planRollback, except_bind_eq_ok, okOr_eq_ok] at hok
  obtain ⟨keep, hkeep, _⟩ := hok
  apply (ScanChain.retains_iff hC).mp
  unfold ScanStateV1.blocksThrough at hkeep
  split_ifs at hkeep with hanchor
  · exact .inl hanchor
  · obtain ⟨i, hi, _⟩ := Option.map_eq_some_iff.mp hkeep
    obtain ⟨c, hc⟩ := List.findIdx?_eq_some_iff_getElem.mp hi
    exact .inr ⟨_, List.getElem_mem c, of_decide_eq_true hc.1⟩

theorem planRollback_cutsWith (p : FinalizedChainPointV1) : CutsWith p.slot (Plans (planRollback p)) := by
  rintro C hC t ⟨answer, hok⟩
  have hp := onChain_of_planRollback hC hok
  have heq := hC.planRollback_eq hp
  obtain rfl : (C.upTo p.slot).toState = t := ((Prod.mk.injEq ..).mp (Except.ok.inj (heq.symm.trans hok))).1
  refine ⟨C.upTo p.slot, hC.upTo p.slot, rfl, le_rfl, fun σ _ => ⟨fun hσ => ?_, fun hσ => upTo_upTo hσ.le⟩⟩
  rw [upTo_upTo_of_le hσ, ← @upTo_upTo C _ _ hσ]
  exact ⟨_, (hC.upTo σ).planRollback_eq (onChain_upTo hp hσ)⟩

/-- A prune goes to a point of the chain or is refused without effect. -/
theorem prune_cases (hC : C.Valid) (a : FinalizedChainPointV1) :
    (OnChain C.anchor C.segments a ∧
      pruneFinalizedHistoryThroughV1 a C.toState = .ok (C.pruneSummary a) (C.prune a).toState) ∨
    ∃ e, pruneFinalizedHistoryThroughV1 a C.toState = .error e C.toState := by
  by_cases ha : OnChain C.anchor C.segments a
  · exact .inl ⟨ha, hC.prune_eq ha⟩
  · right
    have hnot := mt (ScanChain.retains_iff hC).mp ha
    have hanchor : a ≠ C.toState.anchor := fun heq => hnot (.inl heq)
    have hindex : C.toState.blocks.findIdx? (·.block.point = a) = none := by
      rw [List.findIdx?_eq_none_iff]
      exact fun c hc => decide_eq_false fun heq => hnot (.inr ⟨c, hc, heq⟩)
    refine ⟨.noRetainedAncestor, ?_⟩
    rw [pruneFinalizedHistoryThroughV1, if_neg hanchor, Exec.bind_error]
    left
    have hplan : planPrune a C.toState = .error .noRetainedAncestor := by
      rw [planPrune, hindex]
      rfl
    rw [commitPlan, Exec.bind_error]
    exact .inl (Exec.query_error.mpr ⟨hplan, rfl⟩)

theorem prune_cutsWith (a : FinalizedChainPointV1) :
    CutsWith a.slot fun s t => ∃ answer, pruneFinalizedHistoryThroughV1 a s = .ok answer t := by
  rintro C hC t ⟨answer, hok⟩
  rcases prune_cases hC a with ⟨ha, heq⟩ | ⟨e, herror⟩
  · rw [heq] at hok
    obtain rfl : (C.prune a).toState = t := ((EStateM.Result.ok.injEq ..).mp hok).2
    refine ⟨C.prune a, hC.prune ha, rfl, hC.anchor_le ha, fun σ hanchor => ⟨fun hσ => ?_, fun hσ => ?_⟩⟩
    · rw [← prune_upTo hσ]
      exact ⟨_, (hC.upTo σ).prune_eq (onChain_upTo ha hσ)⟩
    · exact absurd hanchor (Nat.not_le.mpr hσ)
  · rw [herror] at hok
    cases hok

end Cut

section Unprune
variable {C : ScanChain} {p a : FinalizedChainPointV1}

/-- What stands up to a slot, cut once more at an earlier slot. -/
theorem upToSlot_eq_append (hC : C.Valid) {σ τ : ℕ} (h : σ ≤ τ) :
    upToSlot τ C.segments = upToSlot σ C.segments ++ upToSlot τ (afterSlot σ C.segments) := by
  conv_lhs => rw [← upToSlot_append_afterSlot hC.linked σ, upToSlot, List.filter_append]
  exact congrArg (· ++ _) (upToSlot_upToSlot_of_le h)

/-- A point after the anchor of a pruned chain is a point of the whole chain. -/
theorem onChain_prune (hC : C.Valid) (ha : OnChain C.anchor C.segments a) (hle : a.slot ≤ p.slot) :
    OnChain (C.prune a).anchor (C.prune a).segments p ↔ OnChain C.anchor C.segments p := by
  rw [OnChain, OnChain, upToSlot_eq_append hC hle, headFrom_append,
    show headFrom _ (upToSlot a.slot C.segments) = a from ha]
  rfl

theorem headFrom_prune (hC : C.Valid) (ha : OnChain C.anchor C.segments a) :
    headFrom (C.prune a).anchor (C.prune a).segments = headFrom C.anchor C.segments := by
  conv_rhs => rw [← upToSlot_append_afterSlot hC.linked a.slot, headFrom_append, show headFrom _ _ = a from ha]
  rfl

theorem getLast?_of_prune (hC : C.Valid) {g : Segment} (h : (C.prune a).segments.getLast? = some g) :
    C.segments.getLast? = some g := by
  rw [← upToSlot_append_afterSlot hC.linked a.slot, List.getLast?_append]
  change (afterSlot a.slot C.segments).getLast? = some g at h
  rw [h]
  rfl

/-- Blocks after a point leave it on the chain. -/
theorem onChain_concat {g : Segment} {xs : List Segment} (h : a.slot < g.slot) :
    OnChain C.anchor (xs ++ [g]) a ↔ OnChain C.anchor xs a := by
  rw [OnChain, OnChain, upToSlot_concat_of_lt h]

theorem prune_concat {g : Segment} {xs : List Segment} (h : a.slot < g.slot) :
    ScanChain.prune { C with segments := xs ++ [g] } a =
      { ScanChain.prune { C with segments := xs } a with segments := afterSlot a.slot xs ++ [g] } := by
  simp only [ScanChain.prune, upToSlot_concat_of_lt h, afterSlot_concat_of_lt h]

theorem planAdvance_unprunes (block : FinalizedBlockV1) : UnprunesWith (Plans (planAdvance block)) := by
  rintro C a hC ha t ⟨answer, hok⟩
  rcases ScanChain.advance_cases hok with ⟨hlast, rfl⟩ | ⟨hparent, rfl⟩
  · obtain ⟨g, hg, hblock⟩ := Option.map_eq_some_iff.mp hlast
    have hcurrent : C.segments.getLast?.map (·.block) = some block := by
      rw [getLast?_of_prune hC hg, Option.map_some, hblock]
    exact ⟨C, hC, ha, ⟨_, ScanChain.planAdvance_current hcurrent⟩, rfl⟩
  · rw [headFrom_prune hC ha] at hparent
    have hslot : a.slot < block.point.slot := by
      have hle := (hC.prune ha).linked.slot_le_head.1
      have hlt := block.parent_lt
      rw [headFrom_prune hC ha] at hle
      rw [hparent] at hlt
      exact hle.trans_lt hlt
    refine ⟨C.extend block, hC.extend hparent, (onChain_concat hslot).mpr ha, ⟨_, hC.planAdvance_extend hparent⟩, ?_⟩
    exact congrArg ScanChain.toState (@prune_concat C a ⟨block, []⟩ C.segments hslot).symm

/-- Whether an event after the anchor is known does not depend on what was pruned. -/
theorem knownEvent_prune (hC : C.Valid) {id : DepositEventIdV1} {f : Bytes32} (h : a.slot < id.point.slot) :
    (C.prune a).toState.knownEvent id f = C.toState.knownEvent id f := by
  apply knownEvent_congr
  have hearlier : (eventsOf (upToSlot a.slot C.segments)).find? (·.id = id) = none := by
    rw [List.find?_eq_none]
    intro e he
    rw [hC.eventsOf_upTo] at he
    have hslot := of_decide_eq_true (List.mem_filter.mp he).2
    simp only [decide_eq_true_eq]
    rintro rfl
    omega
  change (eventsOf (afterSlot a.slot C.segments)).find? _ = (eventsOf C.segments).find? _
  conv_rhs => rw [← upToSlot_append_afterSlot hC.linked a.slot, eventsOf_append, List.find?_append, hearlier]
  rfl

/-- A known event is after the anchor. -/
theorem slot_lt_of_known (hC : C.Valid) {id : DepositEventIdV1} {f : Bytes32}
    (h : C.toState.knownEvent id f = .ok true) : C.anchor.slot < id.point.slot := by
  have hmem : id ∈ C.toState.processedEvents.map (·.id) := by
    by_contra hnot
    rw [(knownEvent_false (f := f)).mpr hnot] at h
    cases h
  obtain ⟨e, he, rfl⟩ := List.mem_map.mp hmem
  obtain ⟨g, hg, heg⟩ := List.mem_flatMap.mp he
  rw [hC.own g hg e heg]
  exact hC.linked.slot_lt hg

/-- An event of the last block changes nothing before that block. -/
theorem upToSlot_record {xs : List Segment} {g : Segment} {e : ProcessedDepositEventV1} (hsplit : C.segments = xs ++ [g])
    (hslot : a.slot < g.slot) : upToSlot a.slot (C.record e).segments = upToSlot a.slot C.segments := by
  rw [ScanChain.segments_record hsplit, hsplit, upToSlot_concat_of_lt hslot]
  exact upToSlot_concat_of_lt hslot

theorem prune_record {xs : List Segment} {g : Segment} {e : ProcessedDepositEventV1} (hsplit : C.segments = xs ++ [g])
    (hslot : a.slot < g.slot) : (C.record e).prune a = (C.prune a).record e := by
  have hlater : (C.prune a).segments = afterSlot a.slot xs ++ [g] := by
    rw [← afterSlot_concat_of_lt hslot, ← hsplit]
    rfl
  have hafter : afterSlot a.slot (C.record e).segments = ((C.prune a).record e).segments := by
    rw [ScanChain.segments_record hlater, ScanChain.segments_record hsplit]
    exact afterSlot_concat_of_lt hslot
  rw [ScanChain.prune, upToSlot_record hsplit hslot, hafter]
  rfl

theorem Ingests.unprunes {α : Type} {id : DepositEventIdV1}
    {plan : ScanStateV1 → Except ScanStateErrorV1 (ScanStateV1 × α)} (h : Ingests id plan) :
    UnprunesWith (Plans plan) := by
  rintro C a hC ha t ⟨answer, hok⟩
  have hD := hC.prune ha
  obtain ⟨f, ⟨hknown, rfl, hsame⟩ | ⟨hnew, e, hfits, rfl, hsame⟩⟩ := h _ _ _ hok
  · have hslot := slot_lt_of_known hD hknown
    exact ⟨C, hC, ha, hsame _ ((knownEvent_prune hC hslot).symm.trans hknown), rfl⟩
  · obtain ⟨ys, g, hlater, hpoint⟩ := ScanChain.current_split hfits.current
    have hslot : a.slot < g.slot := hD.linked.slot_lt (hlater ▸ List.mem_append_right _ List.mem_cons_self)
    have hlast : C.segments.getLast? = some g := getLast?_of_prune hC (by rw [hlater, List.getLast?_concat])
    obtain ⟨xs, hsplit⟩ := List.getLast?_eq_some_iff.mp hlast
    have hcursor : SameCursor (C.prune a).toState C.toState := by
      refine ⟨rfl, ?_, ?_⟩
      · have hcut := congrArg (fun l => (eventsOf l).length) (upToSlot_append_afterSlot hC.linked a.slot)
        simp only [eventsOf_append, List.length_append] at hcut
        change C.anchorNextLeafIndex + (eventsOf C.segments).length = C.anchorNextLeafIndex +
          (eventsOf (upToSlot a.slot C.segments)).length + (eventsOf (afterSlot a.slot C.segments)).length
        omega
      · have hstored := congrArg (Option.map (·.point)) (ScanChain.getLast?_toState C)
        rw [Option.map_map, Option.map_map, hlast] at hstored
        rw [hfits.current, ← hpoint]
        exact hstored
    have hslot' : a.slot < id.point.slot := hpoint ▸ hslot
    have hnew' := (knownEvent_prune hC hslot').symm.trans hnew
    have hfits' : FitsCursor C.toState id e := {
      id_eq := hfits.id_eq
      current := hcursor.current_eq.trans hfits.current
      leaf_eq := hfits.leaf_eq.trans hcursor.next_eq.symm
      room := hcursor.next_eq ▸ hfits.room
      commitment_canonical := hfits.commitment_canonical
      root_canonical := hfits.root_canonical }
    refine ⟨C.record e, hC.record hfits' (knownEvent_false.mp hnew'), ?_, ?_, ?_⟩
    · rw [OnChain, upToSlot_record hsplit hslot]
      exact ha
    · obtain ⟨r, hr⟩ := hsame _ hcursor hnew'
      rw [ScanChain.toState_record hsplit]
      exact ⟨r, hr⟩
    · rw [← ScanChain.toState_record hlater, prune_record hsplit hslot]

theorem planRollback_unprunes (p : FinalizedChainPointV1) : UnprunesWith (Plans (planRollback p)) := by
  rintro C a hC ha t ⟨answer, hok⟩
  have hD := hC.prune ha
  have hp := onChain_of_planRollback hD hok
  have heq := hD.planRollback_eq hp
  obtain rfl : ((C.prune a).upTo p.slot).toState = t := ((Prod.mk.injEq ..).mp (Except.ok.inj (heq.symm.trans hok))).1
  have hle : a.slot ≤ p.slot := hD.anchor_le hp
  have hp' := (onChain_prune hC ha hle).mp hp
  refine ⟨C.upTo p.slot, hC.upTo p.slot, onChain_upTo ha hle, ⟨_, hC.planRollback_eq hp'⟩, ?_⟩
  rw [prune_upTo hle]

end Unprune

/-! ### Any call -/

theorem forget_commitPlan {α : Type} (plan : ScanStateV1 → Except ScanStateErrorV1 (ScanStateV1 × α)) :
    (fun s t => forget (commitPlan plan) s = .ok () t) = Plans plan := by
  funext s t
  rw [forget_ok]
  exact propext (exists_congr fun answer => commitPlan_ok)

section Calls
variable {services : ScanServicesV1 ViewingSecret KeyStore WalletError}

theorem ScanCallV1.cutsWith (call : ScanCallV1 ViewingSecret KeyStore) :
    CutsWith call.slot fun s t => call.Takes services s t := by
  cases call with
  | advance block =>
    have h := planAdvance_cutsWith block
    rwa [← forget_commitPlan] at h
  | deposit observation viewingSecret localKeys =>
    have hingests : Ingests _ (planDeposit services observation viewingSecret localKeys) :=
      planDeposit_ingests observation viewingSecret localKeys
    have h := hingests.cutsWith
    rwa [← forget_commitPlan] at h
  | publicOutput observation =>
    have hingests : Ingests _ (planOutput services observation) := planOutput_ingests observation
    have h := hingests.cutsWith
    rwa [← forget_commitPlan] at h
  | prune ancestor =>
    have h := prune_cutsWith ancestor
    simp only [← forget_ok (u := ())] at h
    exact h
  | rollback ancestor =>
    have h := planRollback_cutsWith ancestor
    rwa [← forget_commitPlan] at h

theorem ScanCallV1.unprunes {call : ScanCallV1 ViewingSecret KeyStore} (hcall : call.isPrune = false) :
    UnprunesWith fun s t => call.Takes services s t := by
  cases call with
  | advance block =>
    have h := planAdvance_unprunes block
    rwa [← forget_commitPlan] at h
  | deposit observation viewingSecret localKeys =>
    have hingests : Ingests _ (planDeposit services observation viewingSecret localKeys) :=
      planDeposit_ingests observation viewingSecret localKeys
    have h := hingests.unprunes
    rwa [← forget_commitPlan] at h
  | publicOutput observation =>
    have hingests : Ingests _ (planOutput services observation) := planOutput_ingests observation
    have h := hingests.unprunes
    rwa [← forget_commitPlan] at h
  | prune ancestor => cases hcall
  | rollback ancestor =>
    have h := planRollback_unprunes ancestor
    rwa [← forget_commitPlan] at h

/-- A refused call changes nothing. -/
theorem ScanCallV1.refused {call : ScanCallV1 ViewingSecret KeyStore} {C : ScanChain} (hC : C.Valid)
    {e : ScanStateErrorV1} {t : ScanStateV1} (h : call.perform services C.toState = .error e t) : t = C.toState := by
  cases call with
  | advance block => exact (commitPlan_error (forget_error.mp h)).2
  | deposit observation viewingSecret localKeys => exact (commitPlan_error (forget_error.mp h)).2
  | publicOutput observation => exact (commitPlan_error (forget_error.mp h)).2
  | prune ancestor =>
    have herror := forget_error.mp h
    rcases prune_cases hC ancestor with ⟨_, hok⟩ | ⟨e', hsame⟩
    · rw [hok] at herror
      cases herror
    · rw [hsame] at herror
      exact ((EStateM.Result.error.injEq ..).mp herror).2.symm
  | rollback ancestor => exact (commitPlan_error (forget_error.mp h)).2

/-! ### Histories -/

end Calls

/-- One call of the wallet, and whether the cursor took it. -/
structure ScanEvent (ViewingSecret KeyStore : Type) where
  call : ScanCallV1 ViewingSecret KeyStore
  taken : Bool

def ScanStep (services : ScanServicesV1 ViewingSecret KeyStore WalletError) (s : ScanStateV1)
    (event : ScanEvent ViewingSecret KeyStore) (t : ScanStateV1) : Prop :=
  if event.taken = true then event.call.Takes services s t else ∃ e, event.call.perform services s = .error e t

/-- The calls that the cursor took, in order. -/
def takenCalls (events : List (ScanEvent ViewingSecret KeyStore)) : List (ScanCallV1 ViewingSecret KeyStore) :=
  (events.filter (·.taken)).map (·.call)

section History
variable {services : ScanServicesV1 ViewingSecret KeyStore WalletError} {start t : ScanStateV1}
  {events : List (ScanEvent ViewingSecret KeyStore)}

theorem takenCalls_concat (event : ScanEvent ViewingSecret KeyStore) : takenCalls (events ++ [event]) =
    takenCalls events ++ if event.taken = true then [event.call] else [] := by
  rw [takenCalls, List.filter_append, List.map_append]
  obtain ⟨call, taken⟩ := event
  cases taken <;> rfl

/-- The history so far keeps a chain, and at any slot from its anchor on the calls up to that slot lead to the chain
cut there. -/
def Keeps (services : ScanServicesV1 ViewingSecret KeyStore WalletError) (start : ScanStateV1)
    (events : List (ScanEvent ViewingSecret KeyStore)) (t : ScanStateV1) : Prop :=
  ∃ C : ScanChain, C.Valid ∧ t = C.toState ∧ ∀ σ, C.anchor.slot ≤ σ →
    Run (fun s c u => c.Takes services s u) start ((takenCalls events).filter (·.slot ≤ σ)) (C.upTo σ).toState

theorem keeps_step {event : ScanEvent ViewingSecret KeyStore} {s : ScanStateV1} (h : Keeps services start events s)
    (hstep : ScanStep services s event t) : Keeps services start (events ++ [event]) t := by
  obtain ⟨C, hC, rfl, hcut⟩ := h
  unfold ScanStep at hstep
  rw [Keeps, takenCalls_concat]
  split_ifs at hstep ⊢ with htaken
  · obtain ⟨C', hC', rfl, hanchor, hmove⟩ := event.call.cutsWith C hC t hstep
    refine ⟨C', hC', rfl, fun σ hσ => ?_⟩
    have hbefore := hcut σ (hanchor.trans hσ)
    rw [List.filter_append]
    by_cases hslot : event.call.slot ≤ σ
    · have hlast : [event.call].filter (·.slot ≤ σ) = [event.call] := by simpa using hslot
      rw [hlast]
      exact hbefore.append (.cons ((hmove σ hσ).1 hslot) (.nil _))
    · have hlast : [event.call].filter (·.slot ≤ σ) = [] := by simpa using hslot
      rw [hlast, List.append_nil, (hmove σ hσ).2 (Nat.lt_of_not_le hslot)]
      exact hbefore
  · obtain ⟨e, herror⟩ := hstep
    rw [List.append_nil]
    exact ⟨C, hC, event.call.refused hC herror, hcut⟩

/-- A new cursor is a chain without blocks. -/
theorem new_eq_toState {identity : DepositScanIdentityV1} {anchor : FinalizedChainPointV1} {next : ℕ} {root : Bytes32}
    (h : ScanStateV1.new identity anchor next root = .ok start) :
    (ScanChain.mk identity anchor next root []).Valid ∧ start = (ScanChain.mk identity anchor next root []).toState := by
  simp only [ScanStateV1.new, except_bind_eq_ok, require_eq_ok, except_pure_eq_ok] at h
  obtain ⟨_, ⟨hnext, hroot⟩, rfl⟩ := h
  exact ⟨⟨trivial, fun g hg => absurd hg List.not_mem_nil, rfl, fun e he => absurd he List.not_mem_nil, List.nodup_nil,
    hnext, hroot⟩, rfl⟩

theorem run_keeps {identity : DepositScanIdentityV1} {anchor : FinalizedChainPointV1} {next : ℕ} {root : Bytes32}
    (hnew : ScanStateV1.new identity anchor next root = .ok start) (hrun : Run (ScanStep services) start events t) :
    Keeps services start events t := by
  obtain ⟨hvalid, hstart⟩ := new_eq_toState hnew
  have hnil : Keeps services start [] start := by
    refine ⟨_, hvalid, hstart, fun σ _ => ?_⟩
    rw [hstart]
    exact .nil _
  exact hrun.traced (fun _ _ _ _ => keeps_step) hnil

/-- The events of other blocks have other points. -/
theorem filter_point_eq_nil {xs : List Segment} {q : FinalizedChainPointV1}
    (hown : ∀ g ∈ xs, ∀ e ∈ g.events, e.id.point = g.block.point) (hslot : ∀ g ∈ xs, g.slot ≠ q.slot) :
    (eventsOf xs).filter (·.id.point = q) = [] := by
  rw [List.filter_eq_nil_iff]
  intro e he heq
  obtain ⟨g, hg, heg⟩ := List.mem_flatMap.mp he
  have hpoint := hown g hg e heg
  rw [of_decide_eq_true heq] at hpoint
  exact hslot g hg (congrArg (·.slot) hpoint).symm

theorem retainedEventIdsInBlockV1_eq {C : ScanChain} (hC : C.Valid) {g : Segment} (hg : g ∈ C.segments) :
    C.toState.retainedEventIdsInBlockV1 g.block.point = g.events.map (·.id) := by
  obtain ⟨xs, ys, hsplit⟩ := List.append_of_mem hg
  have hlinked := linkedFrom_append.mp (hsplit ▸ hC.linked)
  have hown := hC.own
  rw [hsplit] at hown
  have hbefore : (eventsOf xs).filter (·.id.point = g.block.point) = [] := by
    apply filter_point_eq_nil fun x hx => hown x (List.mem_append_left _ hx)
    intro x hx
    have hle := hlinked.1.slot_le_head.2 x hx
    have hlt : (headFrom C.anchor xs).slot < g.slot := hlinked.2.slot_lt List.mem_cons_self
    exact (hle.trans_lt hlt).ne
  have hafter : (eventsOf ys).filter (·.id.point = g.block.point) = [] := by
    apply filter_point_eq_nil fun y hy => hown y (List.mem_append_right _ (List.mem_cons_of_mem g hy))
    exact fun y hy => (hlinked.2.2.slot_lt hy).ne'
  have hself : g.events.filter (·.id.point = g.block.point) = g.events :=
    List.filter_eq_self.mpr fun e he => decide_eq_true (hC.own g hg e he)
  rw [ScanStateV1.retainedEventIdsInBlockV1]
  change ((eventsOf C.segments).filter (·.id.point = g.block.point)).map (·.id) = _
  rw [hsplit, eventsOf_append, eventsOf_cons, List.filter_append, List.filter_append, hbefore, hafter, hself,
    List.nil_append, List.append_nil]

/-- The events that a rollback removes, block by block. -/
theorem removedEvents_eq {C : ScanChain} (hC : C.Valid) (σ : ℕ) : (eventsOf (afterSlot σ C.segments)).map (·.id) =
    (C.toState.blocks.filter (σ < ·.block.point.slot)).flatMap fun c =>
      C.toState.retainedEventIdsInBlockV1 c.block.point := by
  have hblocks : (C.toState.blocks.filter (σ < ·.block.point.slot)).map (·.block) =
      (afterSlot σ C.segments).map (·.block) := by
    have hfilter := congrArg (List.filter (fun b : FinalizedBlockV1 => σ < b.point.slot)) (ScanChain.map_block_toState C)
    rw [List.filter_map, List.filter_map] at hfilter
    exact hfilter
  calc (eventsOf (afterSlot σ C.segments)).map (·.id)
      = (afterSlot σ C.segments).flatMap fun g => g.events.map (·.id) := List.map_flatMap
    _ = (afterSlot σ C.segments).flatMap fun g => C.toState.retainedEventIdsInBlockV1 g.block.point := by
        apply List.flatMap_congr
        intro g hg
        exact (retainedEventIdsInBlockV1_eq hC (List.mem_filter.mp hg).1).symm
    _ = ((afterSlot σ C.segments).map (·.block)).flatMap fun b => C.toState.retainedEventIdsInBlockV1 b.point := by
        rw [List.flatMap_map]
    _ = (C.toState.blocks.filter (σ < ·.block.point.slot)).flatMap fun c =>
          C.toState.retainedEventIdsInBlockV1 c.block.point := by
        rw [← hblocks, List.flatMap_map]

/-- Calls that a pruned cursor takes, other than prunes, can come before the prune. -/
theorem unprune_run {C : ScanChain} {a : FinalizedChainPointV1} {calls : List (ScanCallV1 ViewingSecret KeyStore)}
    (hC : C.Valid) (ha : OnChain C.anchor C.segments a) (hcalls : ∀ c ∈ calls, c.isPrune = false)
    (h : Run (fun s c u => c.Takes services s u) (C.prune a).toState calls t) :
    ∃ C' : ScanChain, C'.Valid ∧ OnChain C'.anchor C'.segments a ∧
      Run (fun s c u => c.Takes services s u) C.toState calls C'.toState ∧ t = (C'.prune a).toState := by
  induction calls generalizing C with
  | nil =>
    cases h
    exact ⟨C, hC, ha, .nil _, rfl⟩
  | cons call rest ih =>
    cases h with
    | cons htakes hrest =>
      obtain ⟨C₁, hC₁, ha₁, htakes₁, rfl⟩ := call.unprunes (hcalls call List.mem_cons_self) C a hC ha _ htakes
      obtain ⟨C₂, hC₂, ha₂, hrest₂, rfl⟩ := ih hC₁ ha₁ (fun c hc => hcalls c (List.mem_cons_of_mem call hc)) hrest
      exact ⟨C₂, hC₂, ha₂, .cons htakes₁ hrest₂, rfl⟩

theorem rollbackSummary_prune {C : ScanChain} {a p : FinalizedChainPointV1} (hC : C.Valid) (h : a.slot ≤ p.slot) :
    (C.prune a).rollbackSummary p = C.rollbackSummary p := by
  have hevents : eventsOf (upToSlot p.slot C.segments) =
      eventsOf (upToSlot a.slot C.segments) ++ eventsOf (upToSlot p.slot (afterSlot a.slot C.segments)) := by
    rw [← eventsOf_append, ← upToSlot_eq_append hC h]
  have hremoved : afterSlot p.slot (afterSlot a.slot C.segments) = afterSlot p.slot C.segments := by
    rw [afterSlot, afterSlot, afterSlot, List.filter_filter]
    apply List.filter_congr
    intro g _
    by_cases hg : p.slot < g.slot
    · simp [hg, h.trans_lt hg]
    · simp [hg]
  rw [ScanChain.rollbackSummary, ScanChain.rollbackSummary]
  congr 1
  · exact congrArg (fun l => (eventsOf l).map (·.id)) hremoved
  · change C.anchorNextLeafIndex + (eventsOf (upToSlot a.slot C.segments)).length +
      (eventsOf (upToSlot p.slot (afterSlot a.slot C.segments))).length =
      C.anchorNextLeafIndex + (eventsOf (upToSlot p.slot C.segments)).length
    rw [hevents, List.length_append, Nat.add_assoc]
  · change rootAfter (rootAfter C.anchorRoot (eventsOf (upToSlot a.slot C.segments)))
      (eventsOf (upToSlot p.slot (afterSlot a.slot C.segments))) =
      rootAfter C.anchorRoot (eventsOf (upToSlot p.slot C.segments))
    rw [hevents, rootAfter_append]

theorem pruneSummary_upTo {C : ScanChain} {a : FinalizedChainPointV1} {σ : ℕ} (h : a.slot ≤ σ) :
    (C.upTo σ).pruneSummary a = C.pruneSummary a := by
  have hcut : upToSlot a.slot (C.upTo σ).segments = upToSlot a.slot C.segments := upToSlot_upToSlot h
  rw [ScanChain.pruneSummary, ScanChain.pruneSummary, hcut, prune_upTo h]
  rfl

/-- Rolling a scan history back to a retained block gives the state of the history without the calls about later blocks,
and answers with the events of those blocks in order. A prune commutes with a later rollback, whatever other calls come
between. The image invariants always hold, and an image can be written and read back as long as its blocks can be counted. -/
theorem scan_history_rolls_back {identity : DepositScanIdentityV1} {anchor : FinalizedChainPointV1} {next : ℕ}
    {root : Bytes32} (hnew : ScanStateV1.new identity anchor next root = .ok start)
    (hrun : Run (ScanStep services) start events t) :
    (∀ p, t.retainsChainPointV1 p → ∃ summary t', rollbackToV1 p t = .ok summary t' ∧
      Run (fun s c u => c.Takes services s u) start ((takenCalls events).filter (·.slot ≤ p.slot)) t' ∧
      summary.removedEvents = (t.blocks.filter (p.slot < ·.block.point.slot)).flatMap fun c =>
        t.retainedEventIdsInBlockV1 c.block.point) ∧
    (∀ a p, t.retainsChainPointV1 a → t.retainsChainPointV1 p → a.slot ≤ p.slot →
      ∃ pruning rolling pruned rolled both, pruneFinalizedHistoryThroughV1 a t = .ok pruning pruned ∧
        rollbackToV1 p pruned = .ok rolling both ∧ rollbackToV1 p t = .ok rolling rolled ∧
        pruneFinalizedHistoryThroughV1 a rolled = .ok pruning both) ∧
    (∀ (a p : FinalizedChainPointV1) (calls : List (ScanCallV1 ViewingSecret KeyStore)) (u : ScanStateV1),
      (∀ c ∈ calls, c.isPrune = false) →
      Run (fun s c u => c.Takes services s u) t (.prune a :: (calls ++ [.rollback p])) u →
      Run (fun s c u => c.Takes services s u) t (calls ++ [.rollback p] ++ [.prune a]) u) ∧
    validateStateInvariantsV1 t = .ok () ∧
    (t.blocks.length < 2 ^ 32 → ∃ image, encodeScanStateV1 services.sha256 t = .ok image ∧
      decodeScanStateV1 services.sha256 image = .ok t) := by
  obtain ⟨C, hC, rfl, hcut⟩ := run_keeps hnew hrun
  refine ⟨fun p hp => ?_, fun a p ha hp hle => ?_, fun a p calls u hcalls hprune => ?_, hC.validateStateInvariantsV1,
    fun hblocks => decode_encodeScanStateV1 (hC.fitsImage hblocks)⟩
  · have hon := (ScanChain.retains_iff hC).mp hp
    exact ⟨_, _, commitPlan_ok.mpr (hC.planRollback_eq hon), hcut p.slot (hC.anchor_le hon), removedEvents_eq hC p.slot⟩
  · have hona := (ScanChain.retains_iff hC).mp ha
    have honp := (ScanChain.retains_iff hC).mp hp
    refine ⟨C.pruneSummary a, C.rollbackSummary p, (C.prune a).toState, (C.upTo p.slot).toState,
      ((C.prune a).upTo p.slot).toState, hC.prune_eq hona, ?_, commitPlan_ok.mpr (hC.planRollback_eq honp), ?_⟩
    · rw [← rollbackSummary_prune hC hle]
      exact commitPlan_ok.mpr ((hC.prune hona).planRollback_eq ((onChain_prune hC hona hle).mpr honp))
    · rw [← prune_upTo hle, ← @pruneSummary_upTo C a _ hle]
      exact (hC.upTo p.slot).prune_eq (onChain_upTo hona hle)
  · cases hprune with
    | cons hfirst hrest =>
      rcases prune_cases hC a with ⟨hona, hok⟩ | ⟨e, herror⟩
      · obtain ⟨answer, hanswer⟩ := forget_ok.mp hfirst
        rw [hok] at hanswer
        obtain rfl := ((EStateM.Result.ok.injEq ..).mp hanswer).2
        have hnone : ∀ c ∈ calls ++ [.rollback p], c.isPrune = false := by
          intro c hc
          rcases List.mem_append.mp hc with hmem | hlast
          · exact hcalls c hmem
          · rw [List.mem_singleton.mp hlast]
            rfl
        obtain ⟨C', hC', ha', hwhole, rfl⟩ := unprune_run hC hona hnone hrest
        exact hwhole.append (.cons (forget_ok.mpr ⟨_, hC'.prune_eq ha'⟩) (.nil _))
      · obtain ⟨answer, hanswer⟩ := forget_ok.mp hfirst
        rw [herror] at hanswer
        cases hanswer

end History

/-! ### A long scan -/

namespace SampleScan

def hash : Bytes32 := Bytes32.filled 1

theorem hash_ne : hash ≠ Bytes32.zero := by decide

/-- The point at a slot. -/
def point (n : ℕ) (h : n < 2 ^ 64) : FinalizedChainPointV1 := ⟨n, hash, h, hash_ne⟩

def anchor : FinalizedChainPointV1 := point 0 (by omega)

/-- The block at slot `n + 1`, on top of the point at slot `n`. -/
def block (n : ℕ) (h : n + 1 < 2 ^ 64) : FinalizedBlockV1 := ⟨point (n + 1) h, point n (by omega), Nat.lt_succ_self n⟩

def identity : DepositScanIdentityV1 where
  pool := Bytes32.filled 1
  deploymentDomain := Bytes32.filled 2
  assetMint := Bytes32.filled 3
  vaultTokenAccount := Bytes32.filled 4
  assetId := 0
  pool_ne := by decide
  domain_ne := by decide
  mint_ne := by decide
  vault_ne := by decide
  assetId_lt := by decide

/-- A wallet that owns no key. -/
def services : ScanServicesV1 Unit Unit Unit where
  sha256 := fun _ => Bytes32.zero
  scanNote := fun _ _ _ => .ok none
  containsOwnerKey := fun _ _ => false

def start : ScanChain := ⟨identity, anchor, 0, Bytes32.zero, []⟩

/-- The zero word is a canonical digest. -/
theorem zero_canonical : isCanonicalDigest Bytes32.zero = true := by decide

theorem new_eq : ScanStateV1.new identity anchor 0 Bytes32.zero = .ok start.toState := by
  rw [ScanStateV1.new, require_of _ ⟨Nat.zero_le _, zero_canonical⟩, except_ok_bind]
  rfl

/-- The advances over the first `n` blocks. -/
def advances : (n : ℕ) → n < 2 ^ 64 → List (ScanEvent Unit Unit)
  | 0, _ => []
  | n + 1, h => advances n (by omega) ++ [⟨.advance (block n h), true⟩]

/-- After `n` advances the cursor retains `n` blocks. -/
theorem advances_run (n : ℕ) (h : n < 2 ^ 64) : ∃ C : ScanChain, C.Valid ∧ C.segments.length = n ∧
    headFrom C.anchor C.segments = point n h ∧ Run (ScanStep services) start.toState (advances n h) C.toState := by
  induction n with
  | zero => exact ⟨start, (new_eq_toState new_eq).1, rfl, rfl, .nil _⟩
  | succ n ih =>
    obtain ⟨C, hC, hlength, hhead, hrun⟩ := ih (by omega)
    have hparent : (block n h).parent = headFrom C.anchor C.segments := hhead.symm
    have hstep : ScanStep services C.toState ⟨.advance (block n h), true⟩ (C.extend (block n h)).toState :=
      forget_ok.mpr ⟨_, commitPlan_ok.mpr (hC.planAdvance_extend hparent)⟩
    refine ⟨C.extend (block n h), hC.extend hparent, ?_, headFrom_append, hrun.append (.cons hstep (.nil _))⟩
    rw [ScanChain.extend, List.length_append, hlength]
    rfl

/-- The only output of the block at slot 1. -/
def output : FinalizedPublicOutputRecordV1 where
  id := ⟨point 1 (by norm_num), List.replicate 64 1, 0, 0, by decide, by decide, by norm_num, by norm_num⟩
  pool := identity.pool
  leafIndex := 0
  rootSequence := 1
  noteCommitment := Bytes32.zero
  root := Bytes32.zero
  authenticatedTransport := [1]

/-- The event stored for that output. -/
def stored : ProcessedDepositEventV1 := ⟨output.id, 0, Bytes32.zero, Bytes32.zero, Bytes32.zero⟩

/-- The chain after one block with its output. -/
def oneBlock : ScanChain := (start.extend (block 0 (by decide))).record stored

theorem output_taken : (.publicOutput output : ScanCallV1 Unit Unit).Takes services
    (start.extend (block 0 (by decide))).toState oneBlock.toState := by
  have hcurrent : (start.extend (block 0 (by decide))).segments = [] ++ [⟨block 0 (by decide), []⟩] := rfl
  refine forget_ok.mpr ⟨.advanced, commitPlan_ok.mpr ?_⟩
  rw [oneBlock, ScanChain.toState_record hcurrent]
  rfl

/-- Two blocks, the first with an output, and a prune that is refused. -/
def history : List (ScanEvent Unit Unit) :=
  [⟨.advance (block 0 (by decide)), true⟩, ⟨.publicOutput output, true⟩, ⟨.advance (block 1 (by decide)), true⟩,
    ⟨.prune (point 7 (by decide)), false⟩]

theorem start_valid : start.Valid := (new_eq_toState new_eq).1

theorem oneBlock_valid : oneBlock.Valid := by
  have hfirst : (start.extend (block 0 (by decide))).Valid := start_valid.extend rfl
  have hnew : output.id ∉ (start.extend (block 0 (by decide))).toState.processedEvents.map (·.id) := List.not_mem_nil
  exact hfirst.record ⟨rfl, rfl, rfl, by decide, zero_canonical, zero_canonical⟩ hnew

theorem history_run : Run (ScanStep services) start.toState history (oneBlock.extend (block 1 (by decide))).toState := by
  have hfirst := start_valid.planAdvance_extend (show (block 0 (by decide)).parent = headFrom start.anchor [] from rfl)
  have hsecond := oneBlock_valid.planAdvance_extend
    (show (block 1 (by decide)).parent = headFrom oneBlock.anchor oneBlock.segments from rfl)
  have hvalid : (oneBlock.extend (block 1 (by decide))).Valid := oneBlock_valid.extend rfl
  refine .cons (forget_ok.mpr ⟨_, commitPlan_ok.mpr hfirst⟩) (.cons output_taken
    (.cons (forget_ok.mpr ⟨_, commitPlan_ok.mpr hsecond⟩) (.cons ?_ (.nil _))))
  rcases prune_cases hvalid (point 7 (by decide)) with ⟨hon, _⟩ | ⟨e, herror⟩
  · unfold OnChain at hon
    exact absurd hon (by decide)
  · exact ⟨e, forget_error.mpr herror⟩

end SampleScan

/-- Rolled back to its first block, the two-block history is the one of that block and its output alone. -/
theorem scan_history_rolls_back_two_blocks : ∃ summary t',
    rollbackToV1 (SampleScan.point 1 (by decide))
      (SampleScan.oneBlock.extend (SampleScan.block 1 (by decide))).toState = .ok summary t' ∧
    Run (fun s (c : ScanCallV1 Unit Unit) u => c.Takes SampleScan.services s u) SampleScan.start.toState
      [.advance (SampleScan.block 0 (by decide)), .publicOutput SampleScan.output] t' := by
  have hlaws := scan_history_rolls_back SampleScan.new_eq SampleScan.history_run
  have hretains : (SampleScan.oneBlock.extend (SampleScan.block 1 (by decide))).toState.retainsChainPointV1
      (SampleScan.point 1 (by decide)) := .inr ⟨_, List.mem_cons_self, rfl⟩
  obtain ⟨summary, t', hrollback, hrun, _⟩ := hlaws.1 _ hretains
  exact ⟨summary, t', hrollback, hrun⟩

/-- A cursor that has followed four thousand million blocks without a prune has no image. -/
theorem encode_refused_after_long_scan : ∃ t, ScanStateV1.new SampleScan.identity SampleScan.anchor 0 Bytes32.zero =
      .ok SampleScan.start.toState ∧
    Run (ScanStep SampleScan.services) SampleScan.start.toState (SampleScan.advances (2 ^ 32) (by decide)) t ∧
    encodeScanStateV1 SampleScan.services.sha256 t = .error .countOverflow := by
  obtain ⟨C, hC, hlength, _, hrun⟩ := SampleScan.advances_run (2 ^ 32) (by decide)
  refine ⟨C.toState, SampleScan.new_eq, hrun, ?_⟩
  have hblocks : ¬ C.toState.blocks.length < U32_LIMIT := by
    have hstored : C.toState.blocks.length = C.segments.length := length_checkpointsFrom _ _ _
    rw [hstored, hlength, U32_LIMIT]
    omega
  rw [encodeScanStateV1, hC.validateStateInvariantsV1, except_ok_bind, require, if_neg hblocks]
  rfl

end Aspis.Wallet
