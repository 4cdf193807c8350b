import Aspis.Wallet.DurableHistory

/-! The calls of a durable wallet, seen on the wallet cut at an earlier block. A
commit of another block leaves the cut as it is, a delivery for an earlier block
adds its note to the cut, and a prune moves early plan events of the cut into its
base. -/

namespace Aspis.Wallet

open Lib Statement Pool

variable {WalletError : Type} {H : WalletHistory} {w w' : DurableWalletStateV1} {σ : ℕ} {a p : FinalizedChainPointV1}

theorem replaceImage_ok {sha256 : Bytes → Bytes32} {replaced : Except DurableStateErrorV1 Unit}
    (h : replaceImage sha256 replaced w = .ok w') : w' = w := by
  simp only [replaceImage, except_bind_eq_ok, require_eq_ok, except_pure_eq_ok] at h
  obtain ⟨_, _, _, _, _, _, rfl⟩ := h
  rfl

/-! ### Late deliveries -/

/-- The notes after a delivery, taken or not. -/
def deliverNote (notes : List StoredSealedNoteV1) (recovered : SealedRecoveredNoteV1) : List StoredSealedNoteV1 :=
  match insertSealedNoteV1 notes recovered with
  | .ok notes => notes
  | .error _ => notes

theorem deliverNote_eq {notes notes' : List StoredSealedNoteV1} {recovered : SealedRecoveredNoteV1}
    (h : insertSealedNoteV1 notes recovered = .ok notes') : deliverNote notes recovered = notes' := by
  rw [deliverNote, h]

/-- A note is found on the cut where it is found in the whole. -/
theorem find?_notesUpTo {notes : List StoredSealedNoteV1} {eventId : DepositEventIdV1} (hslot : eventId.point.slot ≤ σ) :
    (notesUpTo σ notes).find? (·.eventId = eventId) = (notes.find? (·.eventId = eventId)).map (StoredSealedNoteV1.upTo σ) := by
  rw [notesUpTo, List.find?_map, List.find?_filter]
  congr 2
  funext note
  by_cases heq : note.eventId = eventId
  · simp [heq, hslot]
  · simp [heq]

/-- A note delivered for a block before the cut is delivered to the cut as well. -/
theorem insertSealedNoteV1_cut {notes notes' : List StoredSealedNoteV1} {recovered : SealedRecoveredNoteV1}
    (hslot : recovered.eventId.point.slot ≤ σ) (h : insertSealedNoteV1 notes recovered = .ok notes') :
    insertSealedNoteV1 (notesUpTo σ notes) recovered = .ok (notesUpTo σ notes') := by
  unfold insertSealedNoteV1 at h ⊢
  rw [find?_notesUpTo hslot]
  cases hfind : notes.find? (·.eventId = recovered.eventId) with
  | some existing =>
    have haccess : (existing.upTo σ).access = existing.access := by
      unfold StoredSealedNoteV1.upTo
      split_ifs <;> rfl
    have hsealed : (existing.upTo σ).sealedNote = existing.sealedNote := by
      unfold StoredSealedNoteV1.upTo
      split_ifs <;> rfl
    rw [hfind] at h
    dsimp only [Option.map_some] at h ⊢
    rw [haccess, hsealed]
    split_ifs at h ⊢ with hsame
    rw [Except.ok.inj h]
  | none =>
    rw [hfind] at h
    dsimp only [Option.map_none] at h ⊢
    split_ifs at h with hfull
    have hshort : ¬ (notesUpTo σ notes).length ≥ MAX_NOTE_RECORDS := by
      have hle : (notesUpTo σ notes).length ≤ notes.length := by
        rw [notesUpTo, List.length_map]
        exact List.length_filter_le _ _
      omega
    rw [if_neg hshort, ← Except.ok.inj h]
    simp [notesUpTo, List.filter_append, hslot, StoredSealedNoteV1.upTo]

theorem storeAuthenticatedDeliveryV1_ok {sha256 : Bytes → Bytes32} {replaced : Except DurableStateErrorV1 Unit}
    {recovered : SealedRecoveredNoteV1} {outcome : RelayerEnqueueOutcomeV1} (hw : Stores w H)
    (h : w.storeAuthenticatedDeliveryV1 sha256 replaced recovered = .ok (w', outcome)) :
    recovered.eventId ∈ (eventsOf H.chain.segments).map (·.id) ∧
    ∃ notes, insertSealedNoteV1 H.notes recovered = .ok notes ∧ Stores w' { H with notes := notes } := by
  simp only [DurableWalletStateV1.storeAuthenticatedDeliveryV1, except_bind_eq_ok, require_eq_ok] at h
  obtain ⟨_, _, _, hretained, notes, hnotes, h⟩ := h
  have hevent : recovered.eventId ∈ (eventsOf H.chain.segments).map (·.id) := by
    rw [hw.scanState] at hretained
    obtain ⟨e, he, hid⟩ := List.mem_map.mp hretained
    exact List.mem_map.mpr ⟨e, (List.mem_filter.mp he).1, hid⟩
  have hinsert := hnotes
  rw [hw.notes] at hinsert
  refine ⟨hevent, notes, hinsert, ?_⟩
  split_ifs at h with hexists
  · rw [except_pure_eq_ok, Prod.mk.injEq] at h
    obtain ⟨rfl, _⟩ := h
    have hsame : notes = w.notes := by
      rcases insertSealedNoteV1_ok hnotes with ⟨_, hsame⟩ | ⟨hnew, _⟩
      · exact hsame
      · obtain ⟨existing, hmem, hid⟩ := hexists
        exact absurd hid (hnew existing hmem)
    exact ⟨hw.scanState, hw.noteCipherId, hsame.symm, hw.base, hw.plans⟩
  · simp only [except_bind_eq_ok, except_pure_eq_ok, Prod.mk.injEq] at h
    obtain ⟨next, hnext, rfl, _⟩ := h
    rw [replaceImage_ok hnext]
    exact ⟨hw.scanState, hw.noteCipherId, rfl, hw.base, hw.plans⟩

/-! ### Prunes -/

/-- The second history is the first with its early plan events moved into the base. -/
structure Prunes (Y Z : WalletHistory) : Prop where
  noteCipherId : Z.noteCipherId = Y.noteCipherId
  notes : Z.notes = Y.notes
  chain : ∃ a, OnChain Y.chain.anchor Y.chain.segments a ∧ Z.chain = Y.chain.prune a
  plans : ∃ done, Y.plans = done ++ Z.plans ∧ done.foldlM applyPreparedPlanLifecycleEventV1 Y.base = .ok Z.base

theorem prune_anchor {C : ScanChain} (hC : C.Valid) : C.prune C.anchor = C := by
  have hnone : upToSlot C.anchor.slot C.segments = [] := by
    rw [upToSlot, List.filter_eq_nil_iff]
    intro g hg
    have := hC.linked.slot_lt hg
    simpa using this
  have hall : afterSlot C.anchor.slot C.segments = C.segments := by
    have hcut := upToSlot_append_afterSlot hC.linked C.anchor.slot
    rwa [hnone, List.nil_append] at hcut
  rw [ScanChain.prune, hnone, hall]
  rfl

theorem prune_prune {C : ScanChain} {b : FinalizedChainPointV1} (hC : C.Valid) (hle : a.slot ≤ b.slot) :
    (C.prune a).prune b = C.prune b := by
  have hevents := congrArg eventsOf (upToSlot_eq_append hC hle)
  rw [eventsOf_append] at hevents
  have hafter : afterSlot b.slot (afterSlot a.slot C.segments) = afterSlot b.slot C.segments := by
    rw [afterSlot, afterSlot, afterSlot, List.filter_filter]
    apply List.filter_congr
    intro g _
    by_cases hb : b.slot < g.slot
    · simp [hb, hle.trans_lt hb]
    · simp [hb]
  simp only [ScanChain.prune, hafter, hevents, List.length_append, rootAfter_append, Nat.add_assoc]

theorem Prunes.refl {Y : WalletHistory} (hY : Y.Valid) : Prunes Y Y where
  noteCipherId := rfl
  notes := rfl
  chain := ⟨Y.chain.anchor, onChain_anchor hY.chain.linked, (prune_anchor hY.chain).symm⟩
  plans := ⟨[], rfl, rfl⟩

theorem Prunes.trans {X Y Z : WalletHistory} (hX : X.chain.Valid) (hY : Y.chain.Valid) (h : Prunes X Y) (h' : Prunes Y Z) :
    Prunes X Z where
  noteCipherId := h'.noteCipherId.trans h.noteCipherId
  notes := h'.notes.trans h.notes
  chain := by
    obtain ⟨a, ha, hchain⟩ := h.chain
    obtain ⟨b, hb, hchain'⟩ := h'.chain
    have hle : a.slot ≤ b.slot := by
      have := hY.anchor_le hb
      rwa [hchain] at this
    rw [hchain] at hb hchain'
    exact ⟨b, (onChain_prune hX ha hle).mp hb, hchain'.trans (prune_prune hX hle)⟩
  plans := by
    obtain ⟨done, hdone, hbase⟩ := h.plans
    obtain ⟨done', hdone', hbase'⟩ := h'.plans
    refine ⟨done ++ done', by rw [hdone, hdone', List.append_assoc], ?_⟩
    rw [List.foldlM_append, hbase, except_ok_bind, hbase']

theorem Prunes.withNotes {Y Z : WalletHistory} (h : Prunes Y Z) (f : List StoredSealedNoteV1 → List StoredSealedNoteV1) :
    Prunes { Y with notes := f Y.notes } { Z with notes := f Z.notes } :=
  ⟨h.noteCipherId, congrArg f h.notes, h.chain, h.plans⟩

/-- The plan events of a pruned wallet: the early ones are replayed into the base, the later ones stay. -/
theorem pruneEvents_ok {pruned : ScanStateV1} {plans kept kept' : List FinalizedPreparedSettlementLifecycleV1}
    {base base' : List AuthenticatedPreparedSettlementV1}
    (hretains : ∀ event ∈ plans, pruned.retainsChainPointV1 (planLifecycleEventIdV1 event).point ↔ a.slot ≤ planSlot event)
    (hordered : plans.Pairwise (planSlot · ≤ planSlot ·))
    (h : plans.foldlM (DurableWalletStateV1.pruneEvent pruned) (base, kept) = .ok (base', kept')) :
    ∃ done rest, plans = done ++ rest ∧ kept' = kept ++ rest ∧ (∀ event ∈ done, planSlot event < a.slot) ∧
      (∀ event ∈ rest, a.slot ≤ planSlot event) ∧ done.foldlM applyPreparedPlanLifecycleEventV1 base = .ok base' := by
  induction plans generalizing base kept with
  | nil =>
    rw [List.foldlM_nil, except_pure_eq_ok, Prod.mk.injEq] at h
    obtain ⟨rfl, rfl⟩ := h
    exact ⟨[], [], rfl, (List.append_nil _).symm, by simp, by simp, rfl⟩
  | cons event plans ih =>
    have hhead := hretains event List.mem_cons_self
    have htail := fun e he => hretains e (List.mem_cons_of_mem event he)
    obtain ⟨hlater, hordered⟩ := List.pairwise_cons.mp hordered
    rw [List.foldlM_cons, except_bind_eq_ok] at h
    obtain ⟨⟨base₁, kept₁⟩, hstep, hrest⟩ := h
    obtain ⟨done, rest, rfl, rfl, hdone, hkept, hbase⟩ := ih htail hordered hrest
    unfold DurableWalletStateV1.pruneEvent at hstep
    split_ifs at hstep with hretained
    · -- from here on every event stays
      rw [Except.ok.injEq, Prod.mk.injEq] at hstep
      obtain ⟨rfl, rfl⟩ := hstep
      have hslot := hhead.mp hretained
      have hnone : done = [] := by
        cases done with
        | nil => rfl
        | cons first others =>
          have hfirst := hdone first List.mem_cons_self
          have horder := hlater first List.mem_cons_self
          omega
      subst hnone
      refine ⟨[], event :: rest, rfl, by simp, by simp, fun e he => ?_, hbase⟩
      rcases List.mem_cons.mp he with rfl | hmem
      · exact hslot
      · exact hkept e hmem
    · simp only [except_bind_eq_ok, except_pure_eq_ok, Prod.mk.injEq] at hstep
      obtain ⟨_, hevent, rfl, rfl⟩ := hstep
      refine ⟨event :: done, rest, rfl, rfl, fun e he => ?_, hkept, ?_⟩
      · rcases List.mem_cons.mp he with rfl | hmem
        · exact not_le.mp (mt hhead.mpr hretained)
        · exact hdone e hmem
      · rw [List.foldlM_cons, hevent, except_ok_bind, hbase]

theorem knows_prune {C : ScanChain} (hC : C.Valid) (ha : OnChain C.anchor C.segments a) {id : DepositEventIdV1}
    (h : C.Knows id) : (C.prune a).Knows id := by
  rcases h with hmem | hold
  · obtain ⟨e, he, rfl⟩ := List.mem_map.mp hmem
    rw [← upToSlot_append_afterSlot hC.linked a.slot, eventsOf_append] at he
    rcases List.mem_append.mp he with hearly | hlate
    · rw [hC.eventsOf_upTo] at hearly
      exact .inr (of_decide_eq_true (List.mem_filter.mp hearly).2)
    · exact .inl (List.mem_map.mpr ⟨e, hlate, rfl⟩)
  · exact .inr (hold.trans (hC.anchor_le ha))

theorem planPruneHistory_ok {summary : PruneSummaryV1} (hw : Stores w H) (hH : H.Valid)
    (h : w.planPruneHistory a = .ok (w', summary)) : OnChain H.chain.anchor H.chain.segments a ∧
    ∃ H', H'.Valid ∧ Stores w' H' ∧ H'.chain = H.chain.prune a ∧ ∀ σ, a.slot ≤ σ → Prunes (H.upTo σ) (H'.upTo σ) := by
  simp only [DurableWalletStateV1.planPruneHistory, except_bind_eq_ok, except_pure_eq_ok] at h
  obtain ⟨⟨pruned, summary⟩, hpruned, ⟨base, plans⟩, hfold, active, _, heq⟩ := h
  rw [Prod.mk.injEq] at heq
  obtain ⟨rfl, _⟩ := heq
  unfold DurableWalletStateV1.prunedCursor at hpruned
  rw [hw.scanState] at hpruned
  rcases prune_cases hH.chain a with ⟨ha, hok⟩ | ⟨e, herror⟩
  · rw [hok, Except.ok.injEq, Prod.mk.injEq] at hpruned
    obtain ⟨rfl, _⟩ := hpruned
    have hvalid := hH.chain.prune ha
    have hretains : ∀ event ∈ H.plans, (H.chain.prune a).toState.retainsChainPointV1 (planLifecycleEventIdV1 event).point ↔
        a.slot ≤ planSlot event := by
      intro event hevent
      rw [ScanChain.retains_iff hvalid]
      constructor
      · exact fun hon => hvalid.anchor_le hon
      · exact fun hslot => (onChain_prune hH.chain ha hslot).mpr (hH.plans event hevent)
    rw [hw.plans, hw.base] at hfold
    obtain ⟨done, rest, hsplit, hplans, hdone, hrest, hbase⟩ := pruneEvents_ok hretains hH.ordered hfold
    rw [List.nil_append] at hplans
    refine ⟨ha, ⟨H.chain.prune a, H.noteCipherId, H.notes, base, plans⟩, ⟨hvalid, ?_, ?_, ?_⟩,
      ⟨rfl, hw.noteCipherId, hw.notes, rfl, rfl⟩, rfl, fun σ hσ => ⟨rfl, rfl, ⟨a, onChain_upTo ha hσ, ?_⟩, done, ?_, hbase⟩⟩
    · exact hH.notes.mono fun id hid => knows_prune hH.chain ha hid
    · intro event hevent
      have hmem : event ∈ H.plans := by
        rw [hsplit]
        exact List.mem_append_right _ (hplans ▸ hevent)
      exact (ScanChain.retains_iff hvalid).mp ((hretains event hmem).mpr (hrest event (hplans ▸ hevent)))
    · have hordered := hH.ordered
      rw [hsplit] at hordered
      exact hplans ▸ (List.pairwise_append.mp hordered).2.1
    · exact (prune_upTo hσ).symm
    · have hall : done.filter (planSlot · ≤ σ) = done :=
        List.filter_eq_self.mpr fun event hevent => decide_eq_true ((hdone event hevent).le.trans hσ)
      change plansUpTo σ H.plans = done ++ plansUpTo σ plans
      rw [hsplit, plansUpTo, List.filter_append, hall, hplans]
      rfl
  · rw [herror] at hpruned
    cases hpruned

/-! ### A new cipher -/

theorem setSealedNote_names {known : DepositEventIdV1 → Prop} {notes : List StoredSealedNoteV1}
    {replacement : SealedRecoveredNoteV1} (h : NamesOnly known notes) :
    NamesOnly known (DurableWalletStateV1.setSealedNote replacement notes) := by
  induction notes with
  | nil => exact h
  | cons first rest ih =>
    have hfirst := h first List.mem_cons_self
    have hrest : NamesOnly known rest := fun note hnote => h note (List.mem_cons_of_mem first hnote)
    unfold DurableWalletStateV1.setSealedNote
    split_ifs
    all_goals
      intro note hnote
      rcases List.mem_cons.mp hnote with rfl | hmem
    · exact hfirst
    · exact hrest note hmem
    · exact hfirst
    · exact ih hrest note hmem

theorem replaceNoteCipherV1_ok {sha256 : Bytes → Bytes32} {replaced : Except DurableStateErrorV1 Unit} {old new : Bytes32}
    {replacements : List SealedRecoveredNoteV1} (hw : Stores w H) (hH : H.Valid)
    (h : w.replaceNoteCipherV1 sha256 replaced old new replacements = .ok w') :
    ∃ H', H'.Valid ∧ Stores w' H' ∧ H'.chain = H.chain := by
  simp only [DurableWalletStateV1.replaceNoteCipherV1, except_bind_eq_ok, require_eq_ok] at h
  obtain ⟨_, _, _, _, _, _, resealed, hfold, h⟩ := h
  have hnames : NamesOnly H.chain.Knows resealed.1 := by
    refine foldlM_keeps (P := fun acc => NamesOnly H.chain.Knows acc.1) (fun replacement _ acc acc' hstep hacc => ?_) hfold ?_
    · simp only [DurableWalletStateV1.resealNote, except_bind_eq_ok, require_eq_ok, except_pure_eq_ok] at hstep
      obtain ⟨_, _, _, _, _, _, _, _, rfl⟩ := hstep
      exact setSealedNote_names hacc
    · dsimp only
      rw [hw.notes]
      exact hH.notes
  rw [replaceImage_ok h]
  exact ⟨{ H with noteCipherId := new, notes := resealed.1 }, ⟨hH.chain, hnames, hH.plans, hH.ordered⟩,
    ⟨hw.scanState, rfl, rfl, hw.base, hw.plans⟩, rfl⟩

/-! ### Calls and runs -/

/-- A call on the durable wallet. -/
inductive WalletCallV1 (WalletError : Type)
  | commit (candidate : ScanStateV1) (result : FinalizedBlockIngestResultV1 WalletError)
      (recoveredNotes : List SealedRecoveredNoteV1) (spentUpdates : List AuthenticatedSpentNoteUpdateV1)
      (spendAuthenticator : LocalSpendAuthenticatorV1)
  | prune (ancestor : FinalizedChainPointV1)
  | deliver (recovered : SealedRecoveredNoteV1)
  | replaceCipher (expectedOldCipherId newCipherId : Bytes32) (replacements : List SealedRecoveredNoteV1)

namespace WalletCallV1

def perform (sha256 : Bytes → Bytes32) (replaced : Except DurableStateErrorV1 Unit) (w : DurableWalletStateV1) :
    WalletCallV1 WalletError → Except DurableStateErrorV1 DurableWalletStateV1
  | .commit candidate result recoveredNotes spentUpdates spendAuthenticator =>
      w.commitFinalizedIngestV1 sha256 replaced candidate result recoveredNotes spentUpdates spendAuthenticator
  | .prune ancestor => do
      let (next, _) ← w.pruneFinalizedHistoryThroughV1 sha256 replaced ancestor
      return next
  | .deliver recovered => do
      let (next, _) ← w.storeAuthenticatedDeliveryV1 sha256 replaced recovered
      return next
  | .replaceCipher old new replacements => w.replaceNoteCipherV1 sha256 replaced old new replacements

/-- What comes with a call: a commit is handed the outcome of an ingestion. -/
def Promised (w : DurableWalletStateV1) : WalletCallV1 WalletError → Prop
  | .commit candidate result _ _ _ => Ingested w.scanState candidate result
  | _ => True

end WalletCallV1

/-- A call, how the file system answers it, and whether it is taken. -/
structure WalletEvent (WalletError : Type) where
  call : WalletCallV1 WalletError
  replaced : Except DurableStateErrorV1 Unit
  taken : Bool

/-- A call that fails leaves the wallet as it was. -/
def WalletStep (sha256 : Bytes → Bytes32) (w : DurableWalletStateV1) (e : WalletEvent WalletError)
    (w' : DurableWalletStateV1) : Prop :=
  if e.taken then e.call.Promised w ∧ e.call.perform sha256 e.replaced w = .ok w'
  else w' = w ∧ ∃ error, e.call.perform sha256 e.replaced w = .error error

namespace WalletEvent

/-- The block at a point is committed. -/
def commits (p : FinalizedChainPointV1) (e : WalletEvent WalletError) : Bool :=
  e.taken && match e.call with
    | .commit candidate _ _ _ _ => candidate.head = p
    | _ => false

def replacesCipher (e : WalletEvent WalletError) : Bool :=
  e.taken && match e.call with
    | .replaceCipher _ _ _ => true
    | _ => false

def prunes (e : WalletEvent WalletError) : Bool :=
  e.taken && match e.call with
    | .prune _ => true
    | _ => false

/-- The note that is delivered for a block up to a slot. -/
def deliveredUpTo (σ : ℕ) (e : WalletEvent WalletError) : Option SealedRecoveredNoteV1 :=
  if e.taken then
    match e.call with
    | .deliver recovered => if recovered.eventId.point.slot ≤ σ then some recovered else none
    | _ => none
  else none

end WalletEvent

/-- The notes with those that events deliver for blocks up to a slot. -/
def deliverNotes (σ : ℕ) (notes : List StoredSealedNoteV1) (events : List (WalletEvent WalletError)) :
    List StoredSealedNoteV1 := (events.filterMap (·.deliveredUpTo σ)).foldl deliverNote notes

theorem deliverNotes_concat (notes : List StoredSealedNoteV1) (events : List (WalletEvent WalletError))
    (e : WalletEvent WalletError) : deliverNotes σ notes (events ++ [e]) =
      deliverNotes σ (deliverNotes σ notes events) [e] := by
  rw [deliverNotes, List.filterMap_append, List.foldl_append]
  rfl

/-- A point before the last block of a chain has an earlier slot. -/
theorem ScanChain.Valid.slot_lt_head {C : ScanChain} (hC : C.Valid) (hp : OnChain C.anchor C.segments p) (hne : C.head ≠ p) :
    p.slot < C.head.slot := by
  apply lt_of_le_of_ne (hC.slot_le_head hp)
  intro heq
  apply hne
  have hhead := onChain_head hC
  rw [OnChain, ← heq, show headFrom _ (upToSlot p.slot C.segments) = p from hp] at hhead
  exact hhead.symm

theorem onChain_of_upTo {C : ScanChain} (hp : OnChain (C.upTo σ).anchor (C.upTo σ).segments p)
    (hle : p.slot ≤ σ) : OnChain C.anchor C.segments p := by
  have hcut : upToSlot p.slot (C.upTo σ).segments = upToSlot p.slot C.segments := upToSlot_upToSlot hle
  rw [OnChain, hcut] at hp
  exact hp

/-- What a taken commit does to the history: a block that stays before it stays as it was. -/
theorem commit_step {sha256 : Bytes → Bytes32} {replaced : Except DurableStateErrorV1 Unit} {candidate : ScanStateV1}
    {result : FinalizedBlockIngestResultV1 WalletError} {recoveredNotes : List SealedRecoveredNoteV1}
    {spentUpdates : List AuthenticatedSpentNoteUpdateV1} {spendAuthenticator : LocalSpendAuthenticatorV1}
    (hw : Stores w H) (hH : H.Valid) (hingested : Ingested w.scanState candidate result)
    (h : w.commitFinalizedIngestV1 sha256 replaced candidate result recoveredNotes spentUpdates spendAuthenticator = .ok w') :
    ∃ H', H'.Valid ∧ Stores w' H' ∧ H'.chain.toState = candidate ∧ ∀ p, OnChain H'.chain.anchor H'.chain.segments p →
      candidate.head ≠ p → OnChain H.chain.anchor H.chain.segments p ∧ H'.upTo p.slot = H.upTo p.slot := by
  simp only [DurableWalletStateV1.commitFinalizedIngestV1, except_bind_eq_ok] at h
  obtain ⟨next, hplan, hreplace⟩ := h
  obtain rfl := replaceImage_ok hreplace
  obtain ⟨⟨C, hC, rfl⟩, hplans, hfresh⟩ := hingested
  rw [ScanChain.head_toState] at hplans hfresh ⊢
  -- both kinds of commit are direct ones on some cut of the history
  have hdirect : ∃ H₀ w₀, H₀.Valid ∧ Stores w₀ H₀ ∧ (∀ p, OnChain H₀.chain.anchor H₀.chain.segments p →
      OnChain H.chain.anchor H.chain.segments p ∧ H₀.upTo p.slot = H.upTo p.slot) ∧
      w₀.planFinalizedIngest C.toState result.direct recoveredNotes spentUpdates spendAuthenticator = .ok w' := by
    cases hrollback : result.rollback with
    | none =>
      have hsame : result.direct = result := by
        rw [FinalizedBlockIngestResultV1.direct, ← hrollback]
      exact ⟨H, w, hH, hw, fun p hp => ⟨hp, rfl⟩, hsame ▸ hplan⟩
    | some rollback =>
      have hnew : ¬ H.chain.toState.retainsChainPointV1 C.head := by
        rw [← hw.scanState]
        exact hfresh (by rw [hrollback]; rfl)
      have hw₀ : Stores ⟨(H.upTo rollback.head.slot).chain.toState, H.noteCipherId, (H.upTo rollback.head.slot).notes, H.base,
        (H.upTo rollback.head.slot).plans, []⟩ (H.upTo rollback.head.slot) := ⟨rfl, rfl, rfl, rfl, rfl⟩
      obtain ⟨_, hon, _, _, hplan⟩ := planFinalizedIngest_reorg hw hH hC hnew hrollback hw₀ hplan
      refine ⟨_, _, hH.upTo _, hw₀, fun p hp => ?_, hplan⟩
      have hle : p.slot ≤ rollback.head.slot := by
        have hhead : (H.upTo rollback.head.slot).chain.head = rollback.head := hon
        rw [← hhead]
        exact (hH.upTo _).chain.slot_le_head hp
      exact ⟨onChain_of_upTo hp hle, WalletHistory.upTo_upTo hle⟩
  obtain ⟨H₀, w₀, hH₀, hw₀, hcut, hplan⟩ := hdirect
  have hplans' : ∀ event ∈ result.direct.planLifecycle, (planLifecycleEventIdV1 event).point = C.head := hplans
  obtain ⟨H', hH', hw', hchain, hcases, hupTo⟩ := planFinalizedIngest_direct hw₀ hH₀ hC hplans' rfl hplan
  refine ⟨H', hH', hw', by rw [hchain], fun p hp hne => ?_⟩
  rw [hchain] at hp
  have hslot := hC.slot_lt_head hp hne
  have hon : OnChain H₀.chain.anchor H₀.chain.segments p := by
    rcases hcases with rfl | ⟨g, rfl, hg⟩
    · exact hp
    · rcases onChain_concat_cases hH₀.chain hg hp with hold | hnew
      · exact hold
      · rw [ScanChain.head_concat] at hslot
        rw [hnew] at hslot
        exact absurd hslot (lt_irrefl _)
  exact ⟨(hcut p hon).1, (hupTo p.slot hslot).trans (hcut p hon).2⟩

/-- One step, seen from a block that is still on the chain afterwards: the wallet cut there changes by a late delivery, by
a prune, or not at all. -/
theorem WalletStep.cut {sha256 : Bytes → Bytes32} {e : WalletEvent WalletError} (h : WalletStep sha256 w e w')
    (hw : Stores w H) (hH : H.Valid) : ∃ H', H'.Valid ∧ Stores w' H' ∧ ∀ p, OnChain H'.chain.anchor H'.chain.segments p →
      e.commits p = false → OnChain H.chain.anchor H.chain.segments p ∧ (e.replacesCipher = false →
        H'.upTo p.slot = { H.upTo p.slot with notes := deliverNotes p.slot (H.upTo p.slot).notes [e] } ∨
        e.prunes = true ∧ e.deliveredUpTo p.slot = none ∧ Prunes (H.upTo p.slot) (H'.upTo p.slot)) := by
  obtain ⟨call, replaced, taken⟩ := e
  cases taken with
  | false =>
    obtain ⟨rfl, _⟩ := h
    exact ⟨H, hH, hw, fun p hp _ => ⟨hp, fun _ => .inl rfl⟩⟩
  | true =>
    obtain ⟨hpromised, h⟩ := h
    cases call with
    | commit candidate result recoveredNotes spentUpdates spendAuthenticator =>
      obtain ⟨H', hH', hw', _, hcut⟩ := commit_step hw hH hpromised h
      refine ⟨H', hH', hw', fun p hp hcommits => ?_⟩
      have hne : candidate.head ≠ p := by simpa [WalletEvent.commits] using hcommits
      exact ⟨(hcut p hp hne).1, fun _ => .inl (hcut p hp hne).2⟩
    | prune ancestor =>
      simp only [WalletCallV1.perform, DurableWalletStateV1.pruneFinalizedHistoryThroughV1, except_bind_eq_ok,
        except_pure_eq_ok] at h
      obtain ⟨⟨_, summary⟩, ⟨⟨next, _⟩, hplan, _, hreplace, heq⟩, rfl⟩ := h
      obtain ⟨rfl, rfl⟩ := (Prod.mk.injEq ..).mp heq
      obtain rfl := replaceImage_ok hreplace
      obtain ⟨ha, H', hH', hw', hchain, hprunes⟩ := planPruneHistory_ok hw hH hplan
      refine ⟨H', hH', hw', fun p hp _ => ?_⟩
      have hle : ancestor.slot ≤ p.slot := by
        have := hH'.chain.anchor_le hp
        rwa [hchain] at this
      rw [hchain] at hp
      exact ⟨(onChain_prune hH.chain ha hle).mp hp, fun _ => .inr ⟨rfl, rfl, hprunes p.slot hle⟩⟩
    | deliver recovered =>
      simp only [WalletCallV1.perform, except_bind_eq_ok, except_pure_eq_ok] at h
      obtain ⟨⟨_, outcome⟩, hstore, rfl⟩ := h
      obtain ⟨hevent, notes, hinsert, hw'⟩ := storeAuthenticatedDeliveryV1_ok hw hstore
      have hnames := insertSealedNoteV1_names hinsert (.inl hevent) hH.notes
      refine ⟨{ H with notes := notes }, ⟨hH.chain, hnames, hH.plans, hH.ordered⟩, hw', fun p hp _ => ⟨hp, fun _ => .inl ?_⟩⟩
      by_cases hslot : recovered.eventId.point.slot ≤ p.slot
      · have hdelivered : WalletEvent.deliveredUpTo p.slot (⟨.deliver recovered, replaced, true⟩ : WalletEvent WalletError) =
            some recovered := if_pos hslot
        have hcut := deliverNote_eq (insertSealedNoteV1_cut hslot hinsert)
        rw [deliverNotes, List.filterMap_cons_some hdelivered]
        change _ = { H.upTo p.slot with notes := deliverNote (notesUpTo p.slot H.notes) recovered }
        rw [hcut]
        rfl
      · have hdelivered : WalletEvent.deliveredUpTo p.slot (⟨.deliver recovered, replaced, true⟩ : WalletEvent WalletError) =
            none := if_neg hslot
        have hsame := insertSealedNoteV1_upTo hinsert (not_le.mp hslot)
        rw [deliverNotes, List.filterMap_cons_none hdelivered]
        simp only [WalletHistory.upTo, hsame]
        rfl
    | replaceCipher old new replacements =>
      obtain ⟨H', hH', hw', hchain⟩ := replaceNoteCipherV1_ok hw hH h
      refine ⟨H', hH', hw', fun p hp _ => ⟨?_, fun hcipher => ?_⟩⟩
      · rw [hchain] at hp
        exact hp
      · cases hcipher

end Aspis.Wallet
