import Aspis.Wallet.ScanState

/-! What the scan cursor stands for: an anchor, and after it a chain of blocks
that each own their events. The stored offsets and cursors before every block
are recomputed from the chain, so cutting the chain at a block, at either end,
says at once what every stored number becomes. -/

namespace Aspis.Wallet

open Lib Statement Pool

/-- A retained block with the events taken from it. -/
@[ext]
structure Segment where
  block : FinalizedBlockV1
  events : List ProcessedDepositEventV1

namespace Segment

def slot (g : Segment) : ℕ := g.block.point.slot

end Segment

def eventsOf (segments : List Segment) : List ProcessedDepositEventV1 := segments.flatMap (·.events)

/-- The tree root after some events. -/
def rootAfter (root : Bytes32) (events : List ProcessedDepositEventV1) : Bytes32 := events.foldl (fun _ e => e.root) root

/-- The last block of a chain, or where it starts. -/
def headFrom (anchor : FinalizedChainPointV1) (segments : List Segment) : FinalizedChainPointV1 :=
  segments.foldl (fun _ g => g.block.point) anchor

/-- The checkpoints of a chain: for each block the cursor before it. -/
def checkpointsFrom (next : ℕ) (root : Bytes32) (count : ℕ) : List Segment → List BlockCheckpointV1
  | [] => []
  | g :: rest => ⟨g.block, next, root, count⟩ ::
      checkpointsFrom (next + g.events.length) (rootAfter root g.events) (count + g.events.length) rest

/-- Every block names the one before it as its parent. -/
def LinkedFrom : FinalizedChainPointV1 → List Segment → Prop
  | _, [] => True
  | p, g :: rest => g.block.parent = p ∧ LinkedFrom g.block.point rest

@[ext]
structure ScanChain where
  identity : DepositScanIdentityV1
  anchor : FinalizedChainPointV1
  anchorNextLeafIndex : ℕ
  anchorRoot : Bytes32
  segments : List Segment

/-! ### Cutting a chain -/

section Cut
variable {xs ys : List Segment} {p q : FinalizedChainPointV1} {σ : ℕ}

@[simp] theorem eventsOf_nil : eventsOf [] = [] := rfl

@[simp] theorem eventsOf_cons (g : Segment) : eventsOf (g :: xs) = g.events ++ eventsOf xs := rfl

@[simp] theorem eventsOf_append : eventsOf (xs ++ ys) = eventsOf xs ++ eventsOf ys := List.flatMap_append

theorem rootAfter_append (root : Bytes32) (es fs : List ProcessedDepositEventV1) :
    rootAfter root (es ++ fs) = rootAfter (rootAfter root es) fs := List.foldl_append

@[simp] theorem headFrom_append : headFrom p (xs ++ ys) = headFrom (headFrom p xs) ys := List.foldl_append

theorem checkpointsFrom_append (next : ℕ) (root : Bytes32) (count : ℕ) :
    checkpointsFrom next root count (xs ++ ys) = checkpointsFrom next root count xs ++
      checkpointsFrom (next + (eventsOf xs).length) (rootAfter root (eventsOf xs)) (count + (eventsOf xs).length) ys := by
  induction xs generalizing next root count with
  | nil => rfl
  | cons g rest ih =>
    simp only [List.cons_append, checkpointsFrom, ih, eventsOf_cons, List.length_append, rootAfter_append, Nat.add_assoc]

@[simp] theorem length_checkpointsFrom (next : ℕ) (root : Bytes32) (count : ℕ) :
    (checkpointsFrom next root count xs).length = xs.length := by
  induction xs generalizing next root count with
  | nil => rfl
  | cons g rest ih => simp [checkpointsFrom, ih]

/-- The stored blocks are the blocks of the chain. -/
theorem map_block_checkpointsFrom (next : ℕ) (root : Bytes32) (count : ℕ) :
    (checkpointsFrom next root count xs).map (·.block) = xs.map (·.block) := by
  induction xs generalizing next root count with
  | nil => rfl
  | cons g rest ih => simp [checkpointsFrom, ih]

/-- Taking events away before the first block shifts every stored offset. -/
theorem checkpointsFrom_shift (next : ℕ) (root : Bytes32) (count k : ℕ) :
    (checkpointsFrom next root (count + k) xs).map
      (fun c => { c with processedEventCountBefore := c.processedEventCountBefore - k }) =
      checkpointsFrom next root count xs := by
  induction xs generalizing next root count with
  | nil => rfl
  | cons g rest ih =>
    have hshift : count + k + g.events.length = count + g.events.length + k := by omega
    simp only [checkpointsFrom, List.map_cons, Nat.add_sub_cancel, hshift, ih]

theorem le_of_mem_checkpointsFrom {next : ℕ} {root : Bytes32} {count : ℕ} {c : BlockCheckpointV1}
    (h : c ∈ checkpointsFrom next root count xs) : count ≤ c.processedEventCountBefore := by
  induction xs generalizing next root count with
  | nil => cases h
  | cons g rest ih =>
    rcases List.mem_cons.mp h with rfl | hrest
    · exact le_rfl
    · exact (Nat.le_add_right _ _).trans (ih hrest)

theorem linkedFrom_append : LinkedFrom p (xs ++ ys) ↔ LinkedFrom p xs ∧ LinkedFrom (headFrom p xs) ys := by
  induction xs generalizing p with
  | nil => simp [LinkedFrom, headFrom]
  | cons g rest ih =>
    simp only [List.cons_append, LinkedFrom, ih, and_assoc]
    rfl

/-- Later blocks have later slots. -/
theorem LinkedFrom.slot_lt (h : LinkedFrom p xs) {g : Segment} (hg : g ∈ xs) : p.slot < g.slot := by
  induction xs generalizing p with
  | nil => cases hg
  | cons first rest ih =>
    have hfirst : p.slot < first.slot := by
      have hparent := first.block.parent_lt
      rwa [h.1] at hparent
    rcases List.mem_cons.mp hg with rfl | hrest
    · exact hfirst
    · exact hfirst.trans (ih h.2 hrest)

theorem LinkedFrom.slot_le_head (h : LinkedFrom p xs) : p.slot ≤ (headFrom p xs).slot ∧
    ∀ g ∈ xs, g.slot ≤ (headFrom p xs).slot := by
  induction xs generalizing p with
  | nil => exact ⟨le_rfl, fun g hg => absurd hg List.not_mem_nil⟩
  | cons first rest ih =>
    have hfirst : p.slot < first.slot := h.slot_lt List.mem_cons_self
    have hrest := ih h.2
    refine ⟨hfirst.le.trans hrest.1, fun g hg => ?_⟩
    rcases List.mem_cons.mp hg with rfl | hmem
    · exact hrest.1
    · exact hrest.2 g hmem

/-- A slot cuts a chain in two. -/
theorem LinkedFrom.exists_cut (h : LinkedFrom p xs) (σ : ℕ) : ∃ before after, xs = before ++ after ∧
    (∀ g ∈ before, g.slot ≤ σ) ∧ ∀ g ∈ after, σ < g.slot := by
  induction xs generalizing p with
  | nil => exact ⟨[], [], rfl, by simp, by simp⟩
  | cons first rest ih =>
    by_cases hfirst : first.slot ≤ σ
    · obtain ⟨before, after, rfl, hbefore, hafter⟩ := ih h.2
      exact ⟨first :: before, after, rfl, by simpa [hfirst] using hbefore, hafter⟩
    · refine ⟨[], first :: rest, rfl, by simp, fun g hg => ?_⟩
      rcases List.mem_cons.mp hg with rfl | hmem
      · omega
      · have hlater := h.2.slot_lt hmem
        change first.slot < g.slot at hlater
        omega

/-- The blocks up to a slot, and those after it. -/
def upToSlot (σ : ℕ) (segments : List Segment) : List Segment := segments.filter (·.slot ≤ σ)

def afterSlot (σ : ℕ) (segments : List Segment) : List Segment := segments.filter (σ < ·.slot)

theorem upToSlot_of_cut (hx : ∀ g ∈ xs, g.slot ≤ σ) (hy : ∀ g ∈ ys, σ < g.slot) : upToSlot σ (xs ++ ys) = xs := by
  have hleft : xs.filter (·.slot ≤ σ) = xs := List.filter_eq_self.mpr fun g hg => decide_eq_true (hx g hg)
  have hright : ys.filter (·.slot ≤ σ) = [] :=
    List.filter_eq_nil_iff.mpr fun g hg => by simpa using hy g hg
  rw [upToSlot, List.filter_append, hleft, hright, List.append_nil]

theorem afterSlot_of_cut (hx : ∀ g ∈ xs, g.slot ≤ σ) (hy : ∀ g ∈ ys, σ < g.slot) : afterSlot σ (xs ++ ys) = ys := by
  have hleft : xs.filter (σ < ·.slot) = [] :=
    List.filter_eq_nil_iff.mpr fun g hg => by simpa using hx g hg
  have hright : ys.filter (σ < ·.slot) = ys := List.filter_eq_self.mpr fun g hg => decide_eq_true (hy g hg)
  rw [afterSlot, List.filter_append, hleft, hright, List.nil_append]

theorem upToSlot_append_afterSlot (h : LinkedFrom p xs) (σ : ℕ) : upToSlot σ xs ++ afterSlot σ xs = xs := by
  obtain ⟨before, after, rfl, hbefore, hafter⟩ := h.exists_cut σ
  rw [upToSlot_of_cut hbefore hafter, afterSlot_of_cut hbefore hafter]

theorem upToSlot_eq_self (h : ∀ g ∈ xs, g.slot ≤ σ) : upToSlot σ xs = xs :=
  List.filter_eq_self.mpr fun g hg => decide_eq_true (h g hg)

theorem upToSlot_upToSlot {τ : ℕ} (h : σ ≤ τ) : upToSlot σ (upToSlot τ xs) = upToSlot σ xs := by
  rw [upToSlot, upToSlot, upToSlot, List.filter_filter]
  apply List.filter_congr
  intro g _
  by_cases hg : g.slot ≤ σ
  · simp [hg, hg.trans h]
  · simp [hg]

theorem upToSlot_upToSlot_of_le {τ : ℕ} (h : σ ≤ τ) : upToSlot τ (upToSlot σ xs) = upToSlot σ xs :=
  upToSlot_eq_self fun _ hg => (of_decide_eq_true (List.mem_filter.mp hg).2).trans h

theorem afterSlot_upToSlot {τ : ℕ} : afterSlot σ (upToSlot τ xs) = upToSlot τ (afterSlot σ xs) := by
  rw [afterSlot, upToSlot, List.filter_comm]
  rfl

/-- A point of the chain, or its anchor, is where the blocks up to its slot end. -/
def OnChain (anchor : FinalizedChainPointV1) (segments : List Segment) (q : FinalizedChainPointV1) : Prop :=
  headFrom anchor (upToSlot q.slot segments) = q

theorem onChain_anchor (h : LinkedFrom p xs) : OnChain p xs p := by
  have hnone : upToSlot p.slot xs = [] := by
    rw [upToSlot, List.filter_eq_nil_iff]
    intro g hg
    have := h.slot_lt hg
    simpa using this
  rw [OnChain, hnone]
  rfl

theorem onChain_of_mem (h : LinkedFrom p xs) {g : Segment} (hg : g ∈ xs) : OnChain p xs g.block.point := by
  obtain ⟨before, after, rfl⟩ := List.append_of_mem hg
  have hlinked := linkedFrom_append.mp h
  have hhead := hlinked.1.slot_le_head
  have hg' : (headFrom p before).slot < g.slot := hlinked.2.slot_lt List.mem_cons_self
  have hcut : upToSlot g.slot ((before ++ [g]) ++ after) = before ++ [g] := by
    apply upToSlot_of_cut
    · intro x hx
      rcases List.mem_append.mp hx with hmem | hlast
      · exact (hhead.2 x hmem).trans hg'.le
      · rw [List.mem_singleton.mp hlast]
    · exact fun x hx => hlinked.2.2.slot_lt hx
  have hsplit : before ++ g :: after = (before ++ [g]) ++ after := by simp
  rw [OnChain]
  change headFrom p (upToSlot g.slot (before ++ g :: after)) = g.block.point
  rw [hsplit, hcut, headFrom_append]
  rfl

theorem LinkedFrom.afterSlot (h : LinkedFrom p xs) (hq : OnChain p xs q) : LinkedFrom q (afterSlot q.slot xs) := by
  have hcut := upToSlot_append_afterSlot h q.slot
  rw [← hcut] at h
  have hlater := (linkedFrom_append.mp h).2
  rwa [show headFrom p (upToSlot q.slot xs) = q from hq] at hlater

theorem LinkedFrom.upToSlot (h : LinkedFrom p xs) (σ : ℕ) : LinkedFrom p (upToSlot σ xs) := by
  have hcut := upToSlot_append_afterSlot h σ
  rw [← hcut] at h
  exact (linkedFrom_append.mp h).1

end Cut

/-! ### The stored state of a chain -/

theorem rootAfter_canonical {root : Bytes32} {es : List ProcessedDepositEventV1} (hroot : isCanonicalDigest root = true)
    (hes : ∀ e ∈ es, isCanonicalDigest e.root = true) : isCanonicalDigest (rootAfter root es) = true := by
  induction es generalizing root with
  | nil => exact hroot
  | cons e es ih => exact ih (hes e List.mem_cons_self) fun e' he' => hes e' (List.mem_cons_of_mem e he')

namespace ScanChain

/-- The cursor that a wallet stores for the chain. -/
def toState (C : ScanChain) : ScanStateV1 where
  identity := C.identity
  anchor := C.anchor
  anchorNextLeafIndex := C.anchorNextLeafIndex
  anchorRoot := C.anchorRoot
  nextLeafIndex := C.anchorNextLeafIndex + (eventsOf C.segments).length
  root := rootAfter C.anchorRoot (eventsOf C.segments)
  blocks := checkpointsFrom C.anchorNextLeafIndex C.anchorRoot 0 C.segments
  processedEvents := eventsOf C.segments

structure Valid (C : ScanChain) : Prop where
  linked : LinkedFrom C.anchor C.segments
  own : ∀ g ∈ C.segments, ∀ e ∈ g.events, e.id.point = g.block.point
  leaves : (eventsOf C.segments).map (·.leafIndex) = List.range' C.anchorNextLeafIndex (eventsOf C.segments).length
  canonical : ∀ e ∈ eventsOf C.segments, isCanonicalDigest e.noteCommitment = true ∧ isCanonicalDigest e.root = true
  fresh : ((eventsOf C.segments).map (·.id)).Nodup
  capacity : C.anchorNextLeafIndex + (eventsOf C.segments).length ≤ POOL_V1_LEAF_CAPACITY
  anchor_canonical : isCanonicalDigest C.anchorRoot = true

/-- The chain without what comes after a slot. -/
def upTo (C : ScanChain) (σ : ℕ) : ScanChain := { C with segments := upToSlot σ C.segments }

/-- The chain with its anchor moved up to a point. -/
def prune (C : ScanChain) (a : FinalizedChainPointV1) : ScanChain :=
  { C with
    anchor := a
    anchorNextLeafIndex := C.anchorNextLeafIndex + (eventsOf (upToSlot a.slot C.segments)).length
    anchorRoot := rootAfter C.anchorRoot (eventsOf (upToSlot a.slot C.segments))
    segments := afterSlot a.slot C.segments }

variable {C : ScanChain}

theorem Valid.next_canonical (h : C.Valid) : isCanonicalDigest (rootAfter C.anchorRoot (eventsOf C.segments)) = true :=
  rootAfter_canonical h.anchor_canonical fun e he => (h.canonical e he).2

/-- A chain cut in two: the early part keeps the anchor, the later part starts at the cut. -/
theorem Valid.cut {xs ys : List Segment} (h : C.Valid) (hsplit : C.segments = xs ++ ys) :
    Valid { C with segments := xs } ∧
    Valid { C with
      anchor := headFrom C.anchor xs
      anchorNextLeafIndex := C.anchorNextLeafIndex + (eventsOf xs).length
      anchorRoot := rootAfter C.anchorRoot (eventsOf xs)
      segments := ys } := by
  obtain ⟨linked, own, leaves, canonical, fresh, capacity, anchor_canonical⟩ := h
  rw [hsplit] at linked own leaves canonical fresh capacity
  rw [eventsOf_append] at leaves canonical fresh capacity
  rw [List.map_append] at leaves fresh
  rw [List.length_append] at leaves capacity
  rw [← List.range'_append_1] at leaves
  obtain ⟨hleft, hright⟩ := List.append_inj leaves (by simp)
  have hmem : ∀ e ∈ eventsOf xs, e ∈ eventsOf xs ++ eventsOf ys := fun e he => List.mem_append_left _ he
  constructor
  · exact {
      linked := (linkedFrom_append.mp linked).1
      own := fun g hg => own g (List.mem_append_left _ hg)
      leaves := hleft
      canonical := fun e he => canonical e (hmem e he)
      fresh := (List.nodup_append.mp fresh).1
      capacity := by
        change C.anchorNextLeafIndex + (eventsOf xs).length ≤ _
        omega
      anchor_canonical := anchor_canonical }
  · exact {
      linked := (linkedFrom_append.mp linked).2
      own := fun g hg => own g (List.mem_append_right _ hg)
      leaves := hright
      canonical := fun e he => canonical e (List.mem_append_right _ he)
      fresh := (List.nodup_append.mp fresh).2.1
      capacity := by
        change C.anchorNextLeafIndex + (eventsOf xs).length + (eventsOf ys).length ≤ _
        omega
      anchor_canonical := rootAfter_canonical anchor_canonical fun e he => (canonical e (hmem e he)).2 }

theorem Valid.upTo (h : C.Valid) (σ : ℕ) : (C.upTo σ).Valid :=
  (h.cut (upToSlot_append_afterSlot h.linked σ).symm).1

theorem Valid.prune {a : FinalizedChainPointV1} (h : C.Valid) (ha : OnChain C.anchor C.segments a) :
    (C.prune a).Valid := by
  have hcut := (h.cut (upToSlot_append_afterSlot h.linked a.slot).symm).2
  rw [show headFrom C.anchor (upToSlot a.slot C.segments) = a from ha] at hcut
  exact hcut

/-- The events up to a slot are those whose own point is. -/
theorem Valid.eventsOf_upTo (h : C.Valid) (σ : ℕ) :
    eventsOf (upToSlot σ C.segments) = (eventsOf C.segments).filter (·.id.point.slot ≤ σ) := by
  have hcut := upToSlot_append_afterSlot h.linked σ
  have hleft : ∀ e ∈ eventsOf (upToSlot σ C.segments), e.id.point.slot ≤ σ := by
    intro e he
    obtain ⟨g, hg, heg⟩ := List.mem_flatMap.mp he
    have hslot := List.mem_filter.mp hg
    rw [h.own g hslot.1 e heg]
    exact of_decide_eq_true hslot.2
  have hright : ∀ e ∈ eventsOf (afterSlot σ C.segments), σ < e.id.point.slot := by
    intro e he
    obtain ⟨g, hg, heg⟩ := List.mem_flatMap.mp he
    have hslot := List.mem_filter.mp hg
    rw [h.own g hslot.1 e heg]
    exact of_decide_eq_true hslot.2
  calc eventsOf (upToSlot σ C.segments)
      = (eventsOf (upToSlot σ C.segments)).filter (·.id.point.slot ≤ σ) ++
          (eventsOf (afterSlot σ C.segments)).filter (·.id.point.slot ≤ σ) := by
        rw [List.filter_eq_self.mpr fun e he => decide_eq_true (hleft e he),
          List.filter_eq_nil_iff.mpr fun e he => by simpa using hright e he, List.append_nil]
    _ = (eventsOf C.segments).filter (·.id.point.slot ≤ σ) := by
        rw [← List.filter_append, ← eventsOf_append, hcut]

end ScanChain

/-! ### The image invariants hold -/

theorem validateEventsV1_ok {point : FinalizedChainPointV1} {next : ℕ} {root : Bytes32} {ids : List DepositEventIdV1}
    {es : List ProcessedDepositEventV1} (hpoint : ∀ e ∈ es, e.id.point = point)
    (hleaves : es.map (·.leafIndex) = List.range' next es.length) (hcapacity : next + es.length ≤ POOL_V1_LEAF_CAPACITY)
    (hcanonical : ∀ e ∈ es, isCanonicalDigest e.noteCommitment = true ∧ isCanonicalDigest e.root = true)
    (hfresh : (es.map (·.id) ++ ids).Nodup) :
    validateEventsV1 point next root ids es =
      some (next + es.length, rootAfter root es, (es.map (·.id)).reverse ++ ids) := by
  induction es generalizing next root ids with
  | nil => rfl
  | cons e es ih =>
    rw [List.length_cons, List.map_cons, List.range'_succ, List.cons.injEq] at hleaves
    rw [List.map_cons, List.cons_append, ← List.nodup_middle] at hfresh
    rw [List.length_cons] at hcapacity
    have he := hcanonical e List.mem_cons_self
    have hnew : e.id ∉ ids := by
      intro hmem
      have := List.nodup_cons.mp (List.nodup_middle.mp hfresh)
      exact this.1 (List.mem_append_right _ hmem)
    have hcheck : ¬ (e.id.point ≠ point ∨ e.leafIndex ≠ next ∨ next ≥ POOL_V1_LEAF_CAPACITY ∨
        isCanonicalDigest e.noteCommitment = false ∨ isCanonicalDigest e.root = false ∨ e.id ∈ ids) := by
      rw [hpoint e List.mem_cons_self, hleaves.1, he.1, he.2]
      simp only [ne_eq, not_true_eq_false, Bool.true_eq_false, hnew, false_or, or_false, not_le, ge_iff_le]
      omega
    rw [validateEventsV1, if_neg hcheck, ih (fun e' he' => hpoint e' (List.mem_cons_of_mem e he')) hleaves.2 (by omega)
      (fun e' he' => hcanonical e' (List.mem_cons_of_mem e he')) hfresh]
    simp only [List.length_cons, List.map_cons, List.reverse_cons, List.append_assoc, List.singleton_append,
      Option.some.injEq, Prod.mk.injEq, and_true]
    exact ⟨by omega, rfl⟩

/-- The walk over the rest of a chain, after `done` events. -/
theorem validateBlocksV1_ok {done : List ProcessedDepositEventV1} {ids : List DepositEventIdV1} {C : ScanChain}
    (h : C.Valid) (hfresh : ((eventsOf C.segments).map (·.id) ++ ids).Nodup) :
    validateBlocksV1 (done ++ eventsOf C.segments) C.anchor C.anchorNextLeafIndex C.anchorRoot done.length ids
      (checkpointsFrom C.anchorNextLeafIndex C.anchorRoot done.length C.segments) =
      some (C.anchorNextLeafIndex + (eventsOf C.segments).length, rootAfter C.anchorRoot (eventsOf C.segments),
        done.length + (eventsOf C.segments).length) := by
  obtain ⟨identity, anchor, next, root, segments⟩ := C
  induction segments generalizing done ids anchor next root with
  | nil => rfl
  | cons g rest ih =>
    have hcut := h.cut (show _ = [g] ++ rest from rfl)
    have hfirst := hcut.1
    have hrest := hcut.2
    simp only [eventsOf_cons, eventsOf_nil, List.append_nil] at hrest hfresh
    rw [List.map_append, List.append_assoc] at hfresh
    have hcheck : ¬ (g.block.parent ≠ anchor ∨ g.block.point.slot ≤ g.block.parent.slot ∨ next ≠ next ∨ root ≠ root ∨
        done.length ≠ done.length ∨ isCanonicalDigest root = false) := by
      have hslot := g.block.parent_lt
      have hparent : g.block.parent = anchor := h.linked.1
      have hcanonical : isCanonicalDigest root = true := h.anchor_canonical
      simp only [hparent, hcanonical, ne_eq, not_true_eq_false, Bool.true_eq_false, false_or, or_false, not_le]
      rwa [hparent] at hslot
    have hoffset : ((checkpointsFrom (next + g.events.length) (rootAfter root g.events) (done.length + g.events.length)
        rest).head?.map (·.processedEventCountBefore)).getD (done ++ (g.events ++ eventsOf rest)).length =
        done.length + g.events.length := by
      cases rest with
      | nil => simp [checkpointsFrom]
      | cons g' rest' => rfl
    have hrange : ¬ (done.length + g.events.length < done.length ∨
        done.length + g.events.length > (done ++ (g.events ++ eventsOf rest)).length) := by
      simp only [List.length_append]
      omega
    have hslice : ((done ++ (g.events ++ eventsOf rest)).drop done.length).take
        (done.length + g.events.length - done.length) = g.events := by
      rw [List.drop_left, Nat.add_sub_cancel_left, List.take_left]
    have hevents : validateEventsV1 g.block.point next root ids g.events =
        some (next + g.events.length, rootAfter root g.events, (g.events.map (·.id)).reverse ++ ids) := by
      have hleaves := hfirst.leaves
      have hcapacity := hfirst.capacity
      have hcanonical := hfirst.canonical
      simp only [eventsOf_cons, eventsOf_nil, List.append_nil] at hleaves hcapacity hcanonical
      apply validateEventsV1_ok (h.own g List.mem_cons_self) hleaves hcapacity hcanonical
      rw [← List.append_assoc] at hfresh
      have hperm : (g.events.map (·.id) ++ (eventsOf rest).map (·.id)).Perm
          ((eventsOf rest).map (·.id) ++ g.events.map (·.id)) := List.perm_append_comm
      have hfresh' := ((hperm.append_right ids).nodup_iff).mp hfresh
      rw [List.append_assoc] at hfresh'
      exact (List.nodup_append.mp hfresh').2.1
    have hlater : ((eventsOf rest).map (·.id) ++ ((g.events.map (·.id)).reverse ++ ids)).Nodup := by
      have hperm : (g.events.map (·.id) ++ ((eventsOf rest).map (·.id) ++ ids)).Perm
          ((eventsOf rest).map (·.id) ++ ((g.events.map (·.id)).reverse ++ ids)) := by
        rw [← List.append_assoc, ← List.append_assoc]
        apply List.Perm.append_right
        exact List.perm_append_comm.trans ((List.reverse_perm _).symm.append_left _)
      exact hperm.nodup_iff.mp hfresh
    have hnext := @ih (done ++ g.events) _ _ _ _ hrest hlater
    simp only [checkpointsFrom, eventsOf_cons, validateBlocksV1]
    rw [if_neg hcheck, hoffset, if_neg hrange, hslice, hevents]
    simp only [List.append_assoc, List.length_append, headFrom, List.foldl_cons, List.foldl_nil] at hnext
    dsimp only
    rw [hnext, rootAfter_append, List.length_append, Nat.add_assoc, Nat.add_assoc]

theorem ScanChain.Valid.validateStateInvariantsV1 {C : ScanChain} (h : C.Valid) :
    validateStateInvariantsV1 C.toState = .ok () := by
  have hwalk := @validateBlocksV1_ok [] [] C h (by rw [List.append_nil]; exact h.fresh)
  rw [List.nil_append, List.length_nil, Nat.zero_add] at hwalk
  have hcapacity := h.capacity
  simp only [Wallet.validateStateInvariantsV1, except_bind_eq_ok, require_eq_ok, okOr_eq_ok]
  refine ⟨(), ⟨?_, h.anchor_canonical, hcapacity, h.next_canonical⟩, (), ?_, _, hwalk, rfl, rfl, rfl⟩
  · change C.anchorNextLeafIndex ≤ _
    omega
  · rintro ⟨hblocks, hevents⟩
    have hnone : C.segments = [] := by
      rw [← List.length_eq_zero_iff, ← length_checkpointsFrom C.anchorNextLeafIndex C.anchorRoot 0]
      exact congrArg List.length hblocks
    apply hevents
    change eventsOf C.segments = []
    rw [hnone]
    rfl

end Aspis.Wallet
