import Mathlib.Data.List.ModifyLast
import Aspis.Wallet.ScanChain

/-! The operations of the scan cursor, seen on the chain it stands for. A
rollback cuts the end off, a prune cuts the start off, an advance adds an empty
block and an accepted event goes to the last block; nothing else changes. -/

namespace Aspis.Wallet

open Lib Statement Pool

namespace ScanChain

variable {C : ScanChain} {p a : FinalizedChainPointV1} {xs ys : List Segment}

/-! ### Reading the stored state -/

/-- The stored state of a chain in two parts. -/
theorem toState_split (h : C.segments = xs ++ ys) : C.toState =
    { identity := C.identity
      anchor := C.anchor
      anchorNextLeafIndex := C.anchorNextLeafIndex
      anchorRoot := C.anchorRoot
      nextLeafIndex := C.anchorNextLeafIndex + (eventsOf xs).length + (eventsOf ys).length
      root := rootAfter (rootAfter C.anchorRoot (eventsOf xs)) (eventsOf ys)
      blocks := checkpointsFrom C.anchorNextLeafIndex C.anchorRoot 0 xs ++
        checkpointsFrom (C.anchorNextLeafIndex + (eventsOf xs).length) (rootAfter C.anchorRoot (eventsOf xs))
          (eventsOf xs).length ys
      processedEvents := eventsOf xs ++ eventsOf ys } := by
  rw [toState, h, checkpointsFrom_append, eventsOf_append, List.length_append, rootAfter_append, Nat.zero_add,
    Nat.add_assoc]

theorem map_block_toState (C : ScanChain) : C.toState.blocks.map (·.block) = C.segments.map (·.block) :=
  map_block_checkpointsFrom _ _ _

theorem getLast?_toState (C : ScanChain) :
    C.toState.blocks.getLast?.map (·.block) = C.segments.getLast?.map (·.block) := by
  rw [← List.getLast?_map, ← List.getLast?_map, map_block_toState]

theorem headFrom_eq (p : FinalizedChainPointV1) (xs : List Segment) :
    headFrom p xs = (xs.getLast?.map (·.block.point)).getD p := by
  rcases List.eq_nil_or_concat xs with rfl | ⟨init, g, rfl⟩
  · rfl
  · rw [List.concat_eq_append, headFrom_append, List.getLast?_concat]
    rfl

theorem head_toState (C : ScanChain) : C.toState.head = headFrom C.anchor C.segments := by
  have hlast := congrArg (Option.map (·.point)) (getLast?_toState C)
  rw [Option.map_map, Option.map_map] at hlast
  rw [headFrom_eq, ScanStateV1.head]
  exact congrArg (Option.getD · C.anchor) hlast

theorem mem_block_toState {b : FinalizedBlockV1} :
    (∃ c ∈ C.toState.blocks, c.block = b) ↔ ∃ g ∈ C.segments, g.block = b := by
  rw [← List.mem_map, ← List.mem_map, map_block_toState]

/-- The points a rollback can go to are those of the chain. -/
theorem retains_iff (h : C.Valid) : C.toState.retainsChainPointV1 p ↔ OnChain C.anchor C.segments p := by
  constructor
  · rintro (rfl | ⟨c, hc, rfl⟩)
    · exact onChain_anchor h.linked
    · obtain ⟨g, hg, hblock⟩ := mem_block_toState.mp ⟨c, hc, rfl⟩
      rw [← hblock]
      exact onChain_of_mem h.linked hg
  · intro hp
    rcases List.eq_nil_or_concat (upToSlot p.slot C.segments) with hnil | ⟨init, g, hlast⟩
    · rw [OnChain, hnil] at hp
      exact .inl hp.symm
    · rw [OnChain, hlast, List.concat_eq_append, headFrom_append] at hp
      have hg : g ∈ C.segments := by
        have hmem : g ∈ upToSlot p.slot C.segments := by rw [hlast]; simp
        exact (List.mem_filter.mp hmem).1
      obtain ⟨c, hc, hblock⟩ := mem_block_toState.mpr ⟨g, hg, rfl⟩
      exact .inr ⟨c, hc, (congrArg (·.point) hblock).trans hp⟩

theorem Valid.anchor_le (h : C.Valid) (hp : OnChain C.anchor C.segments p) : C.anchor.slot ≤ p.slot := by
  have hle := (h.linked.upToSlot p.slot).slot_le_head.1
  rwa [show headFrom C.anchor (upToSlot p.slot C.segments) = p from hp] at hle

theorem Valid.upTo_eq_self (h : C.Valid) {σ : ℕ} (hσ : (headFrom C.anchor C.segments).slot ≤ σ) : C.upTo σ = C := by
  have hall : upToSlot σ C.segments = C.segments :=
    upToSlot_eq_self fun g hg => (h.linked.slot_le_head.2 g hg).trans hσ
  rw [ScanChain.upTo, hall]

/-- The block of a point stands where the chain up to it ends. -/
theorem Valid.findIdx?_eq (h : C.Valid) {g : Segment} (hsplit : C.segments = xs ++ g :: ys) :
    C.toState.blocks.findIdx? (·.block.point = g.block.point) = some xs.length := by
  have hlinked := linkedFrom_append.mp (hsplit ▸ h.linked)
  have hg : (headFrom C.anchor xs).slot < g.slot := hlinked.2.slot_lt List.mem_cons_self
  have hbefore : (checkpointsFrom C.anchorNextLeafIndex C.anchorRoot 0 xs).findIdx?
      (·.block.point = g.block.point) = none := by
    rw [List.findIdx?_eq_none_iff]
    intro c hc
    have hmem : c.block ∈ xs.map (·.block) := by
      rw [← map_block_checkpointsFrom C.anchorNextLeafIndex C.anchorRoot 0]
      exact List.mem_map_of_mem hc
    obtain ⟨x, hx, hblock⟩ := List.mem_map.mp hmem
    have hslot := hlinked.1.slot_le_head.2 x hx
    apply decide_eq_false
    intro heq
    have : x.slot = g.slot := by rw [Segment.slot, Segment.slot, hblock, heq]
    omega
  rw [toState_split hsplit, List.findIdx?_append, hbefore, checkpointsFrom, List.findIdx?_cons]
  simp

theorem Valid.blocksThrough_eq (h : C.Valid) (hp : OnChain C.anchor C.segments p) :
    C.toState.blocksThrough p = some (upToSlot p.slot C.segments).length := by
  rcases List.eq_nil_or_concat (upToSlot p.slot C.segments) with hnil | ⟨init, g, hlast⟩
  · have hanchor : p = C.toState.anchor := by
      rw [OnChain, hnil] at hp
      exact hp.symm
    rw [ScanStateV1.blocksThrough, if_pos hanchor, hnil]
    rfl
  · rw [List.concat_eq_append] at hlast
    have hcut := upToSlot_append_afterSlot h.linked p.slot
    rw [hlast, List.append_assoc, List.singleton_append] at hcut
    have hpoint : g.block.point = p := by
      rw [OnChain, hlast, headFrom_append] at hp
      exact hp
    have hmem : g ∈ C.segments := by rw [← hcut]; simp
    have hanchor : p ≠ C.toState.anchor := by
      intro heq
      have hslot := h.linked.slot_lt hmem
      rw [Segment.slot, hpoint, heq] at hslot
      exact absurd hslot (lt_irrefl _)
    rw [ScanStateV1.blocksThrough, if_neg hanchor, ← hpoint, h.findIdx?_eq hcut.symm, hpoint, hlast, List.length_append]
    rfl

/-! ### Rollback and prune -/

/-- The answer of a rollback. -/
def rollbackSummary (C : ScanChain) (p : FinalizedChainPointV1) : RollbackSummaryV1 where
  removedEvents := (eventsOf (afterSlot p.slot C.segments)).map (·.id)
  nextLeafIndex := (C.upTo p.slot).toState.nextLeafIndex
  root := (C.upTo p.slot).toState.root
  head := p

theorem Valid.planRollback_eq (h : C.Valid) (hp : OnChain C.anchor C.segments p) :
    planRollback p C.toState = .ok ((C.upTo p.slot).toState, C.rollbackSummary p) := by
  have hkeep := h.blocksThrough_eq hp
  have hcut := (upToSlot_append_afterSlot h.linked p.slot).symm
  have hhead : (C.upTo p.slot).toState.head = p := (head_toState _).trans hp
  rw [planRollback, hkeep, okOr, except_ok_bind]
  cases hafter : afterSlot p.slot C.segments with
  | nil =>
    rw [hafter, List.append_nil] at hcut
    have hsame : C.upTo p.slot = C := by rw [ScanChain.upTo, ← hcut]
    have hnone : C.toState.blocks[(upToSlot p.slot C.segments).length]? = none := by
      rw [List.getElem?_eq_none_iff, ← hcut, toState, length_checkpointsFrom]
    rw [hnone, rollbackSummary, hafter, hsame]
    rw [hsame] at hhead
    rw [hhead]
    rfl
  | cons g rest =>
    rw [hafter] at hcut
    have hfirst : C.toState.blocks[(upToSlot p.slot C.segments).length]? =
        some ⟨g.block, C.anchorNextLeafIndex + (eventsOf (upToSlot p.slot C.segments)).length,
          rootAfter C.anchorRoot (eventsOf (upToSlot p.slot C.segments)),
          (eventsOf (upToSlot p.slot C.segments)).length⟩ := by
      rw [toState_split hcut, List.getElem?_append_right (by simp), length_checkpointsFrom, Nat.sub_self]
      rfl
    have htruncate : C.toState.truncate (upToSlot p.slot C.segments).length
        ⟨g.block, C.anchorNextLeafIndex + (eventsOf (upToSlot p.slot C.segments)).length,
          rootAfter C.anchorRoot (eventsOf (upToSlot p.slot C.segments)),
          (eventsOf (upToSlot p.slot C.segments)).length⟩ = (C.upTo p.slot).toState := by
      rw [toState_split hcut, ScanStateV1.truncate]
      simp only [List.take_left]
      rw [List.take_left' (length_checkpointsFrom _ _ _)]
      rfl
    have hle : (eventsOf (upToSlot p.slot C.segments)).length ≤ C.toState.processedEvents.length := by
      rw [toState_split hcut, List.length_append]
      omega
    have hremoved : C.toState.processedEvents.drop (eventsOf (upToSlot p.slot C.segments)).length =
        eventsOf (g :: rest) := by
      rw [toState_split hcut, List.drop_left]
    rw [hfirst]
    dsimp only
    rw [require_of _ hle, except_ok_bind, htruncate, hremoved, hhead, rollbackSummary, hafter]
    rfl

/-- The answer of a prune. -/
def pruneSummary (C : ScanChain) (a : FinalizedChainPointV1) : PruneSummaryV1 where
  prunedBlockCount := (upToSlot a.slot C.segments).length
  prunedEvents := (eventsOf (upToSlot a.slot C.segments)).map (·.id)
  anchor := a
  nextLeafIndex := (C.prune a).anchorNextLeafIndex
  root := (C.prune a).anchorRoot

/-- The cursor between the two parts of a chain. -/
theorem cursorAt_split (h : C.segments = xs ++ ys) : C.toState.cursorAt xs.length =
    (C.anchorNextLeafIndex + (eventsOf xs).length, rootAfter C.anchorRoot (eventsOf xs), (eventsOf xs).length) := by
  rw [ScanStateV1.cursorAt, toState_split h]
  cases ys with
  | nil =>
    rw [List.getElem?_eq_none_iff.mpr (by simp [checkpointsFrom])]
    simp [rootAfter]
  | cons g rest =>
    rw [List.getElem?_append_right (by simp), length_checkpointsFrom, Nat.sub_self]
    rfl

theorem dropThrough_split (h : C.segments = xs ++ ys) : C.toState.dropThrough a xs.length =
    toState { C with
      anchor := a
      anchorNextLeafIndex := C.anchorNextLeafIndex + (eventsOf xs).length
      anchorRoot := rootAfter C.anchorRoot (eventsOf xs)
      segments := ys } := by
  have hblocks : (C.toState.blocks.drop xs.length).map
      (fun c => { c with processedEventCountBefore := c.processedEventCountBefore - (eventsOf xs).length }) =
      checkpointsFrom (C.anchorNextLeafIndex + (eventsOf xs).length) (rootAfter C.anchorRoot (eventsOf xs)) 0 ys := by
    rw [toState_split h, List.drop_left' (length_checkpointsFrom _ _ _)]
    have hshift := @checkpointsFrom_shift ys (C.anchorNextLeafIndex + (eventsOf xs).length)
      (rootAfter C.anchorRoot (eventsOf xs)) 0 (eventsOf xs).length
    rwa [Nat.zero_add] at hshift
  rw [ScanStateV1.dropThrough, cursorAt_split h]
  dsimp only
  rw [hblocks, toState_split h, List.drop_left]
  rfl

theorem Valid.prune_eq (h : C.Valid) (ha : OnChain C.anchor C.segments a) :
    pruneFinalizedHistoryThroughV1 a C.toState = .ok (C.pruneSummary a) (C.prune a).toState := by
  rcases List.eq_nil_or_concat (upToSlot a.slot C.segments) with hnil | ⟨init, g, hlast⟩
  · have hanchor : a = C.anchor := by
      rw [OnChain, hnil] at ha
      exact ha.symm
    have hall : afterSlot a.slot C.segments = C.segments := by
      have hcut := upToSlot_append_afterSlot h.linked a.slot
      rwa [hnil] at hcut
    have hsame : C.prune a = C := by
      rw [ScanChain.prune, hnil, hall, hanchor]
      rfl
    rw [pruneFinalizedHistoryThroughV1, if_pos (show a = C.toState.anchor from hanchor), pruneSummary, hnil, hsame,
      hanchor]
    rfl
  · rw [List.concat_eq_append] at hlast
    have hcut := (upToSlot_append_afterSlot h.linked a.slot).symm
    have hpoint : g.block.point = a := by
      rw [OnChain, hlast, headFrom_append] at ha
      exact ha
    have hlen : (upToSlot a.slot C.segments).length = init.length + 1 := by rw [hlast, List.length_append]; rfl
    have hmem : g ∈ C.segments := by rw [hcut, hlast]; simp
    have hanchor : a ≠ C.toState.anchor := by
      intro heq
      have hslot := h.linked.slot_lt hmem
      rw [Segment.slot, hpoint, heq] at hslot
      exact absurd hslot (lt_irrefl _)
    have hindex : C.toState.blocks.findIdx? (·.block.point = a) = some init.length := by
      have hsplit : C.segments = init ++ g :: afterSlot a.slot C.segments := by
        conv_lhs => rw [hcut, hlast, List.append_assoc, List.singleton_append]
      have hfind := h.findIdx?_eq hsplit
      rwa [hpoint] at hfind
    have hcursor := cursorAt_split hcut
    have hdrop := @dropThrough_split C a _ _ hcut
    rw [hlen] at hcursor hdrop
    have hevents : C.toState.processedEvents = eventsOf (upToSlot a.slot C.segments) ++
        eventsOf (afterSlot a.slot C.segments) := by
      rw [toState_split hcut]
    have hle : (eventsOf (upToSlot a.slot C.segments)).length ≤ C.toState.processedEvents.length := by
      rw [hevents, List.length_append]
      omega
    have hlimit : (eventsOf (upToSlot a.slot C.segments)).length < U32_LIMIT := by
      have hcapacity := h.capacity
      have hlength : C.toState.processedEvents.length = (eventsOf C.segments).length := rfl
      have hsmall : POOL_V1_LEAF_CAPACITY < U32_LIMIT := by decide
      omega
    have hlater : (C.toState.blocks.drop (init.length + 1)).all
        (fun c => (eventsOf (upToSlot a.slot C.segments)).length ≤ c.processedEventCountBefore) = true := by
      rw [toState_split hcut, ← hlen, List.drop_left' (length_checkpointsFrom _ _ _), List.all_eq_true]
      exact fun c hc => decide_eq_true (le_of_mem_checkpointsFrom hc)
    have hplan : planPrune a C.toState = .ok ((C.prune a).toState, C.pruneSummary a) := by
      rw [planPrune, hindex, okOr, except_ok_bind, hcursor]
      dsimp only
      rw [require_of _ hle, except_ok_bind, require_of _ hlimit, except_ok_bind, require_of _ hlater, except_ok_bind, hdrop,
        hevents, List.take_left, pruneSummary, hlen]
      rfl
    rw [pruneFinalizedHistoryThroughV1, if_neg hanchor, Exec.bind_ok]
    refine ⟨_, _, commitPlan_ok.mpr hplan, Exec.bind_ok.mpr ⟨(), _, Exec.query_ok.mpr ⟨?_, rfl⟩, rfl⟩⟩
    exact (h.prune ha).validateStateInvariantsV1

/-! ### Advance -/

/-- The chain with one more block, still empty. -/
def extend (C : ScanChain) (block : FinalizedBlockV1) : ScanChain := { C with segments := C.segments ++ [⟨block, []⟩] }

theorem toState_extend (C : ScanChain) (block : FinalizedBlockV1) : (C.extend block).toState =
    { C.toState with
      blocks := C.toState.blocks ++ [⟨block, C.toState.nextLeafIndex, C.toState.root, C.toState.processedEvents.length⟩] } := by
  rw [@toState_split (C.extend block) C.segments [⟨block, []⟩] rfl]
  simp [checkpointsFrom, toState, ScanChain.extend, rootAfter]

theorem Valid.extend (h : C.Valid) {block : FinalizedBlockV1} (hparent : block.parent = headFrom C.anchor C.segments) :
    (C.extend block).Valid := by
  have hevents : eventsOf (C.segments ++ [⟨block, []⟩]) = eventsOf C.segments := by simp
  exact {
    linked := linkedFrom_append.mpr ⟨h.linked, hparent, trivial⟩
    own := by
      intro g hg e he
      rcases List.mem_append.mp hg with hmem | hlast
      · exact h.own g hmem e he
      · rw [List.mem_singleton.mp hlast] at he
        cases he
    leaves := by
      change (eventsOf (C.segments ++ [⟨block, []⟩])).map _ = List.range' _ (eventsOf (C.segments ++ [⟨block, []⟩])).length
      rw [hevents]
      exact h.leaves
    canonical := by
      intro e he
      change e ∈ eventsOf (C.segments ++ [⟨block, []⟩]) at he
      rw [hevents] at he
      exact h.canonical e he
    fresh := by
      change ((eventsOf (C.segments ++ [⟨block, []⟩])).map _).Nodup
      rw [hevents]
      exact h.fresh
    capacity := by
      change C.anchorNextLeafIndex + (eventsOf (C.segments ++ [⟨block, []⟩])).length ≤ _
      rw [hevents]
      exact h.capacity
    anchor_canonical := h.anchor_canonical }

theorem Valid.events_lt (h : C.Valid) : C.toState.processedEvents.length < U32_LIMIT := by
  have hcapacity := h.capacity
  have hsmall : POOL_V1_LEAF_CAPACITY < U32_LIMIT := by decide
  change (eventsOf C.segments).length < U32_LIMIT
  omega

theorem planAdvance_current {block : FinalizedBlockV1} (hlast : C.segments.getLast?.map (·.block) = some block) :
    planAdvance block C.toState = .ok (C.toState, .alreadyCurrent) := by
  have hstored := (getLast?_toState C).trans hlast
  have hhead : block.point = C.toState.head := by
    have := congrArg (Option.map (·.point)) hstored
    rw [Option.map_map] at this
    rw [ScanStateV1.head]
    exact (congrArg (Option.getD · C.toState.anchor) this).symm
  have hparent : C.toState.blocks.getLast?.map (·.block.parent) = some block.parent := by
    have := congrArg (Option.map (·.parent)) hstored
    rwa [Option.map_map] at this
  rw [planAdvance, if_pos hhead, if_pos hparent]

theorem Valid.planAdvance_extend (h : C.Valid) {block : FinalizedBlockV1}
    (hparent : block.parent = headFrom C.anchor C.segments) :
    planAdvance block C.toState = .ok ((C.extend block).toState, .advanced) := by
  have hslot := block.parent_lt
  rw [hparent, ← head_toState] at hslot
  have hpoint : block.point ≠ C.toState.head := fun heq => by
    rw [heq] at hslot
    exact absurd hslot (lt_irrefl _)
  have hevents := h.events_lt
  rw [planAdvance, if_neg hpoint, if_neg (by omega), head_toState, if_neg (not_not_intro hparent), if_neg (by omega),
    toState_extend]

/-- An advance finds the block at the head already, or adds it after the head. -/
theorem advance_cases {block : FinalizedBlockV1} {s : ScanStateV1} {answer : FinalizedBlockAdvanceV1}
    (hok : planAdvance block C.toState = .ok (s, answer)) :
    (C.segments.getLast?.map (·.block) = some block ∧ s = C.toState) ∨
    (block.parent = headFrom C.anchor C.segments ∧ s = (C.extend block).toState) := by
  unfold planAdvance at hok
  split_ifs at hok with hpoint hlast hslot hparent hcount
  · refine .inl ⟨?_, ((Prod.mk.injEq ..).mp (Except.ok.inj hok)).1.symm⟩
    rw [← getLast?_toState]
    cases hb : C.toState.blocks.getLast? with
    | none =>
      rw [hb] at hlast
      cases hlast
    | some c =>
      rw [hb] at hlast
      rw [ScanStateV1.head, hb] at hpoint
      have hblock : c.block = block := by
        obtain ⟨⟨point, parent, hlt⟩, _, _, _⟩ := c
        obtain ⟨point', parent', hlt'⟩ := block
        obtain rfl : parent = parent' := Option.some.inj hlast
        obtain rfl : point' = point := hpoint
        rfl
      exact congrArg some hblock
  · refine .inr ⟨?_, ?_⟩
    · rw [← head_toState]
      exact not_not.mp hparent
    · rw [toState_extend]
      exact ((Prod.mk.injEq ..).mp (Except.ok.inj hok)).1.symm

/-! ### Events -/

/-- The chain with one more event in its last block. -/
def record (C : ScanChain) (e : ProcessedDepositEventV1) : ScanChain :=
  { C with segments := C.segments.modifyLast fun g => { g with events := g.events ++ [e] } }

theorem segments_record {g : Segment} {e : ProcessedDepositEventV1} (h : C.segments = xs ++ [g]) :
    (C.record e).segments = xs ++ [{ g with events := g.events ++ [e] }] := by
  rw [record, h]
  exact List.modifyLast_concat _ _ _

theorem eventsOf_record {g : Segment} {e : ProcessedDepositEventV1} (h : C.segments = xs ++ [g]) :
    eventsOf (C.record e).segments = eventsOf C.segments ++ [e] := by
  rw [segments_record h, h]
  simp

theorem toState_record {g : Segment} {e : ProcessedDepositEventV1} (h : C.segments = xs ++ [g]) :
    (C.record e).toState = C.toState.push e := by
  have hblocks : checkpointsFrom C.anchorNextLeafIndex C.anchorRoot 0 (C.record e).segments =
      checkpointsFrom C.anchorNextLeafIndex C.anchorRoot 0 C.segments := by
    rw [segments_record h, h, checkpointsFrom_append, checkpointsFrom_append]
    rfl
  rw [toState, eventsOf_record h]
  change ScanStateV1.mk _ _ _ _ (C.anchorNextLeafIndex + _) (rootAfter C.anchorRoot _)
    (checkpointsFrom C.anchorNextLeafIndex C.anchorRoot 0 (C.record e).segments) _ = _
  rw [hblocks, rootAfter_append, List.length_append, ← Nat.add_assoc]
  rfl

end ScanChain

/-- What an accepted new event satisfies at the cursor. -/
structure FitsCursor (s : ScanStateV1) (id : DepositEventIdV1) (e : ProcessedDepositEventV1) : Prop where
  id_eq : e.id = id
  current : s.blocks.getLast?.map (·.block.point) = some id.point
  leaf_eq : e.leafIndex = s.nextLeafIndex
  room : s.nextLeafIndex < POOL_V1_LEAF_CAPACITY
  commitment_canonical : isCanonicalDigest e.noteCommitment = true
  root_canonical : isCanonicalDigest e.root = true

/-- The part of a cursor that the check of a new event reads. -/
structure SameCursor (s s₂ : ScanStateV1) : Prop where
  identity_eq : s₂.identity = s.identity
  next_eq : s₂.nextLeafIndex = s.nextLeafIndex
  current_eq : s₂.blocks.getLast?.map (·.block.point) = s.blocks.getLast?.map (·.block.point)

theorem knownEvent_false {s : ScanStateV1} {id : DepositEventIdV1} {f : Bytes32} :
    s.knownEvent id f = .ok false ↔ id ∉ s.processedEvents.map (·.id) := by
  have hfind : s.processedEvents.find? (·.id = id) = none ↔ id ∉ s.processedEvents.map (·.id) := by
    simp [List.find?_eq_none]
  rw [← hfind, ScanStateV1.knownEvent]
  cases s.processedEvents.find? (·.id = id) with
  | none => simp
  | some previous =>
    dsimp only
    split_ifs <;> simp

/-- Whether an event is known is decided by the events of its own block. -/
theorem knownEvent_congr {s s₂ : ScanStateV1} {id : DepositEventIdV1} {f : Bytes32}
    (h : s₂.processedEvents.find? (·.id = id) = s.processedEvents.find? (·.id = id)) :
    s₂.knownEvent id f = s.knownEvent id f := by
  rw [ScanStateV1.knownEvent, ScanStateV1.knownEvent, h]

theorem requireCurrentBlock_ok {s : ScanStateV1} {id : DepositEventIdV1} {u : Unit} :
    s.requireCurrentBlock id = .ok u ↔ s.blocks.getLast?.map (·.block.point) = some id.point := by
  simp only [ScanStateV1.requireCurrentBlock, except_bind_eq_ok, okOr_eq_ok, require_eq_ok, Option.map_eq_some_iff]
  constructor
  · rintro ⟨c, hc, hpoint⟩
    exact ⟨c, hc, hpoint.symm⟩
  · rintro ⟨c, hc, hpoint⟩
    exact ⟨c, hc, hpoint.symm⟩

/-- A plan takes the event `id`: it is known and nothing changes, or it is new and goes to the end. Either way
another cursor that looks the same to it is treated the same. -/
def Ingests {α : Type} (id : DepositEventIdV1) (plan : ScanStateV1 → Except ScanStateErrorV1 (ScanStateV1 × α)) : Prop :=
  ∀ s s' answer, plan s = .ok (s', answer) → ∃ f,
    (s.knownEvent id f = .ok true ∧ s' = s ∧ ∀ s₂, s₂.knownEvent id f = .ok true → ∃ r, plan s₂ = .ok (s₂, r)) ∨
    (s.knownEvent id f = .ok false ∧ ∃ e, FitsCursor s id e ∧ s' = s.push e ∧
      ∀ s₂, SameCursor s s₂ → s₂.knownEvent id f = .ok false → ∃ r, plan s₂ = .ok (s₂.push e, r))

section
variable {ViewingSecret KeyStore WalletError : Type} {services : ScanServicesV1 ViewingSecret KeyStore WalletError}

theorem validateReceiptForCursor_ok {s : ScanStateV1} {receipt : DepositReceiptV1} {u : Unit} :
    s.validateReceiptForCursor receipt = .ok u ↔ receipt.pool = s.identity.pool ∧
      receipt.assetMint = s.identity.assetMint ∧ receipt.vaultTokenAccount = s.identity.vaultTokenAccount ∧
      s.nextLeafIndex < POOL_V1_LEAF_CAPACITY ∧ receipt.leafIndex = s.nextLeafIndex ∧
      receipt.rootSequence = s.nextLeafIndex + 1 := by
  simp [ScanStateV1.validateReceiptForCursor]

/-- A decoded receipt holds canonical digests. -/
theorem decodeDepositEventRecordV1_canonical {bytes : Bytes} {event : DepositEventV1}
    (h : decodeDepositEventRecordV1 bytes = .ok event) :
    DigestIsCanonical event.receipt.noteCommitment ∧ DigestIsCanonical event.receipt.root := by
  simp only [decodeDepositEventRecordV1, except_bind_eq_ok, require_eq_ok, mapErr_eq_ok, except_pure_eq_ok] at h
  obtain ⟨_, _, receipt, _, _, hvalid, rfl⟩ := h
  simp only [validateDepositEventV1, checkDepositReceiptV1, except_bind_eq_ok, require_eq_ok] at hvalid
  obtain ⟨_, ⟨_, _, _, _, _, _, _, hcanonical, _⟩, _⟩ := hvalid
  exact hcanonical

theorem planDeposit_ingests (observation : FinalizedDepositRecordV1) (viewingSecret : ViewingSecret) (localKeys : KeyStore) :
    Ingests observation.id (planDeposit services observation viewingSecret localKeys) := by
  intro s s' answer hok
  simp only [planDeposit, except_bind_eq_ok] at hok
  obtain ⟨f, hf, known, hknown, hok⟩ := hok
  refine ⟨f, ?_⟩
  cases known with
  | true =>
    refine .inl ⟨hknown, ?_, fun s₂ h₂ => ⟨.duplicate, ?_⟩⟩
    · simp only [if_true, except_pure_eq_ok, Prod.mk.injEq] at hok
      exact hok.1.symm
    · rw [planDeposit, hf, except_ok_bind, h₂, except_ok_bind]
      rfl
  | false =>
    simp only [Bool.false_eq_true, if_false, planNewDeposit, except_bind_eq_ok, mapErr_eq_ok, except_pure_eq_ok,
      Prod.mk.injEq, requireCurrentBlock_ok, validateReceiptForCursor_ok] at hok
    obtain ⟨_, hcurrent, event, hevent, _, hreceipt, context, hcontext, rfl, _⟩ := hok
    have hcanonical := decodeDepositEventRecordV1_canonical hevent
    refine .inr ⟨hknown, _, ⟨rfl, hcurrent, hreceipt.2.2.2.2.1, hreceipt.2.2.2.1, isCanonicalDigest_encode hcanonical.1,
      isCanonicalDigest_encode hcanonical.2⟩, rfl,
      fun s₂ hs₂ h₂ => ⟨classifyDeposit services viewingSecret localKeys s₂.identity context event, ?_⟩⟩
    rw [← hs₂.identity_eq, ← hs₂.next_eq] at hreceipt
    rw [← hs₂.current_eq] at hcurrent
    rw [← hs₂.identity_eq] at hcontext
    rw [planDeposit, hf, except_ok_bind, h₂, except_ok_bind, if_neg Bool.false_ne_true, planNewDeposit,
      (requireCurrentBlock_ok (u := ())).mpr hcurrent, except_ok_bind, mapErr_eq_ok.mpr hevent, except_ok_bind,
      (validateReceiptForCursor_ok (u := ())).mpr hreceipt, except_ok_bind]
    dsimp only
    rw [hcontext, except_ok_bind]
    rfl

theorem planOutput_ingests (observation : FinalizedPublicOutputRecordV1) :
    Ingests observation.id (planOutput services observation) := by
  intro s s' answer hok
  simp only [planOutput, except_bind_eq_ok] at hok
  obtain ⟨f, hf, known, hknown, hok⟩ := hok
  refine ⟨f, ?_⟩
  cases known with
  | true =>
    refine .inl ⟨hknown, ?_, fun s₂ h₂ => ⟨.duplicate, ?_⟩⟩
    · simp only [if_true, except_pure_eq_ok, Prod.mk.injEq] at hok
      exact hok.1.symm
    · rw [planOutput, hf, except_ok_bind, h₂, except_ok_bind]
      rfl
  | false =>
    simp only [Bool.false_eq_true, if_false, planNewOutput, except_bind_eq_ok, require_eq_ok, except_pure_eq_ok,
      Prod.mk.injEq, requireCurrentBlock_ok] at hok
    obtain ⟨_, hcurrent, _, hpool, _, hroom, _, hleaf, _, hdigests, rfl, _⟩ := hok
    refine .inr ⟨hknown, _, ⟨rfl, hcurrent, hleaf.1, hroom, hdigests.2.1, hdigests.2.2⟩, rfl,
      fun s₂ hs₂ h₂ => ⟨.advanced, ?_⟩⟩
    rw [← hs₂.identity_eq] at hpool
    rw [← hs₂.next_eq] at hroom hleaf
    rw [← hs₂.current_eq] at hcurrent
    rw [planOutput, hf, except_ok_bind, h₂, except_ok_bind, if_neg Bool.false_ne_true, planNewOutput,
      (requireCurrentBlock_ok (u := ())).mpr hcurrent, except_ok_bind, require_of _ hpool, except_ok_bind, require_of _ hroom,
      except_ok_bind, require_of _ hleaf, except_ok_bind, require_of _ hdigests, except_ok_bind]
    rfl

end

namespace ScanChain

variable {C : ScanChain} {xs : List Segment}

/-- The current block of the cursor is the last block of the chain. -/
theorem current_split {id : DepositEventIdV1} (h : C.toState.blocks.getLast?.map (·.block.point) = some id.point) :
    ∃ xs g, C.segments = xs ++ [g] ∧ g.block.point = id.point := by
  have hlast := congrArg (Option.map (·.point)) (getLast?_toState C)
  rw [Option.map_map, Option.map_map] at hlast
  have hpoint := hlast.symm.trans h
  rcases List.eq_nil_or_concat C.segments with hnil | ⟨xs, g, hsplit⟩
  · rw [hnil] at hpoint
    cases hpoint
  · rw [List.concat_eq_append] at hsplit
    rw [hsplit, List.getLast?_concat] at hpoint
    exact ⟨xs, g, hsplit, Option.some.inj hpoint⟩

theorem Valid.record (h : C.Valid) {id : DepositEventIdV1} {e : ProcessedDepositEventV1}
    (hfits : FitsCursor C.toState id e) (hnew : id ∉ C.toState.processedEvents.map (·.id)) : (C.record e).Valid := by
  obtain ⟨xs, g, hsplit, hpoint⟩ := current_split hfits.current
  have hsegments := @segments_record C xs g e hsplit
  have hevents := @eventsOf_record C xs g e hsplit
  have hlinked := linkedFrom_append.mp (hsplit ▸ h.linked)
  constructor
  case linked =>
    rw [hsegments]
    exact linkedFrom_append.mpr ⟨hlinked.1, hlinked.2.1, trivial⟩
  case own =>
    intro g' hg' e' he'
    rw [hsegments] at hg'
    rcases List.mem_append.mp hg' with hmem | hlast
    · exact h.own g' (hsplit ▸ List.mem_append_left _ hmem) e' he'
    · obtain rfl := List.mem_singleton.mp hlast
      rcases List.mem_append.mp he' with hold | hadded
      · exact h.own g (hsplit ▸ List.mem_append_right _ List.mem_cons_self) e' hold
      · rw [List.mem_singleton.mp hadded, hfits.id_eq]
        exact hpoint.symm
  case leaves =>
    rw [hevents, List.map_append, h.leaves, List.length_append, ← List.range'_append_1, List.map_singleton, hfits.leaf_eq]
    rfl
  case canonical =>
    intro e' he'
    rw [hevents] at he'
    rcases List.mem_append.mp he' with hold | hadded
    · exact h.canonical e' hold
    · rw [List.mem_singleton.mp hadded]
      exact ⟨hfits.commitment_canonical, hfits.root_canonical⟩
  case fresh =>
    rw [hevents, List.map_append, List.map_singleton, hfits.id_eq]
    rw [← List.concat_eq_append]
    exact List.Nodup.concat hnew h.fresh
  case capacity =>
    rw [hevents, List.length_append]
    exact hfits.room
  case anchor_canonical => exact h.anchor_canonical

end ScanChain

end Aspis.Wallet
