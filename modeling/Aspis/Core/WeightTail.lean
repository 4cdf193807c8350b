import Aspis.Core.WeightInterval

/-! Merging, the fold of the deferred relation and its fused tail. A merge keeps the covector, the two
folds agree on the components of the relation, and the tail is three dual folds: its last two rounds
tensor into one map of sixteen rows. -/

namespace Aspis.Core

open Aspis.Lib.DualFold
open WeightAccumulator (covector)

/-! ### Merging -/

theorem sum_map_eraseIdx {β : Type} (g : β → QuarticField) : ∀ {l : List β} {j : ℕ} {b : β}, l[j]? = some b →
    ((l.eraseIdx j).map g).sum + g b = (l.map g).sum
  | [], j, b, h => by simp at h
  | c :: l, 0, b, h => by
    rw [List.getElem?_cons_zero] at h
    obtain rfl := Option.some.inj h
    rw [List.eraseIdx_cons_zero, List.map_cons, List.sum_cons, add_comm]
  | c :: l, j + 1, b, h => by
    rw [List.getElem?_cons_succ] at h
    rw [List.eraseIdx_cons_succ, List.map_cons, List.sum_cons, List.map_cons, List.sum_cons, add_assoc,
      sum_map_eraseIdx g h]

theorem sum_map_set {β : Type} (g : β → QuarticField) (d : β) : ∀ {l : List β} {j : ℕ} {b : β}, l[j]? = some b →
    ((l.set j d).map g).sum + g b = (l.map g).sum + g d
  | [], j, b, h => by simp at h
  | c :: l, 0, b, h => by
    rw [List.getElem?_cons_zero] at h
    obtain rfl := Option.some.inj h
    rw [List.set_cons_zero, List.map_cons, List.sum_cons, List.map_cons, List.sum_cons]
    ring
  | c :: l, j + 1, b, h => by
    rw [List.getElem?_cons_succ] at h
    rw [List.set_cons_succ, List.map_cons, List.sum_cons, List.map_cons, List.sum_cons, add_assoc, add_assoc,
      sum_map_set g d h]

/-- The point of a multilinear component. -/
def WeightComponent.multilinearPoint : WeightComponent → Option (List QM31)
  | .multilinear _ point => some point
  | _ => none

theorem multilinearPoint_eq_some {component : WeightComponent} {point : List QM31}
    (h : component.multilinearPoint = some point) : ∃ scale, component = .multilinear scale point := by
  cases component <;> first | exact ⟨_, congrArg _ (Option.some.inj h)⟩ | exact nomatch h

/-- What a merge needs and does. -/
theorem merge_cases (weights : WeightAccumulator) (first second : ℕ) :
    (∃ scale scale' point, first < second ∧ weights.components[first]? = some (.multilinear scale point) ∧
      weights.components[second]? = some (.multilinear scale' point) ∧
      weights.mergeEqualMultilinearComponents first second = (true, ⟨weights.logLen,
        (weights.components.set first (.multilinear (scale.add scale') point)).eraseIdx second⟩)) ∨
    (weights.mergeEqualMultilinearComponents first second = (false, weights) ∧
      ∀ point, first < second → weights.components[first]?.bind WeightComponent.multilinearPoint = some point →
        weights.components[second]?.bind WeightComponent.multilinearPoint = some point → False) := by
  unfold WeightAccumulator.mergeEqualMultilinearComponents
  by_cases hrange : second ≤ first ∨ weights.components.length ≤ second
  · refine Or.inr ⟨if_pos hrange, fun point hlt _ hsecond => ?_⟩
    obtain ⟨component, hget, -⟩ := Option.bind_eq_some_iff.mp hsecond
    have hbound := (List.getElem?_eq_some_iff.mp hget).1
    omega
  · rw [if_neg hrange]
    have hlt : first < second := by omega
    by_cases hpoints : ∃ point, weights.components[first]?.bind WeightComponent.multilinearPoint = some point ∧
        weights.components[second]?.bind WeightComponent.multilinearPoint = some point
    · obtain ⟨point, hfirst, hsecond⟩ := hpoints
      obtain ⟨component, hget, hpoint⟩ := Option.bind_eq_some_iff.mp hfirst
      obtain ⟨component', hget', hpoint'⟩ := Option.bind_eq_some_iff.mp hsecond
      obtain ⟨scale, rfl⟩ := multilinearPoint_eq_some hpoint
      obtain ⟨scale', rfl⟩ := multilinearPoint_eq_some hpoint'
      refine Or.inl ⟨scale, scale', point, hlt, hget, hget', ?_⟩
      rw [hget, hget']
      dsimp only
      rw [if_neg (not_not.mpr rfl)]
    · refine Or.inr ⟨?_, fun point _ hfirst hsecond => hpoints ⟨point, hfirst, hsecond⟩⟩
      split
      · rename_i scale point scale' point' hget hget'
        rw [if_pos]
        intro heq
        rw [hget, hget'] at hpoints
        exact hpoints ⟨point, rfl, congrArg some heq.symm⟩
      · rfl

theorem multilinear_covector {logLen : ℕ} {scale : QM31} {point : List QM31}
    (h : WeightComponent.Shape logLen (.multilinear scale point)) {i : ℕ} (hi : i < 2 ^ logLen) :
    WeightComponent.covector logLen (.multilinear scale point) i =
      scale.value * bitProduct (factorsOf multilinearFactor point) point.length i := by
  obtain ⟨hs, hp, rfl⟩ := h
  exact (multilinear_represents hs hp).covector_eq hi

/-- A merge keeps the shape and every weight. -/
theorem WeightAccumulator.Shape.merge {weights merged : WeightAccumulator} (h : weights.Shape) {first second : ℕ}
    (hmerge : weights.mergeEqualMultilinearComponents first second = (true, merged)) :
    Extends weights merged ∧ ∀ i < 2 ^ weights.logLen, merged.covector i = weights.covector i := by
  rcases merge_cases weights first second with ⟨scale, scale', point, hlt, hfirst, hsecond, heq⟩ | ⟨heq, -⟩
  · rw [heq] at hmerge
    obtain rfl := (Prod.mk.inj hmerge).2
    have hshape := h.components _ (List.mem_of_getElem? hfirst)
    have hshape' := h.components _ (List.mem_of_getElem? hsecond)
    have hsum := hshape.1.denotes.add hshape'.1.denotes
    have hmerged : WeightComponent.Shape weights.logLen (.multilinear (scale.add scale') point) :=
      ⟨hsum.canonical, hshape.2⟩
    refine ⟨⟨⟨h.small, fun component hcomponent => ?_⟩, rfl⟩, fun i hi => ?_⟩
    · rcases List.mem_or_eq_of_mem_set (List.mem_of_mem_eraseIdx hcomponent) with hmem | rfl
      · exact h.components component hmem
      · exact hmerged
    · have hkeep : (weights.components.set first (.multilinear (scale.add scale') point))[second]? =
          some (.multilinear scale' point) := by
        rw [List.getElem?_set_ne hlt.ne]
        exact hsecond
      have herase := sum_map_eraseIdx (fun component => component.covector weights.logLen i) hkeep
      have hset := sum_map_set (fun component => component.covector weights.logLen i)
        (.multilinear (scale.add scale') point) hfirst
      have hlinear : WeightComponent.covector weights.logLen (.multilinear (scale.add scale') point) i =
          WeightComponent.covector weights.logLen (.multilinear scale point) i +
            WeightComponent.covector weights.logLen (.multilinear scale' point) i := by
        rw [multilinear_covector hmerged hi, multilinear_covector hshape hi, multilinear_covector hshape' hi,
          hsum.value_eq]
        ring
      rw [hlinear] at hset
      show ((_ : List WeightComponent).map _).sum = (weights.components.map _).sum
      linear_combination herase + hset
  · rw [heq] at hmerge
    cases (Prod.mk.inj hmerge).1

theorem weightAt_eq_of_covector {weights other : WeightAccumulator} (h : weights.Shape) (h' : other.Shape)
    {i : ℕ} (hi : i < 2 ^ weights.logLen) (hi' : i < 2 ^ other.logLen) (heq : other.covector i = weights.covector i) :
    ∃ q, other.weightAt i = some q ∧ weights.weightAt i = some q := by
  obtain ⟨q, hq, hd⟩ := WeightAccumulator.weightAt_denotes h hi
  obtain ⟨q', hq', hd'⟩ := WeightAccumulator.weightAt_denotes h' hi'
  rw [heq] at hd'
  rw [hd'.eq hd] at hq'
  exact ⟨q, hq', hq⟩

/-! ### The fold of the deferred relation -/

theorem mapM_eq_none {β γ : Type} {f : β → Option γ} : ∀ {l : List β}, (∃ b ∈ l, f b = none) → l.mapM f = none
  | [], h => by simp at h
  | b :: l, h => by
    rw [List.mapM_cons]
    cases hb : f b with
    | none => rfl
    | some c =>
      obtain ⟨b', hmem, hnone⟩ := h
      have hrest : l.mapM f = none := by
        apply mapM_eq_none
        rcases List.mem_cons.mp hmem with rfl | hmem
        · rw [hb] at hnone
          cases hnone
        · exact ⟨b', hmem, hnone⟩
      rw [hrest]
      rfl

theorem mapM_congr_mem {β γ : Type} {f g : β → Option γ} : ∀ {l : List β}, (∀ b ∈ l, f b = g b) → l.mapM f = l.mapM g
  | [], _ => rfl
  | b :: l, h => by
    rw [List.mapM_cons, List.mapM_cons, h b List.mem_cons_self,
      mapM_congr_mem fun b' hb' => h b' (List.mem_cons_of_mem b hb')]

theorem mapM_getElem? {β γ : Type} {f : β → Option γ} : ∀ {l : List β} {cs : List γ}, l.mapM f = some cs →
    ∀ i : ℕ, cs[i]? = l[i]?.bind f
  | [], cs, h, i => by
    obtain rfl : [] = cs := Option.some.inj h
    rfl
  | b :: l, cs, h, i => by
    rw [List.mapM_cons] at h
    obtain ⟨c, hc, h⟩ := Option.bind_eq_some_iff.mp h
    obtain ⟨rest, hrest, h⟩ := Option.bind_eq_some_iff.mp h
    obtain rfl : c :: rest = cs := Option.some.inj h
    cases i with
    | zero => exact hc.symm
    | succ i => exact mapM_getElem? hrest i

theorem mapM_length {β γ : Type} {f : β → Option γ} : ∀ {l : List β} {cs : List γ}, l.mapM f = some cs →
    cs.length = l.length
  | [], cs, h => by
    obtain rfl : [] = cs := Option.some.inj h
    rfl
  | b :: l, cs, h => by
    rw [List.mapM_cons] at h
    obtain ⟨c, -, h⟩ := Option.bind_eq_some_iff.mp h
    obtain ⟨rest, hrest, h⟩ := Option.bind_eq_some_iff.mp h
    obtain rfl : c :: rest = cs := Option.some.inj h
    rw [List.length_cons, List.length_cons, mapM_length hrest]

/-- On the components of the relation the deferred fold is the fold; on the others it panics. -/
theorem foldDeferredRelationArity4_eq (weights : WeightAccumulator) (alpha : QM31) :
    weights.foldDeferredRelationArity4 alpha =
      if weights.components.all WeightComponent.inRelation then weights.fold alpha else none := by
  unfold WeightAccumulator.foldDeferredRelationArity4 WeightAccumulator.fold
  by_cases hlen : weights.logLen < 2
  · rw [if_pos hlen, if_pos hlen]
    split <;> rfl
  · rw [if_neg hlen, if_neg hlen]
    dsimp only
    by_cases hall : weights.components.all WeightComponent.inRelation = true
    · rw [if_pos hall]
      congr 1
      apply mapM_congr_mem
      intro component hcomponent
      have hin := List.all_eq_true.mp hall component hcomponent
      cases component <;> first | rfl | cases hin
    · rw [if_neg hall]
      obtain ⟨component, hcomponent, hout⟩ : ∃ component ∈ weights.components, component.inRelation = false := by
        simpa using hall
      rw [mapM_eq_none ⟨component, hcomponent, ?_⟩]
      · rfl
      · cases component <;> first | rfl | cases hout

/-! ### Sixteen rows at once -/

theorem tensoredPowers_denotes {a b : QuarticField} {alpha1 alpha2 : QM31} (ha : alpha1.Denotes a)
    (hb : alpha2.Denotes b) (slot : Fin 16) : (tensoredPowers alpha1 alpha2 slot).Denotes (slotPower a b slot) :=
  basis_denotes ha hb slot

/-- The entries of a chunk stand for the sum over its slots. -/
theorem collect_sixteen {n : ℕ} {groups : List ℕ} {g : Fin 16 → ℕ} {basis : Fin 16 → QM31} {f : Fin 16 → QuarticField}
    (hbasis : ∀ slot, (basis slot).Denotes (f slot)) (hone : basis 0 = QM31.one)
    (hgroups : ∀ slot : Fin 16, groups[slot.val]? = some (g slot) ∧ g slot < n) (x : ℕ → QuarticField) :
    ∀ (l : List (Fin 16)) (entries : List GroupEntry), (∀ entry ∈ entries, entry.Good n) →
      ∃ out, l.foldlM (fun entries slot => do
          let group ← groups[slot.val]?
          return collectGroup group (basis slot) slot.val entries) entries = some out ∧
        (∀ entry ∈ out, entry.Good n) ∧
        entrySum x out = entrySum x entries + (l.map fun slot => f slot * x (g slot)).sum
  | [], entries, h => by
    refine ⟨entries, rfl, h, ?_⟩
    rw [List.map_nil, List.sum_nil, add_zero]
  | slot :: l, entries, h => by
    obtain ⟨hget, hinside⟩ := hgroups slot
    have hfirst : slot.val = 0 → basis slot = QM31.one := by
      intro hzero
      have hslot : slot = 0 := Fin.ext hzero
      rw [hslot, hone]
    obtain ⟨hgood, hsum⟩ := collectGroup_good (hbasis slot).canonical hinside hfirst x h
    obtain ⟨out, hout, hlast, htotal⟩ := collect_sixteen hbasis hone hgroups x l _ hgood
    refine ⟨out, ?_, hlast, ?_⟩
    · rw [List.foldlM_cons, hget]
      exact hout
    · rw [htotal, hsum, (hbasis slot).value_eq, List.map_cons, List.sum_cons, add_assoc]

theorem foldSixteenRows_denotes {groups : List ℕ} {g : Fin 16 → ℕ} {groupValues : List QM31} {a b : QuarticField}
    {alpha1 alpha2 : QM31} (ha : alpha1.Denotes a) (hb : alpha2.Denotes b) (hvalues : ∀ v ∈ groupValues, v.Canonical)
    (hgroups : ∀ slot : Fin 16, groups[slot.val]? = some (g slot) ∧ g slot < groupValues.length) :
    ∃ q, foldSixteenRows groups groupValues (tensoredPowers alpha1 alpha2) = some q ∧
      q.Denotes ((∑ slot : Fin 16, slotPower a b slot * entryAt groupValues (g slot)) / 16) := by
  obtain ⟨entries, hentries, hgood, hsum⟩ := collect_sixteen (tensoredPowers_denotes ha hb) rfl hgroups
    (entryAt groupValues) (List.finRange 16) [] fun _ h => nomatch h
  obtain ⟨value, hvalue, hd⟩ := entries_denotes hvalues hgood
  refine ⟨value.half.half.half.half, ?_, ?_⟩
  · rw [foldSixteenRows, hentries, Option.bind_eq_bind, Option.bind_some, hvalue]
    rfl
  · have hzero : entrySum (entryAt groupValues) [] = 0 := rfl
    rw [hsum, hzero, zero_add, ← Fin.sum_univ_def] at hd
    exact denotes_sixteenth hd

/-- Two dual folds at an index read the sixteen weights of its chunk. -/
theorem foldWeights_twice_at (a b : QuarticField) (w : ℕ → QuarticField) (c : ℕ) :
    foldWeights b (foldWeights a w) c = (∑ slot : Fin 16, slotPower a b slot * w (16 * c + slot.val)) / 16 := by
  have hinner : (fun j => foldWeights a w (4 * c + j)) = foldWeights a fun i => w (16 * c + i) := by
    funext j
    have hindex : 4 * (4 * c) = 16 * c := by ring
    rw [← foldWeights_shift a w (4 * c) j, hindex]
  have houter := foldWeights_shift b (foldWeights a w) c 0
  have hcomm : ∑ slot : Fin 16, w (16 * c + slot.val) * slotPower a b slot =
      ∑ slot : Fin 16, slotPower a b slot * w (16 * c + slot.val) :=
    Finset.sum_congr rfl fun slot _ => mul_comm _ _
  rw [Nat.add_zero] at houter
  rw [← houter, hinner, foldWeights_twice, hcomm]

/-- The fused fold of the rows is the two dual folds. -/
theorem foldGroupedRowsTwice_represents {rowGroups : List ℕ} {groupMasks : List UInt16} {groupValues : List QM31}
    {a b : QuarticField} {alpha1 alpha2 : QM31} (ha : alpha1.Denotes a) (hb : alpha2.Denotes b)
    (h : TableShape 6 1 rowGroups groupValues) :
    ∃ values, foldGroupedRowsTwice rowGroups groupValues alpha1 alpha2 = some ([0, 1, 2, 3], values) ∧
      TableShape 2 1 [0, 1, 2, 3] values ∧
      Represents 2 (.grouped64x16BinaryDeferred [0, 1, 2, 3] groupMasks none values)
        (foldWeights b (foldWeights a fun i => entryAt groupValues (rowGroups.getD i 0))) := by
  have hrows : rowGroups.length = 64 := h.rows
  have hstep : ∀ c ∈ List.range 4, ∃ q, foldSixteenRows ((rowGroups.drop (16 * c)).take 16) groupValues
      (tensoredPowers alpha1 alpha2) = some q ∧
      q.Denotes (foldWeights b (foldWeights a fun i => entryAt groupValues (rowGroups.getD i 0)) c) := by
    intro c hc
    have hc' : c < 4 := List.mem_range.mp hc
    rw [foldWeights_twice_at]
    apply foldSixteenRows_denotes ha hb h.canonical
    intro slot
    obtain ⟨hget, hmem⟩ := getElem?_getD (show 16 * c + slot.val < rowGroups.length by omega) 0
    have hinside := h.inside _ hmem
    refine ⟨?_, by omega⟩
    rw [List.getElem?_take_of_lt slot.isLt, List.getElem?_drop]
    exact hget
  obtain ⟨values, hvalues, hrelated⟩ := mapM_related hstep
  have hlength : values.length = 4 := by rw [← hrelated.length_eq, List.length_range]
  have hget : ∀ c < 4, ∃ q, values[c]? = some q ∧
      q.Denotes (foldWeights b (foldWeights a fun i => entryAt groupValues (rowGroups.getD i 0)) c) := by
    intro c hc
    have hpair := hrelated.get (i := c) (by rw [List.length_range]; exact hc) (by omega)
    rw [List.get_eq_getElem, List.get_eq_getElem, List.getElem_range] at hpair
    exact ⟨_, List.getElem?_eq_getElem (by omega), hpair⟩
  have hshape : TableShape 2 1 [0, 1, 2, 3] values := by
    refine ⟨fun v hv => ?_, rfl, fun group hgroup => ?_⟩
    · obtain ⟨c, hc, hvalue⟩ := List.getElem_of_mem hv
      obtain ⟨q, hq, hd⟩ := hget c (by omega)
      rw [List.getElem?_eq_getElem hc, hvalue] at hq
      obtain rfl := Option.some.inj hq
      exact hd.canonical
    · rw [hlength]
      fin_cases hgroup <;> decide
  refine ⟨values, ?_, hshape, ?_⟩
  · rw [foldGroupedRowsTwice, if_neg (not_not.mpr hrows), hvalues]
    rfl
  · apply (deferred_rows_represents (Or.inl rfl) hshape).congr
    intro i hi
    obtain ⟨q, hq, hd⟩ := hget i hi
    have hindex : [0, 1, 2, 3].getD i 0 = i := by
      interval_cases i <;> rfl
    rw [hindex, entryAt, List.getD_eq_getElem?_getD, hq]
    exact hd.value_eq

/-! ### The tail -/

/-- What the last two rounds make of a component. -/
structure TailsTo (a b : QuarticField) (component folded : WeightComponent) : Prop where
  shape : folded.Shape 2
  weights : ∀ w, Represents 6 component w → Represents 2 folded (foldWeights b (foldWeights a w))

/-- A deferred table whose masks have been used up. -/
def WeightComponent.masksUsed : WeightComponent → Prop
  | .grouped64x16BinaryDeferred _ groupMasks _ _ => groupMasks = []
  | _ => True

/-- Two folds of a component of the right shape are its tail. -/
theorem tailsTo_of_folds {component mid folded : WeightComponent} {a b : QuarticField} {alpha1 alpha2 : QM31}
    (ha : alpha1.Denotes a) (hb : alpha2.Denotes b) (h : component.Shape 6)
    (hmid : foldComponentArity4 component 6 alpha1 alpha1.square ((PreparedQm31Multiplier.new alpha1).mul alpha1.square)
      (.new alpha1) (.new alpha1.square) = some mid)
    (hfolded : foldComponentArity4 mid 4 alpha2 alpha2.square ((PreparedQm31Multiplier.new alpha2).mul alpha2.square)
      (.new alpha2) (.new alpha2.square) = some folded) : TailsTo a b component folded := by
  obtain ⟨mid', hmid', hfirst⟩ := h.fold (by decide) (by decide) (fun _ => by decide)
    (WeightAccumulator.challenge_of_fold ha)
  rw [hmid] at hmid'
  obtain rfl := Option.some.inj hmid'
  obtain ⟨folded', hfolded', hlast⟩ := hfirst.shape.fold (by decide) (by decide) (fun _ => by decide)
    (WeightAccumulator.challenge_of_fold hb)
  rw [hfolded] at hfolded'
  obtain rfl := Option.some.inj hfolded'
  exact ⟨hlast.shape, fun w hw => hlast.weights _ (hfirst.weights w hw)⟩

theorem foldTailComponent_tails {component : WeightComponent} {a b : QuarticField} {alpha1 alpha2 : QM31}
    (ha : alpha1.Denotes a) (hb : alpha2.Denotes b) (h : component.Shape 6) (hin : component.inRelation = true)
    (hmasks : component.masksUsed) :
    ∃ folded, foldTailComponent alpha1 alpha2 component = some (.next folded) ∧ TailsTo a b component folded := by
  have hca := WeightAccumulator.challenge_of_fold ha
  have hcb := WeightAccumulator.challenge_of_fold hb
  cases component with
  | multilinear scale point =>
    obtain ⟨hs, hp, hlen⟩ := h
    obtain ⟨scale', rest, hfold, hs', hrest, hlen', -⟩ := multilinear_fold hs hp (by omega) hca
    obtain ⟨scale'', rest', hfold', -⟩ := multilinear_fold hs' hrest (by omega) hcb
    refine ⟨.multilinear scale'' rest', ?_, tailsTo_of_folds ha hb ⟨hs, hp, hlen⟩ hfold hfold'⟩
    rw [foldTailComponent, hfold, Option.bind_eq_bind, Option.bind_some]
    dsimp only
    rw [hfold']
    rfl
  | tensor scale factors =>
    obtain ⟨hs, hp, hlen⟩ := h
    obtain ⟨scale', rest, hfold, hs', hrest, hlen', -⟩ := tensor_fold hs hp (by omega) hca
    obtain ⟨scale'', rest', hfold', -⟩ := tensor_fold hs' hrest (by omega) hcb
    refine ⟨.tensor scale'' rest', ?_, tailsTo_of_folds ha hb ⟨hs, hp, hlen⟩ hfold hfold'⟩
    rw [foldTailComponent, hfold, Option.bind_eq_bind, Option.bind_some]
    dsimp only
    rw [hfold']
    rfl
  | lineM31Tensor scale x =>
    obtain ⟨scale', x', hfold, hs, hx, -⟩ := @lineM31Tensor_fold _ _ _ _ _ _ 6 h.1 h.2 (by decide) hca
    obtain ⟨scale'', x'', hfold', -⟩ := @lineM31Tensor_fold _ _ _ _ _ _ 4 hs hx (by decide) hcb
    refine ⟨.lineM31Tensor scale'' x'', ?_, tailsTo_of_folds ha hb h hfold hfold'⟩
    rw [foldTailComponent, hfold, Option.bind_eq_bind, Option.bind_some]
    dsimp only
    rw [hfold']
    rfl
  | lineM31Batch scales xs halvings =>
    obtain ⟨lines, hfold, hlines, -⟩ := @lineM31Batch_fold _ _ halvings 6 _ _ _ _ h.1 h.2 (by decide) hca
    obtain ⟨lines', hfold', -⟩ := @lineM31Batch_fold (lines.map Prod.fst) (lines.map Prod.snd) (halvings + 2) 4 _ _ _ _
      (by rw [zip_map_fst_map_snd]; exact hlines) (by rw [List.length_map, List.length_map]) (by decide) hcb
    refine ⟨.lineM31Batch (lines'.map Prod.fst) (lines'.map Prod.snd) (halvings + 2 + 2), ?_,
      tailsTo_of_folds ha hb h hfold hfold'⟩
    rw [foldTailComponent, hfold, Option.bind_eq_bind, Option.bind_some]
    dsimp only
    rw [hfold']
    rfl
  | dense values => exact ⟨_, rfl, tailsTo_of_folds ha hb h rfl rfl⟩
  | grouped64x16BinaryDeferred rowGroups groupMasks firstAlpha groupValues =>
    obtain ⟨hwrong, -⟩ | ⟨hwrong, -⟩ | ⟨-, rfl, htable⟩ := h
    · exact absurd hwrong (by decide)
    · exact absurd hwrong (by decide)
    · have hrows : rowGroups.length = 64 := htable.rows
      have hused : groupMasks = [] := hmasks
      obtain ⟨values, hfold, hshape, hrep⟩ := @foldGroupedRowsTwice_represents _ groupMasks _ _ _ _ _ ha hb htable
      have hstart := @deferred_rows_represents rowGroups groupMasks groupValues 6 (Or.inr (Or.inr rfl)) htable
      refine ⟨.grouped64x16BinaryDeferred [0, 1, 2, 3] groupMasks none values, ?_,
        Or.inr (Or.inr ⟨Or.inl rfl, rfl, hshape⟩), fun w hw => ?_⟩
      · rw [foldTailComponent]
        dsimp only
        rw [if_neg (by simp [hused, hrows]), hfold]
        rfl
      · apply hrep.congr
        intro i hi
        apply foldWeights_congr
        intro j hle hlt
        apply foldWeights_congr
        intro k hle' hlt'
        exact hstart.unique hw k (by omega)
  | geometric scale base => cases hin
  | product scale pairs => cases hin
  | grouped64x16 rowGroups groupValues lowWidth => cases hin
  | grouped128x16 rowGroups groupValues lowWidth => cases hin

theorem foldTailLoop_tails {a b : QuarticField} {alpha1 alpha2 : QM31} (ha : alpha1.Denotes a) (hb : alpha2.Denotes b) :
    ∀ {components : List WeightComponent}, (∀ component ∈ components, component.Shape 6 ∧
      component.inRelation = true ∧ component.masksUsed) →
      ∃ folded, foldTailLoop alpha1 alpha2 components = some (true, folded) ∧
        List.Forall₂ (TailsTo a b) components folded
  | [], _ => ⟨[], rfl, .nil⟩
  | component :: rest, h => by
    obtain ⟨hshape, hin, hmasks⟩ := h component List.mem_cons_self
    obtain ⟨folded, hfolded, htails⟩ := foldTailComponent_tails ha hb hshape hin hmasks
    obtain ⟨last, hlast, hrelated⟩ := foldTailLoop_tails ha hb fun c hc => h c (List.mem_cons_of_mem component hc)
    refine ⟨folded :: last, ?_, .cons htails hrelated⟩
    rw [foldTailLoop, hfolded, Option.bind_eq_bind, Option.bind_some]
    dsimp only
    rw [hlast]
    rfl

theorem sum_tails {a b : QuarticField} {components folded : List WeightComponent}
    (hshape : ∀ component ∈ components, component.Shape 6) (h : List.Forall₂ (TailsTo a b) components folded)
    {j : ℕ} (hj : j < 4) :
    (folded.map fun component => component.covector 2 j).sum =
      foldWeights b (foldWeights a fun i => (components.map fun component => component.covector 6 i).sum) j := by
  induction h with
  | nil =>
    simp only [List.map_nil, List.sum_nil]
    rw [foldWeights_zero, foldWeights_zero]
  | cons htail _ ih =>
    rename_i component next components rest _
    have hrest := ih fun c hc => hshape c (List.mem_cons_of_mem component hc)
    have hfirst := (htail.weights _ ((hshape component List.mem_cons_self).covector (by decide))).covector_eq (i := j) hj
    simp only [List.map_cons, List.sum_cons]
    rw [foldWeights_add, foldWeights_add, hrest, hfirst]

/-! ### The first round of the tail -/

/-- A component of the relation after a fold at eight bits. -/
theorem inRelation_after_fold {component folded : WeightComponent} {alpha alpha2 alpha3 : QM31}
    (h : component.Shape 8) (hin : component.inRelation = true)
    (hfold : foldComponentArity4 component 8 alpha alpha2 alpha3 (.new alpha) (.new alpha2) = some folded) :
    folded.inRelation = true ∧ folded.masksUsed ∧
      folded.multilinearPoint = component.multilinearPoint.map (List.take 6) := by
  cases component with
  | multilinear scale point =>
    have hlen : point.length = 8 := h.2.2
    rw [foldComponentArity4, foldMultilinearArity4, if_neg (by omega), hlen] at hfold
    obtain ⟨z0, -, hfold⟩ := Option.bind_eq_some_iff.mp hfold
    obtain ⟨z1, -, hfold⟩ := Option.bind_eq_some_iff.mp hfold
    obtain rfl := Option.some.inj hfold
    exact ⟨rfl, trivial, rfl⟩
  | tensor scale factors =>
    have hlen : factors.length = 8 := h.2.2
    rw [foldComponentArity4, foldTensorArity4, if_neg (by omega)] at hfold
    obtain ⟨high, -, hfold⟩ := Option.bind_eq_some_iff.mp hfold
    obtain ⟨low, -, hfold⟩ := Option.bind_eq_some_iff.mp hfold
    obtain ⟨products, -, hfold⟩ := Option.bind_eq_some_iff.mp hfold
    obtain rfl := Option.some.inj hfold
    exact ⟨rfl, trivial, rfl⟩
  | lineM31Tensor scale x =>
    obtain ⟨factor, -, hfold⟩ := Option.bind_eq_some_iff.mp hfold
    obtain rfl := Option.some.inj hfold
    exact ⟨rfl, trivial, rfl⟩
  | lineM31Batch scales xs halvings =>
    rw [foldComponentArity4, foldLineM31BatchArity4, if_neg (not_not.mpr h.2)] at hfold
    obtain ⟨lines, -, hfold⟩ := Option.bind_eq_some_iff.mp hfold
    obtain rfl := Option.some.inj hfold
    exact ⟨rfl, trivial, rfl⟩
  | dense values =>
    obtain rfl := Option.some.inj hfold
    exact ⟨rfl, trivial, rfl⟩
  | grouped64x16BinaryDeferred rowGroups groupMasks firstAlpha groupValues =>
    obtain ⟨alpha0, -, hfold⟩ := Option.bind_eq_some_iff.mp hfold
    obtain rfl := Option.some.inj hfold
    exact ⟨rfl, rfl, rfl⟩
  | geometric scale base => cases hin
  | product scale pairs => cases hin
  | grouped64x16 rowGroups groupValues lowWidth => cases hin
  | grouped128x16 rowGroups groupValues lowWidth => cases hin

/-- The components that the tail merges: the first and the third, once their last two coordinates are folded. -/
def WeightAccumulator.TailReady (weights : WeightAccumulator) : Prop :=
  weights.logLen = 8 ∧ weights.components.all WeightComponent.inRelation = true ∧
    ∃ point, (weights.components[0]?.bind WeightComponent.multilinearPoint).map (List.take 6) = some point ∧
      (weights.components[2]?.bind WeightComponent.multilinearPoint).map (List.take 6) = some point

theorem WeightAccumulator.fold_components {weights folded : WeightAccumulator} {alpha : QM31}
    (hfold : weights.fold alpha = some folded) : weights.components.mapM (fun component =>
      foldComponentArity4 component weights.logLen alpha alpha.square
        ((PreparedQm31Multiplier.new alpha).mul alpha.square) (.new alpha) (.new alpha.square)) = some folded.components ∧
      2 ≤ weights.logLen ∧ folded.logLen = weights.logLen - 2 := by
  rw [WeightAccumulator.fold] at hfold
  split_ifs at hfold with hlen
  obtain ⟨components, hcomponents, hfold⟩ := Option.bind_eq_some_iff.mp hfold
  obtain rfl := Option.some.inj hfold
  exact ⟨hcomponents, not_lt.mp hlen, rfl⟩

section Round
variable {weights folded : WeightAccumulator} {alpha : QM31}

/-- A component of the result is the fold of the component at its place. -/
theorem fold_getElem? (hfold : weights.fold alpha = some folded) (i : ℕ) : folded.components[i]? =
    weights.components[i]?.bind fun component => foldComponentArity4 component weights.logLen alpha alpha.square
      ((PreparedQm31Multiplier.new alpha).mul alpha.square) (.new alpha) (.new alpha.square) :=
  mapM_getElem? (WeightAccumulator.fold_components hfold).1 i

theorem fold_length (hfold : weights.fold alpha = some folded) :
    folded.components.length = weights.components.length :=
  mapM_length (WeightAccumulator.fold_components hfold).1

/-- After the first round of the tail every component is ready for the fused rounds. -/
theorem relation_after_fold (h : weights.Shape) (hlen : weights.logLen = 8)
    (hall : weights.components.all WeightComponent.inRelation = true) (hfold : weights.fold alpha = some folded) :
    ∀ component ∈ folded.components, component.inRelation = true ∧ component.masksUsed := by
  intro component hcomponent
  obtain ⟨i, hi, hget⟩ := List.getElem_of_mem hcomponent
  have hplace := fold_getElem? hfold i
  rw [List.getElem?_eq_getElem hi, hget] at hplace
  obtain ⟨source, hsource, hstep⟩ := Option.bind_eq_some_iff.mp hplace.symm
  have hmem := List.mem_of_getElem? hsource
  have hshape := h.components source hmem
  rw [hlen] at hshape hstep
  obtain ⟨hin, hmasks, -⟩ := inRelation_after_fold hshape (List.all_eq_true.mp hall source hmem) hstep
  exact ⟨hin, hmasks⟩

/-- The points after the first round lack their last two coordinates. -/
theorem point_after_fold (h : weights.Shape) (hlen : weights.logLen = 8)
    (hall : weights.components.all WeightComponent.inRelation = true) (hfold : weights.fold alpha = some folded) (i : ℕ) :
    folded.components[i]?.bind WeightComponent.multilinearPoint =
      (weights.components[i]?.bind WeightComponent.multilinearPoint).map (List.take 6) := by
  have hplace := fold_getElem? hfold i
  cases hsource : weights.components[i]? with
  | none =>
    rw [hsource] at hplace
    rw [hplace]
    rfl
  | some source =>
    have hmem := List.mem_of_getElem? hsource
    have hshape := h.components source hmem
    have hbound : i < folded.components.length := by
      rw [fold_length hfold]
      exact (List.getElem?_eq_some_iff.mp hsource).1
    rw [hsource, List.getElem?_eq_getElem hbound, Option.bind_some] at hplace
    rw [hlen] at hshape hplace
    obtain ⟨-, -, hpoint⟩ := inRelation_after_fold hshape (List.all_eq_true.mp hall source hmem) hplace.symm
    rw [List.getElem?_eq_getElem hbound, Option.bind_some, Option.bind_some, hpoint]

end Round

/-- A merge makes no component that the fused rounds do not know. -/
theorem relation_after_merge {weights merged : WeightAccumulator} {first second : ℕ}
    (hready : ∀ component ∈ weights.components, component.inRelation = true ∧ component.masksUsed)
    (hmerge : weights.mergeEqualMultilinearComponents first second = (true, merged)) :
    ∀ component ∈ merged.components, component.inRelation = true ∧ component.masksUsed := by
  rcases merge_cases weights first second with ⟨scale, scale', point, -, -, -, heq⟩ | ⟨heq, -⟩
  · rw [heq] at hmerge
    obtain rfl := (Prod.mk.inj hmerge).2
    intro component hcomponent
    rcases List.mem_or_eq_of_mem_set (List.mem_of_mem_eraseIdx hcomponent) with hmem | rfl
    · exact hready component hmem
    · exact ⟨rfl, trivial⟩
  · rw [heq] at hmerge
    cases (Prod.mk.inj hmerge).1

/-- The tail of an accumulator that is ready for it is three folds. -/
theorem WeightAccumulator.Shape.tail {weights : WeightAccumulator} (h : weights.Shape) (hready : weights.TailReady)
    {alpha0 alpha1 alpha2 : QM31} (h0 : alpha0.Canonical) (h1 : alpha1.Canonical) (h2 : alpha2.Canonical) :
    ∃ out once twice thrice, weights.foldTag73RelationTailArity4 alpha0 alpha1 alpha2 = some (true, out) ∧
      weights.fold alpha0 = some once ∧ once.fold alpha1 = some twice ∧ twice.fold alpha2 = some thrice ∧
      out.Shape ∧ out.logLen = 2 ∧ thrice.logLen = 2 ∧
      ∀ i < 4, ∃ q, out.weightAt i = some q ∧ thrice.weightAt i = some q := by
  obtain ⟨hlen, hall, point, hfirst, hthird⟩ := hready
  obtain ⟨once, honce, hs1, hl1, hd1, hc1⟩ := h.fold_denotes (by omega) (fun _ => by omega) h0.denotes
  rw [hlen] at hl1 hc1
  obtain ⟨twice, htwice, hs2, hl2, hd2, hc2⟩ := hs1.fold_denotes (by omega) (fun _ => by omega) h1.denotes
  rw [hl1] at hl2 hc2
  obtain ⟨thrice, hthrice, hs3, hl3, -, hc3⟩ := hs2.fold_denotes (by omega) (fun _ => by omega) h2.denotes
  rw [hl2] at hl3 hc3
  have hdeferred : weights.foldDeferredRelationArity4 alpha0 = some once := by
    rw [foldDeferredRelationArity4_eq, if_pos hall, honce]
  rw [← point_after_fold h hlen hall honce] at hfirst hthird
  rcases merge_cases once 0 2 with ⟨scale, scale', point', -, -, -, hmerge⟩ | ⟨-, hnone⟩
  · obtain ⟨hextends, hcovector⟩ := hs1.merge hmerge
    have hlm : 2 ^ once.logLen = 64 := by rw [hl1]; rfl
    have hcomponents : ∀ component ∈ (once.components.set 0 (.multilinear (scale.add scale') point')).eraseIdx 2,
        component.Shape 6 ∧ component.inRelation = true ∧ component.masksUsed := by
      intro component hcomponent
      have hshape := hextends.shape.components component hcomponent
      dsimp only at hshape
      rw [hl1] at hshape
      exact ⟨hshape, relation_after_merge (relation_after_fold h hlen hall honce) hmerge component hcomponent⟩
    obtain ⟨folded, hfolded, hrelated⟩ := foldTailLoop_tails h1.denotes h2.denotes hcomponents
    have hout : (⟨2, folded⟩ : WeightAccumulator).Shape := by
      refine ⟨(by decide : 2 < 32), fun component hcomponent => ?_⟩
      obtain ⟨i, hi, hget⟩ := List.getElem_of_mem hcomponent
      have hpair := hrelated.get (i := i) (by rw [hrelated.length_eq]; exact hi) hi
      rw [List.get_eq_getElem, List.get_eq_getElem, hget] at hpair
      exact hpair.shape
    refine ⟨⟨2, folded⟩, once, twice, thrice, ?_, honce, htwice, hthrice, hout, rfl, hl3, fun i hi => ?_⟩
    · rw [WeightAccumulator.foldTag73RelationTailArity4, if_neg (not_not.mpr hlen), hdeferred, Option.bind_eq_bind,
        Option.bind_some, hmerge]
      dsimp only
      rw [hfolded]
      rfl
    · apply weightAt_eq_of_covector hs3 hout (by rw [hl3]; exact hi) hi
      -- both covectors are the dual folds of the one after the first round
      have hsum := sum_tails (fun component hcomponent => (hcomponents component hcomponent).1) hrelated hi
      rw [hc3 i hi]
      refine hsum.trans (foldWeights_congr fun j hle hlt => ?_)
      rw [hc2 j (by omega)]
      apply foldWeights_congr
      intro k hle' hlt'
      have hkeep := hcovector k (by omega)
      rw [WeightAccumulator.covector] at hkeep
      dsimp only at hkeep
      rw [hl1] at hkeep
      exact hkeep
  · exact absurd hthird (hnone point (by decide) hfirst)

/-- The tail returns true on no other accumulator. -/
theorem WeightAccumulator.Shape.tailReady_of_true {weights out : WeightAccumulator} (h : weights.Shape)
    {alpha0 alpha1 alpha2 : QM31}
    (htail : weights.foldTag73RelationTailArity4 alpha0 alpha1 alpha2 = some (true, out)) : weights.TailReady := by
  rw [WeightAccumulator.foldTag73RelationTailArity4] at htail
  by_cases hlen : weights.logLen = 8
  · rw [if_neg (not_not.mpr hlen)] at htail
    obtain ⟨once, honce, htail⟩ := Option.bind_eq_some_iff.mp htail
    rw [foldDeferredRelationArity4_eq] at honce
    split_ifs at honce with hall
    refine ⟨hlen, hall, ?_⟩
    rcases merge_cases once 0 2 with ⟨scale, scale', point, -, hfirst, hthird, -⟩ | ⟨hmerge, -⟩
    · refine ⟨point, ?_, ?_⟩
      · rw [← point_after_fold h hlen hall honce, hfirst]
        rfl
      · rw [← point_after_fold h hlen hall honce, hthird]
        rfl
    · rw [hmerge] at htail
      cases (Prod.mk.inj (Option.some.inj htail)).1
  · rw [if_pos hlen] at htail
    cases (Prod.mk.inj (Option.some.inj htail)).1

/-! ### Every accumulator -/

/-- The accumulators that the constructors, folds, merges and tails give, in any order. -/
inductive Assembled : WeightAccumulator → Prop
  | empty {logLen : ℕ} (hhigh : logLen < 32) : Assembled (.empty logLen)
  | add {weights next : WeightAccumulator} {op : WeightOp} (h : Assembled weights) (hop : op.Canonical)
      (hnext : op.apply weights = .ok next) : Assembled next
  | fold {weights next : WeightAccumulator} {alpha : QM31} (h : Assembled weights) (halpha : alpha.Canonical)
      (hnext : weights.fold alpha = some next) : Assembled next
  | merge {weights next : WeightAccumulator} {first second : ℕ} (h : Assembled weights)
      (hnext : weights.mergeEqualMultilinearComponents first second = (true, next)) : Assembled next
  | tail {weights next : WeightAccumulator} {alpha0 alpha1 alpha2 : QM31} (h : Assembled weights)
      (h0 : alpha0.Canonical) (h1 : alpha1.Canonical) (h2 : alpha2.Canonical)
      (hnext : weights.foldTag73RelationTailArity4 alpha0 alpha1 alpha2 = some (true, next)) : Assembled next

/-- A fold that returns was not the last one of a deferred table. -/
theorem not_last_of_fold {weights next : WeightAccumulator} {alpha : QM31} (h : weights.Shape)
    (hnext : weights.fold alpha = some next) : weights.hasDeferred = true → weights.logLen ≠ 2 := by
  intro hdeferred hlen
  obtain ⟨component, hcomponent, hkind⟩ := List.any_eq_true.mp hdeferred
  have hnone := (WeightAccumulator.fold_components hnext).1
  rw [mapM_eq_none ⟨component, hcomponent, ?_⟩] at hnone
  · cases hnone
  · rw [hlen]
    cases component <;> first | rfl | cases hkind

theorem Assembled.shape {weights : WeightAccumulator} (h : Assembled weights) : weights.Shape := by
  induction h with
  | empty hhigh => exact ⟨hhigh, fun _ hc => nomatch hc⟩
  | add _ hop hnext ih => exact (apply_extends ih hop hnext).shape
  | fold _ halpha hnext ih =>
    have hlow := (WeightAccumulator.fold_components hnext).2.1
    obtain ⟨folded, hfolded, hshape, -⟩ := ih.fold_denotes hlow (not_last_of_fold ih hnext) halpha.denotes
    rw [hnext] at hfolded
    obtain rfl := Option.some.inj hfolded
    exact hshape
  | merge _ hnext ih => exact (ih.merge hnext).1.shape
  | tail _ h0 h1 h2 hnext ih =>
    obtain ⟨out, -, -, -, hout, -, -, -, hshape, -⟩ := ih.tail (ih.tailReady_of_true hnext) h0 h1 h2
    rw [hnext] at hout
    obtain rfl := (Prod.mk.inj (Option.some.inj hout)).2
    exact hshape

/-- The specialised kernels against the general definitions, on every accumulator: the prefix holds the weights; an
interval adds its indicator; a merge keeps every weight; the deferred fold is the fold on the components of the
relation and panics on others; and the tail of three rounds returns true exactly on the relations whose first and third
components merge after the first round, where its weights are those of three folds. -/
theorem weight_kernels {weights : WeightAccumulator} (h : Assembled weights) :
    (∀ n, 1 ≤ n → n ≤ 2 ^ weights.logLen → ∃ values, weights.weightPrefix n = some values ∧ values.length = n ∧
      ∀ i < n, ∃ q, values[i]? = some q ∧ weights.weightAt i = some q) ∧
    (∀ scale start stop, scale.Canonical → start < stop → stop ≤ 2 ^ weights.logLen →
      ∃ next, weights.addIndexInterval scale start stop = .ok next ∧ next.logLen = weights.logLen ∧
        ∀ i < 2 ^ weights.logLen, ∃ q, weights.weightAt i = some q ∧
          next.weightAt i = some (if start ≤ i ∧ i < stop then q.add scale else q)) ∧
    (∀ first second merged, weights.mergeEqualMultilinearComponents first second = (true, merged) →
      merged.logLen = weights.logLen ∧
        ∀ i < 2 ^ weights.logLen, ∃ q, merged.weightAt i = some q ∧ weights.weightAt i = some q) ∧
    (∀ alpha, weights.foldDeferredRelationArity4 alpha =
      if weights.components.all WeightComponent.inRelation then weights.fold alpha else none) ∧
    (∀ alpha0 alpha1 alpha2, alpha0.Canonical → alpha1.Canonical → alpha2.Canonical →
      ((∃ out, weights.foldTag73RelationTailArity4 alpha0 alpha1 alpha2 = some (true, out)) ↔ weights.TailReady) ∧
      ∀ out, weights.foldTag73RelationTailArity4 alpha0 alpha1 alpha2 = some (true, out) →
        ∃ once twice thrice, weights.fold alpha0 = some once ∧ once.fold alpha1 = some twice ∧
          twice.fold alpha2 = some thrice ∧ out.logLen = thrice.logLen ∧
          ∀ i < 2 ^ thrice.logLen, ∃ q, out.weightAt i = some q ∧ thrice.weightAt i = some q) := by
  have hshape := h.shape
  refine ⟨fun n hpos hn => hshape.weightPrefix_eq hpos hn, ?_, ?_, foldDeferredRelationArity4_eq weights, ?_⟩
  · intro scale start stop hs hstart hstop
    obtain ⟨next, hnext, hextends, hweights⟩ := hshape.addIndexInterval_weights hs hstart hstop
    exact ⟨next, hnext, hextends.logLen, hweights⟩
  · intro first second merged hmerge
    obtain ⟨hextends, hcovector⟩ := hshape.merge hmerge
    refine ⟨hextends.logLen, fun i hi => ?_⟩
    exact weightAt_eq_of_covector hshape hextends.shape hi (by rw [hextends.logLen]; exact hi) (hcovector i hi)
  · intro alpha0 alpha1 alpha2 h0 h1 h2
    refine ⟨⟨fun ⟨out, hout⟩ => hshape.tailReady_of_true hout, fun hready => ?_⟩, fun out hout => ?_⟩
    · obtain ⟨out, -, -, -, hout, -⟩ := hshape.tail hready h0 h1 h2
      exact ⟨out, hout⟩
    · obtain ⟨out', once, twice, thrice, hout', honce, htwice, hthrice, -, hlen, hlen', hweights⟩ :=
        hshape.tail (hshape.tailReady_of_true hout) h0 h1 h2
      rw [hout] at hout'
      obtain rfl := (Prod.mk.inj (Option.some.inj hout')).2
      refine ⟨once, twice, thrice, honce, htwice, hthrice, hlen.trans hlen'.symm, fun i hi => ?_⟩
      rw [hlen'] at hi
      exact hweights i hi

/-- A relation of three components at eight bits: a point, a line and the point again. -/
def sampleRelation : WeightAccumulator :=
  ⟨8, [.multilinear QM31.one (List.replicate 8 QM31.one), .lineM31Tensor QM31.one M31.one,
    .multilinear QM31.one (List.replicate 8 QM31.one)]⟩

theorem sampleRelation_assembled : Assembled sampleRelation := by
  have hone := QM31.denotes_one.canonical
  have hpoint : (WeightOp.multilinear QM31.one (List.replicate 8 QM31.one)).Canonical :=
    ⟨hone, fun z hz => List.eq_of_mem_replicate hz ▸ hone⟩
  have hempty : Assembled (.empty 8) := .empty (by decide)
  have hfirst : Assembled ⟨8, [.multilinear QM31.one (List.replicate 8 QM31.one)]⟩ := .add hempty hpoint rfl
  have hsecond : Assembled ⟨8, [.multilinear QM31.one (List.replicate 8 QM31.one), .lineM31Tensor QM31.one M31.one]⟩ :=
    @Assembled.add _ _ (.lineM31Tensor QM31.one M31.one) hfirst ⟨hone, M31.denotes_one.canonical⟩ rfl
  exact .add hsecond hpoint rfl

theorem weight_kernels_sample :
    (∃ values, sampleRelation.weightPrefix 35 = some values ∧ values.length = 35) ∧
    ∃ out, sampleRelation.foldTag73RelationTailArity4 QM31.one QM31.one QM31.one = some (true, out) := by
  have hone := QM31.denotes_one.canonical
  obtain ⟨hadded, -, -, -, htail⟩ := weight_kernels sampleRelation_assembled
  refine ⟨?_, ((htail QM31.one QM31.one QM31.one hone hone hone).1).mpr ⟨rfl, by decide, ?_⟩⟩
  · obtain ⟨values, hvalues, hlength, -⟩ := hadded 35 (by decide) (by decide)
    exact ⟨values, hvalues, hlength⟩
  · exact ⟨List.replicate 6 QM31.one, rfl, rfl⟩

/-- A geometric component folds, but the deferred fold declares it unreachable. -/
theorem geometric_not_deferred :
    (((WeightAccumulator.empty 2).addGeometric QM31.one QM31.one).fold QM31.one).isSome = true ∧
      (((WeightAccumulator.empty 2).addGeometric QM31.one QM31.one).foldDeferredRelationArity4 QM31.one).isSome = false := by
  decide +kernel

end Aspis.Core
