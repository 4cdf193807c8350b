import Aspis.Core.WeightDot

/-! The interleaved sumcheck over whole runs: any accumulator that the constructors build, folded at
any challenges. -/

namespace Aspis.Core

open Aspis.Lib.DualFold Aspis.Lib.Accumulate
open WeightAccumulator (groupMasksOf maskValues lineCoordinates subcubePairs addIntervalFrom)

/-- A call of a constructor. -/
inductive WeightOp
  | geometric (scale base : QM31)
  | multilinear (scale : QM31) (point : List QM31)
  | tensorFactors (scale : QM31) (factors : List QM31)
  | productPairs (scale : QM31) (pairs : List (QM31 × QM31))
  | indexInterval (scale : QM31) (start stop : ℕ)
  | dense (values : List QM31)
  | grouped64x16BinaryMasks (rowMasks : Vector UInt16 64)
  | grouped64x16BinaryMasksDeferred (rowMasks : Vector UInt16 64)
  | grouped64x16BinaryMasksDeferredPrepared (rowGroups : Vector UInt8 64) (groupMasks : List UInt16)
  | grouped128x16BinaryMasks (rowMasks : Vector UInt16 128)
  | circleTensor (scale x y : QM31)
  | lineTensor (scale x : QM31)
  | lineM31Tensor (scale : QM31) (x : M31)
  | lineM31Batch (scales : List QM31) (xs : List M31)

namespace WeightOp

def apply (weights : WeightAccumulator) : WeightOp → Except TensorWeightError WeightAccumulator
  | geometric scale base => .ok (weights.addGeometric scale base)
  | multilinear scale point => weights.addMultilinear scale point
  | tensorFactors scale factors => weights.addTensorFactors scale factors
  | productPairs scale pairs => weights.addProductPairs scale pairs
  | indexInterval scale start stop => weights.addIndexInterval scale start stop
  | dense values => weights.addDense values
  | grouped64x16BinaryMasks rowMasks => weights.addGrouped64x16BinaryMasks rowMasks
  | grouped64x16BinaryMasksDeferred rowMasks => weights.addGrouped64x16BinaryMasksDeferred rowMasks
  | grouped64x16BinaryMasksDeferredPrepared rowGroups groupMasks =>
    weights.addGrouped64x16BinaryMasksDeferredPrepared rowGroups groupMasks
  | grouped128x16BinaryMasks rowMasks => weights.addGrouped128x16BinaryMasks rowMasks
  | circleTensor scale x y => weights.addCircleTensor scale x y
  | lineTensor scale x => weights.addLineTensor scale x
  | lineM31Tensor scale x => weights.addLineM31Tensor scale x
  | lineM31Batch scales xs => weights.addLineM31Batch scales xs

/-- The field elements of a call are canonical, as the readers return them. -/
def Canonical : WeightOp → Prop
  | geometric scale base => scale.Canonical ∧ base.Canonical
  | multilinear scale point => scale.Canonical ∧ ∀ z ∈ point, z.Canonical
  | tensorFactors scale factors => scale.Canonical ∧ ∀ z ∈ factors, z.Canonical
  | productPairs scale pairs => scale.Canonical ∧ ∀ pair ∈ pairs, pair.1.Canonical ∧ pair.2.Canonical
  | indexInterval scale _ _ => scale.Canonical
  | dense values => ∀ z ∈ values, z.Canonical
  | grouped64x16BinaryMasks _ => True
  | grouped64x16BinaryMasksDeferred _ => True
  | grouped64x16BinaryMasksDeferredPrepared _ _ => True
  | grouped128x16BinaryMasks _ => True
  | circleTensor scale x y => scale.Canonical ∧ x.Canonical ∧ y.Canonical
  | lineTensor scale x => scale.Canonical ∧ x.Canonical
  | lineM31Tensor scale x => scale.Canonical ∧ x.Canonical
  | lineM31Batch scales xs => (∀ s ∈ scales, s.Canonical) ∧ ∀ x ∈ xs, x.Canonical

end WeightOp

/-! ### The constructors give the shape -/

theorem WeightAccumulator.Shape.push {weights : WeightAccumulator} (h : weights.Shape) {component : WeightComponent}
    (hc : component.Shape weights.logLen) : (weights.push component).Shape := by
  refine ⟨h.small, ?_⟩
  intro other hother
  rcases List.mem_append.mp hother with hmem | hmem
  · exact h.components other hmem
  · rw [List.mem_singleton.mp hmem]
    exact hc

/-- The group of each row is the place of its mask. -/
theorem groupMasksOf_shape (rowMasks : List UInt16) (hlen : rowMasks.length ≤ 256) :
    (groupMasksOf rowMasks).1.length = rowMasks.length ∧
      ∀ group ∈ (groupMasksOf rowMasks).1, group < (groupMasksOf rowMasks).2.length := by
  have hfold : ∀ (l : List UInt16) (state : List ℕ × List UInt16), state.2.length + l.length ≤ 256 →
      (∀ group ∈ state.1, group < state.2.length) →
      let out := l.foldl (fun state mask =>
        let group := state.2.idxOf mask
        (state.1 ++ [group % 256], if group = state.2.length then state.2 ++ [mask] else state.2)) state
      out.1.length = state.1.length + l.length ∧ ∀ group ∈ out.1, group < out.2.length := by
    intro l
    induction l with
    | nil => exact fun state _ h => ⟨rfl, h⟩
    | cons mask l ih =>
      intro state hbound hgroups
      rw [List.length_cons] at hbound
      have hle : state.2.idxOf mask ≤ state.2.length := List.idxOf_le_length
      have hmod : state.2.idxOf mask % 256 = state.2.idxOf mask := Nat.mod_eq_of_lt (by omega)
      dsimp only
      rw [List.foldl_cons, hmod]
      have hnext := ih (state.1 ++ [state.2.idxOf mask],
        if state.2.idxOf mask = state.2.length then state.2 ++ [mask] else state.2) ?_ ?_
      · dsimp only at hnext
        rw [List.length_append, List.length_singleton] at hnext
        rw [List.length_cons]
        exact ⟨by omega, hnext.2⟩
      · dsimp only
        split
        · rw [List.length_append, List.length_singleton]
          omega
        · omega
      · intro group hgroup
        dsimp only at hgroup ⊢
        have hgrow : state.2.length ≤
            (if state.2.idxOf mask = state.2.length then state.2 ++ [mask] else state.2).length := by
          split
          · rw [List.length_append]
            omega
          · exact le_rfl
        rcases List.mem_append.mp hgroup with hmem | hmem
        · exact lt_of_lt_of_le (hgroups group hmem) hgrow
        · rw [List.mem_singleton.mp hmem]
          split
          · rename_i hnew
            rw [List.length_append, List.length_singleton]
            omega
          · omega
  have hstart := hfold rowMasks ([], []) (by simpa using hlen) (by simp)
  dsimp only at hstart
  rw [List.length_nil, Nat.zero_add] at hstart
  exact hstart

theorem length_maskValues (masks : List UInt16) : (maskValues masks).length = 16 * masks.length := by
  rw [maskValues, List.length_flatMap]
  simp
  ring

theorem maskValues_canonical (masks : List UInt16) : ∀ v ∈ maskValues masks, v.Canonical := by
  intro v hv
  obtain ⟨mask, _, hmem⟩ := List.mem_flatMap.mp hv
  obtain ⟨low, _, rfl⟩ := List.mem_map.mp hmem
  split
  · exact QM31.denotes_one.canonical
  · exact QM31.denotes_zero.canonical

theorem tableShape_of_masks {rowMasks : List UInt16} {rowBits : ℕ} (hrows : rowMasks.length = 2 ^ rowBits)
    (hlen : rowMasks.length ≤ 256) :
    TableShape rowBits 16 (groupMasksOf rowMasks).1 (maskValues (groupMasksOf rowMasks).2) := by
  obtain ⟨hlength, hgroups⟩ := groupMasksOf_shape rowMasks hlen
  refine ⟨maskValues_canonical _, by rw [hlength, hrows], ?_⟩
  intro group hgroup
  have hlt := hgroups group hgroup
  rw [length_maskValues]
  omega

theorem lineCoordinates_canonical : ∀ (count : ℕ) {x : QM31}, x.Canonical →
    ∀ z ∈ lineCoordinates x count, z.Canonical
  | 0, _, _, z, hz => by cases hz
  | count + 1, x, hx, z, hz => by
    have hdouble : (doubleX x).Canonical :=
      ((hx.denotes.square.add hx.denotes.square).sub QM31.denotes_one).canonical
    rcases List.mem_cons.mp hz with rfl | hmem
    · exact hx
    · exact lineCoordinates_canonical count hdouble z hmem

theorem subcubePairs_canonical (logLen cursor freeBits : ℕ) :
    ∀ pair ∈ subcubePairs logLen cursor freeBits, pair.1.Canonical ∧ pair.2.Canonical := by
  have hone := QM31.denotes_one.canonical
  have hzero := QM31.denotes_zero.canonical
  intro pair hpair
  rcases List.mem_append.mp hpair with hmem | hmem
  · obtain ⟨coordinate, _, rfl⟩ := List.mem_map.mp hmem
    split
    · exact ⟨hzero, hone⟩
    · exact ⟨hone, hzero⟩
  · rw [List.eq_of_mem_replicate hmem]
    exact ⟨hone, hone⟩

/-- The weights have the shape and the length of those before. -/
structure Extends (before after : WeightAccumulator) : Prop where
  shape : after.Shape
  logLen : after.logLen = before.logLen

theorem extends_push {weights next : WeightAccumulator} {component : WeightComponent} (h : weights.Shape)
    (hnext : Except.ok (ε := TensorWeightError) (weights.push component) = .ok next)
    (hc : component.Shape weights.logLen) : Extends weights next := by
  obtain rfl := Except.ok.inj hnext
  exact ⟨h.push hc, rfl⟩

theorem addTensorFactors_extends {weights next : WeightAccumulator} {scale : QM31} {factors : List QM31}
    (h : weights.Shape) (hs : scale.Canonical) (hf : ∀ z ∈ factors, z.Canonical)
    (hnext : weights.addTensorFactors scale factors = .ok next) : Extends weights next := by
  rw [WeightAccumulator.addTensorFactors] at hnext
  split_ifs at hnext with hlen
  exact extends_push h hnext ⟨hs, hf, not_not.mp hlen⟩

theorem addProductPairs_extends {weights next : WeightAccumulator} {scale : QM31} {pairs : List (QM31 × QM31)}
    (h : weights.Shape) (hs : scale.Canonical) (hp : ∀ pair ∈ pairs, pair.1.Canonical ∧ pair.2.Canonical)
    (hnext : weights.addProductPairs scale pairs = .ok next) : Extends weights next := by
  rw [WeightAccumulator.addProductPairs] at hnext
  split_ifs at hnext with hlen
  exact extends_push h hnext ⟨hs, hp, not_not.mp hlen⟩

theorem addIntervalFrom_extends {scale : QM31} (hs : scale.Canonical) {stop : ℕ} : ∀ (fuel cursor : ℕ)
    {weights next : WeightAccumulator}, weights.Shape → addIntervalFrom scale stop weights cursor fuel = .ok next →
      Extends weights next
  | 0, _, _, _, h, hnext => by
    obtain rfl := Except.ok.inj hnext
    exact ⟨h, rfl⟩
  | fuel + 1, cursor, weights, next, h, hnext => by
    rw [addIntervalFrom] at hnext
    split_ifs at hnext with hlt
    · obtain ⟨mid, hmid, hrest⟩ := Lib.except_bind_eq_ok.mp hnext
      have hstep := addProductPairs_extends h hs (subcubePairs_canonical _ _ _) hmid
      have hlast := addIntervalFrom_extends hs fuel _ hstep.shape hrest
      exact ⟨hlast.shape, hlast.logLen.trans hstep.logLen⟩
    · obtain rfl := Except.ok.inj hnext
      exact ⟨h, rfl⟩

theorem maskShape_of_masks (rowMasks : Vector UInt16 64) :
    MaskShape (groupMasksOf rowMasks.toList).1 (groupMasksOf rowMasks.toList).2 := by
  obtain ⟨hlength, hgroups⟩ := groupMasksOf_shape rowMasks.toList (by rw [Vector.length_toList]; decide)
  exact ⟨by rw [hlength, Vector.length_toList], hgroups⟩

/-- Every constructor keeps the shape. -/
theorem apply_extends {weights next : WeightAccumulator} {op : WeightOp} (h : weights.Shape) (hop : op.Canonical)
    (hnext : op.apply weights = .ok next) : Extends weights next := by
  cases op with
  | geometric scale base => exact extends_push h hnext hop
  | multilinear scale point =>
    rw [WeightOp.apply, WeightAccumulator.addMultilinear] at hnext
    split_ifs at hnext with hlen
    exact extends_push h hnext ⟨hop.1, hop.2, not_not.mp hlen⟩
  | tensorFactors scale factors => exact addTensorFactors_extends h hop.1 hop.2 hnext
  | productPairs scale pairs => exact addProductPairs_extends h hop.1 hop.2 hnext
  | indexInterval scale start stop =>
    rw [WeightOp.apply, WeightAccumulator.addIndexInterval] at hnext
    split_ifs at hnext
    exact addIntervalFrom_extends hop _ _ h hnext
  | dense values =>
    rw [WeightOp.apply, WeightAccumulator.addDense] at hnext
    split_ifs at hnext with hlen
    exact extends_push h hnext ⟨hop, not_not.mp hlen⟩
  | grouped64x16BinaryMasks rowMasks =>
    rw [WeightOp.apply, WeightAccumulator.addGrouped64x16BinaryMasks] at hnext
    split_ifs at hnext with hlen
    have hrows : rowMasks.toList.length = 2 ^ 6 := Vector.length_toList
    exact extends_push h hnext ⟨Or.inl ⟨not_not.mp hlen, rfl⟩, tableShape_of_masks hrows (by rw [hrows]; decide)⟩
  | grouped64x16BinaryMasksDeferred rowMasks =>
    rw [WeightOp.apply, WeightAccumulator.addGrouped64x16BinaryMasksDeferred] at hnext
    split_ifs at hnext with hlen
    exact extends_push h hnext (Or.inl ⟨not_not.mp hlen, rfl, maskShape_of_masks rowMasks⟩)
  | grouped64x16BinaryMasksDeferredPrepared rowGroups groupMasks =>
    rw [WeightOp.apply, WeightAccumulator.addGrouped64x16BinaryMasksDeferredPrepared] at hnext
    split_ifs at hnext with hlen hempty hgroups
    refine extends_push h hnext (Or.inl ⟨not_not.mp hlen, rfl, ?_, ?_⟩)
    · rw [List.length_map, Vector.length_toList]
    · intro group hgroup
      obtain ⟨byte, hbyte, rfl⟩ := List.mem_map.mp hgroup
      by_contra hge
      exact hgroups (List.any_eq_true.mpr ⟨byte, hbyte, decide_eq_true (not_lt.mp hge)⟩)
  | grouped128x16BinaryMasks rowMasks =>
    rw [WeightOp.apply, WeightAccumulator.addGrouped128x16BinaryMasks] at hnext
    split_ifs at hnext with hlen
    have hrows : rowMasks.toList.length = 2 ^ 7 := Vector.length_toList
    exact extends_push h hnext ⟨Or.inl ⟨not_not.mp hlen, rfl⟩, tableShape_of_masks hrows (by rw [hrows]; decide)⟩
  | circleTensor scale x y =>
    rw [WeightOp.apply, WeightAccumulator.addCircleTensor] at hnext
    split_ifs at hnext
    refine addTensorFactors_extends h hop.1 ?_ hnext
    intro z hz
    rcases List.mem_cons.mp (List.mem_reverse.mp hz) with rfl | hmem
    · exact hop.2.2
    · exact lineCoordinates_canonical _ hop.2.1 z hmem
  | lineTensor scale x =>
    refine addTensorFactors_extends h hop.1 ?_ hnext
    intro z hz
    exact lineCoordinates_canonical _ hop.2 z (List.mem_reverse.mp hz)
  | lineM31Tensor scale x =>
    rw [WeightOp.apply, WeightAccumulator.addLineM31Tensor] at hnext
    split_ifs at hnext
    exact extends_push h hnext hop
  | lineM31Batch scales xs =>
    rw [WeightOp.apply, WeightAccumulator.addLineM31Batch] at hnext
    split_ifs at hnext with hshape
    refine extends_push h hnext ⟨?_, ?_⟩
    · intro line hline
      obtain ⟨hscale, hx⟩ := List.of_mem_zip hline
      exact ⟨hop.1 _ hscale, hop.2 _ hx⟩
    · by_contra hne
      exact hshape (Or.inr (Or.inr hne))

theorem build_extends : ∀ {ops : List WeightOp} {weights next : WeightAccumulator}, weights.Shape →
    (∀ op ∈ ops, op.Canonical) → ops.foldlM (fun weights op => op.apply weights) weights = .ok next →
    Extends weights next
  | [], _, _, h, _, hnext => by
    obtain rfl := Except.ok.inj hnext
    exact ⟨h, rfl⟩
  | op :: ops, weights, next, h, hops, hnext => by
    rw [List.foldlM_cons] at hnext
    obtain ⟨mid, hmid, hrest⟩ := Lib.except_bind_eq_ok.mp hnext
    have hstep := apply_extends h (hops op List.mem_cons_self) hmid
    have hlast := build_extends hstep.shape (fun o ho => hops o (List.mem_cons_of_mem op ho)) hrest
    exact ⟨hlast.shape, hlast.logLen.trans hstep.logLen⟩

theorem fromClaim_extends {logLen : ℕ} (hhigh : logLen < 32) {claim : Option (List QM31)} {start : WeightAccumulator}
    (hclaim : ∀ z ∈ claim, ∀ x ∈ z, x.Canonical) (hstart : WeightAccumulator.fromClaim logLen claim = some start) :
    Extends (WeightAccumulator.empty logLen) start := by
  have hempty : (WeightAccumulator.empty logLen).Shape := ⟨hhigh, fun _ hc => nomatch hc⟩
  cases claim with
  | none =>
    obtain rfl := Option.some.inj hstart
    exact ⟨hempty, rfl⟩
  | some z =>
    rw [WeightAccumulator.fromClaim] at hstart
    split_ifs at hstart with hz
    obtain rfl := Option.some.inj hstart
    exact ⟨hempty.push ⟨QM31.denotes_one.canonical, hclaim z rfl, not_not.mp hz⟩, rfl⟩

/-! ### Rounds -/

/-- The weights and the values of a round. -/
structure AtRound (logLen : ℕ) (weights : WeightAccumulator) (values : List QM31) : Prop where
  shape : weights.Shape
  canonical : ∀ v ∈ values, v.Canonical
  length : values.length = 2 ^ logLen
  logLen : weights.logLen = logLen

theorem AtRound.fold {logLen : ℕ} {weights : WeightAccumulator} {values : List QM31} (h : AtRound logLen weights values)
    (hlow : 2 ≤ logLen) (hlast : weights.hasDeferred = true → logLen ≠ 2) {alpha : QM31} (ha : alpha.Canonical) :
    ∃ next, weights.fold alpha = some next ∧ AtRound (logLen - 2) next (foldAdjacentNaturalArity4 alpha values) ∧
      next.hasDeferred = weights.hasDeferred ∧
      pairing (2 ^ (logLen - 2)) next.covector (entryAt (foldAdjacentNaturalArity4 alpha values)) =
        pairing (2 ^ (logLen - 2)) (foldWeights alpha.value weights.covector) (foldValues alpha.value (entryAt values)) := by
  obtain ⟨hshape, hcanonical, hlength, rfl⟩ := h
  obtain ⟨next, hfold, hnext, hlogLen, hdeferred, hcovector⟩ := hshape.fold_denotes hlow hlast ha.denotes
  have hpow := four_mul_two_pow hlow
  have hfolded : (foldAdjacentNaturalArity4 alpha values).length = 2 ^ (weights.logLen - 2) := by
    rw [length_foldAdjacentNaturalArity4]
    omega
  have hentries := foldAdjacentNaturalArity4_denotes ha.denotes hcanonical
  have hvalues : ∀ v ∈ foldAdjacentNaturalArity4 alpha values, v.Canonical := by
    intro v hv
    obtain ⟨j, hj, hget⟩ := List.getElem_of_mem hv
    exact (hentries j v (by rw [List.getElem?_eq_getElem hj, hget])).canonical
  refine ⟨next, hfold, ⟨hnext, hvalues, hfolded, hlogLen⟩, hdeferred, ?_⟩
  refine Finset.sum_congr rfl fun j hj => ?_
  have hj' : j < (foldAdjacentNaturalArity4 alpha values).length := by
    rw [hfolded]
    exact Finset.mem_range.mp hj
  obtain ⟨q, hq, hd⟩ := getElem?_entryAt hvalues hj'
  rw [hcovector j (Finset.mem_range.mp hj), ← hd.value_eq, (hentries j q hq).value_eq]

/-- One round: the sum over the boundary, and the value at a challenge. -/
theorem AtRound.round {logLen : ℕ} {weights : WeightAccumulator} {values : List QM31} (h : AtRound logLen weights values)
    (hlow : 2 ≤ logLen) :
    ∃ polynomial, polynomialForExtension values weights = some polynomial ∧
      weights.dot values = some (boundarySum polynomial) ∧
      ∀ alpha : QM31, alpha.Canonical → (weights.hasDeferred = true → logLen ≠ 2) →
        ∃ next, weights.fold alpha = some next ∧
          next.dot (foldAdjacentNaturalArity4 alpha values) = some (evaluate polynomial alpha) := by
  have hround := h
  obtain ⟨hshape, hcanonical, hlength, rfl⟩ := h
  have hpow := four_mul_two_pow hlow
  have hquarter : 2 ^ weights.logLen / 4 = 2 ^ (weights.logLen - 2) := by omega
  obtain ⟨polynomial, hpolynomial, hcoefficients⟩ := polynomialForExtension_denotes hshape hlow hcanonical hlength
  rw [hquarter] at hcoefficients
  refine ⟨polynomial, hpolynomial, ?_, ?_⟩
  · obtain ⟨q, hq, hd⟩ := hshape.dot_denotes hcanonical hlength
    have hboundary := boundarySum_denotes hcoefficients
    rw [boundary four_ne_zero_quartic, hpow] at hboundary
    rw [hq, hd.eq hboundary]
  · intro alpha halpha hlast
    obtain ⟨next, hfold, hnext, _, hpairing⟩ := hround.fold hlow hlast halpha
    obtain ⟨q, hq, hd⟩ := hnext.shape.dot_denotes hnext.canonical (by rw [hnext.logLen]; exact hnext.length)
    have hvalue := evaluate_denotes hcoefficients halpha.denotes
    rw [evaluation] at hvalue
    rw [hnext.logLen, hpairing] at hd
    exact ⟨next, hfold, by rw [hq, hd.eq hvalue]⟩

/-- Folds down to a round that is still to come. -/
theorem AtRound.run : ∀ {challenges : List QM31} {logLen : ℕ} {weights : WeightAccumulator} {values : List QM31},
    AtRound logLen weights values → (∀ alpha ∈ challenges, alpha.Canonical) → 2 * challenges.length + 2 ≤ logLen →
    ∃ folded, challenges.foldlM (fun weights alpha => weights.fold alpha) weights = some folded ∧
      AtRound (logLen - 2 * challenges.length) folded
        (challenges.foldl (fun values alpha => foldAdjacentNaturalArity4 alpha values) values) ∧
      folded.hasDeferred = weights.hasDeferred
  | [], logLen, weights, values, h, _, _ => ⟨weights, rfl, h, rfl⟩
  | alpha :: challenges, logLen, weights, values, h, hchallenges, hbound => by
    rw [List.length_cons] at hbound
    obtain ⟨next, hfold, hnext, hdeferred, _⟩ := h.fold (by omega) (fun _ => by omega)
      (hchallenges alpha List.mem_cons_self)
    obtain ⟨folded, hrun, hfolded, hsame⟩ := AtRound.run hnext
      (fun c hc => hchallenges c (List.mem_cons_of_mem alpha hc)) (by omega)
    refine ⟨folded, ?_, ?_, hsame.trans hdeferred⟩
    · rw [List.foldlM_cons, hfold]
      exact hrun
    · rw [List.length_cons, show logLen - 2 * (challenges.length + 1) = logLen - 2 - 2 * challenges.length by omega]
      exact hfolded

/-- For every accumulator that the constructors build on `2 ^ logLen` weights and every vector of values, at every round
of any challenges: the round polynomial sums over its boundary to the inner product, and its value at a
challenge is the inner product of the folded weights and values; a deferred table is not folded at the last round. -/
theorem sumcheck_rounds {logLen : ℕ} (hhigh : logLen < 32) {claim : Option (List QM31)}
    {start weights : WeightAccumulator} {ops : List WeightOp} (hclaim : ∀ z ∈ claim, ∀ x ∈ z, x.Canonical)
    (hstart : WeightAccumulator.fromClaim logLen claim = some start) (hops : ∀ op ∈ ops, op.Canonical)
    (hbuild : ops.foldlM (fun weights op => op.apply weights) start = .ok weights) {values : List QM31}
    (hvalues : ∀ v ∈ values, v.Canonical) (hlen : values.length = 2 ^ logLen) {challenges : List QM31}
    (hchallenges : ∀ alpha ∈ challenges, alpha.Canonical) (hround : 2 * challenges.length + 2 ≤ logLen) :
    ∃ folded polynomial, challenges.foldlM (fun weights alpha => weights.fold alpha) weights = some folded ∧
      folded.logLen = logLen - 2 * challenges.length ∧
      polynomialForExtension (challenges.foldl (fun values alpha => foldAdjacentNaturalArity4 alpha values) values) folded =
        some polynomial ∧
      folded.dot (challenges.foldl (fun values alpha => foldAdjacentNaturalArity4 alpha values) values) =
        some (boundarySum polynomial) ∧
      ∀ alpha : QM31, alpha.Canonical → (weights.hasDeferred = true → folded.logLen ≠ 2) →
        ∃ next, folded.fold alpha = some next ∧
          next.dot ((challenges ++ [alpha]).foldl (fun values alpha => foldAdjacentNaturalArity4 alpha values) values) =
            some (evaluate polynomial alpha) := by
  have hfirst := fromClaim_extends hhigh hclaim hstart
  have hbuilt := build_extends hfirst.shape hops hbuild
  have hat : AtRound logLen weights values := ⟨hbuilt.shape, hvalues, hlen, hbuilt.logLen.trans hfirst.logLen⟩
  obtain ⟨folded, hrun, hfolded, hdeferred⟩ := hat.run hchallenges hround
  obtain ⟨polynomial, hpolynomial, hboundary, hvalue⟩ := hfolded.round (by omega)
  refine ⟨folded, polynomial, hrun, hfolded.logLen, hpolynomial, hboundary, fun alpha halpha hlast => ?_⟩
  rw [hfolded.logLen] at hlast
  rw [List.foldl_append]
  exact hvalue alpha halpha (by rw [hdeferred]; exact hlast)

theorem sumcheck_rounds_sixteen :
    ∃ start weights folded polynomial, WeightAccumulator.fromClaim 4 none = some start ∧
      [WeightOp.geometric QM31.one QM31.one, .lineM31Batch [QM31.one] [M31.one]].foldlM
        (fun weights op => op.apply weights) start = .ok weights ∧
      [QM31.one].foldlM (fun weights alpha => WeightAccumulator.fold weights alpha) weights = some folded ∧
      folded.dot ([QM31.one].foldl (fun values alpha => foldAdjacentNaturalArity4 alpha values)
        (List.replicate 16 QM31.one)) = some (boundarySum polynomial) := by
  have hone := QM31.denotes_one.canonical
  obtain ⟨folded, polynomial, hfold, _, _, hdot, _⟩ := @sumcheck_rounds 4 (by decide) none _ _
    [.geometric QM31.one QM31.one, .lineM31Batch [QM31.one] [M31.one]] (by simp) rfl
    (by simp [WeightOp.Canonical, hone, M31.denotes_one.canonical]) rfl (List.replicate 16 QM31.one) (by simp [hone])
    (by simp) [QM31.one] (by simp [hone]) (by simp)
  exact ⟨_, _, folded, polynomial, rfl, rfl, hfold, hdot⟩

/-- A deferred table of 1024 weights folds four times to four weights; its fifth fold is the branch that is declared
unreachable. -/
theorem deferred_last_fold :
    (((WeightAccumulator.empty 10).addGrouped64x16BinaryMasksDeferred (Vector.replicate 64 1)).toOption.bind fun weights =>
      [QM31.zero, QM31.zero, QM31.zero, QM31.zero].foldlM (fun weights alpha => WeightAccumulator.fold weights alpha)
        weights).map (fun folded => (folded.logLen, folded.fold QM31.one)) = some (2, none) := by
  decide +kernel

end Aspis.Core
