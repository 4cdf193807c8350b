import Aspis.Core.WeightShape

/-! The accumulator as one covector: every weight is returned, the fold of the accumulator is the dual
fold of the covector, and the round polynomial carries the inner product of two rounds. -/

namespace Aspis.Core

open Aspis.Lib.DualFold Aspis.Lib.Accumulate

/-! ### Covectors -/

/-- The covector of a component, as its weights give it. -/
def WeightComponent.covector (logLen : ℕ) (component : WeightComponent) (i : ℕ) : QuarticField :=
  ((component.weightAt logLen i).getD QM31.zero).value

theorem Represents.covector_eq {logLen : ℕ} {component : WeightComponent} {w : ℕ → QuarticField}
    (h : Represents logLen component w) {i : ℕ} (hi : i < 2 ^ logLen) : component.covector logLen i = w i := by
  obtain ⟨q, hq, hd⟩ := h i hi
  rw [WeightComponent.covector, hq]
  exact hd.value_eq

theorem WeightComponent.Shape.covector {logLen : ℕ} {component : WeightComponent} (hL : logLen < 32)
    (h : component.Shape logLen) : Represents logLen component (component.covector logLen) := by
  obtain ⟨w, hw⟩ := h.represents hL
  exact hw.congr fun i hi => (hw.covector_eq hi).symm

namespace WeightAccumulator

structure Shape (weights : WeightAccumulator) : Prop where
  small : weights.logLen < 32
  components : ∀ component ∈ weights.components, component.Shape weights.logLen

def hasDeferred (self : WeightAccumulator) : Bool := self.components.any WeightComponent.isDeferred

def covector (self : WeightAccumulator) (i : ℕ) : QuarticField :=
  (self.components.map fun component => component.covector self.logLen i).sum

variable {self : WeightAccumulator}

theorem weightAt_denotes (h : self.Shape) {i : ℕ} (hi : i < 2 ^ self.logLen) :
    ∃ q, self.weightAt i = some q ∧ q.Denotes (self.covector i) := by
  have hsum := @foldlM_accumulates _ _ _ _ QM31.Denotes (fun total component => do
    let value ← component.weightAt self.logLen i
    return total.add value) (fun component => component.covector self.logLen i) self.components ?_ QM31.zero 0
    QM31.denotes_zero
  · rw [zero_add] at hsum
    exact hsum
  · intro component hcomponent x v hx
    obtain ⟨value, hvalue, hd⟩ := (h.components component hcomponent).covector h.small i hi
    refine ⟨x.add value, ?_, hx.add hd⟩
    rw [hvalue]
    rfl

theorem challenge_of_fold {alpha : QM31} {a : QuarticField} (h : alpha.Denotes a) :
    Challenge a alpha alpha.square ((PreparedQm31Multiplier.new alpha).mul alpha.square) := by
  have hsquare := h.square
  have hcube := prepared_mul_denotes h hsquare
  rw [← pow_two] at hsquare
  rw [← pow_two, ← pow_succ'] at hcube
  exact ⟨h, hsquare, hcube⟩

/-- The sum of the covectors folds term by term. -/
theorem sum_folded {logLen : ℕ} {a : QuarticField} {components folded : List WeightComponent}
    (hhigh : logLen < 32) (hshape : ∀ component ∈ components, component.Shape logLen)
    (h : List.Forall₂ (FoldsTo logLen a) components folded) {j : ℕ} (hj : j < 2 ^ (logLen - 2)) :
    (folded.map fun component => component.covector (logLen - 2) j).sum =
      foldWeights a (fun i => (components.map fun component => component.covector logLen i).sum) j := by
  induction h with
  | nil =>
    simp only [List.map_nil, List.sum_nil]
    rw [foldWeights_zero]
  | cons hfold _ ih =>
    rename_i component next components rest _
    have hrest := ih fun c hc => hshape c (List.mem_cons_of_mem component hc)
    have hfirst := (hfold.weights _ ((hshape component List.mem_cons_self).covector hhigh)).covector_eq hj
    simp only [List.map_cons, List.sum_cons]
    rw [foldWeights_add, hrest, hfirst]

/-- The fold of an accumulator is the dual fold of its covector. -/
theorem Shape.fold_denotes (h : self.Shape) (hlow : 2 ≤ self.logLen) (hlast : self.hasDeferred = true → self.logLen ≠ 2)
    {alpha : QM31} {a : QuarticField} (ha : alpha.Denotes a) :
    ∃ folded, self.fold alpha = some folded ∧ folded.Shape ∧ folded.logLen = self.logLen - 2 ∧
      folded.hasDeferred = self.hasDeferred ∧
      ∀ j < 2 ^ (self.logLen - 2), folded.covector j = foldWeights a self.covector j := by
  have hchallenge := challenge_of_fold ha
  have hstep : ∀ component ∈ self.components, ∃ folded, foldComponentArity4 component self.logLen alpha alpha.square
      ((PreparedQm31Multiplier.new alpha).mul alpha.square) (.new alpha) (.new alpha.square) = some folded ∧
      FoldsTo self.logLen a component folded := by
    intro component hcomponent
    refine (h.components component hcomponent).fold hlow h.small (fun hdeferred => hlast ?_) hchallenge
    exact List.any_eq_true.mpr ⟨component, hcomponent, hdeferred⟩
  obtain ⟨folded, hfolded, hrelated⟩ := mapM_related hstep
  refine ⟨⟨self.logLen - 2, folded⟩, ?_, ⟨by have := h.small; dsimp only; omega, ?_⟩, rfl, ?_, ?_⟩
  · rw [WeightAccumulator.fold, if_neg (by omega)]
    dsimp only
    rw [hfolded]
    rfl
  · intro component hcomponent
    obtain ⟨i, hi, hget⟩ := List.getElem_of_mem hcomponent
    have hpair := hrelated.get (i := i) (by rw [hrelated.length_eq]; exact hi) hi
    rw [List.get_eq_getElem, List.get_eq_getElem, hget] at hpair
    exact hpair.shape
  · have hany : ∀ {l l' : List WeightComponent}, List.Forall₂ (FoldsTo self.logLen a) l l' →
        l'.any WeightComponent.isDeferred = l.any WeightComponent.isDeferred := by
      intro l l' hl
      induction hl with
      | nil => rfl
      | cons hfold _ ih => rw [List.any_cons, List.any_cons, ih, hfold.deferred]
    exact hany hrelated
  · intro j hj
    exact sum_folded h.small h.components hrelated hj

end WeightAccumulator

end Aspis.Core
