import Aspis.Core.WeightMasks

/-! The shapes that the constructors give and the folds keep. A component of the right shape returns
every weight, and its fold is the dual fold of its covector; a deferred table is folded down to four
weights and no further. -/

namespace Aspis.Core

open Aspis.Lib.DualFold

def WeightComponent.isDeferred : WeightComponent → Bool
  | .grouped64x16BinaryDeferred _ _ _ _ => true
  | _ => false

/-- The stages of a deferred table: masks, masks with the first challenge, and one weight a row. -/
def DeferredShape (logLen : ℕ) (rowGroups : List ℕ) (groupMasks : List UInt16) (firstAlpha : Option QM31)
    (groupValues : List QM31) : Prop :=
  (logLen = 10 ∧ firstAlpha = none ∧ MaskShape rowGroups groupMasks) ∨
  (logLen = 8 ∧ (∃ alpha, firstAlpha = some alpha ∧ alpha.Canonical) ∧ MaskShape rowGroups groupMasks) ∨
  ((logLen = 2 ∨ logLen = 4 ∨ logLen = 6) ∧ firstAlpha = none ∧ TableShape logLen 1 rowGroups groupValues)

/-- The component holds canonical values, as many as the length asks for. -/
def WeightComponent.Shape (logLen : ℕ) : WeightComponent → Prop
  | .geometric scale base => scale.Canonical ∧ base.Canonical
  | .multilinear scale point => scale.Canonical ∧ (∀ z ∈ point, z.Canonical) ∧ point.length = logLen
  | .tensor scale factors => scale.Canonical ∧ (∀ z ∈ factors, z.Canonical) ∧ factors.length = logLen
  | .lineM31Tensor scale x => scale.Canonical ∧ x.Canonical
  | .lineM31Batch scales xs _ => (∀ line ∈ scales.zip xs, CanonicalLine line) ∧ scales.length = xs.length
  | .product scale pairs =>
    scale.Canonical ∧ (∀ pair ∈ pairs, pair.1.Canonical ∧ pair.2.Canonical) ∧ pairs.length = logLen
  | .dense values => (∀ v ∈ values, v.Canonical) ∧ values.length = 2 ^ logLen
  | .grouped64x16 rowGroups groupValues lowWidth =>
    (logLen = 10 ∧ lowWidth = 16 ∨ logLen = 8 ∧ lowWidth = 4) ∧ TableShape 6 lowWidth rowGroups groupValues
  | .grouped64x16BinaryDeferred rowGroups groupMasks firstAlpha groupValues =>
    DeferredShape logLen rowGroups groupMasks firstAlpha groupValues
  | .grouped128x16 rowGroups groupValues lowWidth =>
    (logLen = 11 ∧ lowWidth = 16 ∨ logLen = 9 ∧ lowWidth = 4) ∧ TableShape 7 lowWidth rowGroups groupValues

theorem table_represents {table : List ℕ → List QM31 → ℕ → WeightComponent} {rowBits k : ℕ} {rowGroups : List ℕ}
    {groupValues : List QM31}
    (hweight : ∀ logLen i rowGroups groupValues lowWidth, (table rowGroups groupValues lowWidth).weightAt logLen i =
      groupedWeightAt rowGroups groupValues lowWidth i)
    (h : TableShape rowBits (2 ^ k) rowGroups groupValues) :
    Represents (rowBits + k) (table rowGroups groupValues (2 ^ k)) (tableWeight rowGroups groupValues (2 ^ k)) := by
  intro i hi
  obtain ⟨q, hq, hd⟩ := groupedWeightAt_denotes h hi
  exact ⟨q, by rw [hweight]; exact hq, hd⟩

/-- A component of the right shape stands for a covector. -/
theorem WeightComponent.Shape.represents {logLen : ℕ} {component : WeightComponent} (hL : logLen < 32)
    (h : component.Shape logLen) : ∃ w, Represents logLen component w := by
  cases component with
  | geometric scale base => exact ⟨_, geometric_represents h.1 h.2 hL⟩
  | multilinear scale point =>
    obtain ⟨hs, hp, rfl⟩ := h
    exact ⟨_, multilinear_represents hs hp⟩
  | tensor scale factors =>
    obtain ⟨hs, hf, rfl⟩ := h
    exact ⟨_, tensor_represents hs hf⟩
  | lineM31Tensor scale x => exact ⟨_, lineM31Tensor_represents h.1 h.2⟩
  | lineM31Batch scales xs halvings => exact ⟨_, lineM31Batch_represents h.1⟩
  | product scale pairs =>
    obtain ⟨hs, hp, rfl⟩ := h
    exact ⟨_, product_represents hs hp⟩
  | dense values => exact ⟨_, dense_represents h.1 h.2⟩
  | grouped64x16 rowGroups groupValues lowWidth =>
    obtain ⟨⟨rfl, rfl⟩ | ⟨rfl, rfl⟩, htable⟩ := h
    · exact ⟨_, @table_represents .grouped64x16 6 4 _ _ (fun _ _ _ _ _ => rfl) htable⟩
    · exact ⟨_, @table_represents .grouped64x16 6 2 _ _ (fun _ _ _ _ _ => rfl) htable⟩
  | grouped64x16BinaryDeferred rowGroups groupMasks firstAlpha groupValues =>
    rcases h with ⟨rfl, rfl, hmasks⟩ | ⟨rfl, ⟨alpha, rfl, ha⟩, hmasks⟩ | ⟨hL, rfl, htable⟩
    · exact ⟨_, deferred_masks_represents hmasks⟩
    · exact ⟨_, deferred_kept_represents hmasks ha.denotes⟩
    · exact ⟨_, deferred_rows_represents hL htable⟩
  | grouped128x16 rowGroups groupValues lowWidth =>
    obtain ⟨⟨rfl, rfl⟩ | ⟨rfl, rfl⟩, htable⟩ := h
    · exact ⟨_, @table_represents .grouped128x16 7 4 _ _ (fun _ _ _ _ _ => rfl) htable⟩
    · exact ⟨_, @table_represents .grouped128x16 7 2 _ _ (fun _ _ _ _ _ => rfl) htable⟩

/-- What the fold of a component keeps. -/
structure FoldsTo (logLen : ℕ) (a : QuarticField) (component folded : WeightComponent) : Prop where
  shape : folded.Shape (logLen - 2)
  deferred : folded.isDeferred = component.isDeferred
  weights : ∀ w, Represents logLen component w → Represents (logLen - 2) folded (foldWeights a w)

/-- A table of rows of sixteen, and the same table after its first fold. -/
theorem table_fold {table : List ℕ → List QM31 → ℕ → WeightComponent} {rowBits lowWidth logLen : ℕ} {rowGroups : List ℕ}
    {groupValues : List QM31} {a : QuarticField} {alpha alpha2 alpha3 : QM31}
    (hweight : ∀ logLen i rowGroups groupValues lowWidth, (table rowGroups groupValues lowWidth).weightAt logLen i =
      groupedWeightAt rowGroups groupValues lowWidth i)
    (hplain : ∀ rowGroups groupValues lowWidth, (table rowGroups groupValues lowWidth).isDeferred = false)
    (hshape : ∀ groupValues, TableShape rowBits 4 rowGroups groupValues →
      (table rowGroups groupValues 4).Shape (rowBits + 2))
    (hwidth : logLen = rowBits + 4 ∧ lowWidth = 16 ∨ logLen = rowBits + 2 ∧ lowWidth = 4)
    (h : TableShape rowBits lowWidth rowGroups groupValues) (ha : Challenge a alpha alpha2 alpha3) :
    ∃ folded, foldGroupedTable table rowGroups groupValues lowWidth alpha alpha2 alpha3 = some folded ∧
      FoldsTo logLen a (table rowGroups groupValues lowWidth) folded := by
  rcases hwidth with ⟨rfl, rfl⟩ | ⟨rfl, rfl⟩
  · obtain ⟨htable, hfold⟩ := grouped_fold_wide hweight h ha
    refine ⟨_, rfl, hshape _ htable, by rw [hplain, hplain], fun w hw => ?_⟩
    exact represents_fold (by omega) (@table_represents _ rowBits 4 _ _ hweight h) hfold hw
  · obtain ⟨values, hvalues, hcanonical, hlength, hfold⟩ := grouped_fold_narrow h ha
    refine ⟨.dense values, ?_, ⟨hcanonical, hlength⟩, by rw [hplain]; rfl, fun w hw => ?_⟩
    · rw [foldGroupedTable, if_neg (by decide), if_neg (by decide), hvalues]
      rfl
    · exact represents_fold (by omega) (@table_represents _ rowBits 2 _ _ hweight h) hfold hw

theorem deferred_fold {logLen : ℕ} {rowGroups : List ℕ} {groupMasks : List UInt16} {firstAlpha : Option QM31}
    {groupValues : List QM31} {a : QuarticField} {alpha alpha2 alpha3 : QM31} (hlast : logLen ≠ 2)
    (h : DeferredShape logLen rowGroups groupMasks firstAlpha groupValues) (ha : Challenge a alpha alpha2 alpha3) :
    ∃ folded, foldGrouped64BinaryDeferredArity4 rowGroups groupMasks firstAlpha groupValues logLen alpha alpha2 alpha3 =
        some folded ∧
      FoldsTo logLen a (.grouped64x16BinaryDeferred rowGroups groupMasks firstAlpha groupValues) folded := by
  rcases h with ⟨rfl, rfl, hmasks⟩ | ⟨rfl, ⟨alpha0, rfl, ha0⟩, hmasks⟩ | ⟨hL, rfl, htable⟩
  · refine ⟨_, rfl, Or.inr (Or.inl ⟨rfl, ⟨alpha, rfl, ha.one.canonical⟩, hmasks⟩), rfl, fun w hw => ?_⟩
    exact represents_fold (by decide) (deferred_masks_represents hmasks) (deferred_kept_represents hmasks ha.one) hw
  · obtain ⟨hrows, hfold⟩ := @deferred_kept_fold _ _ _ _ _ _ [] hmasks ha0.denotes ha.one
    refine ⟨_, rfl, Or.inr (Or.inr ⟨Or.inr (Or.inr rfl), rfl, hrows⟩), rfl, fun w hw => ?_⟩
    exact represents_fold (by decide) (deferred_kept_represents hmasks ha0.denotes) hfold hw
  · have hL' : logLen = 4 ∨ logLen = 6 := by omega
    obtain ⟨groups, values, hrows, hshape, hfold⟩ := @deferred_rows_fold _ groupMasks _ _ _ _ _ _ hL' htable ha
    refine ⟨.grouped64x16BinaryDeferred groups groupMasks none values, ?_, ?_, rfl, fun w hw => ?_⟩
    · rcases hL' with rfl | rfl
      · rw [foldGrouped64BinaryDeferredArity4, if_neg (by simp), hrows]
        rfl
      · rw [foldGrouped64BinaryDeferredArity4, if_neg (by simp), hrows]
        rfl
    · exact Or.inr (Or.inr ⟨by omega, rfl, hshape⟩)
    · exact represents_fold (by omega) (deferred_rows_represents hL htable) hfold hw

/-- The fold of a component of the right shape. -/
theorem WeightComponent.Shape.fold {logLen : ℕ} {component : WeightComponent} {a : QuarticField}
    {alpha alpha2 alpha3 : QM31} (hlow : 2 ≤ logLen) (hhigh : logLen < 32) (h : component.Shape logLen)
    (hlast : component.isDeferred = true → logLen ≠ 2) (ha : Challenge a alpha alpha2 alpha3) :
    ∃ folded, foldComponentArity4 component logLen alpha alpha2 alpha3 (.new alpha) (.new alpha2) = some folded ∧
      FoldsTo logLen a component folded := by
  cases component with
  | geometric scale base =>
    obtain ⟨scale', base', hfold, hs, hb, hrep⟩ := geometric_fold h.1 h.2 hhigh ha
    refine ⟨.geometric scale' base', by rw [foldComponentArity4, hfold], ⟨hs, hb⟩, rfl, fun w hw => ?_⟩
    exact represents_fold hlow (geometric_represents h.1 h.2 hhigh) hrep hw
  | multilinear scale point =>
    obtain ⟨hs, hp, rfl⟩ := h
    obtain ⟨scale', rest, hfold, hs', hrest, hlen, hrep⟩ := multilinear_fold hs hp hlow ha
    refine ⟨.multilinear scale' rest, hfold, ⟨hs', hrest, hlen⟩, rfl, fun w hw => ?_⟩
    exact represents_fold hlow (multilinear_represents hs hp) hrep hw
  | tensor scale factors =>
    obtain ⟨hs, hf, rfl⟩ := h
    obtain ⟨scale', rest, hfold, hs', hrest, hlen, hrep⟩ := tensor_fold hs hf hlow ha
    refine ⟨.tensor scale' rest, hfold, ⟨hs', hrest, hlen⟩, rfl, fun w hw => ?_⟩
    exact represents_fold hlow (tensor_represents hs hf) hrep hw
  | lineM31Tensor scale x =>
    obtain ⟨scale', x', hfold, hs, hx, hrep⟩ := lineM31Tensor_fold h.1 h.2 hlow ha
    refine ⟨.lineM31Tensor scale' x', hfold, ⟨hs, hx⟩, rfl, fun w hw => ?_⟩
    exact represents_fold hlow (lineM31Tensor_represents h.1 h.2) hrep hw
  | lineM31Batch scales xs halvings =>
    obtain ⟨folded, hfold, hlines, hrep⟩ := @lineM31Batch_fold _ _ halvings _ _ _ _ _ h.1 h.2 hlow ha
    refine ⟨_, hfold, ⟨?_, ?_⟩, rfl, fun w hw => ?_⟩
    · rw [zip_map_fst_map_snd]
      exact hlines
    · rw [List.length_map, List.length_map]
    · exact represents_fold hlow (lineM31Batch_represents h.1) hrep hw
  | product scale pairs =>
    obtain ⟨hs, hp, rfl⟩ := h
    obtain ⟨scale', rest, hfold, hs', hrest, hlen, hrep⟩ := product_fold hs hp hlow ha
    refine ⟨.product scale' rest, hfold, ⟨hs', hrest, hlen⟩, rfl, fun w hw => ?_⟩
    exact represents_fold hlow (product_represents hs hp) hrep hw
  | dense values =>
    obtain ⟨hcanonical, hlength, hrep⟩ := dense_fold h.1 h.2 hlow ha
    refine ⟨_, rfl, ⟨hcanonical, hlength⟩, rfl, fun w hw => ?_⟩
    exact represents_fold hlow (dense_represents h.1 h.2) hrep hw
  | grouped64x16 rowGroups groupValues lowWidth =>
    obtain ⟨hwidth, htable⟩ := h
    rw [foldComponentArity4, if_neg (by omega)]
    exact table_fold (fun _ _ _ _ _ => rfl) (fun _ _ _ => rfl) (fun _ hrows => ⟨Or.inr ⟨rfl, rfl⟩, hrows⟩) hwidth htable ha
  | grouped64x16BinaryDeferred rowGroups groupMasks firstAlpha groupValues => exact deferred_fold (hlast rfl) h ha
  | grouped128x16 rowGroups groupValues lowWidth =>
    obtain ⟨hwidth, htable⟩ := h
    rw [foldComponentArity4, if_neg (by omega)]
    exact table_fold (fun _ _ _ _ _ => rfl) (fun _ _ _ => rfl) (fun _ hrows => ⟨Or.inr ⟨rfl, rfl⟩, hrows⟩) hwidth htable ha

end Aspis.Core
