import Aspis.Core.WeightForms

/-! The tables of weights: dense covectors and the grouped ones, whose rows share their entries. -/

namespace Aspis.Core

open Aspis.Lib.DualFold

/-! ### Dense covectors -/

/-- The weight at a position of a list. -/
def entryAt (values : List QM31) (i : ℕ) : QuarticField := (values.getD i QM31.zero).value

theorem getElem?_entryAt {values : List QM31} (h : ∀ v ∈ values, v.Canonical) {i : ℕ} (hi : i < values.length) :
    ∃ q, values[i]? = some q ∧ q.Denotes (entryAt values i) := by
  refine ⟨values[i], List.getElem?_eq_getElem hi, ?_⟩
  rw [entryAt, List.getD_eq_getElem?_getD, List.getElem?_eq_getElem hi]
  exact (h _ (List.getElem_mem hi)).denotes

theorem dense_represents {values : List QM31} {logLen : ℕ} (h : ∀ v ∈ values, v.Canonical)
    (hlen : values.length = 2 ^ logLen) : Represents logLen (.dense values) (entryAt values) := by
  intro i hi
  exact getElem?_entryAt h (by omega)

theorem length_foldChunks (alpha alpha2 alpha3 : QM31) (values : List QM31) :
    (foldChunks alpha alpha2 alpha3 values).length = values.length / 4 := by
  fun_induction foldChunks alpha alpha2 alpha3 values with
  | case1 v0 v1 v2 v3 rest ih =>
    rw [List.length_cons, ih]
    simp only [List.length_cons]
    omega
  | case2 values h =>
    have hshort : values.length < 4 := by
      by_contra hge
      match values, hge with
      | v0 :: v1 :: v2 :: v3 :: rest, _ => exact h v0 v1 v2 v3 rest rfl
      | [], hge => exact hge (by simp)
      | [_], hge => exact hge (by simp)
      | [_, _], hge => exact hge (by simp)
      | [_, _, _], hge => exact hge (by simp)
    rw [List.length_nil]
    omega

theorem foldChunks_denotes {a : QuarticField} {alpha alpha2 alpha3 : QM31} (ha : Challenge a alpha alpha2 alpha3) :
    ∀ {values : List QM31}, (∀ v ∈ values, v.Canonical) → ∀ j, 4 * j + 3 < values.length →
      ∃ q, (foldChunks alpha alpha2 alpha3 values)[j]? = some q ∧ q.Denotes (foldWeights a (entryAt values) j) := by
  intro values
  fun_induction foldChunks alpha alpha2 alpha3 values with
  | case1 v0 v1 v2 v3 rest ih =>
    intro h j hj
    have h0 := h v0 (by simp)
    have h1 := h v1 (by simp)
    have h2 := h v2 (by simp)
    have h3 := h v3 (by simp)
    cases j with
    | zero =>
      exact ⟨_, rfl, denotes_quarter (((h0.denotes.add (ha.three.mul h1.denotes)).add (ha.two.mul h2.denotes)).add
        (ha.one.mul h3.denotes))⟩
    | succ j =>
      simp only [List.length_cons] at hj
      obtain ⟨q, hq, hd⟩ := ih (fun v hv => h v (by simp [hv])) j (by omega)
      refine ⟨q, hq, ?_⟩
      have hshift : ∀ k, entryAt (v0 :: v1 :: v2 :: v3 :: rest) (4 * (j + 1) + k) = entryAt rest (4 * j + k) := by
        intro k
        rw [show 4 * (j + 1) + k = 4 * j + k + 4 by omega]
        rfl
      have h0 := hshift 0
      rw [Nat.add_zero, Nat.add_zero] at h0
      rw [foldWeights, h0, hshift, hshift, hshift]
      exact hd
  | case2 values hshort =>
    intro _ j hj
    obtain _ | ⟨v0, _ | ⟨v1, _ | ⟨v2, _ | ⟨v3, rest⟩⟩⟩⟩ := values
    case cons.cons.cons.cons => exact absurd rfl (hshort v0 v1 v2 v3 rest)
    all_goals exact absurd hj (by simp)

theorem foldChunks_canonical {a : QuarticField} {alpha alpha2 alpha3 : QM31} (ha : Challenge a alpha alpha2 alpha3)
    {values : List QM31} (h : ∀ v ∈ values, v.Canonical) :
    ∀ v ∈ foldChunks alpha alpha2 alpha3 values, v.Canonical := by
  intro v hv
  obtain ⟨j, hj, hget⟩ := List.getElem_of_mem hv
  rw [length_foldChunks] at hj
  obtain ⟨q, hq, hd⟩ := foldChunks_denotes ha h j (by omega)
  rw [List.getElem?_eq_getElem (by rw [length_foldChunks]; exact hj), hget] at hq
  cases hq
  exact hd.canonical

/-- The entries of a folded list are the dual fold of the entries. -/
theorem entryAt_foldChunks {a : QuarticField} {alpha alpha2 alpha3 : QM31} (ha : Challenge a alpha alpha2 alpha3)
    {values : List QM31} (h : ∀ v ∈ values, v.Canonical) {j : ℕ} (hj : 4 * j + 3 < values.length) :
    entryAt (foldChunks alpha alpha2 alpha3 values) j = foldWeights a (entryAt values) j := by
  obtain ⟨q, hq, hd⟩ := foldChunks_denotes ha h j hj
  rw [entryAt, List.getD_eq_getElem?_getD, hq]
  exact hd.value_eq

theorem dense_fold {values : List QM31} {logLen : ℕ} {a : QuarticField} {alpha alpha2 alpha3 : QM31}
    (h : ∀ v ∈ values, v.Canonical) (hlen : values.length = 2 ^ logLen) (hL : 2 ≤ logLen)
    (ha : Challenge a alpha alpha2 alpha3) :
    (∀ v ∈ foldChunks alpha alpha2 alpha3 values, v.Canonical) ∧
      (foldChunks alpha alpha2 alpha3 values).length = 2 ^ (logLen - 2) ∧
      Represents (logLen - 2) (.dense (foldChunks alpha alpha2 alpha3 values)) (foldWeights a (entryAt values)) := by
  have hpow := four_mul_two_pow hL
  have hlength : (foldChunks alpha alpha2 alpha3 values).length = 2 ^ (logLen - 2) := by
    rw [length_foldChunks]
    omega
  have hcanonical := foldChunks_canonical ha h
  refine ⟨hcanonical, hlength, (dense_represents hcanonical hlength).congr ?_⟩
  intro j hj
  exact entryAt_foldChunks ha h (by omega)

/-! ### Grouped tables -/

/-- A table of rows of equal width, some of them shared. -/
def tableWeight (rowGroups : List ℕ) (groupValues : List QM31) (width : ℕ) : ℕ → QuarticField :=
  rows (fun row low => entryAt groupValues (rowGroups.getD row 0 * width + low)) width

/-- The rows are in the table. -/
structure TableShape (rowBits width : ℕ) (rowGroups : List ℕ) (groupValues : List QM31) : Prop where
  canonical : ∀ v ∈ groupValues, v.Canonical
  rows : rowGroups.length = 2 ^ rowBits
  inside : ∀ group ∈ rowGroups, (group + 1) * width ≤ groupValues.length

theorem getElem?_getD {β : Type} {l : List β} {i : ℕ} (h : i < l.length) (d : β) :
    l[i]? = some (l.getD i d) ∧ l.getD i d ∈ l := by
  have hget : l.getD i d = l[i] := by
    rw [List.getD_eq_getElem?_getD, List.getElem?_eq_getElem h]
    rfl
  rw [hget]
  exact ⟨List.getElem?_eq_getElem h, List.getElem_mem h⟩

theorem groupedWeightAt_denotes {rowBits k : ℕ} {rowGroups : List ℕ} {groupValues : List QM31}
    (h : TableShape rowBits (2 ^ k) rowGroups groupValues) {i : ℕ} (hi : i < 2 ^ (rowBits + k)) :
    ∃ q, groupedWeightAt rowGroups groupValues (2 ^ k) i = some q ∧
      q.Denotes (tableWeight rowGroups groupValues (2 ^ k) i) := by
  have hpos : 0 < 2 ^ k := by positivity
  have hrow : i / 2 ^ k < rowGroups.length := by
    rw [h.rows, Nat.div_lt_iff_lt_mul hpos, ← pow_add]
    exact hi
  obtain ⟨hget, hmem⟩ := getElem?_getD hrow 0
  have hinside := h.inside _ hmem
  have hlow : i % 2 ^ k < 2 ^ k := Nat.mod_lt _ hpos
  have hentry : rowGroups.getD (i / 2 ^ k) 0 * 2 ^ k + i % 2 ^ k < groupValues.length := by
    rw [Nat.add_mul, Nat.one_mul] at hinside
    omega
  obtain ⟨q, hq, hd⟩ := getElem?_entryAt h.canonical hentry
  refine ⟨q, ?_, hd⟩
  rw [groupedWeightAt, hget, Nat.and_two_pow_sub_one_eq_mod]
  exact hq

/-- The fold of a table folds the entries it holds. -/
theorem foldWeights_tableWeight (a : QuarticField) (rowGroups : List ℕ) (groupValues : List QM31) (m : ℕ) :
    foldWeights a (tableWeight rowGroups groupValues (4 * m)) =
      rows (fun row low => foldWeights a (entryAt groupValues) (rowGroups.getD row 0 * m + low)) m := by
  rw [tableWeight, foldWeights_rows]
  congr 1
  funext row low
  have hscale : rowGroups.getD row 0 * (4 * m) = 4 * (rowGroups.getD row 0 * m) := by ring
  rw [hscale]
  exact foldWeights_shift a _ _ _

/-- The first fold keeps the rows and folds what they hold. -/
theorem grouped_fold_wide {table : List ℕ → List QM31 → ℕ → WeightComponent} {rowBits : ℕ} {rowGroups : List ℕ}
    {groupValues : List QM31} {a : QuarticField} {alpha alpha2 alpha3 : QM31}
    (hweight : ∀ logLen i rowGroups groupValues lowWidth, (table rowGroups groupValues lowWidth).weightAt logLen i =
      groupedWeightAt rowGroups groupValues lowWidth i)
    (h : TableShape rowBits 16 rowGroups groupValues) (ha : Challenge a alpha alpha2 alpha3) :
    TableShape rowBits 4 rowGroups (foldChunks alpha alpha2 alpha3 groupValues) ∧
      Represents (rowBits + 2) (table rowGroups (foldChunks alpha alpha2 alpha3 groupValues) 4)
        (foldWeights a (tableWeight rowGroups groupValues 16)) := by
  have hshape : TableShape rowBits 4 rowGroups (foldChunks alpha alpha2 alpha3 groupValues) := by
    refine ⟨foldChunks_canonical ha h.canonical, h.rows, ?_⟩
    intro group hgroup
    have hinside := h.inside group hgroup
    rw [length_foldChunks]
    omega
  refine ⟨hshape, ?_⟩
  intro j hj
  obtain ⟨q, hq, hd⟩ := @groupedWeightAt_denotes rowBits 2 _ _ hshape j hj
  refine ⟨q, ?_, ?_⟩
  · rw [hweight]
    exact hq
  · have hrow : j / 4 < rowGroups.length := by
      rw [h.rows]
      rw [pow_add] at hj
      omega
    have hinside := h.inside _ (getElem?_getD hrow 0).2
    have hfold : foldWeights a (tableWeight rowGroups groupValues 16) j =
        foldWeights a (entryAt groupValues) (rowGroups.getD (j / 4) 0 * 4 + j % 4) :=
      congrFun (foldWeights_tableWeight a rowGroups groupValues 4) j
    rw [hfold, ← entryAt_foldChunks ha h.canonical (by omega)]
    exact hd

/-- The second fold leaves one weight a row, and lays them out. -/
theorem grouped_fold_narrow {rowBits : ℕ} {rowGroups : List ℕ} {groupValues : List QM31} {a : QuarticField}
    {alpha alpha2 alpha3 : QM31} (h : TableShape rowBits 4 rowGroups groupValues) (ha : Challenge a alpha alpha2 alpha3) :
    ∃ values, (rowGroups.mapM fun group => (foldChunks alpha alpha2 alpha3 groupValues)[group]?) = some values ∧
      (∀ v ∈ values, v.Canonical) ∧ values.length = 2 ^ rowBits ∧
      Represents rowBits (.dense values) (foldWeights a (tableWeight rowGroups groupValues 4)) := by
  have hstep : ∀ group ∈ rowGroups, ∃ value, (foldChunks alpha alpha2 alpha3 groupValues)[group]? = some value ∧
      value.Denotes (foldWeights a (entryAt groupValues) group) := by
    intro group hgroup
    have hinside := h.inside group hgroup
    exact foldChunks_denotes ha h.canonical group (by omega)
  obtain ⟨values, hvalues, hrelated⟩ := mapM_related hstep
  have hget : ∀ (j : ℕ) (hj : j < values.length), (values[j]).Denotes
      (foldWeights a (entryAt groupValues) (rowGroups.getD j 0)) := by
    intro j hj
    have hrow : j < rowGroups.length := by rw [hrelated.length_eq]; exact hj
    have hpair := hrelated.get (i := j) hrow hj
    rw [List.getD_eq_getElem?_getD, List.getElem?_eq_getElem hrow]
    exact hpair
  have hlen : values.length = 2 ^ rowBits := by rw [← hrelated.length_eq, h.rows]
  refine ⟨values, hvalues, ?_, hlen, ?_⟩
  · intro v hv
    obtain ⟨j, hj, hvj⟩ := List.getElem_of_mem hv
    rw [← hvj]
    exact (hget j hj).canonical
  · intro j hj
    have hfold : foldWeights a (tableWeight rowGroups groupValues 4) j =
        foldWeights a (entryAt groupValues) (rowGroups.getD (j / 1) 0 * 1 + j % 1) :=
      congrFun (foldWeights_tableWeight a rowGroups groupValues 1) j
    rw [Nat.div_one, Nat.mod_one, Nat.mul_one, Nat.add_zero] at hfold
    rw [hfold]
    exact ⟨values[j], List.getElem?_eq_getElem _, hget j (by omega)⟩

end Aspis.Core
