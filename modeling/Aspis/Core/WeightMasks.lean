import Aspis.Core.WeightTables

/-! The deferred table of binary rows. Its rows are masks of sixteen bits; the first two folds are
taken together, from the sum of the dual powers at the positions of a mask, and the later ones fold
four rows into one, each distinct tuple of rows once. -/

namespace Aspis.Core

open Aspis.Lib.DualFold Aspis.Lib.Accumulate
open scoped Widths

/-! ### Sums over a mask -/

/-- The bits of a mask as weights. -/
def bitWeight (mask : UInt16) (low : ℕ) : QuarticField := if mask.toNat.testBit low then 1 else 0

theorem sumSelected_denotes {n : ℕ} {bits : UInt16} {basis : Fin n → QM31} {v : Fin n → QuarticField}
    (h : ∀ k : Fin n, bits.toNat.testBit k.val = true → (basis k).Denotes (v k)) :
    (sumSelected bits basis).Denotes (∑ low : Fin n, bitWeight bits low.val * v low) := by
  have hstep : ∀ low ∈ List.finRange n, ∀ (x : QM31) (s : QuarticField), x.Denotes s →
      (if bits.toNat.testBit low.val then x.add (basis low) else x).Denotes (s + bitWeight bits low.val * v low) := by
    intro low _ x s hx
    by_cases hbit : bits.toNat.testBit low.val = true
    · rw [if_pos hbit, bitWeight, if_pos hbit, one_mul]
      exact hx.add (h low hbit)
    · rw [if_neg hbit, bitWeight, if_neg hbit, zero_mul, add_zero]
      exact hx
  have hfold := foldl_accumulates hstep QM31.denotes_zero
  rw [zero_add, ← Fin.sum_univ_def] at hfold
  exact hfold

theorem foldl_finRange_denotes {n : ℕ} {basis : Fin n → QM31} {v : Fin n → QuarticField}
    (h : ∀ k, (basis k).Denotes (v k)) :
    ((List.finRange n).foldl (fun sum low => sum.add (basis low)) QM31.zero).Denotes (∑ low, v low) := by
  have hpairs : List.Forall₂ QM31.Denotes ((List.finRange n).map basis) ((List.finRange n).map v) := by
    rw [List.forall₂_map_left_iff, List.forall₂_map_right_iff, List.forall₂_same]
    exact fun k _ => h k
  have hsum := foldl_add_denotes _ _ hpairs QM31.denotes_zero
  rw [zero_add, ← Fin.sum_univ_def, List.foldl_map] at hsum
  exact hsum

theorem dualPowers_denotes {a : QuarticField} {alpha alpha2 alpha3 : QM31} (ha : Challenge a alpha alpha2 alpha3)
    (slot : Fin 4) : (dualPowers alpha alpha2 alpha3 slot).Denotes (dualPower a slot) := by
  fin_cases slot
  · exact QM31.denotes_one
  · exact ha.three
  · exact ha.two
  · exact ha.one

/-- The powers of a canonical challenge, as the folds of the masks compute them. -/
theorem challenge_powers {alpha : QM31} {a : QuarticField} (h : alpha.Denotes a) :
    Challenge a alpha alpha.square (alpha.square.mul alpha) := by
  have hsquare := h.square
  have hcube := hsquare.mul h
  rw [← pow_two] at hsquare
  rw [← pow_two, ← pow_succ] at hcube
  exact ⟨h, hsquare, hcube⟩

/-- The bits of a chunk of a mask. -/
theorem bitWeight_shift (mask : UInt16) {c : ℕ} (hc : c < 4) {slot : ℕ} (hslot : slot < 4) :
    bitWeight ((mask >>> UInt16.ofNat (4 * c)) &&& 0x0f) slot = bitWeight mask (4 * c + slot) := by
  have hamount : (UInt16.ofNat (4 * c)).toNat % 16 = 4 * c := by
    rw [UInt16.toNat_ofNat']
    omega
  have hbit : ((mask >>> UInt16.ofNat (4 * c)) &&& 0x0f).toNat.testBit slot = mask.toNat.testBit (4 * c + slot) := by
    rw [UInt16.toNat_and, UInt16.toNat_shiftRight, hamount, Nat.testBit_and, Nat.testBit_shiftRight]
    have hlow : (0x0f : UInt16).toNat.testBit slot = true := by
      interval_cases slot <;> decide
    rw [hlow, Bool.and_true]
  rw [bitWeight, bitWeight, hbit]

/-- The complement has the other bits. -/
theorem testBit_not (mask : UInt16) {low : ℕ} (h : low < 16) :
    (~~~mask).toNat.testBit low = !mask.toNat.testBit low := by
  have hbits := @BitVec.getLsbD_not 16 low mask.toBitVec
  rw [decide_eq_true h, Bool.true_and] at hbits
  exact hbits

/-! ### The first two folds -/

/-- The positions that a mask takes from the basis. -/
def positions (mask : UInt16) : UInt16 := if 8 < countOnes mask then ~~~mask else mask

/-- The selection covers every mask, and asks for the total when one mask needs it. -/
theorem selectPositions_covers (groupMasks : List UInt16) :
    ∀ mask ∈ groupMasks, (∀ low, (positions mask).toNat.testBit low = true →
      (selectPositions groupMasks).1.toNat.testBit low = true) ∧
      (8 < countOnes mask → (selectPositions groupMasks).2 = true) := by
  have hmono : ∀ (l : List UInt16) (state : UInt16 × Bool),
      let out := l.foldl (fun state mask =>
        if 8 < countOnes mask then (state.1 ||| ~~~mask, true) else (state.1 ||| mask, state.2)) state
      (∀ low, state.1.toNat.testBit low = true → out.1.toNat.testBit low = true) ∧ (state.2 = true → out.2 = true) ∧
      ∀ mask ∈ l, (∀ low, (positions mask).toNat.testBit low = true → out.1.toNat.testBit low = true) ∧
        (8 < countOnes mask → out.2 = true) := by
    intro l
    induction l with
    | nil => exact fun state => ⟨fun _ h => h, fun h => h, fun mask hmask => nomatch hmask⟩
    | cons mask l ih =>
      intro state
      -- one step keeps what was selected and adds the positions of its mask
      have hstep : ∃ next : UInt16 × Bool, (if 8 < countOnes mask then (state.1 ||| ~~~mask, true)
          else (state.1 ||| mask, state.2)) = next ∧ next.1 = state.1 ||| positions mask ∧
          (state.2 = true → next.2 = true) ∧ (8 < countOnes mask → next.2 = true) := by
        by_cases hdense : 8 < countOnes mask
        · rw [if_pos hdense]
          exact ⟨_, rfl, by rw [positions, if_pos hdense], fun _ => rfl, fun _ => rfl⟩
        · rw [if_neg hdense]
          exact ⟨_, rfl, by rw [positions, if_neg hdense], fun h => h, fun h => absurd h hdense⟩
      obtain ⟨next, hnext, hselected, hkept, hneeded⟩ := hstep
      dsimp only
      rw [List.foldl_cons, hnext]
      obtain ⟨hbits, htotal, hrest⟩ := ih next
      have hor : ∀ low, next.1.toNat.testBit low = (state.1.toNat.testBit low || (positions mask).toNat.testBit low) := by
        intro low
        rw [hselected, UInt16.toNat_or, Nat.testBit_or]
      refine ⟨fun low h => hbits low ?_, fun h => htotal (hkept h), fun other hother => ?_⟩
      · rw [hor, h, Bool.true_or]
      · rcases List.mem_cons.mp hother with rfl | hmem
        · refine ⟨fun low h => hbits low ?_, fun h => htotal (hneeded h)⟩
          rw [hor, h, Bool.or_true]
        · exact hrest other hmem
  exact (hmono groupMasks (0, false)).2.2

/-- What a mask folds to. -/
def maskFold (a b : QuarticField) (mask : UInt16) : QuarticField := foldWeights b (foldWeights a (bitWeight mask)) 0

theorem maskFold_eq (a b : QuarticField) (mask : UInt16) :
    maskFold a b mask = (∑ low : Fin 16, bitWeight mask low.val * slotPower a b low) / 16 := foldWeights_twice a b _

/-- A sum over a mask is the total less the sum over its complement. -/
theorem sum_complement (a b : QuarticField) (mask : UInt16) :
    ∑ low : Fin 16, bitWeight mask low.val * slotPower a b low =
      ∑ low : Fin 16, slotPower a b low - ∑ low : Fin 16, bitWeight (~~~mask) low.val * slotPower a b low := by
  rw [← Finset.sum_sub_distrib]
  refine Finset.sum_congr rfl fun low _ => ?_
  rw [bitWeight, bitWeight, testBit_not mask low.isLt]
  cases mask.toNat.testBit low.val with
  | false => simp
  | true => simp

theorem denotes_sixteenth {x : QM31} {v : QuarticField} (h : x.Denotes v) : x.half.half.half.half.Denotes (v / 16) := by
  have hquarter := denotes_quarter (denotes_quarter h)
  rw [div_div] at hquarter
  norm_num at hquarter
  exact hquarter

/-- The entry of the basis for a position. -/
theorem basis_denotes {a b : QuarticField} {alpha0 alpha1 : QM31} (ha : alpha0.Denotes a) (hb : alpha1.Denotes b)
    (low : Fin 16) :
    (if highSlot low = 0 then dualPowers alpha0 alpha0.square (alpha0.square.mul alpha0) (lowSlot low)
      else if lowSlot low = 0 then dualPowers alpha1 alpha1.square (alpha1.square.mul alpha1) (highSlot low)
      else (dualPowers alpha1 alpha1.square (alpha1.square.mul alpha1) (highSlot low)).mul
        (dualPowers alpha0 alpha0.square (alpha0.square.mul alpha0) (lowSlot low))).Denotes (slotPower a b low) := by
  have hlow := dualPowers_denotes (challenge_powers ha) (lowSlot low)
  have hhigh := dualPowers_denotes (challenge_powers hb) (highSlot low)
  by_cases h0 : highSlot low = 0
  · rw [if_pos h0, slotPower, h0]
    have hone : dualPower b 0 * dualPower a (lowSlot low) = dualPower a (lowSlot low) := one_mul _
    rw [hone]
    exact hlow
  · rw [if_neg h0]
    by_cases h1 : lowSlot low = 0
    · rw [if_pos h1, slotPower, h1]
      have hone : dualPower b (highSlot low) * dualPower a 0 = dualPower b (highSlot low) := mul_one _
      rw [hone]
      exact hhigh
    · rw [if_neg h1]
      exact hhigh.mul hlow

theorem testBit_all {low : ℕ} (h : low < 16) : (0xffff : UInt16).toNat.testBit low = true := by
  interval_cases low <;> decide

/-- The value of one mask, from a basis that holds its positions. -/
theorem maskValue_denotes {a b : QuarticField} {basis : Fin 16 → QM31} {total : QM31} {mask : UInt16}
    (hbasis : ∀ low : Fin 16, (positions mask).toNat.testBit low.val = true → (basis low).Denotes (slotPower a b low))
    (htotal : 8 < countOnes mask → total.Denotes (∑ low, slotPower a b low)) :
    (if decide (8 < countOnes mask) then total.sub (sumSelected (if decide (8 < countOnes mask) then ~~~mask else mask) basis)
      else sumSelected (if decide (8 < countOnes mask) then ~~~mask else mask) basis).half.half.half.half.Denotes
      (maskFold a b mask) := by
  have hpart := sumSelected_denotes hbasis
  rw [maskFold_eq]
  apply denotes_sixteenth
  by_cases hdense : 8 < countOnes mask
  · rw [decide_eq_true hdense, if_pos rfl, if_pos rfl, sum_complement]
    rw [positions, if_pos hdense] at hpart
    exact (htotal hdense).sub hpart
  · rw [decide_eq_false hdense, if_neg Bool.false_ne_true, if_neg Bool.false_ne_true]
    rw [positions, if_neg hdense] at hpart
    exact hpart

/-- The two folds of the masks at once. -/
theorem foldBinaryLowMasks_denotes {a b : QuarticField} {alpha0 alpha1 : QM31} (ha : alpha0.Denotes a)
    (hb : alpha1.Denotes b) (groupMasks : List UInt16) :
    List.Forall₂ QM31.Denotes (foldBinaryLowMasks groupMasks alpha0 alpha1) (groupMasks.map (maskFold a b)) := by
  have hcovers := selectPositions_covers groupMasks
  have hbasis := basis_denotes ha hb
  have hsum0 := foldl_finRange_denotes (dualPowers_denotes (challenge_powers ha))
  have hsum1 := foldl_finRange_denotes (dualPowers_denotes (challenge_powers hb))
  unfold foldBinaryLowMasks
  rcases hselect : selectPositions groupMasks with ⟨selected, needsTotal⟩
  simp only [hselect] at hcovers
  dsimp only
  rw [List.forall₂_map_left_iff, List.forall₂_map_right_iff, List.forall₂_same]
  intro mask hmask
  obtain ⟨hcovered, hneeded⟩ := hcovers mask hmask
  by_cases hall : (needsTotal && decide (selected &&& CROSS_POSITIONS = CROSS_POSITIONS)) = true
  · -- every entry of the basis is there, and the total is their sum
    rw [hall]
    have hentry : ∀ low : Fin 16, (if (0xffff : UInt16).toNat.testBit low.val = true then
        (if highSlot low = 0 then dualPowers alpha0 alpha0.square (alpha0.square.mul alpha0) (lowSlot low)
          else if lowSlot low = 0 then dualPowers alpha1 alpha1.square (alpha1.square.mul alpha1) (highSlot low)
          else (dualPowers alpha1 alpha1.square (alpha1.square.mul alpha1) (highSlot low)).mul
            (dualPowers alpha0 alpha0.square (alpha0.square.mul alpha0) (lowSlot low)))
        else QM31.zero).Denotes (slotPower a b low) := by
      intro low
      rw [if_pos (testBit_all low.isLt)]
      exact hbasis low
    apply maskValue_denotes
    · exact fun low _ => hentry low
    · intro hdense
      rw [hneeded hdense, if_pos rfl, if_pos rfl]
      exact foldl_finRange_denotes hentry
  · rw [Bool.eq_false_of_not_eq_true hall]
    apply maskValue_denotes
    · intro low hlow
      rw [if_neg Bool.false_ne_true, if_pos (hcovered low hlow)]
      exact hbasis low
    · intro hdense
      rw [hneeded hdense, if_pos rfl, if_neg Bool.false_ne_true, sum_slotPower]
      exact hsum0.mul hsum1

/-! ### Folds of the rows -/

structure GroupEntry.Good (n : ℕ) (entry : GroupEntry) : Prop where
  coefficient : entry.coefficient.Canonical
  count : 1 ≤ entry.count
  inside : entry.group < n
  alone : entry.firstSlot = 0 → entry.count = 1 → entry.coefficient = QM31.one

/-- The sum that a list of entries stands for. -/
def entrySum (x : ℕ → QuarticField) (entries : List GroupEntry) : QuarticField :=
  (entries.map fun entry => entry.coefficient.value * x entry.group).sum

theorem entrySum_cons (x : ℕ → QuarticField) (entry : GroupEntry) (entries : List GroupEntry) :
    entrySum x (entry :: entries) = entry.coefficient.value * x entry.group + entrySum x entries := by
  rw [entrySum, List.map_cons, List.sum_cons]
  rfl

theorem collectGroup_good {n group slot : ℕ} {power : QM31} (hp : power.Canonical) (hg : group < n)
    (hone : slot = 0 → power = QM31.one) (x : ℕ → QuarticField) :
    ∀ {entries : List GroupEntry}, (∀ entry ∈ entries, entry.Good n) →
      (∀ entry ∈ collectGroup group power slot entries, entry.Good n) ∧
      entrySum x (collectGroup group power slot entries) = entrySum x entries + power.value * x group
  | [], _ => by
    constructor
    · intro entry hentry
      rw [collectGroup, List.mem_singleton] at hentry
      subst hentry
      exact ⟨hp, le_rfl, hg, fun h _ => hone h⟩
    · rw [collectGroup, entrySum_cons, add_comm]
  | entry :: rest, h => by
    have hentry := h entry List.mem_cons_self
    have hrest : ∀ other ∈ rest, other.Good n := fun other hother => h other (List.mem_cons_of_mem entry hother)
    by_cases hgroup : entry.group = group
    · rw [collectGroup, if_pos hgroup]
      have hsum := hentry.coefficient.denotes.add hp.denotes
      have hcount := hentry.count
      constructor
      · intro other hother
        rcases List.mem_cons.mp hother with rfl | hmem
        · -- an entry met again is no longer alone
          refine ⟨hsum.canonical, by dsimp only; omega, hg, fun _ hcontra => ?_⟩
          dsimp only at hcontra
          omega
        · exact hrest other hmem
      · rw [entrySum_cons, entrySum_cons, hsum.value_eq, hgroup]
        ring
    · rw [collectGroup, if_neg hgroup]
      obtain ⟨hgood, hsum⟩ := collectGroup_good hp hg hone x hrest
      constructor
      · intro other hother
        rcases List.mem_cons.mp hother with rfl | hmem
        · exact hentry
        · exact hgood other hmem
      · rw [entrySum_cons, entrySum_cons, hsum, add_assoc]

/-- The entries of a tuple stand for the sum over its slots. -/
theorem collect_slots {n : ℕ} {groups : Fin 4 → ℕ} {a : QuarticField} {alpha alpha2 alpha3 : QM31}
    (ha : Challenge a alpha alpha2 alpha3) (hgroups : ∀ slot, groups slot < n) (x : ℕ → QuarticField) :
    ∀ (l : List (Fin 4)) (entries : List GroupEntry), (∀ entry ∈ entries, entry.Good n) →
      (∀ entry ∈ l.foldl (fun entries slot =>
        collectGroup (groups slot) (dualPowers alpha alpha2 alpha3 slot) slot.val entries) entries, entry.Good n) ∧
      entrySum x (l.foldl (fun entries slot =>
        collectGroup (groups slot) (dualPowers alpha alpha2 alpha3 slot) slot.val entries) entries) =
        entrySum x entries + (l.map fun slot => dualPower a slot * x (groups slot)).sum
  | [], entries, h => by
    rw [List.map_nil, List.sum_nil, add_zero]
    exact ⟨h, rfl⟩
  | slot :: l, entries, h => by
    have hpower := dualPowers_denotes ha slot
    have hone : slot.val = 0 → dualPowers alpha alpha2 alpha3 slot = QM31.one := by
      intro hzero
      have hslot : slot = 0 := Fin.ext hzero
      rw [hslot]
      rfl
    obtain ⟨hgood, hsum⟩ := collectGroup_good hpower.canonical (hgroups slot) hone x h
    obtain ⟨hlast, htotal⟩ := collect_slots ha hgroups x l _ hgood
    refine ⟨hlast, ?_⟩
    rw [List.foldl_cons, htotal, hsum, hpower.value_eq, List.map_cons, List.sum_cons, add_assoc]

theorem entries_denotes {groupValues : List QM31} (hvalues : ∀ v ∈ groupValues, v.Canonical) {entries : List GroupEntry}
    (h : ∀ entry ∈ entries, entry.Good groupValues.length) :
    ∃ z, entries.foldlM (fun folded entry => do
      let value ← groupValues[entry.group]?
      let contribution := if entry.firstSlot = 0 ∧ entry.count = 1 then value else value.mul entry.coefficient
      return folded.add contribution) QM31.zero = some z ∧ z.Denotes (entrySum (entryAt groupValues) entries) := by
  have hfold := @foldlM_accumulates _ _ _ _ QM31.Denotes (fun folded entry => do
    let value ← groupValues[entry.group]?
    let contribution := if entry.firstSlot = 0 ∧ entry.count = 1 then value else value.mul entry.coefficient
    return folded.add contribution) (fun entry => entry.coefficient.value * entryAt groupValues entry.group) entries ?_
    QM31.zero 0 QM31.denotes_zero
  · rw [zero_add] at hfold
    exact hfold
  · intro entry hmem y s hy
    have hentry := h entry hmem
    obtain ⟨value, hget, hvalue⟩ := getElem?_entryAt hvalues hentry.inside
    have hcontribution : (if entry.firstSlot = 0 ∧ entry.count = 1 then value else value.mul entry.coefficient).Denotes
        (entry.coefficient.value * entryAt groupValues entry.group) := by
      by_cases halone : entry.firstSlot = 0 ∧ entry.count = 1
      · rw [if_pos halone, hentry.alone halone.1 halone.2, QM31.denotes_one.value_eq, one_mul]
        exact hvalue
      · rw [if_neg halone, mul_comm]
        exact hvalue.mul hentry.coefficient.denotes
    refine ⟨_, ?_, hy.add hcontribution⟩
    rw [hget]
    rfl

/-- What four groups fold to. -/
def tupleFold (a : QuarticField) (groupValues : List QM31) (groups : Fin 4 → ℕ) : QuarticField :=
  (∑ slot, dualPower a slot * entryAt groupValues (groups slot)) / 4

theorem foldGroupTuple_denotes {groupValues : List QM31} {groups : Fin 4 → ℕ} {a : QuarticField}
    {alpha alpha2 alpha3 : QM31} (ha : Challenge a alpha alpha2 alpha3) (hvalues : ∀ v ∈ groupValues, v.Canonical)
    (hgroups : ∀ slot, groups slot < groupValues.length) :
    ∃ q, foldGroupTuple groups groupValues alpha alpha2 alpha3 = some q ∧ q.Denotes (tupleFold a groupValues groups) := by
  obtain ⟨hgood, hsum⟩ := collect_slots ha hgroups (entryAt groupValues) (List.finRange 4) [] fun _ h => nomatch h
  obtain ⟨folded, hfold, hfolded⟩ := entries_denotes hvalues hgood
  refine ⟨folded.half.half, ?_, ?_⟩
  · rw [foldGroupTuple, hfold]
    rfl
  · have hzero : entrySum (entryAt groupValues) [] = 0 := rfl
    rw [hsum, hzero, zero_add, ← Fin.sum_univ_def] at hfolded
    exact denotes_quarter hfolded

/-- The groups of a chunk of four rows. -/
def tupleAt (rowGroups : List ℕ) (k : ℕ) : Fin 4 → ℕ := fun slot => rowGroups.getD (4 * k + slot.val) 0

theorem tupleAt_zero (g0 g1 g2 g3 : ℕ) (rest : List ℕ) : tupleAt (g0 :: g1 :: g2 :: g3 :: rest) 0 = ![g0, g1, g2, g3] := by
  funext slot
  fin_cases slot <;> rfl

theorem tupleAt_succ (g0 g1 g2 g3 : ℕ) (rest : List ℕ) (k : ℕ) :
    tupleAt (g0 :: g1 :: g2 :: g3 :: rest) (k + 1) = tupleAt rest k := by
  funext slot
  show (g0 :: g1 :: g2 :: g3 :: rest).getD (4 * (k + 1) + slot.val) 0 = rest.getD (4 * k + slot.val) 0
  rw [show 4 * (k + 1) + slot.val = 4 * k + slot.val + 4 by omega]
  rfl

/-- A group of the folded rows points at the fold of its chunk. -/
def PointsAt (a : QuarticField) (groupValues foldedValues : List QM31) (tuple : Fin 4 → ℕ) (group : ℕ) : Prop :=
  ∃ value, foldedValues[group]? = some value ∧ value.Denotes (tupleFold a groupValues tuple)

theorem foldGroupedRowsFrom_denotes {groupValues : List QM31} {a : QuarticField} {alpha alpha2 alpha3 : QM31}
    (ha : Challenge a alpha alpha2 alpha3) (hvalues : ∀ v ∈ groupValues, v.Canonical) :
    ∀ (rowGroups : List ℕ) (tuples : List (Fin 4 → ℕ)) (foldedGroups : List ℕ) (foldedValues : List QM31),
      (∀ group ∈ rowGroups, group < groupValues.length) → 4 * tuples.length + rowGroups.length ≤ 1024 →
      List.Forall₂ (fun tuple value => QM31.Denotes value (tupleFold a groupValues tuple)) tuples foldedValues →
      ∃ groups values, foldGroupedRowsFrom groupValues alpha alpha2 alpha3 rowGroups tuples foldedGroups foldedValues =
          some (foldedGroups ++ groups, foldedValues ++ values) ∧ (∀ v ∈ values, v.Canonical) ∧
        groups.length = rowGroups.length / 4 ∧
        ∀ k group, groups[k]? = some group → PointsAt a groupValues (foldedValues ++ values) (tupleAt rowGroups k) group
  | g0 :: g1 :: g2 :: g3 :: rest, tuples, foldedGroups, foldedValues, hinside, hbound, hfolded => by
    have hrest : ∀ group ∈ rest, group < groupValues.length := fun group hgroup => hinside group (by simp [hgroup])
    simp only [List.length_cons] at hbound
    by_cases hnew : tuples.idxOf ![g0, g1, g2, g3] = tuples.length
    · have hslots : ∀ slot, (![g0, g1, g2, g3] : Fin 4 → ℕ) slot < groupValues.length := by
        intro slot
        fin_cases slot
        · exact hinside g0 (by simp)
        · exact hinside g1 (by simp)
        · exact hinside g2 (by simp)
        · exact hinside g3 (by simp)
      obtain ⟨value, hvalue, hdenotes⟩ := foldGroupTuple_denotes ha hvalues hslots
      obtain ⟨groups, values, hfold, hcanonical, hlength, hpoints⟩ := foldGroupedRowsFrom_denotes ha hvalues rest
        (tuples ++ [![g0, g1, g2, g3]]) (foldedGroups ++ [tuples.length % 256]) (foldedValues ++ [value]) hrest
        (by rw [List.length_append, List.length_singleton]; omega) (List.rel_append hfolded (.cons hdenotes .nil))
      rw [List.append_assoc, List.append_assoc, List.singleton_append, List.singleton_append] at hfold
      refine ⟨tuples.length % 256 :: groups, value :: values, ?_, ?_, ?_, ?_⟩
      · rw [foldGroupedRowsFrom, if_pos hnew, hvalue, hnew]
        exact hfold
      · intro v hv
        rcases List.mem_cons.mp hv with rfl | hmem
        · exact hdenotes.canonical
        · exact hcanonical v hmem
      · simp only [List.length_cons]
        omega
      · intro k group hget
        cases k with
        | zero =>
          have hgroup : tuples.length % 256 = group := Option.some.inj hget
          have hindex : group = foldedValues.length := by
            rw [← hfolded.length_eq]
            omega
          rw [tupleAt_zero]
          refine ⟨value, ?_, hdenotes⟩
          rw [hindex, List.getElem?_append_right le_rfl, Nat.sub_self]
          rfl
        | succ k =>
          have hpoint := hpoints k group hget
          rw [List.append_assoc, List.singleton_append] at hpoint
          rw [tupleAt_succ]
          exact hpoint
    · have hlt : tuples.idxOf ![g0, g1, g2, g3] < tuples.length := lt_of_le_of_ne List.idxOf_le_length hnew
      obtain ⟨groups, values, hfold, hcanonical, hlength, hpoints⟩ := foldGroupedRowsFrom_denotes ha hvalues rest
        tuples (foldedGroups ++ [tuples.idxOf ![g0, g1, g2, g3] % 256]) foldedValues hrest (by omega) hfolded
      rw [List.append_assoc, List.singleton_append] at hfold
      refine ⟨tuples.idxOf ![g0, g1, g2, g3] % 256 :: groups, values, ?_, hcanonical, ?_, ?_⟩
      · rw [foldGroupedRowsFrom, if_neg hnew]
        exact hfold
      · simp only [List.length_cons]
        omega
      · intro k group hget
        cases k with
        | zero =>
          have hgroup : tuples.idxOf ![g0, g1, g2, g3] % 256 = group := Option.some.inj hget
          have hindex : group = tuples.idxOf ![g0, g1, g2, g3] := by omega
          have hlt' : tuples.idxOf ![g0, g1, g2, g3] < foldedValues.length := by
            rw [← hfolded.length_eq]
            exact hlt
          have hpair := hfolded.get (i := tuples.idxOf ![g0, g1, g2, g3]) hlt hlt'
          rw [List.get_eq_getElem, List.get_eq_getElem, List.getElem_idxOf hlt] at hpair
          rw [tupleAt_zero]
          refine ⟨foldedValues[tuples.idxOf ![g0, g1, g2, g3]], ?_, hpair⟩
          rw [hindex, List.getElem?_append_left hlt', List.getElem?_eq_getElem hlt']
        | succ k =>
          rw [tupleAt_succ]
          exact hpoints k group hget
  | [], _, foldedGroups, foldedValues, _, _, _ =>
    ⟨[], [], by rw [List.append_nil, List.append_nil]; rfl, by simp, by simp, by simp⟩
  | [_], _, foldedGroups, foldedValues, _, _, _ =>
    ⟨[], [], by rw [List.append_nil, List.append_nil]; rfl, by simp, by simp, by simp⟩
  | [_, _], _, foldedGroups, foldedValues, _, _, _ =>
    ⟨[], [], by rw [List.append_nil, List.append_nil]; rfl, by simp, by simp, by simp⟩
  | [_, _, _], _, foldedGroups, foldedValues, _, _, _ =>
    ⟨[], [], by rw [List.append_nil, List.append_nil]; rfl, by simp, by simp, by simp⟩

/-! ### The component -/

/-- The covector of a table of masks. -/
def maskWeights (rowGroups : List ℕ) (groupMasks : List UInt16) : ℕ → QuarticField :=
  rows (fun row => bitWeight (groupMasks.getD (rowGroups.getD row 0) 0)) 16

structure MaskShape (rowGroups : List ℕ) (groupMasks : List UInt16) : Prop where
  rows : rowGroups.length = 64
  inside : ∀ group ∈ rowGroups, group < groupMasks.length

theorem MaskShape.get {rowGroups : List ℕ} {groupMasks : List UInt16} (h : MaskShape rowGroups groupMasks) {row : ℕ}
    (hrow : row < 64) : rowGroups[row]? = some (rowGroups.getD row 0) ∧
      groupMasks[rowGroups.getD row 0]? = some (groupMasks.getD (rowGroups.getD row 0) 0) := by
  obtain ⟨hget, hmem⟩ := getElem?_getD (show row < rowGroups.length by rw [h.rows]; exact hrow) 0
  exact ⟨hget, (getElem?_getD (h.inside _ hmem) 0).1⟩

theorem deferred_masks_represents {rowGroups : List ℕ} {groupMasks : List UInt16} {groupValues : List QM31}
    (h : MaskShape rowGroups groupMasks) :
    Represents 10 (.grouped64x16BinaryDeferred rowGroups groupMasks none groupValues) (maskWeights rowGroups groupMasks) := by
  intro i hi
  obtain ⟨hgroup, hmask⟩ := @MaskShape.get _ _ h (i / 16) (by omega)
  have hbit : (if (groupMasks.getD (rowGroups.getD (i / 16) 0) 0).toNat.testBit (i % 16) then QM31.one else QM31.zero).Denotes
      (maskWeights rowGroups groupMasks i) := by
    show QM31.Denotes _ (bitWeight _ _)
    rw [bitWeight]
    split
    · exact QM31.denotes_one
    · exact QM31.denotes_zero
  refine ⟨_, ?_, hbit⟩
  rw [WeightComponent.weightAt, grouped64x16BinaryDeferredWeightAtLog10, hgroup, Option.bind_eq_bind, Option.bind_some,
    hmask]
  rfl

/-- After the first fold the challenge is kept beside the masks. -/
theorem deferred_kept_represents {rowGroups : List ℕ} {groupMasks : List UInt16} {groupValues : List QM31} {alpha : QM31}
    {a : QuarticField} (h : MaskShape rowGroups groupMasks) (ha : alpha.Denotes a) :
    Represents 8 (.grouped64x16BinaryDeferred rowGroups groupMasks (some alpha) groupValues)
      (foldWeights a (maskWeights rowGroups groupMasks)) := by
  intro i hi
  obtain ⟨hgroup, hmask⟩ := @MaskShape.get _ _ h (i / 4) (by omega)
  have hfold : foldWeights a (maskWeights rowGroups groupMasks) i =
      foldWeights a (bitWeight (groupMasks.getD (rowGroups.getD (i / 4) 0) 0)) (i % 4) :=
    congrFun (foldWeights_rows a _ 4) i
  rw [hfold, foldWeights_eq_sum]
  generalize groupMasks.getD (rowGroups.getD (i / 4) 0) 0 = mask at hmask ⊢
  have hslots := @sumSelected_denotes 4 ((mask >>> UInt16.ofNat (4 * (i % 4))) &&& 0x0f) _ _ fun slot _ =>
    dualPowers_denotes (challenge_powers ha) slot
  have hbits : ∀ slot : Fin 4, bitWeight ((mask >>> UInt16.ofNat (4 * (i % 4))) &&& 0x0f) slot.val * dualPower a slot =
      dualPower a slot * bitWeight mask (4 * (i % 4) + slot.val) := by
    intro slot
    rw [bitWeight_shift mask (Nat.mod_lt i (by decide)) slot.isLt, mul_comm]
  simp only [hbits] at hslots
  refine ⟨_, ?_, denotes_quarter hslots⟩
  rw [WeightComponent.weightAt, Option.bind_eq_bind, Option.bind_some, hgroup, Option.bind_eq_bind, Option.bind_some,
    hmask]
  rfl

theorem deferred_kept_fold {rowGroups : List ℕ} {groupMasks : List UInt16} {alpha0 alpha1 : QM31} {a b : QuarticField}
    {masks : List UInt16} (h : MaskShape rowGroups groupMasks) (ha : alpha0.Denotes a) (hb : alpha1.Denotes b) :
    TableShape 6 1 rowGroups (foldBinaryLowMasks groupMasks alpha0 alpha1) ∧
      Represents 6 (.grouped64x16BinaryDeferred rowGroups masks none (foldBinaryLowMasks groupMasks alpha0 alpha1))
        (foldWeights b (foldWeights a (maskWeights rowGroups groupMasks))) := by
  have hfolded := foldBinaryLowMasks_denotes ha hb groupMasks
  have hlength : (foldBinaryLowMasks groupMasks alpha0 alpha1).length = groupMasks.length := by
    rw [hfolded.length_eq, List.length_map]
  have hget : ∀ (group : ℕ) (hgroup : group < groupMasks.length), ∃ value,
      (foldBinaryLowMasks groupMasks alpha0 alpha1)[group]? = some value ∧
        value.Denotes (maskFold a b (groupMasks.getD group 0)) := by
    intro group hgroup
    have hpair := hfolded.get (i := group) (by rw [hlength]; exact hgroup) (by rw [List.length_map]; exact hgroup)
    rw [List.get_eq_getElem, List.get_eq_getElem, List.getElem_map] at hpair
    rw [List.getD_eq_getElem?_getD, List.getElem?_eq_getElem hgroup]
    exact ⟨_, List.getElem?_eq_getElem _, hpair⟩
  constructor
  · refine ⟨?_, h.rows, ?_⟩
    · intro v hv
      obtain ⟨group, hgroup, hvalue⟩ := List.getElem_of_mem hv
      obtain ⟨value, hsome, hdenotes⟩ := hget group (by omega)
      rw [List.getElem?_eq_getElem hgroup, hvalue] at hsome
      cases hsome
      exact hdenotes.canonical
    · intro group hgroup
      have hinside := h.inside group hgroup
      omega
  · intro j hj
    obtain ⟨hrow, hmem⟩ := getElem?_getD (show j < rowGroups.length by rw [h.rows]; exact hj) 0
    obtain ⟨value, hsome, hdenotes⟩ := hget _ (h.inside _ hmem)
    have hrows : foldWeights a (maskWeights rowGroups groupMasks) =
        rows (fun row => foldWeights a (bitWeight (groupMasks.getD (rowGroups.getD row 0) 0))) 4 :=
      foldWeights_rows a _ 4
    refine ⟨value, ?_, ?_⟩
    · rw [WeightComponent.weightAt, hrow]
      exact hsome
    · rw [hrows, foldWeights_rows_sixteen]
      exact hdenotes

/-- The later folds keep one weight a row. -/
theorem deferred_rows_represents {rowGroups : List ℕ} {groupMasks : List UInt16} {groupValues : List QM31} {logLen : ℕ}
    (hL : logLen = 2 ∨ logLen = 4 ∨ logLen = 6) (h : TableShape logLen 1 rowGroups groupValues) :
    Represents logLen (.grouped64x16BinaryDeferred rowGroups groupMasks none groupValues) fun i =>
      entryAt groupValues (rowGroups.getD i 0) := by
  intro i hi
  obtain ⟨hrow, hmem⟩ := getElem?_getD (show i < rowGroups.length by rw [h.rows]; exact hi) 0
  have hinside := h.inside _ hmem
  obtain ⟨value, hsome, hdenotes⟩ := getElem?_entryAt h.canonical (show rowGroups.getD i 0 < groupValues.length by omega)
  refine ⟨value, ?_, hdenotes⟩
  rcases hL with rfl | rfl | rfl
  · rw [WeightComponent.weightAt, hrow]
    exact hsome
  · rw [WeightComponent.weightAt, hrow]
    exact hsome
  · rw [WeightComponent.weightAt, hrow]
    exact hsome

theorem deferred_rows_fold {rowGroups : List ℕ} {groupMasks : List UInt16} {groupValues : List QM31} {logLen : ℕ}
    {a : QuarticField} {alpha alpha2 alpha3 : QM31} (hL : logLen = 4 ∨ logLen = 6)
    (h : TableShape logLen 1 rowGroups groupValues) (ha : Challenge a alpha alpha2 alpha3) :
    ∃ groups values, foldGroupedRows rowGroups groupValues alpha alpha2 alpha3 = some (groups, values) ∧
      TableShape (logLen - 2) 1 groups values ∧
      Represents (logLen - 2) (.grouped64x16BinaryDeferred groups groupMasks none values)
        (foldWeights a fun i => entryAt groupValues (rowGroups.getD i 0)) := by
  have hpow := four_mul_two_pow (show 2 ≤ logLen by omega)
  have hsmall : 2 ^ logLen ≤ 64 := by rcases hL with rfl | rfl <;> decide
  have hrows := h.rows
  have hinside : ∀ group ∈ rowGroups, group < groupValues.length := by
    intro group hgroup
    have hgroup' := h.inside group hgroup
    omega
  obtain ⟨groups, values, hfold, hcanonical, hlength, hpoints⟩ := foldGroupedRowsFrom_denotes ha h.canonical rowGroups
    [] [] [] hinside (by rw [hrows, List.length_nil]; omega) .nil
  rw [List.nil_append, List.nil_append] at hfold
  rw [List.nil_append] at hpoints
  have hgroups : groups.length = 2 ^ (logLen - 2) := by omega
  have hpoint : ∀ j < 2 ^ (logLen - 2), PointsAt a groupValues values (tupleAt rowGroups j) (groups.getD j 0) := by
    intro j hj
    exact hpoints j _ (getElem?_getD (show j < groups.length by omega) 0).1
  have hshape : TableShape (logLen - 2) 1 groups values := by
    refine ⟨hcanonical, hgroups, ?_⟩
    intro group hgroup
    obtain ⟨j, hj, hget⟩ := List.getElem_of_mem hgroup
    obtain ⟨value, hsome, _⟩ := hpoints j group (by rw [List.getElem?_eq_getElem hj, hget])
    obtain ⟨hlt, _⟩ := List.getElem?_eq_some_iff.mp hsome
    omega
  refine ⟨groups, values, ?_, hshape, ?_⟩
  · rw [foldGroupedRows, if_neg (by omega)]
    exact hfold
  · have hrep := @deferred_rows_represents groups groupMasks values (logLen - 2) (by omega) hshape
    apply hrep.congr
    intro j hj
    obtain ⟨value, hsome, hdenotes⟩ := hpoint j hj
    have hentry : entryAt values (groups.getD j 0) = value.value := by
      rw [entryAt, List.getD_eq_getElem?_getD, hsome]
      rfl
    rw [hentry, hdenotes.value_eq, foldWeights_eq_sum]
    rfl

end Aspis.Core
