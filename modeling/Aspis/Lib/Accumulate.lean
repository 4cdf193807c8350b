import Mathlib.Algebra.BigOperators.Intervals
import Mathlib.Algebra.Order.BigOperators.Group.Finset
import Mathlib.Data.Fintype.Basic

/-! Loops over index ranges, and sums kept in 64-bit words. A loop body returns none where the
program would stop, so a loop that returns a value has stopped nowhere; a word is added
with a check, so a sum that is returned has not wrapped. -/

namespace Aspis.Lib.Accumulate

/-! ### Loops -/

variable {α : Type*}

/-- A loop over the range from `start` up to `stop` in steps of `width`. The body is given the two
ends of its block; the last block can be shorter. -/
def stepLoop (width : ℕ) (body : α → ℕ → ℕ → Option α) (start stop : ℕ) (acc : α) : Option α :=
  if start < stop ∧ 0 < width then
    (body acc start (min (start + width) stop)).bind (stepLoop width body (start + width) stop)
  else some acc
termination_by stop - start

/-- A loop over every index of a range. -/
def rangeLoop (body : α → ℕ → Option α) (start stop : ℕ) (acc : α) : Option α :=
  stepLoop 1 (fun acc index _ => body acc index) start stop acc

/-- An invariant that every block carries to its end, where the body returns, holds at the end of the loop. -/
theorem stepLoop_invariant {width : ℕ} {body : α → ℕ → ℕ → Option α} {stop : ℕ} (hwidth : 0 < width)
    (inv : ℕ → α → Prop)
    (hbody : ∀ i acc, i < stop → inv i acc →
      ∃ acc', body acc i (min (i + width) stop) = some acc' ∧ inv (min (i + width) stop) acc')
    {start : ℕ} {acc : α} (hle : start ≤ stop) (hstart : inv start acc) :
    ∃ acc', stepLoop width body start stop acc = some acc' ∧ inv stop acc' := by
  induction hn : stop - start using Nat.strong_induction_on generalizing start acc with
  | h n ih =>
    unfold stepLoop
    by_cases hlt : start < stop
    · rw [if_pos ⟨hlt, hwidth⟩]
      obtain ⟨next, hnext, hinv⟩ := hbody start acc hlt hstart
      rw [hnext, Option.bind_some]
      by_cases hin : start + width ≤ stop
      · rw [Nat.min_eq_left hin] at hinv
        exact ih _ (by omega) hin hinv rfl
      · rw [Nat.min_eq_right (by omega)] at hinv
        refine ⟨next, ?_, hinv⟩
        unfold stepLoop
        rw [if_neg (by omega)]
    · rw [if_neg (by omega)]
      have heq : start = stop := by omega
      exact ⟨acc, rfl, heq ▸ hstart⟩

/-- The same without the claim that the body returns: what holds if the loop does. -/
theorem stepLoop_of_some {width : ℕ} {body : α → ℕ → ℕ → Option α} {stop : ℕ} (hwidth : 0 < width)
    (inv : ℕ → α → Prop)
    (hbody : ∀ i acc acc', i < stop → inv i acc → body acc i (min (i + width) stop) = some acc' →
      inv (min (i + width) stop) acc')
    {start : ℕ} {acc acc' : α} (hle : start ≤ stop) (hstart : inv start acc)
    (h : stepLoop width body start stop acc = some acc') : inv stop acc' := by
  induction hn : stop - start using Nat.strong_induction_on generalizing start acc with
  | h n ih =>
    unfold stepLoop at h
    by_cases hlt : start < stop
    · rw [if_pos ⟨hlt, hwidth⟩] at h
      obtain ⟨next, hnext, hrest⟩ := Option.bind_eq_some_iff.mp h
      have hinv := hbody start acc next hlt hstart hnext
      by_cases hin : start + width ≤ stop
      · rw [Nat.min_eq_left hin] at hinv
        exact ih _ (by omega) hin hinv hrest rfl
      · rw [Nat.min_eq_right (by omega)] at hinv
        unfold stepLoop at hrest
        rw [if_neg (by omega)] at hrest
        exact Option.some.inj hrest ▸ hinv
    · rw [if_neg (by omega)] at h
      have heq : start = stop := by omega
      exact Option.some.inj h ▸ heq ▸ hstart

theorem rangeLoop_invariant {body : α → ℕ → Option α} {stop : ℕ} (inv : ℕ → α → Prop)
    (hbody : ∀ i acc, i < stop → inv i acc → ∃ acc', body acc i = some acc' ∧ inv (i + 1) acc')
    {start : ℕ} {acc : α} (hle : start ≤ stop) (hstart : inv start acc) :
    ∃ acc', rangeLoop body start stop acc = some acc' ∧ inv stop acc' := by
  apply stepLoop_invariant Nat.one_pos inv _ hle hstart
  intro i acc hi hinv
  rw [Nat.min_eq_left (by omega)]
  exact hbody i acc hi hinv

/-- A loop that does at each block what another loop does, and keeps more, returns where the other one does. -/
theorem stepLoop_refines {β : Type*} {width : ℕ} {body : α → ℕ → ℕ → Option α} {body' : β → ℕ → ℕ → Option β}
    {stop : ℕ} (hwidth : 0 < width) (rel : ℕ → α → β → Prop)
    (hbody : ∀ i a b a', i < stop → rel i a b → body a i (min (i + width) stop) = some a' →
      ∃ b', body' b i (min (i + width) stop) = some b' ∧ rel (min (i + width) stop) a' b')
    {start : ℕ} {a a' : α} {b : β} (hle : start ≤ stop) (hstart : rel start a b)
    (h : stepLoop width body start stop a = some a') :
    ∃ b', stepLoop width body' start stop b = some b' ∧ rel stop a' b' := by
  induction hn : stop - start using Nat.strong_induction_on generalizing start a b with
  | h n ih =>
    unfold stepLoop at h
    unfold stepLoop
    by_cases hlt : start < stop
    · rw [if_pos ⟨hlt, hwidth⟩] at h
      rw [if_pos ⟨hlt, hwidth⟩]
      obtain ⟨next, hnext, hrest⟩ := Option.bind_eq_some_iff.mp h
      obtain ⟨next', hnext', hrel⟩ := hbody start a b next hlt hstart hnext
      rw [hnext', Option.bind_some]
      by_cases hin : start + width ≤ stop
      · rw [Nat.min_eq_left hin] at hrel
        exact ih _ (by omega) hin hrel hrest rfl
      · rw [Nat.min_eq_right (by omega)] at hrel
        unfold stepLoop at hrest
        rw [if_neg (by omega)] at hrest
        unfold stepLoop
        rw [if_neg (by omega)]
        exact ⟨next', rfl, Option.some.inj hrest ▸ hrel⟩
    · rw [if_neg (by omega)] at h
      rw [if_neg (by omega)]
      have heq : start = stop := by omega
      exact ⟨b, rfl, Option.some.inj h ▸ heq ▸ hstart⟩

/-- A loop can be cut where a block ends. -/
theorem stepLoop_split {width : ℕ} (body : α → ℕ → ℕ → Option α) (hwidth : 0 < width) (count : ℕ) {start stop : ℕ}
    (hle : start + count * width ≤ stop) (acc : α) :
    stepLoop width body start stop acc =
      (stepLoop width body start (start + count * width) acc).bind
        (stepLoop width body (start + count * width) stop) := by
  induction count generalizing start acc with
  | zero =>
    rw [Nat.zero_mul, Nat.add_zero]
    conv_rhs =>
      rw [stepLoop, if_neg (by omega)]
    rfl
  | succ count ih =>
    rw [Nat.succ_mul] at hle
    have hlt : start < stop := by omega
    have hlt' : start < start + (count + 1) * width := by
      rw [Nat.succ_mul]
      omega
    have hmin : min (start + width) stop = start + width := by omega
    have hmin' : min (start + width) (start + (count + 1) * width) = start + width := by
      rw [Nat.succ_mul]
      omega
    have hend : start + (count + 1) * width = start + width + count * width := by
      rw [Nat.succ_mul]
      omega
    conv_lhs => rw [stepLoop, if_pos ⟨hlt, hwidth⟩, hmin]
    conv_rhs => rw [stepLoop, if_pos ⟨hlt', hwidth⟩, hmin', Option.bind_assoc]
    congr 1
    funext next
    rw [hend]
    exact ih (by omega) next

/-- A loop over the numbers of complete blocks is the loop over the blocks. -/
theorem rangeLoop_blocks (body : α → ℕ → ℕ → Option α) (count : ℕ) (acc : α) :
    rangeLoop (fun acc block => body acc (block * 4) (block * 4 + 4)) 0 count acc = stepLoop 4 body 0 (count * 4) acc := by
  have hgeneral : ∀ k first acc, rangeLoop (fun acc block => body acc (block * 4) (block * 4 + 4)) first (first + k) acc =
      stepLoop 4 body (first * 4) ((first + k) * 4) acc := by
    intro k
    induction k with
    | zero =>
      intro first acc
      unfold rangeLoop stepLoop
      rw [if_neg (by omega), if_neg (by omega)]
    | succ k ih =>
      intro first acc
      unfold rangeLoop
      conv_lhs => rw [stepLoop, if_pos ⟨by omega, Nat.one_pos⟩]
      conv_rhs => rw [stepLoop, if_pos ⟨by omega, by decide⟩]
      have hmin : min (first * 4 + 4) ((first + (k + 1)) * 4) = first * 4 + 4 := by omega
      rw [hmin]
      congr 1
      funext next
      have hnext := ih (first + 1) next
      rw [Nat.add_assoc, Nat.add_comm 1 k] at hnext
      have hfirst : (first + 1) * 4 = first * 4 + 4 := by omega
      rw [hfirst] at hnext
      exact hnext
  have h := hgeneral count 0 acc
  rw [Nat.zero_add, Nat.zero_mul] at h
  exact h

/-! ### Folds over lists -/

/-- A fold whose every step adds a term to what the state stands for. -/
theorem foldl_accumulates {σ β M : Type*} [AddMonoid M] {R : σ → M → Prop} {step : σ → β → σ} {f : β → M} :
    ∀ {l : List β}, (∀ b ∈ l, ∀ s m, R s m → R (step s b) (m + f b)) → ∀ {s : σ} {m : M}, R s m →
      R (l.foldl step s) (m + (l.map f).sum)
  | [], _, s, m, h => by
    rw [List.map_nil, List.sum_nil, add_zero]
    exact h
  | b :: l, hstep, s, m, h => by
    rw [List.foldl_cons, List.map_cons, List.sum_cons, ← add_assoc]
    exact foldl_accumulates (fun b' hb' => hstep b' (List.mem_cons_of_mem b hb')) (hstep b List.mem_cons_self s m h)

/-- The same for a fold that can stop. -/
theorem foldlM_accumulates {σ β : Type} {M : Type*} [AddMonoid M] {R : σ → M → Prop} {step : σ → β → Option σ}
    {f : β → M} : ∀ {l : List β}, (∀ b ∈ l, ∀ s m, R s m → ∃ s', step s b = some s' ∧ R s' (m + f b)) →
      ∀ {s : σ} {m : M}, R s m → ∃ s', l.foldlM step s = some s' ∧ R s' (m + (l.map f).sum)
  | [], _, s, m, h => by
    rw [List.map_nil, List.sum_nil, add_zero]
    exact ⟨s, rfl, h⟩
  | b :: l, hstep, s, m, h => by
    obtain ⟨next, hnext, hR⟩ := hstep b List.mem_cons_self s m h
    obtain ⟨last, hlast, hlastR⟩ := foldlM_accumulates (fun b' hb' => hstep b' (List.mem_cons_of_mem b hb')) hR
    refine ⟨last, ?_, ?_⟩
    · rw [List.foldlM_cons, hnext]
      exact hlast
    · rw [List.map_cons, List.sum_cons, ← add_assoc]
      exact hlastR

/-- The sum over the entries with their indices. -/
theorem sum_map_zipIdx {β M : Type*} [AddCommMonoid M] (g : β × ℕ → M) (d : β) (l : List β) :
    (l.zipIdx.map g).sum = ∑ i ∈ Finset.range l.length, g (l.getD i d, i) := by
  induction l using List.reverseRecOn with
  | nil => rfl
  | append_singleton l a ih =>
    have hlast : (l ++ [a]).getD l.length d = a := by simp
    rw [List.zipIdx_append, List.map_append, List.sum_append, ih, List.length_append, List.length_singleton,
      Finset.sum_range_succ, hlast]
    congr 1
    · refine Finset.sum_congr rfl fun i hi => ?_
      have hfirst : (l ++ [a]).getD i d = l.getD i d := by
        rw [List.getD_eq_getElem?_getD, List.getElem?_append_left (Finset.mem_range.mp hi), List.getD_eq_getElem?_getD]
      rw [hfirst]
    · rw [List.zipIdx_singleton, List.map_singleton, List.sum_singleton, Nat.zero_add]

/-- An invariant of a loop over the first indices. -/
theorem foldl_range_invariant {σ : Type*} {step : σ → ℕ → σ} (inv : ℕ → σ → Prop) {s : σ} (hstart : inv 0 s) :
    ∀ n, (∀ j < n, ∀ s, inv j s → inv (j + 1) (step s j)) → inv n ((List.range n).foldl step s)
  | 0, _ => hstart
  | n + 1, hstep => by
    rw [List.range_succ, List.foldl_append]
    exact hstep n (by omega) _ (foldl_range_invariant inv hstart n fun j hj => hstep j (by omega))

/-! ### Words -/

variable {ι : Type*} [Fintype ι]

/-- Adds a word to each sum, unless one of the additions wraps. -/
def addWords (sums terms : ι → UInt64) : Option (ι → UInt64) :=
  if ∀ c, (sums c).toNat + (terms c).toNat < 2 ^ 64 then some fun c => sums c + terms c else none

theorem addWords_of_lt {sums terms : ι → UInt64} (h : ∀ c, (sums c).toNat + (terms c).toNat < 2 ^ 64) :
    ∃ total, addWords sums terms = some total ∧ ∀ c, (total c).toNat = (sums c).toNat + (terms c).toNat := by
  refine ⟨fun c => sums c + terms c, ?_, ?_⟩
  · rw [addWords, if_pos h]
  · intro c
    rw [UInt64.toNat_add]
    exact Nat.mod_eq_of_lt (h c)

theorem addWords_eq_some {sums terms total : ι → UInt64} (h : addWords sums terms = some total) (c : ι) :
    (total c).toNat = (sums c).toNat + (terms c).toNat := by
  unfold addWords at h
  split_ifs at h with hlt
  obtain ⟨total', htotal, hsum⟩ := addWords_of_lt hlt
  rw [addWords, if_pos hlt, h] at htotal
  rw [Option.some.inj htotal]
  exact hsum c

/-- The sums of the words of a range, one addition an index. -/
def sumRange (terms : ℕ → Option (ι → UInt64)) (start stop : ℕ) : Option (ι → UInt64) :=
  rangeLoop (fun sums index => (terms index).bind (addWords sums)) start stop fun _ => 0

/-- A sum that is below the word size as a whole is returned exactly. -/
theorem sumRange_of_lt {terms : ℕ → Option (ι → UInt64)} {t : ℕ → ι → UInt64} {start stop : ℕ} (hle : start ≤ stop)
    (hterms : ∀ i, start ≤ i → i < stop → terms i = some (t i))
    (hsum : ∀ c, ∑ i ∈ Finset.Ico start stop, (t i c).toNat < 2 ^ 64) :
    ∃ total, sumRange terms start stop = some total ∧
      ∀ c, (total c).toNat = ∑ i ∈ Finset.Ico start stop, (t i c).toNat := by
  have hloop := @rangeLoop_invariant _ (fun sums index => (terms index).bind (addWords sums)) stop
    (fun i sums => start ≤ i ∧ ∀ c, (sums c).toNat = ∑ j ∈ Finset.Ico start i, (t j c).toNat) (by
      intro i sums hi hinv
      rw [hterms i hinv.1 hi, Option.bind_some]
      have hstep : ∀ c, (sums c).toNat + (t i c).toNat = ∑ j ∈ Finset.Ico start (i + 1), (t j c).toNat := by
        intro c
        rw [Finset.sum_Ico_succ_top hinv.1, hinv.2 c]
      have hlt : ∀ c, (sums c).toNat + (t i c).toNat < 2 ^ 64 := by
        intro c
        rw [hstep c]
        refine lt_of_le_of_lt ?_ (hsum c)
        exact Finset.sum_le_sum_of_subset (Finset.Ico_subset_Ico_right hi)
      obtain ⟨total, htotal, hval⟩ := addWords_of_lt hlt
      refine ⟨total, htotal, by omega, ?_⟩
      intro c
      rw [hval c, hstep c]) start (fun _ => 0) hle ⟨le_rfl, by simp⟩
  obtain ⟨total, htotal, -, hval⟩ := hloop
  exact ⟨total, htotal, hval⟩

end Aspis.Lib.Accumulate
