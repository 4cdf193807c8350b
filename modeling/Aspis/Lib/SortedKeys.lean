import Mathlib.Data.List.Lex
import Mathlib.Data.Prod.Basic
import Aspis.Lib.Bytes

/-! Lists written in the order of a key. Sorting by a strict total order gives one
list for all arrangements of the same elements, and a list that is already strictly
sorted is left as it is. -/

namespace Aspis.Lib

instance uint8_isStrictTotalOrder : IsStrictTotalOrder UInt8 (· < ·) where
  trichotomous _ _ h h' := UInt8.le_antisymm (UInt8.not_lt.mp h') (UInt8.not_lt.mp h)
  irrefl := UInt8.lt_irrefl
  trans _ _ _ := UInt8.lt_trans

/-- Byte strings are compared byte by byte, as the source compares arrays. -/
instance : IsStrictTotalOrder Bytes (· < ·) :=
  let _ : IsStrictTotalOrder (List UInt8) (List.Lex (· < ·)) := { isStrictWeakOrder_of_isOrderConnected with }
  inferInstanceAs (IsStrictTotalOrder (List UInt8) (List.Lex (· < ·)))

/-- Pairs are compared by their first parts, then by their second. -/
instance prodLex_isStrictTotalOrder {α β : Type} {r : α → α → Prop} {s : β → β → Prop} [IsStrictTotalOrder α r]
    [IsStrictTotalOrder β s] : IsStrictTotalOrder (α × β) (Prod.Lex r s) where

section
variable {α κ : Type} (lt : κ → κ → Prop) [DecidableRel lt] (key : α → κ)

/-- A stable sort by key. -/
def sortByKey (l : List α) : List α := l.mergeSort fun a b => !decide (lt (key b) (key a))

theorem sortByKey_perm (l : List α) : (sortByKey lt key l).Perm l := List.mergeSort_perm l _

variable [IsStrictTotalOrder κ lt]

/-- A strictly sorted list is its own sorting. -/
theorem sortByKey_of_pairwise {l : List α} (h : l.Pairwise fun a b => lt (key a) (key b)) : sortByKey lt key l = l := by
  apply List.mergeSort_of_pairwise
  refine h.imp ?_
  intro a b hab
  simpa using asymm hab

/-- Neighbours in a sorting are not in the wrong order. -/
theorem sortByKey_sorted (l : List α) : (sortByKey lt key l).Pairwise fun a b => ¬ lt (key b) (key a) := by
  have hsorted := @List.pairwise_mergeSort _ (fun a b => !decide (lt (key b) (key a))) ?_ ?_ l
  · exact hsorted.imp fun h => by simpa using h
  · intro a b c hab hbc
    simp only [Bool.not_eq_true', decide_eq_false_iff_not] at *
    intro hca
    rcases trichotomous_of lt (key a) (key b) with hlt | heq | hlt
    · exact hbc (trans_of lt hca hlt)
    · exact hbc (heq ▸ hca)
    · exact hab hlt
  · intro a b
    simp only [Bool.or_eq_true, Bool.not_eq_true', decide_eq_false_iff_not]
    by_cases hlt : lt (key b) (key a)
    · exact .inr (asymm hlt)
    · exact .inl hlt

theorem lt_of_ne_of_not_lt {a b : κ} (hne : a ≠ b) (hle : ¬ lt b a) : lt a b := by
  rcases trichotomous_of lt a b with hlt | heq | hlt
  · exact hlt
  · exact absurd heq hne
  · exact absurd hlt hle

/-- With distinct keys the sorting is strict. -/
theorem sortByKey_pairwise {l : List α} (h : (l.map key).Nodup) :
    (sortByKey lt key l).Pairwise fun a b => lt (key a) (key b) := by
  have hnodup : ((sortByKey lt key l).map key).Nodup := ((sortByKey_perm lt key l).map key).nodup_iff.mpr h
  rw [List.Nodup, List.pairwise_map] at hnodup
  refine (hnodup.and (sortByKey_sorted lt key l)).imp ?_
  rintro a b ⟨hne, hle⟩
  exact lt_of_ne_of_not_lt lt hne hle

/-- A sorting in which no two neighbours have one key is strict. -/
theorem pairwise_of_neighbours_ne {l : List α} (hsorted : l.Pairwise fun a b => ¬ lt (key b) (key a))
    (hne : l.IsChain fun a b => key a ≠ key b) : l.Pairwise fun a b => lt (key a) (key b) := by
  induction l with
  | nil => exact .nil
  | cons a l ih =>
    obtain ⟨hfirst, hrest⟩ := List.pairwise_cons.mp hsorted
    cases l with
    | nil => exact List.pairwise_singleton _ a
    | cons b l =>
      obtain ⟨hab, hchain⟩ := List.isChain_cons_cons.mp hne
      have htail := ih hrest hchain
      have hlt : lt (key a) (key b) := lt_of_ne_of_not_lt lt hab (hfirst b List.mem_cons_self)
      refine List.pairwise_cons.mpr ⟨fun c hc => ?_, htail⟩
      rcases List.mem_cons.mp hc with rfl | hc
      · exact hlt
      · exact trans_of lt hlt ((List.pairwise_cons.mp htail).1 c hc)

end

end Aspis.Lib
