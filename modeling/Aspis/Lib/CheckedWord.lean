import Mathlib.Data.UInt
import Mathlib.Algebra.BigOperators.Group.List.Basic
import Mathlib.Tactic.Ring

/-! Arithmetic on 64-bit words that returns none where the result is no word. A sum that is returned
has not wrapped anywhere. -/

namespace Aspis.Lib

def wordOf (n : ℕ) : Option UInt64 := if n < 2 ^ 64 then some (UInt64.ofNat n) else none

def addWord (a b : UInt64) : Option UInt64 := wordOf (a.toNat + b.toNat)

def mulWord (a b : UInt64) : Option UInt64 := wordOf (a.toNat * b.toNat)

def shlWord (a : UInt64) (shift : ℕ) : Option UInt64 := wordOf (a.toNat * 2 ^ shift)

def subWord (a b : UInt64) : Option UInt64 := if b ≤ a then some (a - b) else none

/-- A sum of terms, from left to right. -/
def sumChecked (terms : List (Option UInt64)) : Option UInt64 :=
  terms.foldlM (fun sum term => term.bind (addWord sum)) 0

/-- The word of a number, if there is one. -/
def Holds (word : Option UInt64) (n : ℕ) : Prop := ∃ w, word = some w ∧ w.toNat = n

theorem holds_wordOf {n : ℕ} (h : n < 2 ^ 64) : Holds (wordOf n) n :=
  ⟨UInt64.ofNat n, if_pos h, UInt64.toNat_ofNat_of_lt' h⟩

theorem holds_subWord {a b : UInt64} (h : b.toNat ≤ a.toNat) : Holds (subWord a b) (a.toNat - b.toNat) :=
  ⟨a - b, if_pos h, UInt64.toNat_sub_of_le _ _ h⟩

theorem holds_sumChecked_from {terms : List (Option UInt64)} {ns : List ℕ} (h : List.Forall₂ Holds terms ns) :
    ∀ sum : UInt64, sum.toNat + ns.sum < 2 ^ 64 →
      Holds (terms.foldlM (fun sum term => term.bind (addWord sum)) sum) (sum.toNat + ns.sum) := by
  induction h with
  | nil =>
    intro sum _
    exact ⟨sum, rfl, by simp⟩
  | cons hterm _ ih =>
    intro sum hlt
    rw [List.sum_cons] at hlt
    obtain ⟨w, rfl, rfl⟩ := hterm
    obtain ⟨next, hnext, hval⟩ := @holds_wordOf (sum.toNat + w.toNat) (by omega)
    have hrest := ih next (by omega)
    rw [hval, Nat.add_assoc, ← List.sum_cons] at hrest
    obtain ⟨total, htotal, hsum⟩ := hrest
    refine ⟨total, ?_, hsum⟩
    rw [List.foldlM_cons, Option.bind_some, addWord, hnext]
    exact htotal

/-- A sum that is below the word size as a whole is returned exactly. -/
theorem holds_sumChecked {terms : List (Option UInt64)} {ns : List ℕ} (h : List.Forall₂ Holds terms ns)
    (hlt : ns.sum < 2 ^ 64) : Holds (sumChecked terms) ns.sum := by
  have hsum := holds_sumChecked_from h 0 (by simpa using hlt)
  rwa [show (0 : UInt64).toNat = 0 from rfl, Nat.zero_add] at hsum

theorem get_vector_ofFn {n : ℕ} {α : Type} (f : Fin n → α) (i : Fin n) : (Vector.ofFn f).get i = f i :=
  Vector.getElem_ofFn i.isLt

/-- The values of all positions, if each has one. -/
def allSome {n : ℕ} {α : Type} (f : Fin n → Option α) : Option (Vector α n) :=
  if h : ∀ i, (f i).isSome = true then some (Vector.ofFn fun i => (f i).get (h i)) else none

theorem allSome_eq_some {n : ℕ} {α : Type} {f : Fin n → Option α} {g : Fin n → α} (h : ∀ i, f i = some (g i)) :
    allSome f = some (Vector.ofFn g) := by
  have hsome : ∀ i, (f i).isSome = true := fun i => by rw [h i]; rfl
  have hget : ∀ i, (f i).get (hsome i) = g i := fun i => Option.get_of_mem (hsome i) (h i)
  rw [allSome, dif_pos hsome]
  simp only [hget]

end Aspis.Lib
