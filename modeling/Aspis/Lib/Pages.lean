import Mathlib.Data.List.Basic
import Mathlib.Tactic.Common

/-! A list kept in pages of a fixed capacity. Page `p` holds the entries with
indices `c * p, …, c * p + c - 1`; appending entries leaves full pages alone,
fills the page the list ends in, and starts the next one with the rest. -/

namespace Aspis.Lib

variable {α : Type}

/-- The entries of a list that belong to page `p`. -/
def page (c p : ℕ) (xs : List α) : List α := (xs.drop (c * p)).take c

theorem length_page (c p : ℕ) (xs : List α) : (page c p xs).length = min c (xs.length - c * p) := by
  simp [page]

theorem length_page_le (c p : ℕ) (xs : List α) : (page c p xs).length ≤ c := by
  rw [length_page]
  omega

theorem mem_of_mem_page {c p : ℕ} {xs : List α} {x : α} (h : x ∈ page c p xs) : x ∈ xs :=
  List.mem_of_mem_drop (List.mem_of_mem_take h)

/-- Entry `q` sits in page `q / c` at slot `q % c`. -/
theorem getElem?_page {c q : ℕ} (hc : 0 < c) (xs : List α) : (page c (q / c) xs)[q % c]? = xs[q]? := by
  rw [page, List.getElem?_take_of_lt (Nat.mod_lt q hc), List.getElem?_drop, Nat.div_add_mod]

/-- The page the list ends in holds the remainder of the list. -/
theorem length_page_last {c n : ℕ} (hc : 0 < c) {xs : List α} (h : xs.length = n + 1) :
    (page c (n / c) xs).length = n % c + 1 := by
  have hdiv := Nat.div_add_mod n c
  have hlt := Nat.mod_lt n hc
  rw [length_page]
  omega

theorem page_append_of_full {c p : ℕ} {xs : List α} (ys : List α) (h : c * (p + 1) ≤ xs.length) :
    page c p (xs ++ ys) = page c p xs := by
  have hle : c * p ≤ xs.length := Nat.le_trans (Nat.mul_le_mul_left c (by omega)) h
  have hroom : c ≤ (xs.drop (c * p)).length := by
    rw [List.length_drop]
    rw [Nat.mul_succ] at h
    omega
  rw [page, page, List.drop_append_of_le_length hle, List.take_append_of_le_length hroom]

theorem page_append_last {c p : ℕ} {xs : List α} (ys : List α) (hlow : c * p ≤ xs.length)
    (hhigh : xs.length ≤ c * (p + 1)) :
    page c p (xs ++ ys) = page c p xs ++ ys.take (c * (p + 1) - xs.length) := by
  have hshort : (xs.drop (c * p)).length ≤ c := by
    rw [List.length_drop]
    rw [Nat.mul_succ] at hhigh
    omega
  have hrest : c - (xs.drop (c * p)).length = c * (p + 1) - xs.length := by
    rw [List.length_drop, Nat.mul_succ]
    omega
  rw [page, page, List.drop_append_of_le_length hlow, List.take_append, hrest]

theorem page_append_next {c p : ℕ} {xs : List α} (ys : List α) (h : xs.length ≤ c * p) :
    page c p (xs ++ ys) = page c 0 (ys.drop (c * p - xs.length)) := by
  rw [page, page, List.drop_append, List.drop_eq_nil_of_le h, List.nil_append, Nat.mul_zero, List.drop_zero]

end Aspis.Lib
