import Mathlib.Algebra.BigOperators.Group.List.Basic
import Mathlib.Algebra.BigOperators.GroupWithZero.Action
import Mathlib.Algebra.GroupWithZero.Basic
import Mathlib.Data.List.Forall2

/-! The inverses of a list of elements from one inversion. A first pass leaves at every place the
product of the elements before it; the inverse of the whole product is then taken back from the
last place to the first. -/

namespace Aspis.Lib.BatchInverse

section Passes
variable {α : Type} (mul : α → α → α)

/-- Every place takes the product so far, and the product takes the element. -/
def productPass : α → List α → List α × α
  | acc, [] => ([], acc)
  | acc, v :: values =>
    let (places, total) := productPass (mul acc v) values
    (acc :: places, total)

/-- From the last place to the first: a place is multiplied by the running inverse, and the running inverse by the
element. -/
def inversePass : List α → List α → α → List α × α
  | p :: places, v :: values, inverse =>
    let (out, running) := inversePass places values inverse
    (mul p running :: out, mul running v)
  | _, _, inverse => ([], inverse)

/-- The two passes; none stands for the assertion on the lengths or an inversion that does not return. -/
def batchInverseWith (one : α) (inverse : α → Option α) (values out : List α) : Option (List α) :=
  if values.length ≠ out.length then none
  else if values.isEmpty then some out
  else do
    let (places, total) := productPass mul one values
    let running ← inverse total
    return (inversePass mul places values running).1

end Passes

section Related
variable {α : Type} {K : Type*} [CommGroupWithZero K] {mul : α → α → α} {one : α} {R : α → K → Prop}
variable (hmul : ∀ {x y v w}, R x v → R y w → R (mul x y) (v * w))
include hmul

theorem productPass_total {values : List α} {vs : List K} (h : List.Forall₂ R values vs) {acc : α} {k : K} (hacc : R acc k) :
    R (productPass mul acc values).2 (k * vs.prod) := by
  induction h generalizing acc k with
  | nil =>
    rw [List.prod_nil, mul_one]
    exact hacc
  | cons hv _ ih =>
    rw [List.prod_cons, ← mul_assoc]
    exact ih (hmul hacc hv)

/-- The second pass leaves the inverses, and the running inverse ends as the one of the product it started from. -/
theorem inversePass_related {values : List α} {vs : List K} (h : List.Forall₂ R values vs) (hne : ∀ v ∈ vs, v ≠ 0)
    {acc : α} {k : K} (hacc : R acc k) (hk : k ≠ 0) {running : α} (hrunning : R running (k * vs.prod)⁻¹) :
    List.Forall₂ R (inversePass mul (productPass mul acc values).1 values running).1 (vs.map (·⁻¹)) ∧
      R (inversePass mul (productPass mul acc values).1 values running).2 k⁻¹ := by
  induction h generalizing acc k with
  | nil =>
    rw [List.prod_nil, mul_one] at hrunning
    exact ⟨List.Forall₂.nil, hrunning⟩
  | @cons x v values vs hv _ ih =>
    have hvne := hne v List.mem_cons_self
    rw [List.prod_cons, ← mul_assoc] at hrunning
    obtain ⟨hout, hlast⟩ := ih (fun w hw => hne w (List.mem_cons_of_mem v hw)) (hmul hacc hv) (mul_ne_zero hk hvne) hrunning
    have hplace : k * (k * v)⁻¹ = v⁻¹ := by rw [mul_inv, mul_inv_cancel_left₀ hk]
    have hback : (k * v)⁻¹ * v = k⁻¹ := by rw [mul_inv, inv_mul_cancel_right₀ hvne]
    constructor
    · rw [List.map_cons, ← hplace]
      exact List.Forall₂.cons (hmul hacc hlast) hout
    · rw [← hback]
      exact hmul hlast hv

variable (hone : R one 1) {inverse : α → Option α}
include hone

theorem batchInverseWith_related (hinverse : ∀ {x v}, R x v → v ≠ 0 → ∃ y, inverse x = some y ∧ R y v⁻¹)
    {values out : List α} {vs : List K} (h : List.Forall₂ R values vs) (hne : ∀ v ∈ vs, v ≠ 0)
    (hlength : values.length = out.length) :
    ∃ result, batchInverseWith mul one inverse values out = some result ∧ List.Forall₂ R result (vs.map (·⁻¹)) := by
  rw [batchInverseWith, if_neg (not_not_intro hlength)]
  cases h with
  | nil =>
    obtain rfl := List.eq_nil_of_length_eq_zero hlength.symm
    exact ⟨[], if_pos rfl, List.Forall₂.nil⟩
  | @cons x v values vs hv hrest =>
    have hall := List.Forall₂.cons hv hrest
    have htotal := productPass_total hmul hall hone
    have hprod : (1 : K) * (v :: vs).prod ≠ 0 := by
      rw [one_mul]
      exact List.prod_ne_zero fun hzero => hne 0 hzero rfl
    obtain ⟨running, heq, hrunning⟩ := hinverse htotal hprod
    refine ⟨_, ?_, (inversePass_related hmul hall hne hone one_ne_zero hrunning).1⟩
    rw [if_neg (by simp)]
    dsimp only
    rw [heq]
    rfl

theorem batchInverseWith_eq_none (hzero : ∀ {x}, R x 0 → inverse x = none) {values out : List α} {vs : List K}
    (h : List.Forall₂ R values vs) (hmem : (0 : K) ∈ vs) : batchInverseWith mul one inverse values out = none := by
  rw [batchInverseWith]
  split
  · rfl
  · cases h with
    | nil => exact absurd hmem List.not_mem_nil
    | @cons x v values vs hv hrest =>
      have htotal := productPass_total hmul (List.Forall₂.cons hv hrest) hone
      rw [List.prod_eq_zero hmem, mul_zero] at htotal
      rw [if_neg (by simp)]
      dsimp only
      rw [hzero htotal]
      rfl

end Related

end Aspis.Lib.BatchInverse
