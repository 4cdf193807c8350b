import Mathlib.Data.List.Basic

/-! Finite runs of a labelled transition relation, and the rules by which facts
about single steps become facts about runs: a preorder kept by every step, an
invariant that may mention the labels seen so far, and a latch, a condition
that some labels need unset, set, and that no step ever clears. -/

namespace Aspis.Lib

variable {σ ε : Type*}

inductive Run (step : σ → ε → σ → Prop) : σ → List ε → σ → Prop
  | nil (s : σ) : Run step s [] s
  | cons {s t u : σ} {e : ε} {es : List ε} : step s e t → Run step t es u → Run step s (e :: es) u

namespace Run

variable {step : σ → ε → σ → Prop} {s t u : σ} {e : ε} {es es' : List ε}

theorem append (h : Run step s es t) (h' : Run step t es' u) : Run step s (es ++ es') u := by
  induction h with
  | nil => exact h'
  | cons hstep _ ih => exact .cons hstep (ih h')

theorem split (h : Run step s (es ++ es') u) : ∃ t, Run step s es t ∧ Run step t es' u := by
  induction es generalizing s with
  | nil => exact ⟨s, .nil s, h⟩
  | cons e es ih =>
    cases h with
    | cons hstep hrun =>
      obtain ⟨t, hes, hes'⟩ := ih hrun
      exact ⟨t, .cons hstep hes, hes'⟩

/-- A run is one of another relation too, under other labels, if every step that it can take is. -/
theorem map {ε' : Type*} {step' : σ → ε' → σ → Prop} {f : ε → ε'} (hstep : ∀ s t, ∀ e ∈ es, step s e t → step' s (f e) t)
    (h : Run step s es t) : Run step' s (es.map f) t := by
  induction h with
  | nil s => exact .nil s
  | cons hs _ ih =>
    refine .cons (hstep _ _ _ List.mem_cons_self hs) (ih fun s t e he => ?_)
    exact hstep s t e (List.mem_cons_of_mem _ he)

/-- A preorder that every step respects relates the ends of a run. -/
theorem relates {R : σ → σ → Prop} (hrefl : ∀ s, R s s) (htrans : ∀ {s t u}, R s t → R t u → R s u)
    (hstep : ∀ s e t, step s e t → R s t) (h : Run step s es t) : R s t := by
  induction h with
  | nil s => exact hrefl s
  | cons hs _ ih => exact htrans (hstep _ _ _ hs) ih

/-- An invariant of the labels so far and the state, kept by every step. -/
theorem traced {P : List ε → σ → Prop} (hstep : ∀ es s e t, P es s → step s e t → P (es ++ [e]) t)
    {before : List ε} (hstart : P before s) (h : Run step s es t) : P (before ++ es) t := by
  induction h generalizing before with
  | nil s => simpa using hstart
  | cons hs _ ih =>
    have hnext := ih (hstep _ _ _ _ hstart hs)
    rwa [List.append_assoc, List.singleton_append] at hnext

/-- A condition that fails at the start and holds at the end began to hold in one of the steps. -/
theorem exists_step_into (holds : σ → Prop) (h : Run step s es t) (hs : ¬ holds s) (ht : holds t) :
    ∃ es₁ e es₂ x y, es = es₁ ++ e :: es₂ ∧ Run step s es₁ x ∧ step x e y ∧ Run step y es₂ t ∧ ¬ holds x ∧
      holds y := by
  induction h with
  | nil s => exact absurd ht hs
  | @cons s t u e es hstep hrun ih =>
    by_cases hmid : holds t
    · exact ⟨[], e, es, s, t, rfl, .nil s, hstep, hrun, hs, hmid⟩
    · obtain ⟨es₁, e', es₂, x, y, rfl, hbefore, hinto, hafter, hx, hy⟩ := ih hmid ht
      exact ⟨e :: es₁, e', es₂, x, y, rfl, .cons hstep hbefore, hinto, hafter, hx, hy⟩

/-- A run through states that all satisfy a condition. -/
abbrev Within (step : σ → ε → σ → Prop) (holds : σ → Prop) : σ → List ε → σ → Prop :=
  Run fun s e t => step s e t ∧ holds s ∧ holds t

/-- A condition that holds at the end has held since the start, or since the last step into it. -/
theorem since {holds : σ → Prop} (h : Run step s es t) (ht : holds t) :
    (holds s ∧ Within step holds s es t) ∨ ∃ es₁ e es₂ x y, es = es₁ ++ e :: es₂ ∧ Run step s es₁ x ∧ step x e y ∧
      ¬ holds x ∧ holds y ∧ Within step holds y es₂ t := by
  induction h with
  | nil s => exact .inl ⟨ht, .nil s⟩
  | @cons s t u e es hstep _ ih =>
    rcases ih ht with ⟨hmid, hwithin⟩ | ⟨es₁, e', es₂, x, y, rfl, hbefore, hinto, hx, hy, hafter⟩
    · by_cases hs : holds s
      · exact .inl ⟨hs, .cons ⟨hstep, hs, hmid⟩ hwithin⟩
      · exact .inr ⟨[], e, es, s, t, rfl, .nil s, hstep, hs, hmid, hwithin⟩
    · exact .inr ⟨e :: es₁, e', es₂, x, y, rfl, .cons hstep hbefore, hinto, hx, hy, hafter⟩

section Latch
variable {set : σ → Prop} {p : ε → Bool}

/-- Once the latch is set, no further label of the kind occurs. -/
theorem none_after_latch (hkeep : ∀ s e t, step s e t → set s → set t) (hneed : ∀ s e t, step s e t → p e → ¬ set s)
    (hs : set s) (h : Run step s es t) : es.countP p = 0 := by
  induction h with
  | nil s => rfl
  | cons hstep _ ih =>
    rw [List.countP_cons_of_neg fun hp => hneed _ _ _ hstep hp hs]
    exact ih (hkeep _ _ _ hstep hs)

/-- A label that needs the latch unset and sets it occurs at most once. -/
theorem countP_le_one (hkeep : ∀ s e t, step s e t → set s → set t) (hneed : ∀ s e t, step s e t → p e → ¬ set s)
    (hset : ∀ s e t, step s e t → p e → set t) (h : Run step s es t) : es.countP p ≤ 1 := by
  induction h with
  | nil s => exact Nat.zero_le 1
  | @cons s t u e es hstep hrun ih =>
    by_cases hp : p e = true
    · have hrest := none_after_latch hkeep hneed (hset _ _ _ hstep hp) hrun
      rw [List.countP_cons_of_pos hp]
      omega
    · rw [List.countP_cons_of_neg hp]
      exact ih

end Latch

end Run

end Aspis.Lib
