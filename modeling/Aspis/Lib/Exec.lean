import Mathlib.Logic.Basic
import Mathlib.Tactic.Common
import Mathlib.Tactic.SplitIfs
import Mathlib.Data.Fin.Tuple.Basic

/-! Fallible state-passing programs whose state survives an error. A program
that fails halfway leaves the state its completed steps produced, so both the
success and the failure of a run can be reasoned about. The inversion rules
peel a run apart at each bind; `Steps` carries a preorder on states through a
whole program, whether it succeeds or fails. -/

namespace Aspis.Lib

/-! ### Checks -/

section Checks
variable {ε ε' α β : Type}

/-- Fail with `e` unless the check passes. -/
def require (p : Prop) [Decidable p] (e : ε) : Except ε Unit := if p then .ok () else .error e

def okOr (x : Option α) (e : ε) : Except ε α :=
  match x with
  | some a => .ok a
  | none => .error e

/-- Replace whatever error a computation gives. -/
def mapErr (f : ε → ε') (x : Except ε α) : Except ε' α :=
  match x with
  | .ok a => .ok a
  | .error e => .error (f e)

@[simp] theorem require_eq_ok {p : Prop} [Decidable p] {e : ε} {u : Unit} :
    require p e = .ok u ↔ p := by
  unfold require
  split_ifs with h <;> simp [h]

theorem require_of {p : Prop} [Decidable p] (e : ε) (h : p) : require p e = .ok () := if_pos h

@[simp] theorem okOr_eq_ok {x : Option α} {e : ε} {a : α} : okOr x e = .ok a ↔ x = some a := by
  cases x <;> simp [okOr]

@[simp] theorem mapErr_eq_ok {f : ε → ε'} {x : Except ε α} {a : α} :
    mapErr f x = .ok a ↔ x = .ok a := by
  cases x <;> simp [mapErr]

@[simp] theorem except_bind_eq_ok {x : Except ε α} {f : α → Except ε β} {b : β} :
    (x >>= f) = .ok b ↔ ∃ a, x = .ok a ∧ f a = .ok b := by
  cases x <;> simp [bind, Except.bind]

theorem except_ok_bind {a : α} {f : α → Except ε β} : ((.ok a : Except ε α) >>= f) = f a := rfl

@[simp] theorem except_pure_eq_ok {a b : α} : (pure a : Except ε α) = .ok b ↔ a = b := by
  simp [pure, Except.pure]

/-- A list of fallible steps that each succeed with a property succeeds as a whole. -/
theorem mapM_of_forall {f : α → Except ε β} {P : β → Prop} :
    ∀ {l : List α}, (∀ a ∈ l, ∃ b, f a = .ok b ∧ P b) → ∃ bs, l.mapM f = .ok bs ∧ ∀ b ∈ bs, P b
  | [], _ => ⟨[], rfl, by simp⟩
  | a :: l, h => by
    obtain ⟨b, hb, hP⟩ := h a List.mem_cons_self
    obtain ⟨bs, hbs, hPs⟩ := mapM_of_forall fun a' ha' => h a' (List.mem_cons_of_mem a ha')
    refine ⟨b :: bs, ?_, fun b' hb' => ?_⟩
    · simp [hb, hbs]
    · rcases List.mem_cons.mp hb' with rfl | hmem
      · exact hP
      · exact hPs b' hmem

/-- A fold of fallible steps keeps what each of its steps keeps. -/
theorem foldlM_keeps {f : β → α → Except ε β} {P : β → Prop} {l : List α} {b b' : β}
    (hstep : ∀ a ∈ l, ∀ c c', f c a = .ok c' → P c → P c') (h : l.foldlM f b = .ok b') (hb : P b) : P b' := by
  induction l generalizing b with
  | nil =>
    rw [List.foldlM_nil, except_pure_eq_ok] at h
    exact h ▸ hb
  | cons a l ih =>
    rw [List.foldlM_cons, except_bind_eq_ok] at h
    obtain ⟨c, hc, hrest⟩ := h
    exact ih (fun a' ha' => hstep a' (List.mem_cons_of_mem a ha')) hrest (hstep a List.mem_cons_self b c hc hb)

/-- Run the steps in order and collect their results; the first error is the error of the whole. -/
def collect : {n : ℕ} → (Fin n → Except ε α) → Except ε (Fin n → α)
  | 0, _ => .ok Fin.elim0
  | _ + 1, f => do
    let first ← f 0
    let rest ← collect fun i => f i.succ
    return Fin.cons first rest

theorem collect_eq_ok : ∀ {n : ℕ} {f : Fin n → Except ε α} {g : Fin n → α}, collect f = .ok g ↔ ∀ i, f i = .ok (g i)
  | 0, f, g => by
    constructor
    · intro _ i
      exact i.elim0
    · intro _
      exact congrArg Except.ok (funext fun i => i.elim0)
  | n + 1, f, g => by
    simp only [collect, except_bind_eq_ok, except_pure_eq_ok, collect_eq_ok]
    constructor
    · rintro ⟨first, hfirst, rest, hrest, rfl⟩ i
      refine Fin.cases ?_ (fun i => ?_) i
      · exact hfirst
      · exact hrest i
    · intro h
      exact ⟨g 0, h 0, fun i => g i.succ, fun i => h i.succ, Fin.cons_self_tail g⟩

end Checks

abbrev Exec (ε σ α : Type) := EStateM ε σ α

namespace Exec

variable {ε σ α β : Type}

/-- The state in which a run ends, with or without an error. -/
def final (x : Exec ε σ α) (s : σ) : σ :=
  match x s with
  | .ok _ s' => s'
  | .error _ s' => s'

/-- Whether a run ends without an error. -/
def succeeds (x : Exec ε σ α) (s : σ) : Bool :=
  match x s with
  | .ok _ _ => true
  | .error _ _ => false

/-- A run that succeeds ends in its final state. -/
theorem ok_final {x : Exec ε σ Unit} {s : σ} (h : x.succeeds s = true) : x s = .ok () (x.final s) := by
  unfold succeeds at h
  unfold final
  cases hx : x s with
  | ok u t => rfl
  | error e t =>
    rw [hx] at h
    cases h

/-- Whether a run ends without an error and its result and final state pass a test. -/
def yields (x : Exec ε σ α) (s : σ) (test : α → σ → Bool) : Bool :=
  match x s with
  | .ok a s' => test a s'
  | .error _ _ => false

theorem ok_of_yields {x : Exec ε σ α} {s : σ} {test : α → σ → Bool} (h : x.yields s test = true) :
    ∃ a s', x s = .ok a s' ∧ test a s' = true := by
  unfold yields at h
  cases hx : x s with
  | ok a s' =>
    rw [hx] at h
    exact ⟨a, s', rfl, h⟩
  | error e s' =>
    rw [hx] at h
    cases h

/-- Run a read-only computation on the current state. -/
def query (f : σ → Except ε α) : Exec ε σ α := fun s =>
  match f s with
  | .ok a => .ok a s
  | .error e => .error e s

/-- A call into another component: it transforms the state or fails without effect. -/
def call (f : σ → Except ε σ) : Exec ε σ Unit := fun s =>
  match f s with
  | .ok s' => .ok () s'
  | .error e => .error e s

/-- An infallible state change. -/
def update (f : σ → σ) : Exec ε σ Unit := fun s => .ok () (f s)

theorem bind_ok {x : Exec ε σ α} {f : α → Exec ε σ β} {s s' : σ} {b : β} :
    (x >>= f) s = .ok b s' ↔ ∃ a t, x s = .ok a t ∧ f a t = .ok b s' := by
  change EStateM.bind x f s = _ ↔ _
  unfold EStateM.bind
  cases x s <;> simp

theorem bind_error {x : Exec ε σ α} {f : α → Exec ε σ β} {s s' : σ} {e : ε} :
    (x >>= f) s = .error e s' ↔
      x s = .error e s' ∨ ∃ a t, x s = .ok a t ∧ f a t = .error e s' := by
  change EStateM.bind x f s = _ ↔ _
  unfold EStateM.bind
  cases x s <;> simp

theorem pure_ok {a b : α} {s s' : σ} :
    (pure a : Exec ε σ α) s = .ok b s' ↔ a = b ∧ s = s' := by
  change EStateM.pure a s = _ ↔ _
  simp [EStateM.pure]

theorem pure_ne_error {a : α} {e : ε} {s s' : σ} : ¬ (pure a : Exec ε σ α) s = .error e s' := by
  change ¬ EStateM.pure a s = _
  simp [EStateM.pure]

theorem query_ok {f : σ → Except ε α} {s s' : σ} {a : α} :
    query f s = .ok a s' ↔ f s = .ok a ∧ s = s' := by
  unfold query
  cases f s <;> simp

theorem query_error {f : σ → Except ε α} {s s' : σ} {e : ε} :
    query f s = .error e s' ↔ f s = .error e ∧ s = s' := by
  unfold query
  cases f s <;> simp

theorem call_ok {f : σ → Except ε σ} {s s' : σ} {u : Unit} :
    call f s = .ok u s' ↔ f s = .ok s' := by
  unfold call
  cases f s <;> simp

theorem call_error {f : σ → Except ε σ} {s s' : σ} {e : ε} :
    call f s = .error e s' ↔ f s = .error e ∧ s = s' := by
  unfold call
  cases f s <;> simp

theorem update_ok {f : σ → σ} {s s' : σ} {u : Unit} :
    (update f : Exec ε σ Unit) s = .ok u s' ↔ f s = s' := by
  simp [update]

theorem update_ne_error {f : σ → σ} {s s' : σ} {e : ε} :
    ¬ (update f : Exec ε σ Unit) s = .error e s' := by
  simp [update]

/-- Every run of `x` relates its first to its last state, also when it fails. -/
def Steps (R : σ → σ → Prop) (x : Exec ε σ α) : Prop := ∀ s, R s (x.final s)

section Preorder
variable {R : σ → σ → Prop}

theorem steps_pure (hr : ∀ s, R s s) (a : α) : Steps R (pure a : Exec ε σ α) := hr

theorem steps_query (hr : ∀ s, R s s) (f : σ → Except ε α) : Steps R (query f) := by
  intro s
  have hs : (query f).final s = s := by
    unfold final query
    cases f s <;> rfl
  rw [hs]
  exact hr s

theorem steps_call (hr : ∀ s, R s s) {f : σ → Except ε σ} (h : ∀ s s', f s = .ok s' → R s s') :
    Steps R (call f) := by
  intro s
  unfold final call
  cases hf : f s with
  | ok s' => exact h s s' hf
  | error e => exact hr s

theorem steps_bind (ht : ∀ {s t u}, R s t → R t u → R s u) {x : Exec ε σ α}
    {f : α → Exec ε σ β} (hx : Steps R x) (hf : ∀ a, Steps R (f a)) : Steps R (x >>= f) := by
  intro s
  have h := hx s
  change R s (final (EStateM.bind x f) s)
  unfold final EStateM.bind at *
  cases hxs : x s with
  | ok a t =>
    rw [hxs] at h
    exact ht h (hf a t)
  | error e t =>
    rw [hxs] at h
    exact h

end Preorder

theorem Steps.ok {R : σ → σ → Prop} {x : Exec ε σ α} (h : Steps R x) {s s' : σ} {a : α}
    (hx : x s = .ok a s') : R s s' := by
  have := h s
  unfold final at this
  rwa [hx] at this

theorem Steps.error {R : σ → σ → Prop} {x : Exec ε σ α} (h : Steps R x) {s s' : σ} {e : ε}
    (hx : x s = .error e s') : R s s' := by
  have := h s
  unfold final at this
  rwa [hx] at this

/-- A run that fails leaves the state it started in. -/
def Clean (x : Exec ε σ α) : Prop := ∀ s e t, x s = .error e t → t = s

theorem clean_query (f : σ → Except ε α) : Clean (query f) := fun _ _ _ h => (query_error.mp h).2.symm

theorem clean_update (f : σ → σ) : Clean (update f : Exec ε σ Unit) := fun _ _ _ h => absurd h update_ne_error

/-- Checks before a clean program keep it clean. -/
theorem clean_query_bind {f : σ → Except ε α} {g : α → Exec ε σ β} (h : ∀ a, Clean (g a)) :
    Clean (query f >>= g) := by
  intro s e t herror
  rcases bind_error.mp herror with hquery | ⟨a, m, hquery, hrest⟩
  · exact (query_error.mp hquery).2.symm
  · rw [← (query_ok.mp hquery).2] at hrest
    exact h a s e t hrest

end Exec

end Aspis.Lib
