import Aspis.Lib.Run

/-! A file that is replaced as a whole, and a copy of what it holds in the memory
of its one writer. A replacement may report an error before the new content is in
place or after it: then the copy is behind the file. The rules below say what a
run keeps when the writer never writes from a copy that is behind. -/

namespace Aspis.Lib

/-- How a replacement ends: it succeeds, or an error is reported while the old or the new content is in place. -/
inductive Replacement (ε : Type)
  | done
  | before (error : ε)
  | after (error : ε)
  deriving DecidableEq, Repr

variable {ε κ μ : Type}

namespace Replacement

/-- The new content is in place. -/
def takesEffect : Replacement ε → Bool
  | done => true
  | before _ => false
  | after _ => true

/-- What the file holds afterwards. -/
def content (r : Replacement ε) (new : κ) (old : Option κ) : Option κ := if r.takesEffect then some new else old

/-- What the writer is told. -/
def result : Replacement ε → Except ε Unit
  | done => .ok ()
  | before e => .error e
  | after e => .error e

end Replacement

/-- A file and the copy its writer has, if the file is open. -/
structure StoredCopy (κ μ : Type) where
  file : Option κ
  memory : Option μ
  /-- The copy may be behind the file. -/
  stale : Bool
  deriving DecidableEq

namespace StoredCopy

variable (holds : κ → μ → Prop) (grows : μ → μ → Prop)

/-- What a careful writer does: it writes only from a copy that is not behind, and only what grew from it. -/
inductive Step : StoredCopy κ μ → StoredCopy κ μ → Prop
  /-- The file stays; the writer may find that its copy can no longer be trusted. -/
  | keep (s : StoredCopy κ μ) (stale : Bool) (h : s.stale = true → stale = true) : Step s { s with stale := stale }
  | write {k k' : κ} {m m' : μ} (hgrows : grows m m') (hholds : holds k' m') :
      Step ⟨some k, some m, false⟩ ⟨some k', some m', false⟩
  /-- The new content is in place and the writer has lost it or does not know. -/
  | writeLost {k k' : κ} {m m' kept : μ} (hgrows : grows m m') (hholds : holds k' m') :
      Step ⟨some k, some m, false⟩ ⟨some k', some kept, true⟩
  | close (s : StoredCopy κ μ) : Step s ⟨s.file, none, false⟩
  | open {k : κ} {m : μ} (copy : Option μ) (stale : Bool) (hholds : holds k m) :
      Step ⟨some k, copy, stale⟩ ⟨some k, some m, false⟩
  | create {k : κ} {m : μ} (copy : Option μ) (stale : Bool) (opened : Bool) (hholds : holds k m) :
      Step ⟨none, copy, stale⟩ ⟨some k, if opened then some m else none, false⟩

/-- A copy that is not behind is what the file holds. -/
def Synced (s : StoredCopy κ μ) : Prop :=
  ∀ m ∈ s.memory, s.stale = false → ∃ k ∈ s.file, holds k m

/-- What the first file holds has grown into what the second one holds. -/
def Grown (s t : StoredCopy κ μ) : Prop :=
  ∀ k ∈ s.file, ∃ k' ∈ t.file, ∀ m, holds k m → ∃ m', holds k' m' ∧ grows m m'

variable {holds grows}

theorem Step.synced {s t : StoredCopy κ μ} (h : Step holds grows s t) (hs : Synced holds s) : Synced holds t := by
  intro m hm hstale
  cases h with
  | keep _ stale hkeep =>
    refine hs m hm ?_
    cases hold : s.stale with
    | false => rfl
    | true => exact absurd ((hkeep hold).symm.trans hstale) (by simp)
  | write hgrows hholds =>
    cases hm
    exact ⟨_, rfl, hholds⟩
  | writeLost hgrows hholds => exact absurd hstale (by simp)
  | close _ => exact absurd hm (by simp)
  | «open» copy stale hholds =>
    cases hm
    exact ⟨_, rfl, hholds⟩
  | create copy stale opened hholds =>
    cases opened with
    | false => exact absurd hm (by simp)
    | true =>
      cases hm
      exact ⟨_, rfl, hholds⟩

section
variable (hrefl : ∀ m, grows m m) (htrans : ∀ a b c, grows a b → grows b c → grows a c)
  (hsame : ∀ k a b, holds k a → holds k b → grows a b)
include hrefl htrans hsame

theorem Step.grown {s t : StoredCopy κ μ} (h : Step holds grows s t) (hs : Synced holds s) : Grown holds grows s t := by
  have hkept : ∀ k ∈ s.file, t.file = s.file → ∃ k' ∈ t.file, ∀ m, holds k m → ∃ m', holds k' m' ∧ grows m m' := by
    intro k hk hfile
    exact ⟨k, by rw [hfile]; exact hk, fun m hm => ⟨m, hm, hrefl m⟩⟩
  intro k hk
  cases h with
  | keep _ stale hkeep => exact hkept k hk rfl
  | write hgrows hholds =>
    cases hk
    obtain ⟨k₀, hk₀, hm⟩ := hs _ rfl rfl
    cases hk₀
    exact ⟨_, rfl, fun a ha => ⟨_, hholds, htrans _ _ _ (hsame _ _ _ ha hm) hgrows⟩⟩
  | writeLost hgrows hholds =>
    cases hk
    obtain ⟨k₀, hk₀, hm⟩ := hs _ rfl rfl
    cases hk₀
    exact ⟨_, rfl, fun a ha => ⟨_, hholds, htrans _ _ _ (hsame _ _ _ ha hm) hgrows⟩⟩
  | close _ => exact hkept k hk rfl
  | «open» copy stale hholds => exact hkept k hk rfl
  | create copy stale opened hholds => cases hk

omit htrans hsame in
theorem grown_refl (s : StoredCopy κ μ) : Grown holds grows s s :=
  fun k hk => ⟨k, hk, fun m hm => ⟨m, hm, hrefl m⟩⟩

omit hrefl hsame in
theorem Grown.trans {s t u : StoredCopy κ μ} (h : Grown holds grows s t) (h' : Grown holds grows t u) :
    Grown holds grows s u := by
  intro k hk
  obtain ⟨k', hk', hfirst⟩ := h k hk
  obtain ⟨k'', hk'', hsecond⟩ := h' k' hk'
  refine ⟨k'', hk'', fun m hm => ?_⟩
  obtain ⟨m', hm', hg⟩ := hfirst m hm
  obtain ⟨m'', hm'', hg'⟩ := hsecond m' hm'
  exact ⟨m'', hm'', htrans _ _ _ hg hg'⟩

/-- A run of a careful writer: what the file holds only grows, and the copy keeps up with it. -/
theorem run_grown {σ label : Type} {step : σ → label → σ → Prop} (view : σ → StoredCopy κ μ)
    (hstep : ∀ s e t, step s e t → Synced holds (view s) → Step holds grows (view s) (view t))
    {s t : σ} {es : List label} (h : Run step s es t) (hs : Synced holds (view s)) :
    Synced holds (view t) ∧ Grown holds grows (view s) (view t) := by
  induction h with
  | nil s => exact ⟨hs, grown_refl hrefl (view s)⟩
  | cons hfirst _ ih =>
    have hone := hstep _ _ _ hfirst hs
    obtain ⟨hsynced, hgrown⟩ := ih (hone.synced hs)
    exact ⟨hsynced, Grown.trans htrans (hone.grown hrefl htrans hsame hs) hgrown⟩

end

end StoredCopy

end Aspis.Lib
