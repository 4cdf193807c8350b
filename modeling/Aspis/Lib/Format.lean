import Aspis.Lib.Bytes

/-! Formats of byte strings. A format is a reader and a writer of one type of
values; it is exact when the reader accepts just what the writer gives for the
values that fit the format, and returns the value that was written. -/

namespace Aspis.Lib

/-- A reader, a writer, and the values whose fields fit the widths of the format. -/
structure Format (α : Type) where
  decode : Bytes → Option α
  encode : α → Option Bytes
  Fits : α → Prop

namespace Format

variable {α ε δ : Type}

/-- The format of a fallible reader and a fallible writer. -/
def ofExcept (decode : Bytes → Except ε α) (encode : α → Except δ Bytes) (Fits : α → Prop) : Format α :=
  ⟨fun bytes => (decode bytes).toOption, fun v => (encode v).toOption, Fits⟩

def Accepts (F : Format α) (bytes : Bytes) : Prop := ∃ v, F.decode bytes = some v

/-- The value fits the format and the writer does not refuse it. -/
def Valid (F : Format α) (v : α) : Prop := F.Fits v ∧ ∃ bytes, F.encode v = some bytes

/-- Reading `v` from some bytes is the same as writing them for `v`. -/
def Exact (F : Format α) : Prop := ∀ bytes v, F.decode bytes = some v ↔ F.Fits v ∧ F.encode v = some bytes

theorem toOption_eq_some {x : Except ε α} {v : α} : x.toOption = some v ↔ x = .ok v := by
  cases x <;> simp [Except.toOption]

/-- A format is exact when what is written reads back and what is read was written. -/
theorem exact_ofExcept {decode : Bytes → Except ε α} {encode : α → Except δ Bytes} {Fits : α → Prop}
    (hreads : ∀ bytes v, Fits v → encode v = .ok bytes → decode bytes = .ok v)
    (hwritten : ∀ bytes v, decode bytes = .ok v → Fits v ∧ encode v = .ok bytes) :
    (ofExcept decode encode Fits).Exact := by
  intro bytes v
  simp only [ofExcept, toOption_eq_some]
  exact ⟨hwritten bytes v, fun h => hreads bytes v h.1 h.2⟩

namespace Exact

variable {F : Format α}

/-- The accepted byte strings are the encodings of the values that fit. -/
theorem accepts_iff (h : F.Exact) (bytes : Bytes) : F.Accepts bytes ↔ ∃ v, F.Fits v ∧ F.encode v = some bytes := by
  constructor
  · rintro ⟨v, hv⟩
    exact ⟨v, (h bytes v).mp hv⟩
  · rintro ⟨v, hv⟩
    exact ⟨v, (h bytes v).mpr hv⟩

/-- A valid value has exactly one accepted image. -/
theorem existsUnique_image (h : F.Exact) {v : α} (hv : F.Valid v) : ∃! bytes, F.decode bytes = some v := by
  obtain ⟨hfits, bytes, hbytes⟩ := hv
  refine ⟨bytes, (h bytes v).mpr ⟨hfits, hbytes⟩, fun other hother => ?_⟩
  have hsame := ((h other v).mp hother).2
  rw [hbytes] at hsame
  exact (Option.some.inj hsame).symm

end Exact

end Format

end Aspis.Lib
