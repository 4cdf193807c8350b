import Aspis.Registry.Processor

/-! What the accounts of the registry program say. A record is read from an
account the program owns; every account carries at most one kind of record,
because the kinds differ in their magic bytes and an account never changes its
kind. -/

namespace Aspis.Registry

open Lib Chain Statement

/-- The decoded content of an account of the given kind. -/
def Record : RecordKind → Type
  | .registry v => VerifierRegistry v
  | .entry v => VerifierRegistryEntry v

def decodeRecord : (κ : RecordKind) → Bytes → Option (Record κ)
  | .registry v, bytes => (decodeVerifierRegistry v bytes).toOption
  | .entry v, bytes => (decodeVerifierRegistryEntry v bytes).toOption

theorem toOption_eq_some {ε α : Type} {x : Except ε α} {a : α} : x.toOption = some a ↔ x = .ok a := by
  cases x <;> simp [Except.toOption]

theorem decodeRecord_magic {κ : RecordKind} {bytes : Bytes} {r : Record κ} (h : decodeRecord κ bytes = some r) :
    slice 0 4 bytes = κ.magic := by
  cases κ with
  | registry v => exact (decodeVerifierRegistry_ok (toOption_eq_some.mp h)).1
  | entry v => exact (decodeVerifierRegistryEntry_ok (toOption_eq_some.mp h)).1

section
variable (env : RegistryEnvironment)

/-- The record an account of the program carries. -/
def recordAt (κ : RecordKind) (l : Ledger) (k : Pubkey) : Option (Record κ) :=
  if (l k).owner = env.programId then decodeRecord κ (l k).data else none

def registryAt (v : RegistryVersion) (l : Ledger) (k : Pubkey) : Option (VerifierRegistry v) :=
  recordAt env (.registry v) l k

def entryAt (v : RegistryVersion) (l : Ledger) (k : Pubkey) : Option (VerifierRegistryEntry v) :=
  recordAt env (.entry v) l k

/-- An account of the program that carries the given kind of record or only zeros. -/
structure Slot (l : Ledger) (k : Pubkey) (κ : RecordKind) : Prop where
  owned : (l k).owner = env.programId
  content : slice 0 4 (l k).data = κ.magic ∨ allZero (l k).data = true

end

section
variable {env : RegistryEnvironment} {l l' : Ledger} {k key : Pubkey} {κ κ' : RecordKind}

theorem registryAt_eq_some {v : RegistryVersion} {r : VerifierRegistry v} :
    registryAt env v l k = some r ↔ (l k).owner = env.programId ∧ decodeVerifierRegistry v (l k).data = .ok r := by
  unfold registryAt recordAt
  split_ifs with h
  · exact toOption_eq_some.trans (by simp [h])
  · simp [h]

theorem entryAt_eq_some {v : RegistryVersion} {e : VerifierRegistryEntry v} :
    entryAt env v l k = some e ↔
      (l k).owner = env.programId ∧ decodeVerifierRegistryEntry v (l k).data = .ok e := by
  unfold entryAt recordAt
  split_ifs with h
  · exact toOption_eq_some.trans (by simp [h])
  · simp [h]

theorem decodeRecord_zero {bytes : Bytes} (h : allZero bytes = true) : decodeRecord κ bytes = none := by
  cases hd : decodeRecord κ bytes with
  | none => rfl
  | some r =>
    have hzero := allZero_slice 0 4 h
    rw [decodeRecord_magic hd, RecordKind.magic_not_zero] at hzero
    cases hzero

/-- An account of one kind carries no record of another. -/
theorem Slot.recordAt_none (h : Slot env l k κ) (hne : κ' ≠ κ) : recordAt env κ' l k = none := by
  rw [recordAt, if_pos h.owned]
  rcases h.content with hmagic | hzero
  · cases hd : decodeRecord κ' (l k).data with
    | none => rfl
    | some r => exact absurd (RecordKind.magic_inj ((decodeRecord_magic hd).symm.trans hmagic)) hne
  · exact decodeRecord_zero hzero

theorem Slot.of_recordAt {r : Record κ} (h : recordAt env κ l k = some r) : Slot env l k κ := by
  unfold recordAt at h
  split_ifs at h with howner
  exact ⟨howner, .inl (decodeRecord_magic h)⟩

/-- Others change no record. -/
theorem recordAt_outside (h : Outside env.programId l l') : recordAt env κ l' k = recordAt env κ l k := by
  unfold recordAt
  by_cases howner : (l k).owner = env.programId
  · obtain ⟨howner', hdata⟩ := h.kept k howner
    rw [if_pos howner, if_pos howner', hdata]
  · rw [if_neg howner]
    split_ifs with howner'
    · exact decodeRecord_zero (h.fresh k howner howner')
    · rfl

theorem Slot.outside (h : Slot env l k κ) (hout : Outside env.programId l l') : Slot env l' k κ := by
  obtain ⟨howner, hdata⟩ := hout.kept k h.owned
  exact ⟨howner, hdata ▸ h.content⟩

/-- Writing an image of an account's own kind changes no other record. -/
theorem Slot.recordAt_setData {image : Bytes} (h : Slot env l key κ) (himage : slice 0 4 image = κ.magic)
    (hne : k ≠ key ∨ κ' ≠ κ) : recordAt env κ' (setData key image l) k = recordAt env κ' l k := by
  by_cases hk : k = key
  · subst hk
    have hkind : κ' ≠ κ := hne.resolve_left (not_not.mpr rfl)
    have hafter : Slot env (setData k image l) k κ := ⟨by rw [setData_owner]; exact h.owned, .inl (by simpa using himage)⟩
    rw [hafter.recordAt_none hkind, h.recordAt_none hkind]
  · unfold recordAt
    rw [setData_of_ne hk]

theorem Slot.setData {image : Bytes} (h : Slot env l key κ) (hne : key ≠ k) :
    Slot env (setData k image l) key κ := by
  refine ⟨by rw [setData_owner]; exact h.owned, ?_⟩
  rw [setData_of_ne hne]
  exact h.content

end

/-! ### Commits -/

/-- The instruction wrote a registry to the named account and left every other
registry and every entry alone. -/
structure RegistryCommitted (env : RegistryEnvironment) {v : RegistryVersion} (key : Pubkey)
    (registry : VerifierRegistry v) (l l' : Ledger) : Prop where
  registry_after : registryAt env v l' key = some registry
  registries_kept : ∀ w k, k ≠ key ∨ w ≠ v → registryAt env w l' k = registryAt env w l k
  entries_kept : ∀ w k, entryAt env w l' k = entryAt env w l k

/-- The instruction wrote a registry and an entry and left all other records alone. -/
structure EntryCommitted (env : RegistryEnvironment) {v : RegistryVersion} (key entryKey : Pubkey)
    (registry : VerifierRegistry v) (entry : VerifierRegistryEntry v) (l l' : Ledger) : Prop where
  registry_after : registryAt env v l' key = some registry
  entry_after : entryAt env v l' entryKey = some entry
  registries_kept : ∀ w k, k ≠ key ∨ w ≠ v → registryAt env w l' k = registryAt env w l k
  entries_kept : ∀ w k, k ≠ entryKey ∨ w ≠ v → entryAt env w l' k = entryAt env w l k

section
variable {env : RegistryEnvironment} {v : RegistryVersion} {l m l' : Ledger}

theorem registryAt_setData {key : Pubkey} {registry : VerifierRegistry v} (howner : (l key).owner = env.programId)
    (hvalid : validateVerifierRegistry registry = .ok ()) :
    registryAt env v (setData key (registryImage registry) l) key = some registry :=
  registryAt_eq_some.mpr ⟨by rw [setData_owner]; exact howner, by rw [setData_self, decode_registryImage hvalid]⟩

theorem entryAt_setData {key : Pubkey} {entry : VerifierRegistryEntry v} (howner : (l key).owner = env.programId)
    (hvalid : validateVerifierRegistryEntry entry = .ok ()) :
    entryAt env v (setData key (entryImage entry) l) key = some entry :=
  entryAt_eq_some.mpr ⟨by rw [setData_owner]; exact howner, by rw [setData_self, decode_entryImage hvalid]⟩

/-- Preparing accounts and then writing a registry image commits it. -/
theorem RegistryCommitted.of_setData {key : Pubkey} {registry : VerifierRegistry v}
    (hout : Outside env.programId l m) (hslot : Slot env m key (.registry v))
    (hvalid : validateVerifierRegistry registry = .ok ()) :
    RegistryCommitted env key registry l (setData key (registryImage registry) m) where
  registry_after := registryAt_setData hslot.owned hvalid
  registries_kept w k hne := by
    have hkind : k ≠ key ∨ RecordKind.registry w ≠ .registry v := hne.imp_right fun h heq => h (RecordKind.registry.inj heq)
    exact (hslot.recordAt_setData (magic_registryImage registry) hkind).trans (recordAt_outside hout)
  entries_kept w k := by
    have hkind : RecordKind.entry w ≠ .registry v := nofun
    exact (hslot.recordAt_setData (magic_registryImage registry) (.inr hkind)).trans (recordAt_outside hout)

/-- Preparing accounts and then writing a registry and an entry image commits both. -/
theorem EntryCommitted.of_setData {key entryKey : Pubkey} {registry : VerifierRegistry v}
    {entry : VerifierRegistryEntry v} (hne : key ≠ entryKey) (hout : Outside env.programId l m)
    (hslot : Slot env m key (.registry v)) (hentry : Slot env m entryKey (.entry v))
    (hvalid : validateVerifierRegistry registry = .ok ()) (hvalidEntry : validateVerifierRegistryEntry entry = .ok ()) :
    EntryCommitted env key entryKey registry entry l
      (setData entryKey (entryImage entry) (setData key (registryImage registry) m)) := by
  have hfirst := RegistryCommitted.of_setData hout hslot hvalid
  have hslotEntry : Slot env (setData key (registryImage registry) m) entryKey (.entry v) := hentry.setData hne.symm
  have hkept : ∀ κ k, k ≠ entryKey ∨ κ ≠ .entry v →
      recordAt env κ (setData entryKey (entryImage entry) (setData key (registryImage registry) m)) k =
        recordAt env κ (setData key (registryImage registry) m) k :=
    fun κ k h => hslotEntry.recordAt_setData (magic_entryImage entry) h
  refine ⟨?_, entryAt_setData hslotEntry.owned hvalidEntry, fun w k h => ?_, fun w k h => ?_⟩
  · exact (hkept (.registry v) key (.inr nofun)).trans hfirst.registry_after
  · exact (hkept (.registry w) k (.inr nofun)).trans (hfirst.registries_kept w k h)
  · have hkind : k ≠ entryKey ∨ RecordKind.entry w ≠ .entry v := h.imp_right fun hw heq => hw (RecordKind.entry.inj heq)
    exact (hkept (.entry w) k hkind).trans (hfirst.entries_kept w k)

end

end Aspis.Registry
