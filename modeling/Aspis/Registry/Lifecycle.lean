import Aspis.Registry.Program

/-! The lifecycle of registries and entries over whole runs: generations only
rise, one expected generation is used once, an entry moves from pending to
active to retired, and a profile that has an active entry never loses its last
one. -/

namespace Aspis.Registry

open Lib Chain Statement

/-- The registry and the expected generation of an accepted mutation. -/
def RegistryEvent.mutation : RegistryEvent → Option (Pubkey × UInt64)
  | .accepted _ accounts i => do return (← registryKeyOf accounts, ← i.expectedGeneration)
  | _ => none

def RegistryEvent.mutates (key : Pubkey) (expected : UInt64) (e : RegistryEvent) : Bool :=
  e.mutation = some (key, expected)

/-- The moves of an entry; only its status and its retirement slot ever change. -/
inductive EntryMoves {v : RegistryVersion} (e : VerifierRegistryEntry v) : VerifierRegistryEntry v → Prop
  | same : EntryMoves e e
  | activated (pending : e.status = .pending) : EntryMoves e { e with status := .active }
  | retired (active : e.status = .active) (slot : UInt64) :
      EntryMoves e { e with status := .retired, retirementSlot := slot }

/-- The entry account an instruction writes. -/
def RegistryInstruction.entryTarget {v : RegistryVersion} (accounts : List AccountInfo) :
    RegistryInstruction v → Option Pubkey
  | .scheduleProfile _ _ _ _ _ _ _ => entryKeyOf accounts
  | .activate _ => entryKeyOf accounts
  | .retire _ => entryKeyOf accounts
  | _ => none

theorem ne_of_target {accounts : List AccountInfo} {k entryKey : Pubkey} {v w : RegistryVersion}
    (hkey : entryKeyOf accounts = some entryKey) (hother : ¬ (entryKeyOf accounts = some k ∧ w = v)) :
    k ≠ entryKey ∨ w ≠ v := by
  by_contra hsame
  rw [not_or, not_not, not_not] at hsame
  exact hother ⟨hsame.1 ▸ hkey, hsame.2⟩

section
variable {env : RegistryEnvironment} {v w : RegistryVersion} {accounts : List AccountInfo} {slot : UInt64}
  {l l' : Ledger} {i : RegistryInstruction v} {k : Pubkey}

/-! ### Registries -/

/-- An accepted instruction opens a registry on a fresh account or mutates one. -/
theorem Accepted.registries (h : Accepted env accounts slot l l' i) :
    (i.expectedGeneration = none ∧ ∃ key, (∀ κ, recordAt env κ l key = none) ∧
      ∀ w k, k ≠ key → registryAt env w l' k = registryAt env w l k) ∨
    ∃ (key : Pubkey) (expected : UInt64) (r next : VerifierRegistry v), i.expectedGeneration = some expected ∧
      Mutates env accounts key expected r next l ∧ registryAt env v l' key = some next ∧
      ∀ w k, k ≠ key ∨ w ≠ v → registryAt env w l' k = registryAt env w l k := by
  cases h with
  | initialized key_eq fresh committed =>
    exact .inl ⟨rfl, _, fresh, fun w k hne => committed.registries_kept w k (.inl hne)⟩
  | scheduled mutates _ _ _ committed =>
    exact .inr ⟨_, _, _, _, rfl, mutates, committed.registry_after, committed.registries_kept⟩
  | paused changed =>
    obtain ⟨key, r, next, mutates, committed⟩ := changed
    exact .inr ⟨key, _, r, next, rfl, mutates, committed.registry_after, committed.registries_kept⟩
  | unpaused changed =>
    obtain ⟨key, r, next, mutates, committed⟩ := changed
    exact .inr ⟨key, _, r, next, rfl, mutates, committed.registry_after, committed.registries_kept⟩
  | activated mutates _ _ _ _ committed =>
    exact .inr ⟨_, _, _, _, rfl, mutates, committed.registry_after, committed.registries_kept⟩
  | retired mutates _ _ _ _ _ _ committed =>
    exact .inr ⟨_, _, _, _, rfl, mutates, committed.registry_after, committed.registries_kept⟩
  | frozen changed =>
    obtain ⟨key, r, next, mutates, committed⟩ := changed
    exact .inr ⟨key, _, r, next, rfl, mutates, committed.registry_after, committed.registries_kept⟩

/-- A later version of a registry. -/
structure Succeeds (r r' : VerifierRegistry v) : Prop where
  generation : r.generation.toNat ≤ r'.generation.toNat
  pool : r'.pool = r.pool
  policy : r'.policyBinding = r.policyBinding
  delay : r'.minimumActivationDelaySlots = r.minimumActivationDelaySlots

theorem Succeeds.refl (r : VerifierRegistry v) : Succeeds r r := ⟨le_refl _, rfl, rfl, rfl⟩

theorem Accepted.registry_succeeds (h : Accepted env accounts slot l l' i) {r : VerifierRegistry w}
    (hr : registryAt env w l k = some r) : ∃ r', registryAt env w l' k = some r' ∧ Succeeds r r' := by
  rcases h.registries with ⟨-, key, hfresh, hkept⟩ | ⟨key, expected, before, next, -, hmutates, hafter, hkept⟩
  · have hne : k ≠ key := by
      intro heq
      have hnone : registryAt env w l key = none := hfresh (.registry w)
      rw [heq, hnone] at hr
      cases hr
    exact ⟨r, (hkept w k hne).trans hr, Succeeds.refl r⟩
  · by_cases hsame : k = key ∧ w = v
    · obtain ⟨rfl, rfl⟩ := hsame
      obtain rfl : before = r := Option.some_inj.mp (hmutates.before.symm.trans hr)
      have hgeneration := congrArg UInt64.toNat hmutates.generation
      exact ⟨next, hafter, by have := hmutates.raised; omega, hmutates.pool, hmutates.policy, hmutates.delay⟩
    · exact ⟨r, (hkept w k (not_and_or.mp hsame)).trans hr, Succeeds.refl r⟩

/-- An account carries a registry of one version only. -/
theorem registryAt_version {r : VerifierRegistry v} {r' : VerifierRegistry w} (h : registryAt env v l k = some r)
    (h' : registryAt env w l k = some r') : w = v := by
  by_contra hne
  have hkind : RecordKind.registry w ≠ .registry v := fun heq => hne (RecordKind.registry.inj heq)
  have hnone : registryAt env w l k = none := (Slot.of_recordAt h).recordAt_none hkind
  rw [hnone] at h'
  cases h'

/-! ### Entries -/

/-- What an accepted instruction did to one entry account. -/
inductive EntryEffect (env : RegistryEnvironment) {v : RegistryVersion} (accounts : List AccountInfo) (slot : UInt64)
    (l l' : Ledger) : RegistryInstruction v → RegistryVersion → Pubkey → Prop
  | kept {i : RegistryInstruction v} {w : RegistryVersion} {k : Pubkey}
      (other : ¬ (i.entryTarget accounts = some k ∧ w = v)) (same : entryAt env w l' k = entryAt env w l k) :
      EntryEffect env accounts slot l l' i w k
  | scheduled {key k : Pubkey} {r next : VerifierRegistry v} {expected activationSlot : UInt64}
      {verifierProgram profileBinding releaseBinding : Bytes32} {statementVersion : UInt8} {hash : ExecutableHash v}
      {deployment : EntryDeployment v} (mutates : Mutates env accounts key expected r next l)
      (registry_after : registryAt env v l' key = some next) (target : entryKeyOf accounts = some k)
      (before : entryAt env v l k = none)
      (delayed : slot.toNat + r.minimumActivationDelaySlots.toNat ≤ activationSlot.toNat)
      (after : entryAt env v l' k = some (scheduledEntry r verifierProgram profileBinding releaseBinding
        statementVersion activationSlot deployment)) :
      EntryEffect env accounts slot l l' (.scheduleProfile expected verifierProgram profileBinding releaseBinding
        statementVersion activationSlot hash) v k
  | activated {k : Pubkey} {expected : UInt64} {entry : VerifierRegistryEntry v}
      (target : entryKeyOf accounts = some k) (before : entryAt env v l k = some entry)
      (pending : entry.status = .pending) (elapsed : entry.activationSlot ≤ slot)
      (after : entryAt env v l' k = some { entry with status := .active }) :
      EntryEffect env accounts slot l l' (.activate expected) v k
  | retired {k replacementKey : Pubkey} {expected : UInt64} {entry replacement : VerifierRegistryEntry v}
      (target : entryKeyOf accounts = some k) (before : entryAt env v l k = some entry)
      (active : entry.status = .active) (replacement_after : entryAt env v l' replacementKey = some replacement)
      (compatible : replacement.isExactCompatibleReplacementFor entry slot = true)
      (after : entryAt env v l' k = some { entry with status := .retired, retirementSlot := slot }) :
      EntryEffect env accounts slot l l' (.retire expected) v k

/-- The one entry an instruction may change. -/
theorem Accepted.entry_effect (h : Accepted env accounts slot l l' i) (w : RegistryVersion) (k : Pubkey) :
    EntryEffect env accounts slot l l' i w k := by
  cases h with
  | initialized _ _ committed => exact .kept nofun (committed.entries_kept w k)
  | paused changed =>
    obtain ⟨_, _, _, _, committed⟩ := changed
    exact .kept nofun (committed.entries_kept w k)
  | unpaused changed =>
    obtain ⟨_, _, _, _, committed⟩ := changed
    exact .kept nofun (committed.entries_kept w k)
  | frozen changed =>
    obtain ⟨_, _, _, _, committed⟩ := changed
    exact .kept nofun (committed.entries_kept w k)
  | scheduled mutates entryKey_eq fresh delayed committed =>
    by_cases hsame : entryKeyOf accounts = some k ∧ w = v
    · obtain ⟨htarget, rfl⟩ := hsame
      obtain rfl := Option.some_inj.mp (entryKey_eq.symm.trans htarget)
      exact .scheduled mutates committed.registry_after htarget (fresh (.entry w)) delayed committed.entry_after
    · exact .kept hsame (committed.entries_kept w k (ne_of_target entryKey_eq hsame))
  | activated _ entryKey_eq entry_before pending elapsed committed =>
    by_cases hsame : entryKeyOf accounts = some k ∧ w = v
    · obtain ⟨htarget, rfl⟩ := hsame
      obtain rfl := Option.some_inj.mp (entryKey_eq.symm.trans htarget)
      exact .activated htarget entry_before pending elapsed committed.entry_after
    · exact .kept hsame (committed.entries_kept w k (ne_of_target entryKey_eq hsame))
  | retired _ entryKey_eq entry_before active distinct replacement_before compatible committed =>
    by_cases hsame : entryKeyOf accounts = some k ∧ w = v
    · obtain ⟨htarget, rfl⟩ := hsame
      obtain rfl := Option.some_inj.mp (entryKey_eq.symm.trans htarget)
      have hreplacement := (committed.entries_kept w _ (.inl distinct)).trans replacement_before
      exact .retired htarget entry_before active hreplacement compatible committed.entry_after
    · exact .kept hsame (committed.entries_kept w k (ne_of_target entryKey_eq hsame))

theorem Accepted.entry_moves (h : Accepted env accounts slot l l' i) {entry : VerifierRegistryEntry w}
    (hentry : entryAt env w l k = some entry) : ∃ entry', entryAt env w l' k = some entry' ∧ EntryMoves entry entry' := by
  cases h.entry_effect w k with
  | kept _ same => exact ⟨entry, same.trans hentry, .same⟩
  | scheduled _ _ _ before =>
    rw [before] at hentry
    cases hentry
  | activated _ before pending _ after =>
    obtain rfl := Option.some_inj.mp (before.symm.trans hentry)
    exact ⟨_, after, .activated pending⟩
  | retired _ before active _ _ after =>
    obtain rfl := Option.some_inj.mp (before.symm.trans hentry)
    exact ⟨_, after, .retired active slot⟩

/-! ### Entries of reachable states -/

/-- What holds of an entry at every slot from the given one on, until it is written again. -/
structure EntrySound (entry : VerifierRegistryEntry v) (slot : UInt64) : Prop where
  not_paused : entry.status ≠ .paused
  no_retirement : entry.status ≠ .retired → entry.hasNoRetirementSlot = true
  elapsed : entry.status = .active → entry.activationSlot ≤ slot

/-- Every entry on the ledger is sound. -/
def EntriesSound (env : RegistryEnvironment) (s : RegistryState) : Prop :=
  ∀ v k (entry : VerifierRegistryEntry v), entryAt env v s.ledger k = some entry → EntrySound entry s.slot

theorem EntrySound.later {entry : VerifierRegistryEntry v} {slot slot' : UInt64} (h : EntrySound entry slot)
    (hle : slot ≤ slot') : EntrySound entry slot' :=
  ⟨h.not_paused, h.no_retirement, fun hactive => UInt64.le_trans (h.elapsed hactive) hle⟩

/-- An active entry stays active for the pool at every later slot. -/
theorem EntrySound.isActiveAt {entry : VerifierRegistryEntry v} {slot : UInt64} (h : EntrySound entry slot)
    (hactive : entry.status = .active) : entry.isActiveAt slot = true := by
  have hnot : entry.status ≠ .retired := by
    rw [hactive]
    decide
  exact isActiveAt_iff.mpr ⟨hactive, h.elapsed hactive, .inl (h.no_retirement hnot)⟩

theorem EntriesSound.step {s t : RegistryState} {e : RegistryEvent} (h : EntriesSound env s) (hstep : Step env s e t) :
    EntriesSound env t := by
  have hslot : s.slot ≤ t.slot := hstep.slot_eq ▸ hstep.slot_le
  intro w k entry hentry
  rcases hstep.cases with hkept | ⟨v, slot, accounts, i, rfl, heq, haccepted⟩
  · have hbefore : entryAt env w s.ledger k = some entry := (hkept (.entry w) k).symm.trans hentry
    exact (h w k entry hbefore).later hslot
  · cases haccepted.entry_effect w k with
    | kept _ same => exact (h w k entry (same.symm.trans hentry)).later hslot
    | scheduled _ _ _ _ _ after =>
      obtain rfl := Option.some_inj.mp (after.symm.trans hentry)
      exact ⟨nofun, fun _ => decide_eq_true rfl, nofun⟩
    | activated _ before pending elapsed after =>
      obtain rfl := Option.some_inj.mp (after.symm.trans hentry)
      have hsound := h _ k _ before
      refine ⟨nofun, fun _ => hsound.no_retirement ?_, fun _ => heq ▸ elapsed⟩
      rw [pending]
      decide
    | retired _ _ _ _ _ after =>
      obtain rfl := Option.some_inj.mp (after.symm.trans hentry)
      exact ⟨nofun, fun hne => absurd rfl hne, nofun⟩

theorem Genesis.entriesSound {s : RegistryState} (h : Genesis env s) : EntriesSound env s := by
  intro v k entry hentry
  have hnone : entryAt env v s.ledger k = none := h.recordAt_none (.entry v) k
  rw [hnone] at hentry
  cases hentry

theorem Runs.entriesSound {s t : RegistryState} {events : List RegistryEvent} (h : Runs env s events t)
    (hs : EntriesSound env s) : EntriesSound env t := by
  induction h with
  | nil => exact hs
  | cons hstep _ ih => exact ih (hs.step hstep)

/-! ### Continuity -/

/-- Some entry is active for the pool, the profile and the statement version. -/
def HasActive (env : RegistryEnvironment) (v : RegistryVersion) (pool profileBinding : Bytes32)
    (statementVersion : UInt8) (s : RegistryState) : Prop :=
  ∃ k entry, entryAt env v s.ledger k = some entry ∧ entry.pool = pool ∧ entry.profileBinding = profileBinding ∧
    entry.statementVersion = statementVersion ∧ entry.isActiveAt s.slot = true

theorem isExactCompatibleReplacementFor_iff {e retiring : VerifierRegistryEntry v} {slot : UInt64} :
    e.isExactCompatibleReplacementFor retiring slot = true ↔ e.pool = retiring.pool ∧
      e.policyBinding = retiring.policyBinding ∧ e.profileBinding = retiring.profileBinding ∧
      e.statementVersion = retiring.statementVersion ∧ e.releaseBinding ≠ retiring.releaseBinding ∧
      e.isActiveAt slot = true := decide_eq_true_iff

theorem HasActive.step {pool profileBinding : Bytes32} {statementVersion : UInt8} {s t : RegistryState}
    {e : RegistryEvent} (hsound : EntriesSound env s) (hstep : Step env s e t)
    (h : HasActive env w pool profileBinding statementVersion s) :
    HasActive env w pool profileBinding statementVersion t := by
  obtain ⟨k, entry, hentry, rfl, rfl, rfl, hactive⟩ := h
  have hstatus := (isActiveAt_iff.mp hactive).1
  have hkeeps : entryAt env w t.ledger k = some entry →
      HasActive env w entry.pool entry.profileBinding entry.statementVersion t := by
    intro hafter
    exact ⟨k, entry, hafter, rfl, rfl, rfl, (hsound.step hstep w k entry hafter).isActiveAt hstatus⟩
  rcases hstep.cases with hkept | ⟨v, slot, accounts, i, rfl, heq, haccepted⟩
  · exact hkeeps ((hkept (.entry w) k).trans hentry)
  · cases haccepted.entry_effect w k with
    | kept _ same => exact hkeeps (same.trans hentry)
    | scheduled _ _ _ before =>
      rw [before] at hentry
      cases hentry
    | activated _ before pending =>
      obtain rfl := Option.some_inj.mp (before.symm.trans hentry)
      rw [pending] at hstatus
      cases hstatus
    | retired _ before _ replacement_after compatible =>
      obtain rfl := Option.some_inj.mp (before.symm.trans hentry)
      obtain ⟨hpool, -, hprofile, hversion, -, hnow⟩ := isExactCompatibleReplacementFor_iff.mp compatible
      exact ⟨_, _, replacement_after, hpool, hprofile, hversion, heq ▸ hnow⟩

/-! ### Generations -/

/-- An accepted mutation found its registry at the expected generation and left it one generation on. -/
def RaisesGeneration (env : RegistryEnvironment) (s t : RegistryState) : RegistryEvent → Prop
  | @RegistryEvent.accepted v _ accounts i => ∀ expected, i.expectedGeneration = some expected →
      ∃ (key : Pubkey) (r next : VerifierRegistry v), registryKeyOf accounts = some key ∧
        registryAt env v s.ledger key = some r ∧ r.generation = expected ∧
        registryAt env v t.ledger key = some next ∧ next.generation.toNat = r.generation.toNat + 1 ∧
        ∀ w k, k ≠ key ∨ w ≠ v → registryAt env w t.ledger k = registryAt env w s.ledger k
  | _ => True

theorem Step.raisesGeneration {s t : RegistryState} {e : RegistryEvent} (h : Step env s e t) :
    RaisesGeneration env s t e := by
  cases e with
  | outside slot => trivial
  | rejected slot accounts i => trivial
  | accepted slot accounts i =>
    intro expected hexpected
    rcases (processDecodedInstruction_accepted h.ledger).registries with ⟨hnone, -⟩ | hmutation
    · rw [hnone] at hexpected
      cases hexpected
    · obtain ⟨key, expected', r, next, hexpected', hmutates, hafter, hkept⟩ := hmutation
      obtain rfl := Option.some_inj.mp (hexpected'.symm.trans hexpected)
      have hgeneration := hmutates.generation
      exact ⟨key, r, next, hmutates.key_eq, hmutates.before, hgeneration, hafter, by rw [hmutates.raised, hgeneration],
        hkept⟩

/-- Some registry at the account has passed the generation. -/
def PastGeneration (env : RegistryEnvironment) (key : Pubkey) (expected : UInt64) (s : RegistryState) : Prop :=
  ∃ (v : RegistryVersion) (r : VerifierRegistry v), registryAt env v s.ledger key = some r ∧
    expected.toNat < r.generation.toNat

theorem PastGeneration.step {key : Pubkey} {expected : UInt64} {s t : RegistryState} {e : RegistryEvent}
    (hstep : Step env s e t) (h : PastGeneration env key expected s) : PastGeneration env key expected t := by
  obtain ⟨w, r, hr, hlt⟩ := h
  rcases hstep.cases with hkept | ⟨v, slot, accounts, i, rfl, -, haccepted⟩
  · exact ⟨w, r, (hkept (.registry w) key).trans hr, hlt⟩
  · obtain ⟨r', hr', hsucceeds⟩ := haccepted.registry_succeeds hr
    exact ⟨w, r', hr', lt_of_lt_of_le hlt hsucceeds.generation⟩

theorem mutates_accepted {key : Pubkey} {expected : UInt64} {e : RegistryEvent} (h : e.mutates key expected = true) :
    ∃ (v : RegistryVersion) (slot : UInt64) (accounts : List AccountInfo) (i : RegistryInstruction v),
      e = .accepted slot accounts i ∧ registryKeyOf accounts = some key ∧ i.expectedGeneration = some expected := by
  have hmutation : e.mutation = some (key, expected) := of_decide_eq_true h
  cases e with
  | outside slot => cases hmutation
  | rejected slot accounts i => cases hmutation
  | accepted slot accounts i =>
    simp only [RegistryEvent.mutation, Option.bind_eq_bind, Option.bind_eq_some_iff, Option.pure_def, Option.some.injEq,
      Prod.mk.injEq] at hmutation
    obtain ⟨_, hkey, _, hexpected, rfl, rfl⟩ := hmutation
    exact ⟨_, slot, accounts, i, rfl, hkey, hexpected⟩

/-- A mutation finds its registry at the expected generation and takes it past. -/
theorem Step.passes_generation {key : Pubkey} {expected : UInt64} {s t : RegistryState} {e : RegistryEvent}
    (h : Step env s e t) (hmutates : e.mutates key expected = true) :
    ¬ PastGeneration env key expected s ∧ PastGeneration env key expected t := by
  obtain ⟨v, slot, accounts, i, rfl, hkey, hexpected⟩ := mutates_accepted hmutates
  obtain ⟨key', r, next, hkey', hr, rfl, hnext, hraised, -⟩ := h.raisesGeneration expected hexpected
  obtain rfl := Option.some_inj.mp (hkey'.symm.trans hkey)
  refine ⟨?_, v, next, hnext, by omega⟩
  rintro ⟨w, r', hr', hlt⟩
  obtain rfl := registryAt_version hr hr'
  obtain rfl := Option.some_inj.mp (hr.symm.trans hr')
  exact absurd hlt (lt_irrefl _)

/-! ### The lifecycle -/

/-- A new entry starts pending. -/
theorem Step.entry_opened {s t : RegistryState} {e : RegistryEvent} {entry : VerifierRegistryEntry w}
    (h : Step env s e t) (hbefore : entryAt env w s.ledger k = none) (hafter : entryAt env w t.ledger k = some entry) :
    entry.status = .pending := by
  have hchanged : ¬ entryAt env w t.ledger k = entryAt env w s.ledger k := by
    rw [hbefore, hafter]
    nofun
  rcases h.cases with hkept | ⟨v, slot, accounts, i, rfl, -, haccepted⟩
  · exact absurd (hkept (.entry w) k) hchanged
  · cases haccepted.entry_effect w k with
    | kept _ same => exact absurd same hchanged
    | scheduled _ _ _ _ _ after =>
      obtain rfl := Option.some_inj.mp (after.symm.trans hafter)
      rfl
    | activated _ before =>
      rw [before] at hbefore
      cases hbefore
    | retired _ before =>
      rw [before] at hbefore
      cases hbefore

theorem Step.entry_moves {s t : RegistryState} {e : RegistryEvent} {entry : VerifierRegistryEntry w}
    (h : Step env s e t) (hentry : entryAt env w s.ledger k = some entry) :
    ∃ entry', entryAt env w t.ledger k = some entry' ∧ EntryMoves entry entry' := by
  rcases h.cases with hkept | ⟨v, slot, accounts, i, rfl, -, haccepted⟩
  · exact ⟨entry, (hkept (.entry w) k).trans hentry, .same⟩
  · exact haccepted.entry_moves hentry

theorem Step.registry_succeeds {s t : RegistryState} {e : RegistryEvent} {r : VerifierRegistry w} (h : Step env s e t)
    (hr : registryAt env w s.ledger k = some r) : ∃ r', registryAt env w t.ledger k = some r' ∧ Succeeds r r' := by
  rcases h.cases with hkept | ⟨v, slot, accounts, i, rfl, -, haccepted⟩
  · exact ⟨r, (hkept (.registry w) k).trans hr, Succeeds.refl r⟩
  · exact haccepted.registry_succeeds hr

theorem HasActive.run {pool profileBinding : Bytes32} {statementVersion : UInt8} {s t : RegistryState}
    {events : List RegistryEvent} (hsound : EntriesSound env s) (hrun : Runs env s events t)
    (h : HasActive env w pool profileBinding statementVersion s) :
    HasActive env w pool profileBinding statementVersion t := by
  induction hrun with
  | nil => exact h
  | cons hstep _ ih => exact ih (hsound.step hstep) (h.step hsound hstep)

/-- After any run of the registry program: the next mutation, whatever it is, raises the
generation of its registry by one and touches no other registry; no two mutations of the
run named the same registry and generation; the next step moves an entry at most one status on
and opens a new one as pending; and a profile with an active entry keeps one for ever. -/
theorem registry_lifecycle {start s : RegistryState} {events : List RegistryEvent} (hstart : Genesis env start)
    (hrun : Runs env start events s) :
    (∀ e t, Step env s e t → RaisesGeneration env s t e) ∧
    (∀ key expected, events.countP (RegistryEvent.mutates key expected) ≤ 1) ∧
    (∀ v k (entry : VerifierRegistryEntry v) e t, Step env s e t → entryAt env v s.ledger k = some entry →
      entry.status ≠ .paused ∧ ∃ entry', entryAt env v t.ledger k = some entry' ∧ EntryMoves entry entry') ∧
    (∀ v k (entry : VerifierRegistryEntry v) e t, Step env s e t → entryAt env v s.ledger k = none →
      entryAt env v t.ledger k = some entry → entry.status = .pending) ∧
    ∀ v pool profileBinding statementVersion later t, HasActive env v pool profileBinding statementVersion s →
      Runs env s later t → HasActive env v pool profileBinding statementVersion t := by
  have hsound : EntriesSound env s := Runs.entriesSound hrun hstart.entriesSound
  refine ⟨fun e t hstep => hstep.raisesGeneration, fun key expected => ?_, fun v k entry e t hstep hentry => ?_,
    fun v k entry e t hstep => hstep.entry_opened, fun v pool profileBinding statementVersion later t h hlater => ?_⟩
  · exact hrun.countP_le_one (fun s e t hstep => PastGeneration.step hstep)
      (fun s e t hstep hmutates => (hstep.passes_generation hmutates).1)
      (fun s e t hstep hmutates => (hstep.passes_generation hmutates).2)
  · exact ⟨(hsound v k entry hentry).not_paused, hstep.entry_moves hentry⟩
  · exact h.run hsound hlater

end

/-! ### A sample run

A deployment whose addresses are sums of their seeds: one registry is opened,
one entry is scheduled under it and activated when its delay is over. -/

namespace Sample

def environment : RegistryEnvironment where
  programId := Bytes32.filled 9
  findProgramAddress seeds _ := (Bytes32.filled (seeds.flatten.foldl UInt8.add 0), 255)
  minimumBalance _ := 1
  deserializeLoaderState _ := none
  hash _ := Bytes32.zero
  programId_ne_system := by decide

def start : RegistryState where
  ledger k := if k = systemProgram then ⟨Pool.nativeLoader, 1, [], true⟩
    else ⟨systemProgram, if k = Bytes32.filled 6 then 1000 else 0, [], false⟩
  slot := 0

def pool : Pubkey := Bytes32.filled 1

def registryAccount : AccountInfo :=
  ⟨(poolV1VerifierRegistryAddress environment.findProgramAddress .v1 environment.programId pool).1, false, true⟩

def entryAccount : AccountInfo :=
  ⟨(poolV1VerifierEntryAddress environment.findProgramAddress .v1 environment.programId pool (Bytes32.filled 3)
    (Bytes32.filled 4)).1, false, true⟩

def authority : AccountInfo := ⟨Bytes32.filled 7, true, false⟩

def payer : AccountInfo := ⟨Bytes32.filled 6, true, true⟩

def system : AccountInfo := ⟨systemProgram, false, false⟩

def openRegistry : RegistryHandler Unit :=
  processDecodedInstruction environment [registryAccount, authority, payer, system] 1
    (.initializeRegistry (v := .v1) pool (Bytes32.filled 2) 10 ())

def schedule : RegistryHandler Unit :=
  processDecodedInstruction environment [registryAccount, entryAccount, authority, payer, system] 2
    (.scheduleProfile (v := .v1) 0 (Bytes32.filled 5) (Bytes32.filled 3) (Bytes32.filled 4) 1 12 ())

def activate : RegistryHandler Unit :=
  processDecodedInstruction environment [registryAccount, entryAccount, authority] 12 (.activate (v := .v1) 1)

def opened : RegistryState := ⟨openRegistry.final start.ledger, 1⟩

def scheduled : RegistryState := ⟨schedule.final opened.ledger, 2⟩

def activated : RegistryState := ⟨activate.final scheduled.ledger, 12⟩

def events : List RegistryEvent :=
  [.accepted 1 [registryAccount, authority, payer, system] (.initializeRegistry (v := .v1) pool (Bytes32.filled 2) 10 ()),
    .accepted 2 [registryAccount, entryAccount, authority, payer, system]
      (.scheduleProfile (v := .v1) 0 (Bytes32.filled 5) (Bytes32.filled 3) (Bytes32.filled 4) 1 12 ()),
    .accepted 12 [registryAccount, entryAccount, authority] (.activate (v := .v1) 1)]

theorem genesis : Genesis environment start := by
  intro k _
  change allZero (if k = systemProgram then _ else _ : Account).data = true
  split_ifs <;> rfl

set_option maxRecDepth 100000 in
theorem instructions_succeed : openRegistry.succeeds start.ledger = true ∧ schedule.succeeds opened.ledger = true ∧
    activate.succeeds scheduled.ledger = true := by
  decide +kernel

set_option maxRecDepth 100000 in
theorem openRegistry_ok : openRegistry start.ledger = .ok () opened.ledger := Exec.ok_final instructions_succeed.1

set_option maxRecDepth 100000 in
theorem schedule_ok : schedule opened.ledger = .ok () scheduled.ledger := Exec.ok_final instructions_succeed.2.1

set_option maxRecDepth 100000 in
theorem activate_ok : activate scheduled.ledger = .ok () activated.ledger := Exec.ok_final instructions_succeed.2.2

theorem runs : Runs environment start events activated := by
  refine .cons (t := opened) ⟨?_, rfl, openRegistry_ok⟩ ?_
  · decide
  refine .cons (t := scheduled) ⟨?_, rfl, schedule_ok⟩ ?_
  · decide
  refine .cons (t := activated) ⟨?_, rfl, activate_ok⟩ (.nil activated)
  decide

end Sample

/-- In the sample run no generation is used twice and the activated entry stays active. -/
theorem registry_lifecycle_sample :
    (∀ key expected, Sample.events.countP (RegistryEvent.mutates key expected) ≤ 1) ∧
      ∀ later t, HasActive Sample.environment .v1 Sample.pool (Bytes32.filled 3) 1 Sample.activated →
        Runs Sample.environment Sample.activated later t →
        HasActive Sample.environment .v1 Sample.pool (Bytes32.filled 3) 1 t := by
  obtain ⟨-, honce, -, -, hactive⟩ := registry_lifecycle Sample.genesis Sample.runs
  exact ⟨honce, hactive .v1 Sample.pool (Bytes32.filled 3) 1⟩

end Aspis.Registry
