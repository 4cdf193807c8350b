import Aspis.Lib.Run
import Aspis.Registry.Records

/-! Runs of the registry program, and what each accepted instruction did: which
records it read, what it checked about them and which records it wrote. -/

namespace Aspis.Registry

open Lib Chain Statement

/-! ### Inversions -/

section
variable {env : RegistryEnvironment} {v : RegistryVersion} {l l' : Ledger}

theorem checkedAdd_eq_some {a b c : UInt64} (h : checkedAdd a b = some c) : c.toNat = a.toNat + b.toNat := by
  unfold checkedAdd at h
  split_ifs at h with hlt
  cases h
  rw [UInt64.toNat_add, Nat.mod_eq_of_lt hlt]

theorem incrementedRegistry_ok {r next : VerifierRegistry v} (h : incrementedRegistry r = .ok next) :
    next.generation.toNat = r.generation.toNat + 1 ∧ next = { r with generation := next.generation } := by
  simp only [incrementedRegistry, except_bind_eq_ok, okOr_eq_ok, except_pure_eq_ok] at h
  obtain ⟨generation, hadd, rfl⟩ := h
  exact ⟨checkedAdd_eq_some hadd, rfl⟩

theorem encodedRegistry_ok {r : VerifierRegistry v} {image : Bytes} (h : encodedRegistry r = .ok image) :
    validateVerifierRegistry r = .ok () ∧ image = registryImage r := by
  simp only [encodedRegistry, mapErr_eq_ok, encodeVerifierRegistry, except_bind_eq_ok, except_pure_eq_ok] at h
  obtain ⟨_, hvalid, rfl⟩ := h
  exact ⟨hvalid, rfl⟩

theorem encodedEntry_ok {e : VerifierRegistryEntry v} {image : Bytes} (h : encodedEntry e = .ok image) :
    validateVerifierRegistryEntry e = .ok () ∧ image = entryImage e := by
  simp only [encodedEntry, mapErr_eq_ok, encodeVerifierRegistryEntry, except_bind_eq_ok, except_pure_eq_ok] at h
  obtain ⟨_, hvalid, rfl⟩ := h
  exact ⟨hvalid, rfl⟩

theorem loadRegistry_ok {account : AccountInfo} {r : VerifierRegistry v}
    (h : loadRegistry env v account l = .ok r) : registryAt env v l account.key = some r ∧
      account.key = (poolV1VerifierRegistryAddress env.findProgramAddress v env.programId r.pool).1 := by
  simp only [loadRegistry, except_bind_eq_ok, require_eq_ok, mapErr_eq_ok, except_pure_eq_ok] at h
  obtain ⟨_, ⟨howner, -⟩, registry, hdecode, _, ⟨haddress, -⟩, rfl⟩ := h
  exact ⟨registryAt_eq_some.mpr ⟨howner, hdecode⟩, haddress⟩

theorem loadEntry_ok {account : AccountInfo} {writable : Bool} {e : VerifierRegistryEntry v}
    (h : loadEntry env v account writable l = .ok e) : entryAt env v l account.key = some e ∧
      account.key = (poolV1VerifierEntryAddress env.findProgramAddress v env.programId e.pool e.profileBinding
        e.releaseBinding).1 := by
  simp only [loadEntry, except_bind_eq_ok, require_eq_ok, mapErr_eq_ok, except_pure_eq_ok] at h
  obtain ⟨_, ⟨howner, -⟩, entry, hdecode, _, ⟨haddress, -⟩, rfl⟩ := h
  exact ⟨entryAt_eq_some.mpr ⟨howner, hdecode⟩, haddress⟩

theorem authorizedRegistry_ok {accounts : List AccountInfo} {registryAccount authority : AccountInfo}
    {expected : UInt64} {r : VerifierRegistry v}
    (h : authorizedRegistry env v accounts registryAccount authority expected l = .ok r) :
    (accounts.map (·.key)).Nodup ∧ loadRegistry env v registryAccount l = .ok r ∧ r.generation = expected := by
  simp only [authorizedRegistry, requireUniqueAccounts, requireGeneration, except_bind_eq_ok, require_eq_ok,
    except_pure_eq_ok] at h
  obtain ⟨_, hnodup, registry, hload, _, -, _, hgeneration, rfl⟩ := h
  exact ⟨hnodup, hload, hgeneration⟩

theorem scheduleRegistry_ok {accounts : List AccountInfo} {registryAccount authority payer system : AccountInfo}
    {expected activationSlot slot : UInt64} {r : VerifierRegistry v}
    (h : scheduleRegistry env v accounts registryAccount authority payer system expected activationSlot slot l =
      .ok r) :
    (accounts.map (·.key)).Nodup ∧ loadRegistry env v registryAccount l = .ok r ∧ r.generation = expected ∧
      slot.toNat + r.minimumActivationDelaySlots.toNat ≤ activationSlot.toNat := by
  simp only [scheduleRegistry, requireUniqueAccounts, requireGeneration, except_bind_eq_ok, require_eq_ok, okOr_eq_ok,
    except_pure_eq_ok] at h
  obtain ⟨_, hnodup, registry, hload, _, -, _, hgeneration, _, -, earliest, hearliest, _, hle, rfl⟩ := h
  have hslots := UInt64.le_iff_toNat_le.mp hle
  rw [checkedAdd_eq_some hearliest] at hslots
  exact ⟨hnodup, hload, hgeneration, hslots⟩

theorem commitRegistry_ok {account : AccountInfo} {image : Bytes} {u : Unit}
    (h : commitRegistry account image l = .ok u l') : l' = setData account.key image l := by
  simp only [commitRegistry, Exec.bind_ok, Exec.query_ok, Exec.update_ok] at h
  obtain ⟨_, _, ⟨-, rfl⟩, rfl⟩ := h
  rfl

theorem commitRegistryAndEntry_ok {registryAccount entryAccount : AccountInfo} {registry entry : Bytes} {u : Unit}
    (h : commitRegistryAndEntry registryAccount registry entryAccount entry l = .ok u l') :
    l' = setData entryAccount.key entry (setData registryAccount.key registry l) := by
  simp only [commitRegistryAndEntry, Exec.bind_ok, Exec.query_ok, Exec.update_ok] at h
  obtain ⟨_, _, ⟨-, rfl⟩, _, _, rfl, rfl⟩ := h
  rfl

/-! ### Fresh accounts -/

theorem systemCpi_call {f : Ledger → Except ProgramError Ledger} {u : Unit} (h : systemCpi f l = .ok u l') :
    f l = .ok l' := mapErr_eq_ok.mp (Exec.call_ok.mp h)

theorem createOrAllocatePda_outside {payer account : AccountInfo} {exactBytes : ℕ} {u : Unit}
    (h : createOrAllocatePda env payer account exactBytes l = .ok u l') : SystemCall l l' := by
  simp only [createOrAllocatePda, Exec.bind_ok, Exec.query_ok] at h
  obtain ⟨_, _, ⟨-, rfl⟩, lamports, _, ⟨-, rfl⟩, h⟩ := h
  split_ifs at h
  · exact systemCreateAccount_call (systemCpi_call h)
  · simp only [Exec.bind_ok] at h
    obtain ⟨_, m, htop, _, n, hallocate, hassign⟩ := h
    have hcall := systemAllocate_assign_call (systemCpi_call hallocate) (systemCpi_call hassign)
    unfold topUp at htop
    split_ifs at htop
    · exact (systemTransfer_call (systemCpi_call htop)).trans hcall
    · obtain ⟨-, rfl⟩ := Exec.pure_ok.mp htop
      exact hcall

/-- An account planned as fresh carries no record, and is a slot for any kind once it is created. -/
theorem createIfNeeded_fresh {payer account : AccountInfo} {expected : Pubkey} {exactBytes : ℕ}
    {preparation : Pool.FreshPdaPreparationV1} {u : Unit}
    (hplan : planFreshProgramPda env account expected exactBytes l = .ok preparation)
    (h : createIfNeeded env payer account exactBytes preparation l = .ok u l') :
    account.key = expected ∧ Outside env.programId l l' ∧ (∀ κ, Slot env l' account.key κ) ∧
      ∀ κ, recordAt env κ l account.key = none := by
  simp only [planFreshProgramPda, except_bind_eq_ok, require_eq_ok] at hplan
  obtain ⟨_, ⟨hkey, -⟩, hplan⟩ := hplan
  refine ⟨hkey, ?_⟩
  split_ifs at hplan with howner
  · simp only [except_bind_eq_ok, require_eq_ok, except_pure_eq_ok] at hplan
    obtain ⟨_, ⟨-, hzero⟩, rfl⟩ := hplan
    rw [createIfNeeded, if_neg (by decide)] at h
    obtain ⟨-, rfl⟩ := Exec.pure_ok.mp h
    refine ⟨Outside.refl _ l, fun κ => ⟨howner, .inr hzero⟩, fun κ => ?_⟩
    rw [recordAt, if_pos howner, decodeRecord_zero hzero]
  · simp only [except_bind_eq_ok, require_eq_ok, except_pure_eq_ok] at hplan
    obtain ⟨_, -, rfl⟩ := hplan
    rw [createIfNeeded, if_pos rfl] at h
    simp only [Exec.bind_ok, Exec.query_ok, requireZeroProgramAccount, except_bind_eq_ok, require_eq_ok] at h
    obtain ⟨_, m, hcreate, ⟨_, ⟨howner', -⟩, -, hzero⟩, rfl⟩ := h
    refine ⟨(createOrAllocatePda_outside hcreate).outside env.programId_ne_system, fun κ => ⟨howner', .inr hzero⟩,
      fun κ => ?_⟩
    rw [recordAt, if_neg howner]

end

/-! ### Accepted instructions -/

/-- The registry account an instruction names. -/
def registryKeyOf (accounts : List AccountInfo) : Option Pubkey := accounts[0]?.map (·.key)

/-- The entry account an instruction names. -/
def entryKeyOf (accounts : List AccountInfo) : Option Pubkey := accounts[1]?.map (·.key)

/-- The generation a mutation expects; an initialization expects none. -/
def RegistryInstruction.expectedGeneration {v : RegistryVersion} : RegistryInstruction v → Option UInt64
  | .initializeRegistry _ _ _ _ => none
  | .scheduleProfile expected _ _ _ _ _ _ => some expected
  | .pause expected => some expected
  | .unpause expected => some expected
  | .activate expected => some expected
  | .retire expected => some expected
  | .freeze expected => some expected

/-- What every mutation requires of its registry and leaves of it. -/
structure Mutates (env : RegistryEnvironment) {v : RegistryVersion} (accounts : List AccountInfo) (key : Pubkey)
    (expected : UInt64) (r next : VerifierRegistry v) (l : Ledger) : Prop where
  key_eq : registryKeyOf accounts = some key
  before : registryAt env v l key = some r
  address : key = (poolV1VerifierRegistryAddress env.findProgramAddress v env.programId r.pool).1
  generation : r.generation = expected
  raised : next.generation.toNat = expected.toNat + 1
  pool : next.pool = r.pool
  policy : next.policyBinding = r.policyBinding
  delay : next.minimumActivationDelaySlots = r.minimumActivationDelaySlots

/-- An instruction that writes only its registry. -/
def FlagsChanged (env : RegistryEnvironment) (v : RegistryVersion) (accounts : List AccountInfo) (expected : UInt64)
    (l l' : Ledger) : Prop :=
  ∃ (key : Pubkey) (r next : VerifierRegistry v), Mutates env accounts key expected r next l ∧
    RegistryCommitted env key next l l'

/-- What an accepted instruction did. -/
inductive Accepted (env : RegistryEnvironment) {v : RegistryVersion} (accounts : List AccountInfo) (slot : UInt64)
    (l l' : Ledger) : RegistryInstruction v → Prop
  | initialized {key : Pubkey} {registry : VerifierRegistry v} {pool policyBinding : Bytes32} {delay : UInt64}
      {hash : ExecutableHash v} (key_eq : registryKeyOf accounts = some key)
      (fresh : ∀ κ, recordAt env κ l key = none) (committed : RegistryCommitted env key registry l l') :
      Accepted env accounts slot l l' (.initializeRegistry pool policyBinding delay hash)
  | scheduled {key entryKey : Pubkey} {r next : VerifierRegistry v} {expected activationSlot : UInt64}
      {verifierProgram profileBinding releaseBinding : Bytes32} {statementVersion : UInt8} {hash : ExecutableHash v}
      {deployment : EntryDeployment v} (mutates : Mutates env accounts key expected r next l)
      (entryKey_eq : entryKeyOf accounts = some entryKey) (fresh : ∀ κ, recordAt env κ l entryKey = none)
      (delayed : slot.toNat + r.minimumActivationDelaySlots.toNat ≤ activationSlot.toNat)
      (committed : EntryCommitted env key entryKey next (scheduledEntry r verifierProgram profileBinding releaseBinding
        statementVersion activationSlot deployment) l l') :
      Accepted env accounts slot l l' (.scheduleProfile expected verifierProgram profileBinding releaseBinding
        statementVersion activationSlot hash)
  | paused {expected : UInt64} (changed : FlagsChanged env v accounts expected l l') :
      Accepted env accounts slot l l' (.pause expected)
  | unpaused {expected : UInt64} (changed : FlagsChanged env v accounts expected l l') :
      Accepted env accounts slot l l' (.unpause expected)
  | activated {key entryKey : Pubkey} {r next : VerifierRegistry v} {expected : UInt64}
      {entry : VerifierRegistryEntry v} (mutates : Mutates env accounts key expected r next l)
      (entryKey_eq : entryKeyOf accounts = some entryKey) (entry_before : entryAt env v l entryKey = some entry)
      (pending : entry.status = .pending) (elapsed : entry.activationSlot ≤ slot)
      (committed : EntryCommitted env key entryKey next { entry with status := .active } l l') :
      Accepted env accounts slot l l' (.activate expected)
  | retired {key entryKey replacementKey : Pubkey} {r next : VerifierRegistry v} {expected : UInt64}
      {entry replacement : VerifierRegistryEntry v} (mutates : Mutates env accounts key expected r next l)
      (entryKey_eq : entryKeyOf accounts = some entryKey) (entry_before : entryAt env v l entryKey = some entry)
      (active : entry.status = .active) (distinct : replacementKey ≠ entryKey)
      (replacement_before : entryAt env v l replacementKey = some replacement)
      (compatible : replacement.isExactCompatibleReplacementFor entry slot = true)
      (committed : EntryCommitted env key entryKey next { entry with status := .retired, retirementSlot := slot } l l') :
      Accepted env accounts slot l l' (.retire expected)
  | frozen {expected : UInt64} (changed : FlagsChanged env v accounts expected l l') :
      Accepted env accounts slot l l' (.freeze expected)

section
variable {env : RegistryEnvironment} {v : RegistryVersion} {l l' : Ledger} {accounts : List AccountInfo}

/-- Loading the registry and raising its generation is what every mutation starts from. -/
theorem Mutates.of_load {registryAccount : AccountInfo} {expected : UInt64} {r next final : VerifierRegistry v}
    (hkey : registryKeyOf accounts = some registryAccount.key) (hload : loadRegistry env v registryAccount l = .ok r)
    (hgeneration : r.generation = expected) (hnext : incrementedRegistry r = .ok next)
    (hfinal : final = { next with flags := final.flags, authority := final.authority }) :
    Mutates env accounts registryAccount.key expected r final l := by
  obtain ⟨hraised, hsame⟩ := incrementedRegistry_ok hnext
  obtain ⟨hbefore, haddress⟩ := loadRegistry_ok hload
  rw [hsame] at hfinal
  rw [hfinal]
  exact ⟨hkey, hbefore, haddress, hgeneration, hgeneration ▸ hraised, rfl, rfl, rfl⟩

theorem loadRegistry_slot {registryAccount : AccountInfo} {r : VerifierRegistry v}
    (hload : loadRegistry env v registryAccount l = .ok r) : Slot env l registryAccount.key (.registry v) :=
  Slot.of_recordAt (loadRegistry_ok hload).1

theorem installRegistry_committed {registryAccount payer : AccountInfo} {registry : VerifierRegistry v} {u : Unit}
    (h : installRegistry env v registryAccount payer registry l = .ok u l') :
    (∀ κ, recordAt env κ l registryAccount.key = none) ∧ RegistryCommitted env registryAccount.key registry l l' := by
  simp only [installRegistry, Exec.bind_ok, Exec.query_ok, mapErr_eq_ok] at h
  obtain ⟨image, _, ⟨hencode, rfl⟩, preparation, _, ⟨hplan, rfl⟩, _, m, hcreate, hcommit⟩ := h
  obtain ⟨hvalid, rfl⟩ := encodedRegistry_ok hencode
  obtain ⟨-, hout, hslot, hfresh⟩ := createIfNeeded_fresh hplan hcreate
  rw [commitRegistry_ok hcommit]
  exact ⟨hfresh, RegistryCommitted.of_setData hout (hslot _) hvalid⟩

theorem processInitializeOf_accepted {pool policyBinding : Bytes32} {delay slot : UInt64} {hash : ExecutableHash v}
    {u : Unit} (h : processInitializeOf env accounts pool policyBinding delay v hash l = .ok u l') :
    Accepted env accounts slot l l' (.initializeRegistry pool policyBinding delay hash) := by
  cases v with
  | v1 =>
    simp only [processInitializeOf] at h
    unfold processInitialize at h
    split at h
    · simp only [Exec.bind_ok, Exec.query_ok] at h
      obtain ⟨_, _, ⟨-, rfl⟩, hinstall⟩ := h
      obtain ⟨hfresh, hcommitted⟩ := installRegistry_committed hinstall
      exact .initialized rfl hfresh hcommitted
    · cases (Exec.query_ok.mp h).1
  | v2 =>
    simp only [processInitializeOf] at h
    unfold processInitializeV2 at h
    split at h
    · simp only [Exec.bind_ok, Exec.query_ok] at h
      obtain ⟨deployment, _, ⟨-, rfl⟩, hinstall⟩ := h
      obtain ⟨hfresh, hcommitted⟩ := installRegistry_committed hinstall
      exact .initialized rfl hfresh hcommitted
    · cases (Exec.query_ok.mp h).1

/-- Installing an entry under a loaded registry schedules it. -/
theorem installEntry_accepted {registryAccount entryAccount payer : AccountInfo} {r : VerifierRegistry v}
    {expected activationSlot slot : UInt64} {verifierProgram profileBinding releaseBinding : Bytes32}
    {statementVersion : UInt8} {hash : ExecutableHash v} {deployment : EntryDeployment v} {rest : List AccountInfo}
    {u : Unit} (haccounts : accounts = registryAccount :: entryAccount :: rest)
    (hnodup : (accounts.map (·.key)).Nodup) (hload : loadRegistry env v registryAccount l = .ok r)
    (hgeneration : r.generation = expected)
    (hdelay : slot.toNat + r.minimumActivationDelaySlots.toNat ≤ activationSlot.toNat)
    (h : installEntry env v registryAccount entryAccount payer r (scheduledEntry r verifierProgram profileBinding
      releaseBinding statementVersion activationSlot deployment) l = .ok u l') :
    Accepted env accounts slot l l' (.scheduleProfile expected verifierProgram profileBinding releaseBinding
      statementVersion activationSlot hash) := by
  subst haccounts
  have hne : registryAccount.key ≠ entryAccount.key := by
    intro heq
    simp [heq] at hnodup
  simp only [installEntry, Exec.bind_ok, Exec.query_ok, except_bind_eq_ok, mapErr_eq_ok, except_pure_eq_ok] at h
  obtain ⟨_, _, ⟨⟨image, hentry, next, hnext, registryImage, hregistry, rfl⟩, rfl⟩, preparation, _, ⟨hplan, rfl⟩, _, m,
    hcreate, hcommit⟩ := h
  obtain ⟨hvalid, rfl⟩ := encodedRegistry_ok hregistry
  obtain ⟨hvalidEntry, rfl⟩ := encodedEntry_ok hentry
  obtain ⟨-, hout, hslot, hfresh⟩ := createIfNeeded_fresh hplan hcreate
  have hcommitted := EntryCommitted.of_setData hne hout ((loadRegistry_slot hload).outside hout) (hslot _) hvalid
    hvalidEntry
  rw [← commitRegistryAndEntry_ok hcommit] at hcommitted
  exact .scheduled (Mutates.of_load rfl hload hgeneration hnext rfl) rfl hfresh hdelay hcommitted

theorem processScheduleOf_accepted {verifierProgram profileBinding releaseBinding : Bytes32} {statementVersion : UInt8}
    {expected activationSlot slot : UInt64} {hash : ExecutableHash v} {u : Unit}
    (h : processScheduleOf env accounts expected verifierProgram profileBinding releaseBinding statementVersion
      activationSlot slot v hash l = .ok u l') :
    Accepted env accounts slot l l' (.scheduleProfile expected verifierProgram profileBinding releaseBinding
      statementVersion activationSlot hash) := by
  cases v with
  | v1 =>
    simp only [processScheduleOf] at h
    unfold processSchedule at h
    split at h
    · simp only [Exec.bind_ok, Exec.query_ok] at h
      obtain ⟨r, _, ⟨hschedule, rfl⟩, hinstall⟩ := h
      obtain ⟨hnodup, hload, hgeneration, hdelay⟩ := scheduleRegistry_ok hschedule
      exact installEntry_accepted rfl hnodup hload hgeneration hdelay hinstall
    · cases (Exec.query_ok.mp h).1
  | v2 =>
    simp only [processScheduleOf] at h
    unfold processScheduleV2 at h
    split at h
    · simp only [Exec.bind_ok, Exec.query_ok, except_bind_eq_ok, except_pure_eq_ok] at h
      obtain ⟨_, _, ⟨⟨r, hschedule, deployment, -, _, -, rfl⟩, rfl⟩, hinstall⟩ := h
      obtain ⟨hnodup, hload, hgeneration, hdelay⟩ := scheduleRegistry_ok hschedule
      exact installEntry_accepted rfl hnodup hload hgeneration hdelay hinstall
    · cases (Exec.query_ok.mp h).1

theorem processPauseChange_changed {expected : UInt64} { paused : Bool} {u : Unit}
    (h : processPauseChange env v accounts expected paused l = .ok u l') :
    FlagsChanged env v accounts expected l l' := by
  unfold processPauseChange at h
  split at h
  · simp only [Exec.bind_ok, Exec.query_ok, except_bind_eq_ok] at h
    obtain ⟨image, _, ⟨⟨r, hauthorized, _, -, next, hnext, hencode⟩, rfl⟩, hcommit⟩ := h
    obtain ⟨-, hload, hgeneration⟩ := authorizedRegistry_ok hauthorized
    obtain ⟨hvalid, rfl⟩ := encodedRegistry_ok hencode
    rw [commitRegistry_ok hcommit]
    exact ⟨_, r, _, Mutates.of_load rfl hload hgeneration hnext rfl,
      RegistryCommitted.of_setData (Outside.refl _ l) (loadRegistry_slot hload) hvalid⟩
  · cases (Exec.query_ok.mp h).1

theorem processFreeze_changed {expected : UInt64} {u : Unit}
    (h : processFreeze env v accounts expected l = .ok u l') : FlagsChanged env v accounts expected l l' := by
  unfold processFreeze at h
  split at h
  · simp only [Exec.bind_ok, Exec.query_ok, except_bind_eq_ok] at h
    obtain ⟨image, _, ⟨⟨r, hauthorized, next, hnext, hencode⟩, rfl⟩, hcommit⟩ := h
    obtain ⟨-, hload, hgeneration⟩ := authorizedRegistry_ok hauthorized
    obtain ⟨hvalid, rfl⟩ := encodedRegistry_ok hencode
    rw [commitRegistry_ok hcommit]
    exact ⟨_, r, _, Mutates.of_load rfl hload hgeneration hnext rfl,
      RegistryCommitted.of_setData (Outside.refl _ l) (loadRegistry_slot hload) hvalid⟩
  · cases (Exec.query_ok.mp h).1

theorem processActivate_accepted {expected slot : UInt64} {u : Unit}
    (h : processActivate env v accounts expected slot l = .ok u l') :
    Accepted env accounts slot l l' (.activate (v := v) expected) := by
  unfold processActivate at h
  split at h
  · rename_i registryAccount entryAccount authority
    simp only [Exec.bind_ok, Exec.query_ok, except_bind_eq_ok, except_pure_eq_ok, require_eq_ok] at h
    obtain ⟨_, _, ⟨⟨r, hauthorized, entry, hentry, _, -, _, hpending, _, -, _, helapsed, next, hnext, image, hencode,
      entryImage, hencodeEntry, rfl⟩, rfl⟩, hcommit⟩ := h
    obtain ⟨hnodup, hload, hgeneration⟩ := authorizedRegistry_ok hauthorized
    have hne : registryAccount.key ≠ entryAccount.key := by
      intro heq
      simp [heq] at hnodup
    obtain ⟨hvalid, rfl⟩ := encodedRegistry_ok hencode
    obtain ⟨hvalidEntry, rfl⟩ := encodedEntry_ok hencodeEntry
    have hbefore := (loadEntry_ok hentry).1
    have hcommitted := EntryCommitted.of_setData hne (Outside.refl _ l) (loadRegistry_slot hload)
      (Slot.of_recordAt hbefore) hvalid hvalidEntry
    rw [← commitRegistryAndEntry_ok hcommit] at hcommitted
    exact .activated (Mutates.of_load rfl hload hgeneration hnext rfl) rfl hbefore hpending helapsed hcommitted
  · cases (Exec.query_ok.mp h).1

theorem isActiveAt_iff {e : VerifierRegistryEntry v} {slot : UInt64} :
    e.isActiveAt slot = true ↔ e.status = .active ∧ e.activationSlot ≤ slot ∧
      (e.hasNoRetirementSlot = true ∨ slot < e.retirementSlot) := decide_eq_true_iff

theorem processRetire_accepted {expected slot : UInt64} {u : Unit}
    (h : processRetire env v accounts expected slot l = .ok u l') :
    Accepted env accounts slot l l' (.retire (v := v) expected) := by
  unfold processRetire at h
  split at h
  · rename_i registryAccount retiringAccount replacementAccount authority
    simp only [Exec.bind_ok, Exec.query_ok, except_bind_eq_ok, except_pure_eq_ok, require_eq_ok] at h
    obtain ⟨_, _, ⟨⟨r, hauthorized, retiring, hretiring, replacement, hreplacement, _, -, _, -, _, hactive, _, -, _, -,
      _, hcompatible, _, -, next, hnext, image, hencode, entryImage, hencodeEntry, rfl⟩, rfl⟩, hcommit⟩ := h
    obtain ⟨hnodup, hload, hgeneration⟩ := authorizedRegistry_ok hauthorized
    have hne : registryAccount.key ≠ retiringAccount.key := by
      intro heq
      simp [heq] at hnodup
    have hdistinct : replacementAccount.key ≠ retiringAccount.key := by
      intro heq
      simp [heq] at hnodup
    obtain ⟨hvalid, rfl⟩ := encodedRegistry_ok hencode
    obtain ⟨hvalidEntry, rfl⟩ := encodedEntry_ok hencodeEntry
    have hbefore := (loadEntry_ok hretiring).1
    have hcommitted := EntryCommitted.of_setData hne (Outside.refl _ l) (loadRegistry_slot hload)
      (Slot.of_recordAt hbefore) hvalid hvalidEntry
    rw [← commitRegistryAndEntry_ok hcommit] at hcommitted
    exact .retired (Mutates.of_load rfl hload hgeneration hnext rfl) rfl hbefore (isActiveAt_iff.mp hactive).1 hdistinct
      (loadEntry_ok hreplacement).1 hcompatible hcommitted
  · cases (Exec.query_ok.mp h).1

/-- Every successful instruction did what its kind of instruction does. -/
theorem processDecodedInstruction_accepted {slot : UInt64} {i : RegistryInstruction v} {u : Unit}
    (h : processDecodedInstruction env accounts slot i l = .ok u l') : Accepted env accounts slot l l' i := by
  cases i with
  | initializeRegistry pool policyBinding delay hash => exact processInitializeOf_accepted h
  | scheduleProfile expected verifierProgram profileBinding releaseBinding statementVersion activationSlot hash =>
    exact processScheduleOf_accepted h
  | pause expected => exact .paused (processPauseChange_changed h)
  | unpause expected => exact .unpaused (processPauseChange_changed h)
  | activate expected => exact processActivate_accepted h
  | retire expected => exact processRetire_accepted h
  | freeze expected => exact .frozen (processFreeze_changed h)

end

/-! ### Runs -/

/-- The ledger and the last slot seen. -/
structure RegistryState where
  ledger : Ledger
  slot : UInt64

/-- What happens between two states of a run. -/
inductive RegistryEvent
  | outside (slot : UInt64)
  | rejected {v : RegistryVersion} (slot : UInt64) (accounts : List AccountInfo) (instruction : RegistryInstruction v)
  | accepted {v : RegistryVersion} (slot : UInt64) (accounts : List AccountInfo) (instruction : RegistryInstruction v)

def RegistryEvent.slot : RegistryEvent → UInt64
  | .outside slot => slot
  | .rejected slot _ _ => slot
  | .accepted slot _ _ => slot

section
variable (env : RegistryEnvironment)

def LedgerStep (l : Ledger) : RegistryEvent → Ledger → Prop
  | .outside _, l' => Outside env.programId l l'
  | .rejected slot accounts i, l' => (∃ e m, processDecodedInstruction env accounts slot i l = .error e m) ∧ l' = l
  | .accepted slot accounts i, l' => processDecodedInstruction env accounts slot i l = .ok () l'

/-- One step of the chain; slots never decrease and a rejected instruction leaves no trace. -/
structure Step (s : RegistryState) (e : RegistryEvent) (t : RegistryState) : Prop where
  slot_le : s.slot ≤ e.slot
  slot_eq : t.slot = e.slot
  ledger : LedgerStep env s.ledger e t.ledger

abbrev Runs : RegistryState → List RegistryEvent → RegistryState → Prop := Run (Step env)

/-- Before the first instruction the program's accounts hold nothing but zeros. -/
def Genesis (s : RegistryState) : Prop :=
  ∀ k, (s.ledger k).owner = env.programId → allZero (s.ledger k).data = true

end

section
variable {env : RegistryEnvironment} {s t : RegistryState} {e : RegistryEvent}

theorem Genesis.recordAt_none (h : Genesis env s) (κ : RecordKind) (k : Pubkey) :
    recordAt env κ s.ledger k = none := by
  unfold recordAt
  split_ifs with howner
  · exact decodeRecord_zero (h k howner)
  · rfl

/-- A step either changes no record or is an accepted instruction. -/
theorem Step.cases (h : Step env s e t) :
    (∀ κ k, recordAt env κ t.ledger k = recordAt env κ s.ledger k) ∨
      ∃ (v : RegistryVersion) (slot : UInt64) (accounts : List AccountInfo) (i : RegistryInstruction v),
        e = .accepted slot accounts i ∧ t.slot = slot ∧ Accepted env accounts slot s.ledger t.ledger i := by
  have hledger := h.ledger
  cases e with
  | outside slot => exact .inl fun κ k => recordAt_outside hledger
  | rejected slot accounts i =>
    refine .inl fun κ k => ?_
    rw [hledger.2]
  | accepted slot accounts i =>
    exact .inr ⟨_, slot, accounts, i, rfl, h.slot_eq, processDecodedInstruction_accepted hledger⟩

end

end Aspis.Registry
