import Aspis.Registry.Lifecycle

/-! Who governs a registry. A mutation needs the signature of the authority its
registry names and a registry that is not frozen; it changes flags and authority
in the one way of its kind, and writes no account of the program but the registry
and the entry it names. A frozen registry and its entries keep every byte. -/

namespace Aspis.Registry

open Lib Chain Statement

/-- The account that signs for the authority. -/
def RegistryInstruction.authorityOf {v : RegistryVersion} (accounts : List AccountInfo) :
    RegistryInstruction v → Option AccountInfo
  | .initializeRegistry _ _ _ _ => accounts[1]?
  | .scheduleProfile _ _ _ _ _ _ _ => accounts[2]?
  | .pause _ => accounts[1]?
  | .unpause _ => accounts[1]?
  | .activate _ => accounts[2]?
  | .retire _ => accounts[3]?
  | .freeze _ => accounts[1]?

def RegistryInstruction.flagsAfter {v : RegistryVersion} (flags : UInt8) : RegistryInstruction v → UInt8
  | .pause _ => pausedFlags flags true
  | .unpause _ => pausedFlags flags false
  | .freeze _ => flags ||| 2
  | _ => flags

def RegistryInstruction.authorityAfter {v : RegistryVersion} (authority : Pubkey) : RegistryInstruction v → Pubkey
  | .freeze _ => Bytes32.zero
  | _ => authority

def RegistryInstruction.isFreeze {v : RegistryVersion} : RegistryInstruction v → Bool
  | .freeze _ => true
  | _ => false

/-- Only a freeze sets the immutable flag, and nothing clears it. -/
theorem RegistryInstruction.flagsAfter_immutable {v : RegistryVersion} (i : RegistryInstruction v) (flags : UInt8) :
    i.flagsAfter flags &&& 2 = if i.isFreeze then 2 else flags &&& 2 := by
  have hpaused : ∀ b : BitVec 8, (b ||| 1) &&& 2 = b &&& 2 := by decide
  have hunpaused : ∀ b : BitVec 8, (b &&& ~~~ 1) &&& 2 = b &&& 2 := by decide
  have hfrozen : ∀ b : BitVec 8, (b ||| 2) &&& 2 = 2 := by decide
  cases i with
  | pause expected => exact UInt8.toBitVec_inj.mp (hpaused flags.toBitVec)
  | unpause expected => exact UInt8.toBitVec_inj.mp (hunpaused flags.toBitVec)
  | freeze expected => exact UInt8.toBitVec_inj.mp (hfrozen flags.toBitVec)
  | _ => rfl

/-! ### Mutations -/

/-- The account of the program is as it was. -/
def Untouched (env : RegistryEnvironment) (l l' : Ledger) (k : Pubkey) : Prop :=
  (l k).owner = env.programId → (l' k).owner = env.programId ∧ (l' k).data = (l k).data

/-- What every mutation found and left. -/
structure Governed (env : RegistryEnvironment) {v : RegistryVersion} (accounts : List AccountInfo)
    (i : RegistryInstruction v) (key : Pubkey) (r next : VerifierRegistry v) (l l' : Ledger) : Prop where
  key_eq : registryKeyOf accounts = some key
  signed : ∃ a, i.authorityOf accounts = some a ∧ a.key = r.authority ∧ a.isSigner = true
  before : registryAt env v l key = some r
  address : key = (poolV1VerifierRegistryAddress env.findProgramAddress v env.programId r.pool).1
  unfrozen : r.isImmutable = false
  after : registryAt env v l' key = some next
  pool : next.pool = r.pool
  flags : next.flags = i.flagsAfter r.flags
  authority : next.authority = i.authorityAfter r.authority
  target : ∀ k, i.entryTarget accounts = some k → (∀ κ, recordAt env κ l k = none) ∨
    ∃ entry, entryAt env v l k = some entry ∧ entry.pool = r.pool
  frame : ∀ k, k ≠ key → i.entryTarget accounts ≠ some k → Untouched env l l' k

/-- What opening a registry found and left. -/
structure Opened (env : RegistryEnvironment) {v : RegistryVersion} (accounts : List AccountInfo) (key : Pubkey)
    (registry : VerifierRegistry v) (l l' : Ledger) : Prop where
  key_eq : registryKeyOf accounts = some key
  signed : ∃ a, accounts[1]? = some a ∧ a.key = registry.authority ∧ a.isSigner = true
  fresh : ∀ κ, recordAt env κ l key = none
  after : registryAt env v l' key = some registry
  flags : registry.flags = 0
  frame : ∀ k, k ≠ key → Untouched env l l' k

section
variable {env : RegistryEnvironment} {v : RegistryVersion} {l m l' : Ledger} {accounts : List AccountInfo}

theorem Untouched.of_outside {k : Pubkey} (h : Outside env.programId l l') : Untouched env l l' k := h.kept k

theorem Untouched.setData {k key : Pubkey} {image : Bytes} (h : Untouched env l m k) (hne : k ≠ key) :
    Untouched env l (setData key image m) k := by
  intro howner
  rw [setData_of_ne hne]
  exact h howner

theorem requireAuthority_ok {r : VerifierRegistry v} {authority : AccountInfo} {u : Unit}
    (h : requireAuthority r authority l = .ok u) :
    r.isImmutable = false ∧ authority.key = r.authority ∧ authority.isSigner = true := by
  simp only [requireAuthority, except_bind_eq_ok, require_eq_ok] at h
  obtain ⟨_, hunfrozen, hkey, hsigner, -⟩ := h
  exact ⟨hunfrozen, hkey, hsigner⟩

theorem authorizedRegistry_authority {registryAccount authority : AccountInfo} {expected : UInt64}
    {r : VerifierRegistry v} (h : authorizedRegistry env v accounts registryAccount authority expected l = .ok r) :
    r.isImmutable = false ∧ authority.key = r.authority ∧ authority.isSigner = true := by
  simp only [authorizedRegistry, except_bind_eq_ok, except_pure_eq_ok] at h
  obtain ⟨_, -, registry, -, _, hauthority, _, -, rfl⟩ := h
  exact requireAuthority_ok hauthority

theorem scheduleRegistry_authority {registryAccount authority payer system : AccountInfo}
    {expected activationSlot slot : UInt64} {r : VerifierRegistry v}
    (h : scheduleRegistry env v accounts registryAccount authority payer system expected activationSlot slot l =
      .ok r) : r.isImmutable = false ∧ authority.key = r.authority ∧ authority.isSigner = true := by
  simp only [scheduleRegistry, except_bind_eq_ok, except_pure_eq_ok] at h
  obtain ⟨_, -, registry, -, _, hauthority, _, -, _, -, _, -, _, -, rfl⟩ := h
  exact requireAuthority_ok hauthority

/-- Raising the generation of a loaded registry and setting its flags is what every mutation writes. -/
theorem incrementedRegistry_kept {r next : VerifierRegistry v} (h : incrementedRegistry r = .ok next) :
    next.pool = r.pool ∧ next.flags = r.flags ∧ next.authority = r.authority := by
  obtain ⟨-, hsame⟩ := incrementedRegistry_ok h
  rw [hsame]
  exact ⟨rfl, rfl, rfl⟩

theorem installEntry_governed {registryAccount entryAccount payer authority : AccountInfo} {r : VerifierRegistry v}
    {expected activationSlot : UInt64} {verifierProgram profileBinding releaseBinding : Bytes32}
    {statementVersion : UInt8} {hash : ExecutableHash v} {deployment : EntryDeployment v} {rest : List AccountInfo}
    {u : Unit} (haccounts : accounts = registryAccount :: entryAccount :: authority :: rest)
    (hnodup : (accounts.map (·.key)).Nodup) (hload : loadRegistry env v registryAccount l = .ok r)
    (hauthority : r.isImmutable = false ∧ authority.key = r.authority ∧ authority.isSigner = true)
    (h : installEntry env v registryAccount entryAccount payer r (scheduledEntry r verifierProgram profileBinding
      releaseBinding statementVersion activationSlot deployment) l = .ok u l') :
    ∃ next, Governed env accounts (.scheduleProfile expected verifierProgram profileBinding releaseBinding
      statementVersion activationSlot hash) registryAccount.key r next l l' := by
  subst haccounts
  have hne : registryAccount.key ≠ entryAccount.key := by
    intro heq
    simp [heq] at hnodup
  simp only [installEntry, Exec.bind_ok, Exec.query_ok, except_bind_eq_ok, mapErr_eq_ok, except_pure_eq_ok] at h
  obtain ⟨_, _, ⟨⟨image, hentry, next, hnext, registryImage, hregistry, rfl⟩, rfl⟩, preparation, _, ⟨hplan, rfl⟩, _, m,
    hcreate, hcommit⟩ := h
  obtain ⟨hvalid, rfl⟩ := encodedRegistry_ok hregistry
  obtain ⟨hvalidEntry, rfl⟩ := encodedEntry_ok hentry
  obtain ⟨-, hout, hslot, hfresh⟩ := createIfNeeded_fresh hplan hcreate
  have hcommitted := EntryCommitted.of_setData hne hout ((loadRegistry_slot hload).outside hout) (hslot _) hvalid
    hvalidEntry
  rw [← commitRegistryAndEntry_ok hcommit] at hcommitted
  obtain ⟨hunfrozen, hkey, hsigner⟩ := hauthority
  obtain ⟨hbefore, haddress⟩ := loadRegistry_ok hload
  obtain ⟨hpool, hflags, hsame⟩ := incrementedRegistry_kept hnext
  refine ⟨next, rfl, ⟨authority, rfl, hkey, hsigner⟩, hbefore, haddress, hunfrozen, hcommitted.registry_after, hpool,
    hflags, hsame, fun k hk => ?_, fun k hk hk' => ?_⟩
  · obtain rfl := Option.some_inj.mp hk
    exact .inl hfresh
  · rw [commitRegistryAndEntry_ok hcommit]
    exact ((Untouched.of_outside hout).setData hk).setData fun heq => hk' (congrArg some heq.symm)

theorem processScheduleOf_governed {verifierProgram profileBinding releaseBinding : Bytes32} {statementVersion : UInt8}
    {expected activationSlot slot : UInt64} {hash : ExecutableHash v} {u : Unit}
    (h : processScheduleOf env accounts expected verifierProgram profileBinding releaseBinding statementVersion
      activationSlot slot v hash l = .ok u l') :
    ∃ key r next, Governed env accounts (.scheduleProfile expected verifierProgram profileBinding releaseBinding
      statementVersion activationSlot hash) key r next l l' := by
  cases v with
  | v1 =>
    simp only [processScheduleOf] at h
    unfold processSchedule at h
    split at h
    · simp only [Exec.bind_ok, Exec.query_ok] at h
      obtain ⟨r, _, ⟨hschedule, rfl⟩, hinstall⟩ := h
      obtain ⟨hnodup, hload, -⟩ := scheduleRegistry_ok hschedule
      exact ⟨_, r, installEntry_governed rfl hnodup hload (scheduleRegistry_authority hschedule) hinstall⟩
    · cases (Exec.query_ok.mp h).1
  | v2 =>
    simp only [processScheduleOf] at h
    unfold processScheduleV2 at h
    split at h
    · simp only [Exec.bind_ok, Exec.query_ok, except_bind_eq_ok, except_pure_eq_ok] at h
      obtain ⟨_, _, ⟨⟨r, hschedule, deployment, -, _, -, rfl⟩, rfl⟩, hinstall⟩ := h
      obtain ⟨hnodup, hload, -⟩ := scheduleRegistry_ok hschedule
      exact ⟨_, r, installEntry_governed rfl hnodup hload (scheduleRegistry_authority hschedule) hinstall⟩
    · cases (Exec.query_ok.mp h).1

/-- A mutation that writes only its registry. -/
theorem commitRegistry_governed {i : RegistryInstruction v} {registryAccount authority : AccountInfo}
    {expected : UInt64} {r final : VerifierRegistry v} {image : Bytes} {u : Unit}
    (hkey : registryKeyOf accounts = some registryAccount.key) (hsigner : i.authorityOf accounts = some authority)
    (htarget : i.entryTarget accounts = none)
    (hauthorized : authorizedRegistry env v accounts registryAccount authority expected l = .ok r)
    (hencode : encodedRegistry final = .ok image) (hpool : final.pool = r.pool)
    (hflags : final.flags = i.flagsAfter r.flags) (hauthority : final.authority = i.authorityAfter r.authority)
    (hcommit : commitRegistry registryAccount image l = .ok u l') :
    Governed env accounts i registryAccount.key r final l l' := by
  obtain ⟨-, hload, -⟩ := authorizedRegistry_ok hauthorized
  obtain ⟨hunfrozen, hsame, hsigned⟩ := authorizedRegistry_authority hauthorized
  obtain ⟨hvalid, rfl⟩ := encodedRegistry_ok hencode
  obtain ⟨hbefore, haddress⟩ := loadRegistry_ok hload
  rw [commitRegistry_ok hcommit]
  refine ⟨hkey, ⟨authority, hsigner, hsame, hsigned⟩, hbefore, haddress, hunfrozen,
    registryAt_setData (loadRegistry_slot hload).owned hvalid, hpool, hflags, hauthority, fun k hk => ?_, fun k hk _ => ?_⟩
  · rw [htarget] at hk
    cases hk
  · exact (Untouched.of_outside (Outside.refl _ l)).setData hk

/-- A mutation that writes its registry and an entry of it. -/
theorem commitRegistryAndEntry_governed {i : RegistryInstruction v} {registryAccount entryAccount authority : AccountInfo}
    {expected : UInt64} {r final : VerifierRegistry v} {entry entry' : VerifierRegistryEntry v} {image entryImage : Bytes}
    {u : Unit} (hkey : registryKeyOf accounts = some registryAccount.key)
    (hsigner : i.authorityOf accounts = some authority) (htarget : i.entryTarget accounts = some entryAccount.key)
    (hne : registryAccount.key ≠ entryAccount.key)
    (hauthorized : authorizedRegistry env v accounts registryAccount authority expected l = .ok r)
    (hentry : loadEntry env v entryAccount true l = .ok entry) (hmatch : requireEntryRegistryMatch r entry = .ok u)
    (hpool : final.pool = r.pool) (hflags : final.flags = i.flagsAfter r.flags)
    (hauthority : final.authority = i.authorityAfter r.authority) (hencode : encodedRegistry final = .ok image)
    (hencodeEntry : encodedEntry entry' = .ok entryImage)
    (hcommit : commitRegistryAndEntry registryAccount image entryAccount entryImage l = .ok u l') :
    Governed env accounts i registryAccount.key r final l l' := by
  obtain ⟨-, hload, -⟩ := authorizedRegistry_ok hauthorized
  obtain ⟨hunfrozen, hsame, hsigned⟩ := authorizedRegistry_authority hauthorized
  obtain ⟨hvalid, rfl⟩ := encodedRegistry_ok hencode
  obtain ⟨hvalidEntry, rfl⟩ := encodedEntry_ok hencodeEntry
  obtain ⟨hbefore, haddress⟩ := loadRegistry_ok hload
  have hbeforeEntry := (loadEntry_ok hentry).1
  have hcommitted := EntryCommitted.of_setData hne (Outside.refl _ l) (loadRegistry_slot hload)
    (Slot.of_recordAt hbeforeEntry) hvalid hvalidEntry
  rw [← commitRegistryAndEntry_ok hcommit] at hcommitted
  rw [requireEntryRegistryMatch, require_eq_ok] at hmatch
  refine ⟨hkey, ⟨authority, hsigner, hsame, hsigned⟩, hbefore, haddress, hunfrozen, hcommitted.registry_after, hpool,
    hflags, hauthority, fun k hk => ?_, fun k hk hk' => ?_⟩
  · obtain rfl := Option.some_inj.mp (htarget.symm.trans hk)
    exact .inr ⟨entry, hbeforeEntry, hmatch.1⟩
  · rw [commitRegistryAndEntry_ok hcommit]
    refine ((Untouched.of_outside (Outside.refl _ l)).setData hk).setData fun heq => hk' ?_
    rw [htarget, heq]

theorem processPauseChange_governed {expected : UInt64} { paused : Bool} {i : RegistryInstruction v} {u : Unit}
    (hi : i = if paused then .pause expected else .unpause expected)
    (h : processPauseChange env v accounts expected paused l = .ok u l') :
    ∃ key r next, Governed env accounts i key r next l l' := by
  unfold processPauseChange at h
  split at h
  · simp only [Exec.bind_ok, Exec.query_ok, except_bind_eq_ok] at h
    obtain ⟨image, _, ⟨⟨r, hauthorized, _, -, next, hnext, hencode⟩, rfl⟩, hcommit⟩ := h
    obtain ⟨hpool, hflags, hsame⟩ := incrementedRegistry_kept hnext
    refine ⟨_, r, _, commitRegistry_governed rfl ?_ ?_ hauthorized hencode hpool ?_ ?_ hcommit⟩
    all_goals
      cases paused
      all_goals
        subst hi
        simp [RegistryInstruction.authorityOf, RegistryInstruction.entryTarget, RegistryInstruction.flagsAfter,
          RegistryInstruction.authorityAfter, hflags, hsame]
  · cases (Exec.query_ok.mp h).1

theorem processFreeze_governed {expected : UInt64} {u : Unit} (h : processFreeze env v accounts expected l = .ok u l') :
    ∃ key r next, Governed env accounts (.freeze (v := v) expected) key r next l l' := by
  unfold processFreeze at h
  split at h
  · simp only [Exec.bind_ok, Exec.query_ok, except_bind_eq_ok] at h
    obtain ⟨image, _, ⟨⟨r, hauthorized, next, hnext, hencode⟩, rfl⟩, hcommit⟩ := h
    obtain ⟨hpool, hflags, -⟩ := incrementedRegistry_kept hnext
    refine ⟨_, r, _, commitRegistry_governed rfl rfl rfl hauthorized hencode hpool ?_ rfl hcommit⟩
    exact congrArg (· ||| 2) hflags
  · cases (Exec.query_ok.mp h).1

theorem processActivate_governed {expected slot : UInt64} {u : Unit}
    (h : processActivate env v accounts expected slot l = .ok u l') :
    ∃ key r next, Governed env accounts (.activate (v := v) expected) key r next l l' := by
  unfold processActivate at h
  split at h
  · rename_i registryAccount entryAccount authority
    simp only [Exec.bind_ok, Exec.query_ok, except_bind_eq_ok, except_pure_eq_ok, require_eq_ok] at h
    obtain ⟨_, _, ⟨⟨r, hauthorized, entry, hentry, _, hmatch, _, -, _, -, _, -, next, hnext, image, hencode, entryImage,
      hencodeEntry, rfl⟩, rfl⟩, hcommit⟩ := h
    have hne : registryAccount.key ≠ entryAccount.key := by
      intro heq
      have hnodup := (authorizedRegistry_ok hauthorized).1
      simp [heq] at hnodup
    obtain ⟨hpool, hflags, hsame⟩ := incrementedRegistry_kept hnext
    exact ⟨_, r, _, commitRegistryAndEntry_governed rfl rfl rfl hne hauthorized hentry hmatch hpool hflags hsame hencode
      hencodeEntry hcommit⟩
  · cases (Exec.query_ok.mp h).1

theorem processRetire_governed {expected slot : UInt64} {u : Unit}
    (h : processRetire env v accounts expected slot l = .ok u l') :
    ∃ key r next, Governed env accounts (.retire (v := v) expected) key r next l l' := by
  unfold processRetire at h
  split at h
  · rename_i registryAccount retiringAccount replacementAccount authority
    simp only [Exec.bind_ok, Exec.query_ok, except_bind_eq_ok, except_pure_eq_ok, require_eq_ok] at h
    obtain ⟨_, _, ⟨⟨r, hauthorized, retiring, hretiring, replacement, -, _, hmatch, _, -, _, -, _, -, _, -, _, -, _, -,
      next, hnext, image, hencode, entryImage, hencodeEntry, rfl⟩, rfl⟩, hcommit⟩ := h
    have hne : registryAccount.key ≠ retiringAccount.key := by
      intro heq
      have hnodup := (authorizedRegistry_ok hauthorized).1
      simp [heq] at hnodup
    obtain ⟨hpool, hflags, hsame⟩ := incrementedRegistry_kept hnext
    exact ⟨_, r, _, commitRegistryAndEntry_governed rfl rfl rfl hne hauthorized hretiring hmatch hpool hflags hsame
      hencode hencodeEntry hcommit⟩
  · cases (Exec.query_ok.mp h).1

/-! ### Openings -/

theorem installRegistry_opened {registryAccount payer authority : AccountInfo} {registry : VerifierRegistry v} {u : Unit}
    (hkey : registryKeyOf accounts = some registryAccount.key) (hsigner : accounts[1]? = some authority)
    (hsame : authority.key = registry.authority) (hsigned : authority.isSigner = true) (hflags : registry.flags = 0)
    (h : installRegistry env v registryAccount payer registry l = .ok u l') :
    Opened env accounts registryAccount.key registry l l' := by
  simp only [installRegistry, Exec.bind_ok, Exec.query_ok, mapErr_eq_ok] at h
  obtain ⟨image, _, ⟨hencode, rfl⟩, preparation, _, ⟨hplan, rfl⟩, _, m, hcreate, hcommit⟩ := h
  obtain ⟨hvalid, rfl⟩ := encodedRegistry_ok hencode
  obtain ⟨-, hout, hslot, hfresh⟩ := createIfNeeded_fresh hplan hcreate
  rw [commitRegistry_ok hcommit]
  refine ⟨hkey, ⟨authority, hsigner, hsame, hsigned⟩, hfresh, registryAt_setData (hslot (.registry v)).owned hvalid,
    hflags, fun k hk => ?_⟩
  exact (Untouched.of_outside hout).setData hk

theorem requireInitialAuthority_ok {authority : AccountInfo} {u : Unit} (h : requireInitialAuthority authority l = .ok u) :
    authority.isSigner = true := by
  rw [requireInitialAuthority, require_eq_ok] at h
  exact h.2.1

theorem processInitializeOf_opened {pool policyBinding : Bytes32} {delay : UInt64} {hash : ExecutableHash v} {u : Unit}
    (h : processInitializeOf env accounts pool policyBinding delay v hash l = .ok u l') :
    ∃ key, ∃ registry : VerifierRegistry v, Opened env accounts key registry l l' := by
  cases v with
  | v1 =>
    simp only [processInitializeOf] at h
    unfold processInitialize at h
    split at h
    · simp only [Exec.bind_ok, Exec.query_ok, except_bind_eq_ok] at h
      obtain ⟨_, _, ⟨⟨_, -, _, hauthority, -⟩, rfl⟩, hinstall⟩ := h
      exact ⟨_, _, installRegistry_opened rfl rfl rfl (requireInitialAuthority_ok hauthority) rfl hinstall⟩
    · cases (Exec.query_ok.mp h).1
  | v2 =>
    simp only [processInitializeOf] at h
    unfold processInitializeV2 at h
    split at h
    · simp only [Exec.bind_ok, Exec.query_ok, except_bind_eq_ok] at h
      obtain ⟨deployment, _, ⟨⟨_, -, _, hauthority, -⟩, rfl⟩, hinstall⟩ := h
      exact ⟨_, _, installRegistry_opened rfl rfl rfl (requireInitialAuthority_ok hauthority) rfl hinstall⟩
    · cases (Exec.query_ok.mp h).1

/-- An accepted instruction opens a registry or mutates one under its authority. -/
theorem processDecodedInstruction_governed {slot : UInt64} {i : RegistryInstruction v} {u : Unit}
    (h : processDecodedInstruction env accounts slot i l = .ok u l') :
    (i.expectedGeneration = none ∧ i.authorityOf accounts = accounts[1]? ∧ i.entryTarget accounts = none ∧
      ∃ key, ∃ registry : VerifierRegistry v, Opened env accounts key registry l l') ∨
    ∃ key r next, Governed env accounts i key r next l l' := by
  cases i with
  | initializeRegistry pool policyBinding delay hash => exact .inl ⟨rfl, rfl, rfl, processInitializeOf_opened h⟩
  | scheduleProfile expected verifierProgram profileBinding releaseBinding statementVersion activationSlot hash =>
    exact .inr (processScheduleOf_governed h)
  | pause expected => exact .inr (processPauseChange_governed (by rfl) h)
  | unpause expected => exact .inr (processPauseChange_governed (by rfl) h)
  | activate expected => exact .inr (processActivate_governed h)
  | retire expected => exact .inr (processRetire_governed h)
  | freeze expected => exact .inr (processFreeze_governed h)

end

/-! ### Frozen registries -/

section
variable (env : RegistryEnvironment)

/-- The account of a pool's registry. -/
abbrev registryKey (v : RegistryVersion) (pool : Pubkey) : Pubkey :=
  (poolV1VerifierRegistryAddress env.findProgramAddress v env.programId pool).1

def Frozen (v : RegistryVersion) (pool : Pubkey) (l : Ledger) : Prop :=
  ∃ r, registryAt env v l (registryKey env v pool) = some r ∧ r.isImmutable = true

/-- The registry of the pool and its entries are as they were, and there is no new entry. -/
structure FamilyKept (v : RegistryVersion) (pool : Pubkey) (l l' : Ledger) : Prop where
  registry : Untouched env l l' (registryKey env v pool)
  entries : ∀ k entry, entryAt env v l k = some entry → entry.pool = pool → Untouched env l l' k
  no_new : ∀ k entry, entryAt env v l' k = some entry → entry.pool = pool → entryAt env v l k = some entry

end

section
variable {env : RegistryEnvironment} {v w : RegistryVersion} {pool k : Pubkey} {l m l' : Ledger}
  {accounts : List AccountInfo} {i : RegistryInstruction w}

theorem Untouched.recordAt {κ : RecordKind} {r : Record κ} (h : Untouched env l l' k) (hr : recordAt env κ l k = some r) :
    recordAt env κ l' k = some r := by
  have howner := (Slot.of_recordAt hr).owned
  obtain ⟨howner', hdata⟩ := h howner
  rw [Registry.recordAt, if_pos howner', hdata]
  rwa [Registry.recordAt, if_pos howner] at hr

theorem FamilyKept.refl (l : Ledger) : FamilyKept env v pool l l :=
  ⟨fun h => ⟨h, rfl⟩, fun _ _ _ _ h => ⟨h, rfl⟩, fun _ _ h _ => h⟩

theorem Untouched.trans (h : Untouched env l m k) (h' : Untouched env m l' k) : Untouched env l l' k := by
  intro howner
  obtain ⟨hm, hdata⟩ := h howner
  obtain ⟨hl, hdata'⟩ := h' hm
  exact ⟨hl, hdata'.trans hdata⟩

theorem FamilyKept.trans (h : FamilyKept env v pool l m) (h' : FamilyKept env v pool m l') :
    FamilyKept env v pool l l' where
  registry := h.registry.trans h'.registry
  entries k entry hentry hpool :=
    (h.entries k entry hentry hpool).trans (h'.entries k entry ((h.entries k entry hentry hpool).recordAt hentry) hpool)
  no_new k entry hentry hpool := h.no_new k entry (h'.no_new k entry hentry hpool) hpool

theorem FamilyKept.frozen (h : FamilyKept env v pool l l') (hfrozen : Frozen env v pool l) : Frozen env v pool l' := by
  obtain ⟨r, hr, himmutable⟩ := hfrozen
  exact ⟨r, h.registry.recordAt hr, himmutable⟩

theorem FamilyKept.of_outside (h : Outside env.programId l l') : FamilyKept env v pool l l' where
  registry := .of_outside h
  entries _ _ _ _ := .of_outside h
  no_new _ _ hentry _ := (recordAt_outside h).symm.trans hentry

/-- An account carries one kind of record. -/
theorem recordAt_kind {κ κ' : RecordKind} {r : Record κ} {r' : Record κ'} (h : recordAt env κ l k = some r)
    (h' : recordAt env κ' l k = some r') : κ' = κ := by
  by_contra hne
  rw [(Slot.of_recordAt h).recordAt_none hne] at h'
  cases h'

/-- No mutation names a frozen registry. -/
theorem Governed.key_ne {key : Pubkey} {r next : VerifierRegistry w} (h : Governed env accounts i key r next l l')
    (hfrozen : Frozen env v pool l) : key ≠ registryKey env v pool := by
  rintro rfl
  obtain ⟨r', hr', himmutable⟩ := hfrozen
  obtain rfl := registryAt_version h.before hr'
  obtain rfl := Option.some_inj.mp (h.before.symm.trans hr')
  rw [h.unfrozen] at himmutable
  cases himmutable

/-- No mutation names an entry of a frozen registry. -/
theorem Governed.target_ne {key : Pubkey} {r next : VerifierRegistry w} {entry : VerifierRegistryEntry v}
    (h : Governed env accounts i key r next l l') (hfrozen : Frozen env v pool l)
    (hentry : entryAt env v l k = some entry) (hpool : entry.pool = pool) : i.entryTarget accounts ≠ some k := by
  intro htarget
  rcases h.target k htarget with hnone | ⟨entry', hentry', hpool'⟩
  · have hempty : entryAt env v l k = none := hnone (.entry v)
    rw [hempty] at hentry
    cases hentry
  · obtain rfl : w = v := RecordKind.entry.inj (recordAt_kind hentry hentry')
    obtain rfl := Option.some_inj.mp (hentry'.symm.trans hentry)
    have haddress := h.address
    rw [← hpool', hpool] at haddress
    exact h.key_ne hfrozen haddress

theorem Governed.familyKept {slot : UInt64} {key : Pubkey} {r next : VerifierRegistry w}
    (h : Governed env accounts i key r next l l') (haccepted : Accepted env accounts slot l l' i)
    (hfrozen : Frozen env v pool l) : FamilyKept env v pool l l' where
  registry := by
    refine h.frame _ (h.key_ne hfrozen).symm fun htarget => ?_
    obtain ⟨r', hr', -⟩ := hfrozen
    rcases h.target _ htarget with hnone | ⟨entry, hentry, -⟩
    · have hempty : registryAt env v l (registryKey env v pool) = none := hnone (.registry v)
      rw [hempty] at hr'
      cases hr'
    · cases recordAt_kind hr' hentry
  entries k entry hentry hpool := by
    refine h.frame k ?_ (h.target_ne hfrozen hentry hpool)
    rintro rfl
    cases recordAt_kind h.before hentry
  no_new k entry hentry hpool := by
    cases haccepted.entry_effect v k with
    | kept _ same => exact same.symm.trans hentry
    | scheduled mutates _ _ _ _ after =>
      obtain rfl := Option.some_inj.mp (after.symm.trans hentry)
      obtain rfl := Option.some_inj.mp (h.key_eq.symm.trans mutates.key_eq)
      have haddress := mutates.address
      rw [show (_ : VerifierRegistry v).pool = pool from hpool] at haddress
      exact absurd haddress (h.key_ne hfrozen)
    | activated target before _ _ after =>
      obtain rfl := Option.some_inj.mp (after.symm.trans hentry)
      exact absurd target (h.target_ne hfrozen before hpool)
    | retired target before _ _ _ after =>
      obtain rfl := Option.some_inj.mp (after.symm.trans hentry)
      exact absurd target (h.target_ne hfrozen before hpool)

theorem Opened.familyKept {slot : UInt64} {key : Pubkey} {registry : VerifierRegistry w}
    (h : Opened env accounts key registry l l') (haccepted : Accepted env accounts slot l l' i)
    (hnone : i.expectedGeneration = none) (hfrozen : Frozen env v pool l) : FamilyKept env v pool l l' := by
  have hne : ∀ κ k (r : Record κ), recordAt env κ l k = some r → k ≠ key := by
    rintro κ k r hr rfl
    rw [h.fresh κ] at hr
    cases hr
  refine ⟨?_, fun k entry hentry _ => h.frame k (hne (.entry v) k entry hentry), fun k entry hentry _ => ?_⟩
  · obtain ⟨r, hr, -⟩ := hfrozen
    exact h.frame _ (hne (.registry v) _ r hr)
  · cases haccepted.entry_effect v k with
    | kept _ same => exact same.symm.trans hentry
    | scheduled => cases hnone
    | activated => cases hnone
    | retired => cases hnone

/-- No step changes a byte of a frozen registry or of its entries. -/
theorem Step.familyKept {s t : RegistryState} {e : RegistryEvent} (h : Step env s e t)
    (hfrozen : Frozen env v pool s.ledger) : FamilyKept env v pool s.ledger t.ledger := by
  have hledger := h.ledger
  cases e with
  | outside slot => exact .of_outside hledger
  | rejected slot accounts i =>
    rw [hledger.2]
    exact .refl _
  | accepted slot accounts i =>
    have haccepted := processDecodedInstruction_accepted hledger
    rcases processDecodedInstruction_governed hledger with ⟨hnone, -, -, key, registry, hopened⟩ | ⟨key, r, next, hgoverned⟩
    · exact hopened.familyKept haccepted hnone hfrozen
    · exact hgoverned.familyKept haccepted hfrozen

theorem Runs.familyKept {s t : RegistryState} {events : List RegistryEvent} (h : Runs env s events t)
    (hfrozen : Frozen env v pool s.ledger) : FamilyKept env v pool s.ledger t.ledger := by
  induction h with
  | nil s => exact .refl _
  | cons hstep _ ih =>
    have hkept := hstep.familyKept hfrozen
    exact hkept.trans (ih (hkept.frozen hfrozen))

/-! ### Which registry a step writes -/

theorem ne_of_registryKey {accounts : List AccountInfo} {key : Pubkey} (hkey : registryKeyOf accounts = some key)
    (hother : ¬ (registryKeyOf accounts = some k ∧ v = w)) : k ≠ key ∨ v ≠ w := by
  by_contra hsame
  rw [not_or, not_not, not_not] at hsame
  exact hother ⟨hsame.1 ▸ hkey, hsame.2⟩

theorem Accepted.registries_kept {slot : UInt64} (h : Accepted env accounts slot l l' i)
    (hother : ¬ (registryKeyOf accounts = some k ∧ v = w)) : registryAt env v l' k = registryAt env v l k := by
  cases h with
  | initialized key_eq _ committed => exact committed.registries_kept v k (ne_of_registryKey key_eq hother)
  | scheduled mutates _ _ _ committed => exact committed.registries_kept v k (ne_of_registryKey mutates.key_eq hother)
  | paused changed =>
    obtain ⟨_, _, _, mutates, committed⟩ := changed
    exact committed.registries_kept v k (ne_of_registryKey mutates.key_eq hother)
  | unpaused changed =>
    obtain ⟨_, _, _, mutates, committed⟩ := changed
    exact committed.registries_kept v k (ne_of_registryKey mutates.key_eq hother)
  | activated mutates _ _ _ _ committed =>
    exact committed.registries_kept v k (ne_of_registryKey mutates.key_eq hother)
  | retired mutates _ _ _ _ _ _ committed =>
    exact committed.registries_kept v k (ne_of_registryKey mutates.key_eq hother)
  | frozen changed =>
    obtain ⟨_, _, _, mutates, committed⟩ := changed
    exact committed.registries_kept v k (ne_of_registryKey mutates.key_eq hother)

/-- What a step did to one registry account. -/
inductive RegistryEffect (env : RegistryEnvironment) (v : RegistryVersion) (k : Pubkey) (l l' : Ledger) :
    RegistryEvent → Prop
  | kept {e : RegistryEvent} (same : registryAt env v l' k = registryAt env v l k) : RegistryEffect env v k l l' e
  | opened {slot : UInt64} {accounts : List AccountInfo} {i : RegistryInstruction v} {registry : VerifierRegistry v}
      (authority : i.authorityOf accounts = accounts[1]?) (opened : Opened env accounts k registry l l') :
      RegistryEffect env v k l l' (.accepted slot accounts i)
  | mutated {slot : UInt64} {accounts : List AccountInfo} {i : RegistryInstruction v} {r next : VerifierRegistry v}
      (governed : Governed env accounts i k r next l l') : RegistryEffect env v k l l' (.accepted slot accounts i)

theorem Step.registry_effect {s t : RegistryState} {e : RegistryEvent} (h : Step env s e t) (v : RegistryVersion)
    (k : Pubkey) : RegistryEffect env v k s.ledger t.ledger e := by
  have hledger := h.ledger
  cases e with
  | outside slot => exact .kept (recordAt_outside hledger)
  | rejected slot accounts i =>
    rw [hledger.2]
    exact .kept rfl
  | @accepted w slot accounts i =>
    by_cases hsame : registryKeyOf accounts = some k ∧ v = w
    · obtain ⟨hkey, rfl⟩ := hsame
      rcases processDecodedInstruction_governed hledger with ⟨-, hauthority, -, key, registry, hopened⟩ |
        ⟨key, r, next, hgoverned⟩
      · obtain rfl := Option.some_inj.mp (hopened.key_eq.symm.trans hkey)
        exact .opened hauthority hopened
      · obtain rfl := Option.some_inj.mp (hgoverned.key_eq.symm.trans hkey)
        exact .mutated hgoverned
    · exact .kept ((processDecodedInstruction_accepted hledger).registries_kept hsame)

theorem isImmutable_iff {r : VerifierRegistry v} : r.isImmutable = true ↔ r.flags &&& 2 ≠ 0 := decide_eq_true_iff

theorem Opened.unfrozen {key : Pubkey} {registry : VerifierRegistry v} (h : Opened env accounts key registry l l') :
    registry.isImmutable = false := by
  rw [VerifierRegistry.isImmutable, h.flags]
  rfl

theorem Governed.frozen_iff {key : Pubkey} {r next : VerifierRegistry w} (h : Governed env accounts i key r next l l') :
    next.isImmutable = true ↔ i.isFreeze = true := by
  have hunfrozen : r.flags &&& 2 = 0 := by
    have hnot := h.unfrozen
    rw [← Bool.not_eq_true, isImmutable_iff, not_not] at hnot
    exact hnot
  rw [isImmutable_iff, h.flags, i.flagsAfter_immutable, hunfrozen]
  cases i.isFreeze <;> decide

/-- An accepted freeze of the registry account. -/
def Freezes (v : RegistryVersion) (k : Pubkey) (e : RegistryEvent) : Prop :=
  ∃ slot accounts expected, e = .accepted (v := v) slot accounts (.freeze expected) ∧ registryKeyOf accounts = some k

theorem isFreeze_eq {v : RegistryVersion} {i : RegistryInstruction v} (h : i.isFreeze = true) :
    ∃ expected, i = .freeze expected := by
  cases i with
  | freeze expected => exact ⟨expected, rfl⟩
  | _ => cases h

/-- A registry becomes frozen by a freeze only. -/
theorem Step.freezes {s t : RegistryState} {e : RegistryEvent} (h : Step env s e t) (hs : ¬ Frozen env v pool s.ledger)
    (ht : Frozen env v pool t.ledger) : Freezes v (registryKey env v pool) e := by
  obtain ⟨r', hr', himmutable⟩ := ht
  cases h.registry_effect v (registryKey env v pool) with
  | kept same => exact absurd ⟨r', same.symm.trans hr', himmutable⟩ hs
  | opened _ opened =>
    obtain rfl := Option.some_inj.mp (opened.after.symm.trans hr')
    rw [opened.unfrozen] at himmutable
    cases himmutable
  | mutated governed =>
    obtain rfl := Option.some_inj.mp (governed.after.symm.trans hr')
    obtain ⟨expected, rfl⟩ := isFreeze_eq (governed.frozen_iff.mp himmutable)
    exact ⟨_, _, expected, rfl, governed.key_eq⟩

theorem Genesis.not_frozen {s : RegistryState} (h : Genesis env s) : ¬ Frozen env v pool s.ledger := by
  rintro ⟨r, hr, -⟩
  have hnone : registryAt env v s.ledger (registryKey env v pool) = none := h.recordAt_none (.registry v) _
  rw [hnone] at hr
  cases hr

/-! ### Who holds a registry -/

/-- The authority of an accepted instruction for the pool's registry is the key. -/
def RegistryEvent.SignedBy (env : RegistryEnvironment) (pool authority : Pubkey) : RegistryEvent → Prop
  | @RegistryEvent.accepted v _ accounts i => registryKeyOf accounts = some (registryKey env v pool) →
      (i.authorityOf accounts).map (·.key) = some authority
  | _ => True

/-- Any registry of the pool that is not frozen names the key as its authority. -/
def HeldBy (env : RegistryEnvironment) (pool authority : Pubkey) (l : Ledger) : Prop :=
  ∀ v (r : VerifierRegistry v), registryAt env v l (registryKey env v pool) = some r → r.isImmutable = false →
    r.authority = authority

theorem HeldBy.step {authority : Pubkey} {s t : RegistryState} {e : RegistryEvent}
    (h : HeldBy env pool authority s.ledger) (hstep : Step env s e t) (hsigned : e.SignedBy env pool authority) :
    HeldBy env pool authority t.ledger := by
  intro v r' hr' hunfrozen
  cases hstep.registry_effect v (registryKey env v pool) with
  | kept same => exact h v r' (same.symm.trans hr') hunfrozen
  | opened hauthority opened =>
    obtain rfl := Option.some_inj.mp (opened.after.symm.trans hr')
    obtain ⟨a, ha, hkey, -⟩ := opened.signed
    have hsigner := hsigned opened.key_eq
    rw [hauthority, ha, Option.map_some, Option.some_inj] at hsigner
    exact hkey.symm.trans hsigner
  | @mutated slot accounts i r next governed =>
    obtain rfl := Option.some_inj.mp (governed.after.symm.trans hr')
    have hbefore := h v r governed.before governed.unfrozen
    have hkind : i.isFreeze ≠ true := by
      intro hfreeze
      rw [governed.frozen_iff.mpr hfreeze] at hunfrozen
      cases hunfrozen
    rw [governed.authority, ← hbefore]
    cases i with
    | freeze expected => exact absurd rfl hkind
    | _ => rfl

theorem Runs.heldBy {authority : Pubkey} {s t : RegistryState} {events : List RegistryEvent} (hrun : Runs env s events t)
    (h : HeldBy env pool authority s.ledger) (hsigned : ∀ e ∈ events, e.SignedBy env pool authority) :
    HeldBy env pool authority t.ledger := by
  induction hrun with
  | nil => exact h
  | cons hstep _ ih =>
    exact ih (h.step hstep (hsigned _ List.mem_cons_self)) fun e he => hsigned e (List.mem_cons_of_mem _ he)

theorem Genesis.heldBy {authority : Pubkey} {s : RegistryState} (h : Genesis env s) :
    HeldBy env pool authority s.ledger := by
  intro v r hr
  have hnone : registryAt env v s.ledger (registryKey env v pool) = none := h.recordAt_none (.registry v) _
  rw [hnone] at hr
  cases hr

end

end Aspis.Registry
