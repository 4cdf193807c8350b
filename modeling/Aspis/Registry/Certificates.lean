import Aspis.Registry.Governance

/-! The second account family certifies deployments: an entry is scheduled only
with the hash of a program that has no upgrade authority. Nothing the registry
program does makes an account executable. -/

namespace Aspis.Registry

open Lib Chain Statement

/-! ### Certified deployments -/

/-- The program is deployed by the upgradeable loader, without upgrade authority, and its executable has the hash. -/
structure ImmutableDeployment (env : RegistryEnvironment) (l : Ledger) (program : Pubkey) (hash : Bytes32) : Prop where
  owner : (l program).owner = Pool.bpfLoaderUpgradeable
  executable : (l program).executable = true
  linked : env.deserializeLoaderState (l program).data =
    some (.program (programdataAddressOf env.findProgramAddress program))
  programdata_owner : (l (programdataAddressOf env.findProgramAddress program)).owner = Pool.bpfLoaderUpgradeable
  no_authority : ∃ slot, env.deserializeLoaderState
    ((l (programdataAddressOf env.findProgramAddress program)).data.take PROGRAMDATA_METADATA_BYTES) =
      some (.programData slot none)
  hash_eq : env.hash ((l (programdataAddressOf env.findProgramAddress program)).data.drop PROGRAMDATA_METADATA_BYTES) =
    hash

section
variable {env : RegistryEnvironment} {l l' : Ledger} {accounts : List AccountInfo}

theorem linkedProgramdata_ok {data : Bytes} {key : Pubkey} (h : linkedProgramdata env data = .ok key) :
    env.deserializeLoaderState data = some (.program key) := by
  simp only [linkedProgramdata, except_bind_eq_ok] at h
  obtain ⟨_, -, h⟩ := h
  split at h
  · rename_i hstate
    cases h
    exact hstate
  · cases h

theorem immutableExecutableHash_ok {data : Bytes} {hash : Bytes32} (h : immutableExecutableHash env data = .ok hash) :
    (∃ slot, env.deserializeLoaderState (data.take PROGRAMDATA_METADATA_BYTES) = some (.programData slot none)) ∧
      env.hash (data.drop PROGRAMDATA_METADATA_BYTES) = hash := by
  simp only [immutableExecutableHash, except_bind_eq_ok] at h
  obtain ⟨_, -, h⟩ := h
  split at h
  · rename_i slot hstate
    cases h
    exact ⟨⟨slot, hstate⟩, rfl⟩
  · cases h
  · cases h

theorem authenticateImmutableLoaderV3DeploymentV2_ok {expectedProgram : Pubkey} {program programdata : AccountInfo}
    {deployment : ImmutableLoaderV3DeploymentV2}
    (h : authenticateImmutableLoaderV3DeploymentV2 env expectedProgram program programdata l = .ok deployment) :
    ImmutableDeployment env l expectedProgram deployment.executableHash := by
  simp only [authenticateImmutableLoaderV3DeploymentV2, except_bind_eq_ok, require_eq_ok, except_pure_eq_ok] at h
  obtain ⟨_, ⟨rfl, howner, hexecutable, -⟩, _, ⟨hdata, -⟩, linked, hlinked, _, ⟨rfl, hcanonical⟩, hash, hhash, _, -, rfl⟩ := h
  obtain ⟨hauthority, hhash⟩ := immutableExecutableHash_ok hhash
  have hstate := linkedProgramdata_ok hlinked
  rw [AccountInfo.data, hcanonical] at hauthority hhash
  rw [AccountInfo.owner, hcanonical] at hdata
  rw [hcanonical] at hstate
  exact ⟨howner, hexecutable, hstate, hdata, hauthority, hhash⟩

/-- A second-family entry is scheduled with the hash of an immutable deployment that is there. -/
theorem processScheduleV2_certified {verifierProgram profileBinding releaseBinding : Bytes32}
    {statementVersion : UInt8} {expected activationSlot slot : UInt64} {hash : Bytes32} {u : Unit}
    (h : processScheduleV2 env accounts expected verifierProgram profileBinding releaseBinding statementVersion
      activationSlot hash slot l = .ok u l') :
    ImmutableDeployment env l verifierProgram hash ∧ ∃ k entry, entryKeyOf accounts = some k ∧
      entryAt env .v2 l' k = some entry ∧ EntryDeploymentV2.executableHash entry.deployment = hash := by
  unfold processScheduleV2 at h
  split at h
  · rename_i registryAccount entryAccount authority payer system program programdata
    simp only [Exec.bind_ok, Exec.query_ok, except_bind_eq_ok, except_pure_eq_ok, require_eq_ok] at h
    obtain ⟨_, _, ⟨⟨r, -, deployment, hdeployment, _, rfl, rfl⟩, rfl⟩, hinstall⟩ := h
    refine ⟨authenticateImmutableLoaderV3DeploymentV2_ok hdeployment, entryAccount.key, ?_⟩
    simp only [installEntry, Exec.bind_ok, Exec.query_ok, except_bind_eq_ok, mapErr_eq_ok, except_pure_eq_ok] at hinstall
    obtain ⟨_, _, ⟨⟨image, hentry, next, -, registryImage, -, rfl⟩, rfl⟩, preparation, _, ⟨hplan, rfl⟩, _, m, hcreate,
      hcommit⟩ := hinstall
    obtain ⟨hvalid, rfl⟩ := encodedEntry_ok hentry
    obtain ⟨-, -, hslot, -⟩ := createIfNeeded_fresh hplan hcreate
    rw [commitRegistryAndEntry_ok hcommit]
    refine ⟨_, rfl, entryAt_setData ?_ hvalid, rfl⟩
    rw [setData_owner]
    exact (hslot (.entry .v2)).owned
  · cases (Exec.query_ok.mp h).1

/-- The step scheduled the entry, under an observed immutable deployment and at least the delay before the slot. -/
def Schedules (env : RegistryEnvironment) (l : Ledger) (k : Pubkey) (entry : VerifierRegistryEntryV2)
    (delay deadline : UInt64) (e : RegistryEvent) : Prop :=
  ∃ slot accounts expected hash, e = .accepted (v := .v2) slot accounts (.scheduleProfile expected
      entry.verifierProgram entry.profileBinding entry.releaseBinding entry.statementVersion entry.activationSlot hash) ∧
    registryKeyOf accounts = some (registryKey env .v2 entry.pool) ∧ entryKeyOf accounts = some k ∧
    EntryDeploymentV2.executableHash entry.deployment = hash ∧
    ImmutableDeployment env l entry.verifierProgram hash ∧ slot.toNat + delay.toNat ≤ deadline.toNat

theorem Step.schedules {s t : RegistryState} {e : RegistryEvent} {k : Pubkey} {entry : VerifierRegistryEntryV2}
    (h : Step env s e t) (hbefore : entryAt env .v2 s.ledger k = none)
    (hafter : entryAt env .v2 t.ledger k = some entry) :
    ∃ r, registryAt env .v2 t.ledger (registryKey env .v2 entry.pool) = some r ∧
      Schedules env s.ledger k entry r.minimumActivationDelaySlots entry.activationSlot e := by
  have hchanged : ¬ entryAt env .v2 t.ledger k = entryAt env .v2 s.ledger k := by
    rw [hbefore, hafter]
    nofun
  rcases h.cases with hkept | ⟨w, slot, accounts, i, rfl, -, haccepted⟩
  · exact absurd (hkept (.entry .v2) k) hchanged
  · have hledger := h.ledger
    cases haccepted.entry_effect .v2 k with
    | kept _ same => exact absurd same hchanged
    | @scheduled key _ r next expected activationSlot _ _ _ _ hash _ mutates registry_after target _ delayed after =>
      obtain rfl := Option.some_inj.mp (after.symm.trans hafter)
      obtain ⟨hdeployment, k', entry, hk', hentry, hhash⟩ := processScheduleV2_certified hledger
      obtain rfl := Option.some_inj.mp (hk'.symm.trans target)
      obtain rfl := Option.some_inj.mp (after.symm.trans hentry)
      obtain rfl := mutates.address
      refine ⟨next, registry_after, slot, accounts, expected, hash, rfl, mutates.key_eq, target, hhash, hdeployment, ?_⟩
      rw [mutates.delay]
      exact delayed
    | activated _ before =>
      rw [before] at hbefore
      cases hbefore
    | retired _ before =>
      rw [before] at hbefore
      cases hbefore

end

/-! ### The way of an entry -/

/-- Two stages of one entry. -/
structure SameCertificate {v : RegistryVersion} (e e' : VerifierRegistryEntry v) : Prop where
  pool : e'.pool = e.pool
  program : e'.verifierProgram = e.verifierProgram
  profile : e'.profileBinding = e.profileBinding
  release : e'.releaseBinding = e.releaseBinding
  version : e'.statementVersion = e.statementVersion
  activation : e'.activationSlot = e.activationSlot
  deployment : e'.deployment = e.deployment

section
variable {env : RegistryEnvironment} {v : RegistryVersion} {s t : RegistryState} {events : List RegistryEvent}
  {k : Pubkey}

theorem EntryMoves.sameCertificate {e e' : VerifierRegistryEntry v} (h : EntryMoves e e') : SameCertificate e e' := by
  cases h <;> exact ⟨rfl, rfl, rfl, rfl, rfl, rfl, rfl⟩

theorem SameCertificate.trans {e e' e'' : VerifierRegistryEntry v} (h : SameCertificate e e')
    (h' : SameCertificate e' e'') : SameCertificate e e'' :=
  ⟨h'.pool.trans h.pool, h'.program.trans h.program, h'.profile.trans h.profile, h'.release.trans h.release,
    h'.version.trans h.version, h'.activation.trans h.activation, h'.deployment.trans h.deployment⟩

theorem Runs.sameCertificate {entry : VerifierRegistryEntry v} (h : Runs env s events t)
    (hentry : entryAt env v s.ledger k = some entry) :
    ∃ entry', entryAt env v t.ledger k = some entry' ∧ SameCertificate entry entry' := by
  induction h generalizing entry with
  | nil => exact ⟨entry, hentry, rfl, rfl, rfl, rfl, rfl, rfl, rfl⟩
  | cons hstep _ ih =>
    obtain ⟨entry', hentry', hmoves⟩ := hstep.entry_moves hentry
    obtain ⟨entry'', hentry'', hsame⟩ := ih hentry'
    exact ⟨entry'', hentry'', hmoves.sameCertificate.trans hsame⟩

theorem Schedules.later {l : Ledger} {entry entry' : VerifierRegistryEntryV2} {delay deadline deadline' : UInt64}
    {e : RegistryEvent} (h : Schedules env l k entry delay deadline e) (hsame : SameCertificate entry entry')
    (hle : deadline ≤ deadline') : Schedules env l k entry' delay deadline' e := by
  obtain ⟨slot, accounts, expected, hash, rfl, hregistry, hentry, hhash, hdeployment, hdelay⟩ := h
  have hslots := UInt64.le_iff_toNat_le.mp hle
  refine ⟨slot, accounts, expected, hash, ?_, ?_, hentry, ?_, ?_, by omega⟩
  · rw [hsame.program, hsame.profile, hsame.release, hsame.version, hsame.activation]
  · rw [hsame.pool]
    exact hregistry
  · rw [hsame.deployment]
    exact hhash
  · rw [hsame.program]
    exact hdeployment

/-- The delay of a registry never changes. -/
theorem Runs.registry_delay {r : VerifierRegistry v} (h : Runs env s events t)
    (hr : registryAt env v s.ledger k = some r) : ∃ r', registryAt env v t.ledger k = some r' ∧
      r'.minimumActivationDelaySlots = r.minimumActivationDelaySlots := by
  induction h generalizing r with
  | nil => exact ⟨r, hr, rfl⟩
  | cons hstep _ ih =>
    obtain ⟨r', hr', hsucceeds⟩ := hstep.registry_succeeds hr
    obtain ⟨r'', hr'', hdelay⟩ := ih hr'
    exact ⟨r'', hr'', hdelay.trans hsucceeds.delay⟩

end

/-! ### The executable flag -/

section
variable (env : RegistryEnvironment)

/-- No account becomes executable or ceases to be. -/
def ExecutableKept (l l' : Ledger) : Prop := ∀ k, (l' k).executable = (l k).executable

/-- A step of the chain under the rule of the runtime that only a loader makes accounts executable. -/
structure RuntimeStep (s : RegistryState) (e : RegistryEvent) (t : RegistryState) : Prop extends Step env s e t where
  executable : ∀ slot, e = .outside slot → ∀ k, (s.ledger k).owner = env.programId →
    (t.ledger k).executable = (s.ledger k).executable

abbrev RuntimeRuns : RegistryState → List RegistryEvent → RegistryState → Prop := Run (RuntimeStep env)

end

section
variable {env : RegistryEnvironment} {l l' m : Ledger}

theorem ExecutableKept.refl (l : Ledger) : ExecutableKept l l := fun _ => rfl

theorem ExecutableKept.trans (h : ExecutableKept l m) (h' : ExecutableKept m l') : ExecutableKept l l' :=
  fun k => (h' k).trans (h k)

theorem ExecutableKept.update {key : Pubkey} {account : Account} (h : account.executable = (l key).executable) :
    ExecutableKept l (Function.update l key account) := by
  intro k
  by_cases hk : k = key
  · rw [hk, Function.update_self, h]
  · rw [Function.update_of_ne hk]

theorem systemTransfer_executable {src dst : Pubkey} {amount : ℕ} (h : systemTransfer src dst amount l = .ok l') :
    ExecutableKept l l' := by
  unfold systemTransfer at h
  split_ifs at h
  cases h
  refine ExecutableKept.trans (m := Function.update l src { l src with lamports := (l src).lamports - amount }) ?_ ?_
  · exact ExecutableKept.update rfl
  · exact ExecutableKept.update rfl

theorem systemAllocate_executable {key : Pubkey} {space : ℕ} (h : systemAllocate key space l = .ok l') :
    ExecutableKept l l' := by
  unfold systemAllocate at h
  split_ifs at h
  cases h
  exact ExecutableKept.update rfl

theorem systemAssign_executable {key owner : Pubkey} (h : systemAssign key owner l = .ok l') :
    ExecutableKept l l' := by
  unfold systemAssign at h
  split_ifs at h <;> cases h
  · exact ExecutableKept.refl l
  · exact ExecutableKept.update rfl

theorem systemCreateAccount_executable {payer key owner : Pubkey} {lamports space : ℕ}
    (h : systemCreateAccount payer key lamports space owner l = .ok l') : ExecutableKept l l' := by
  unfold systemCreateAccount at h
  split_ifs at h
  simp only [except_bind_eq_ok] at h
  obtain ⟨m, hallocate, n, hassign, htransfer⟩ := h
  exact ((systemAllocate_executable hallocate).trans (systemAssign_executable hassign)).trans
    (systemTransfer_executable htransfer)

end

section
variable {env : RegistryEnvironment} {α β : Type}

theorem executable_query (f : Ledger → Except RegistryError α) : Exec.Steps ExecutableKept (Exec.query f) :=
  Exec.steps_query ExecutableKept.refl f

theorem executable_bind {x : RegistryHandler α} {f : α → RegistryHandler β} (hx : x.Steps ExecutableKept)
    (hf : ∀ a, (f a).Steps ExecutableKept) : Exec.Steps ExecutableKept (x >>= f) :=
  Exec.steps_bind (fun h h' => h.trans h') hx hf

theorem executable_systemCpi {f : Ledger → Except ProgramError Ledger} (h : ∀ l l', f l = .ok l' → ExecutableKept l l') :
    (systemCpi f).Steps ExecutableKept :=
  Exec.steps_call ExecutableKept.refl fun l l' hf => h l l' (mapErr_eq_ok.mp hf)

theorem executable_setData (key : Pubkey) (image : Bytes) :
    Exec.Steps (ε := RegistryError) ExecutableKept (Exec.update (setData key image)) := by
  intro l
  exact ExecutableKept.update rfl

theorem createIfNeeded_executable (payer account : AccountInfo) (exactBytes : ℕ)
    (preparation : Pool.FreshPdaPreparationV1) :
    (createIfNeeded env payer account exactBytes preparation).Steps ExecutableKept := by
  unfold createIfNeeded
  split_ifs
  · refine executable_bind ?_ fun _ => executable_query _
    refine executable_bind (executable_query _) fun _ => executable_bind (executable_query _) fun lamports => ?_
    split_ifs
    · exact executable_systemCpi fun l l' => systemCreateAccount_executable
    · refine executable_bind ?_ fun _ => executable_bind (executable_systemCpi fun l l' => systemAllocate_executable)
        fun _ => executable_systemCpi fun l l' => systemAssign_executable
      unfold topUp
      split_ifs
      · exact executable_systemCpi fun l l' => systemTransfer_executable
      · exact Exec.steps_pure ExecutableKept.refl ()
  · exact Exec.steps_pure ExecutableKept.refl ()

theorem commitRegistry_executable (account : AccountInfo) (image : Bytes) :
    (commitRegistry account image).Steps ExecutableKept :=
  executable_bind (executable_query _) fun _ => executable_setData _ _

theorem commitRegistryAndEntry_executable (registryAccount entryAccount : AccountInfo) (registry entry : Bytes) :
    (commitRegistryAndEntry registryAccount registry entryAccount entry).Steps ExecutableKept :=
  executable_bind (executable_query _) fun _ => executable_bind (executable_setData _ _) fun _ => executable_setData _ _

theorem installRegistry_executable {v : RegistryVersion} (registryAccount payer : AccountInfo)
    (registry : VerifierRegistry v) : (installRegistry env v registryAccount payer registry).Steps ExecutableKept :=
  executable_bind (executable_query _) fun _ => executable_bind (executable_query _) fun _ =>
    executable_bind (createIfNeeded_executable _ _ _ _) fun _ => commitRegistry_executable _ _

theorem installEntry_executable {v : RegistryVersion} (registryAccount entryAccount payer : AccountInfo)
    (registry : VerifierRegistry v) (entry : VerifierRegistryEntry v) :
    (installEntry env v registryAccount entryAccount payer registry entry).Steps ExecutableKept :=
  executable_bind (executable_query _) fun _ => executable_bind (executable_query _) fun _ =>
    executable_bind (createIfNeeded_executable _ _ _ _) fun _ => commitRegistryAndEntry_executable _ _ _ _

/-- The program makes no account executable. -/
theorem processDecodedInstruction_executable {v : RegistryVersion} (accounts : List AccountInfo) (slot : UInt64)
    (i : RegistryInstruction v) : (processDecodedInstruction env accounts slot i).Steps ExecutableKept := by
  cases i with
  | initializeRegistry pool policyBinding delay hash =>
    cases v
    all_goals
      simp only [processDecodedInstruction, processInitializeOf, processInitialize, processInitializeV2]
      split
    all_goals
      first
      | exact executable_bind (executable_query _) fun _ => installRegistry_executable _ _ _
      | exact executable_query _
  | scheduleProfile expected verifierProgram profileBinding releaseBinding statementVersion activationSlot hash =>
    cases v
    all_goals
      simp only [processDecodedInstruction, processScheduleOf, processSchedule, processScheduleV2]
      split
    all_goals
      first
      | exact executable_bind (executable_query _) fun _ => installEntry_executable _ _ _ _ _
      | exact executable_query _
  | activate expected =>
    simp only [processDecodedInstruction, processActivate]
    split
    · exact executable_bind (executable_query _) fun _ => commitRegistryAndEntry_executable _ _ _ _
    · exact executable_query _
  | retire expected =>
    simp only [processDecodedInstruction, processRetire]
    split
    · exact executable_bind (executable_query _) fun _ => commitRegistryAndEntry_executable _ _ _ _
    · exact executable_query _
  | freeze expected =>
    simp only [processDecodedInstruction, processFreeze]
    split
    · exact executable_bind (executable_query _) fun _ => commitRegistry_executable _ _
    · exact executable_query _
  | _ =>
    simp only [processDecodedInstruction, processPauseChange]
    split
    · exact executable_bind (executable_query _) fun _ => commitRegistry_executable _ _
    · exact executable_query _

theorem RuntimeStep.executable_kept {s t : RegistryState} {e : RegistryEvent} {k : Pubkey} (h : RuntimeStep env s e t)
    (howner : (s.ledger k).owner = env.programId) : (t.ledger k).executable = (s.ledger k).executable := by
  have hledger := h.ledger
  cases e with
  | outside slot => exact h.executable slot rfl k howner
  | rejected slot accounts i => rw [hledger.2]
  | accepted slot accounts i => exact (processDecodedInstruction_executable accounts slot i).ok hledger k

end

theorem RuntimeRuns.runs {env : RegistryEnvironment} {s t : RegistryState} {events : List RegistryEvent}
    (h : RuntimeRuns env s events t) : Runs env s events t := by
  have hmap := Run.map (f := id) (fun s t e _ (hstep : RuntimeStep env s e t) => hstep.toStep) h
  rwa [List.map_id] at hmap

end Aspis.Registry
