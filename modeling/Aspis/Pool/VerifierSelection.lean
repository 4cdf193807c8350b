import Aspis.Pool.Prepared
import Aspis.Registry.Lifecycle

/-! How the pool selects a verifier: it reads the registry and the entry its
policy names and checks them again at use time. A selection that succeeds is
traced back to the registry instructions that brought its entry about. -/

namespace Aspis.Pool

open Lib Chain Statement Registry

def requireReadonlyRegistryAccount (account : AccountInfo) (registryProgram : Pubkey) (invalid : PoolV1ProgramError)
    (l : Ledger) : Except ProgramError Unit :=
  require (account.owner l = registryProgram ∧ account.executable l = false ∧ account.isWritable = false ∧
    account.isSigner = false) (.custom invalid)

section
variable (findProgramAddress : List Bytes → Pubkey → Pubkey × UInt8)

/-- The second family must be frozen and certified for the policy's registry program. -/
def registryMeetsPolicy (policy : VerifierPolicyV1) : (v : RegistryVersion) → VerifierRegistry v → Bool
  | .v1, registry => registry.isImmutable = decide (policy.flags &&& 1 ≠ 0)
  | .v2, registry =>
    let deployment : RegistryDeploymentV2 := registry.deployment
    registry.isImmutable = true ∧ deployment.registryProgram = policy.registryProgram ∧
      deployment.loaderProgram = bpfLoaderUpgradeable ∧
      deployment.programdataAddress = programdataAddressOf findProgramAddress policy.registryProgram

def entryMeetsSelection (selection : VerifierSelectionV1) : (v : RegistryVersion) → VerifierRegistryEntry v → Bool
  | .v1, _ => true
  | .v2, entry =>
    let deployment : EntryDeploymentV2 := entry.deployment
    deployment.loaderProgram = bpfLoaderUpgradeable ∧
      deployment.programdataAddress = programdataAddressOf findProgramAddress selection.verifierProgram ∧
      deployment.expectedUpgradeAuthority = Bytes32.zero

def expectedVerifierLoaderOf : RegistryVersion → Option Bytes32
  | .v1 => none
  | .v2 => some bpfLoaderUpgradeable

/-- The registry of the policy, unpaused. -/
def selectRegistry (v : RegistryVersion) (pool : Pubkey) (policy : VerifierPolicyV1) (account : AccountInfo)
    (l : Ledger) : Except ProgramError (VerifierRegistry v) := do
  requireReadonlyRegistryAccount account policy.registryProgram .invalidVerifierRegistry l
  require (account.key = (poolV1VerifierRegistryAddress findProgramAddress v policy.registryProgram pool).1)
    (.custom .invalidVerifierRegistryAddress)
  let registry ← mapErr (fun _ => .custom .invalidVerifierRegistry) (decodeVerifierRegistry v (account.data l))
  require (registry.pool = pool ∧ registry.authority = policy.registryAuthority ∧
    registry.policyBinding = policy.policyBinding ∧ registryMeetsPolicy findProgramAddress policy v registry = true)
    (.custom .invalidVerifierRegistry)
  require (registry.isPaused = false) (.custom .verifierRegistryPaused)
  return registry

/-- The entry of the selection, active at the slot. -/
def selectEntry (v : RegistryVersion) (pool : Pubkey) (policy : VerifierPolicyV1) (account : AccountInfo)
    (selection : VerifierSelectionV1) (currentSlot : UInt64) (l : Ledger) :
    Except ProgramError (VerifierRegistryEntry v) := do
  requireReadonlyRegistryAccount account policy.registryProgram .invalidVerifierEntry l
  require (account.key = (poolV1VerifierEntryAddress findProgramAddress v policy.registryProgram pool
    selection.profileBinding selection.releaseBinding).1) (.custom .invalidVerifierEntryAddress)
  let entry ← mapErr (fun _ => .custom .invalidVerifierEntry) (decodeVerifierRegistryEntry v (account.data l))
  require (entry.pool = pool ∧ entry.policyBinding = policy.policyBinding ∧
    entry.verifierProgram = selection.verifierProgram ∧ entry.profileBinding = selection.profileBinding ∧
    entry.releaseBinding = selection.releaseBinding ∧ entry.statementVersion = selection.statementVersion ∧
    entryMeetsSelection findProgramAddress selection v entry = true) (.custom .verifierSelectionMismatch)
  require (entry.status = .active) (.custom .verifierEntryInactive)
  require (entry.activationSlot ≤ currentSlot) (.custom .verifierEntryNotActiveYet)
  require (¬ (entry.retirementSlot ≠ POOL_V1_VERIFIER_ENTRY_NO_RETIREMENT_SLOT ∧ entry.retirementSlot ≤ currentSlot))
    (.custom .verifierEntryRetired)
  return entry

def authenticateVerifierSelection (v : RegistryVersion) (pool : Pubkey) (policy : VerifierPolicyV1)
    (accounts : List AccountInfo) (selection : VerifierSelectionV1) (currentSlot : UInt64) (l : Ledger) :
    Except ProgramError AuthenticatedVerifierSelectionV1 :=
  match accounts with
  | [registryAccount, entryAccount] => do
    let registry ← selectRegistry findProgramAddress v pool policy registryAccount l
    let entry ← selectEntry findProgramAddress v pool policy entryAccount selection currentSlot l
    return ⟨policy, entry.pool, ⟨entry.verifierProgram, entry.profileBinding, entry.releaseBinding,
      entry.statementVersion⟩, registry.generation.toNat, expectedVerifierLoaderOf v, currentSlot.toNat⟩
  | accounts => .error (if accounts.length < 2 then .notEnoughAccountKeys else .invalidArgument)

/-- The account family a policy asks for. -/
def policyVersion (policy : VerifierPolicyV1) : RegistryVersion := if policy.flags &&& 2 ≠ 0 then .v2 else .v1

def authenticateVerifierSelectionV2 := authenticateVerifierSelection findProgramAddress .v2

def authenticateVerifierSelectionV1 (pool : Pubkey) (policy : VerifierPolicyV1) (accounts : List AccountInfo)
    (selection : VerifierSelectionV1) (currentSlot : UInt64) (l : Ledger) :
    Except ProgramError AuthenticatedVerifierSelectionV1 := do
  mapErr (fun _ => .custom .invalidVerifierRegistry) (validateVerifierPolicyV1 policy)
  if policy.flags &&& 2 ≠ 0 then
    authenticateVerifierSelectionV2 findProgramAddress pool policy accounts selection currentSlot l
  else
    authenticateVerifierSelection findProgramAddress .v1 pool policy accounts selection currentSlot l

end

/-! ### What a selection has read -/

/-- The registry and entry behind a successful selection. -/
structure Selected (env : RegistryEnvironment) (v : RegistryVersion) (pool : Pubkey) (registryKey entryKey : Pubkey)
    (selection : VerifierSelectionV1) (slot : UInt64) (registry : VerifierRegistry v) (entry : VerifierRegistryEntry v)
    (l : Ledger) : Prop where
  registry_at : registryAt env v l registryKey = some registry
  address : registryKey = (poolV1VerifierRegistryAddress env.findProgramAddress v env.programId pool).1
  unpaused : registry.isPaused = false
  entry_at : entryAt env v l entryKey = some entry
  pool_eq : entry.pool = pool
  program_eq : entry.verifierProgram = selection.verifierProgram
  profile_eq : entry.profileBinding = selection.profileBinding
  release_eq : entry.releaseBinding = selection.releaseBinding
  version_eq : entry.statementVersion = selection.statementVersion
  active : entry.status = .active
  elapsed : entry.activationSlot ≤ slot

theorem authenticateVerifierSelection_selected {env : RegistryEnvironment} {v : RegistryVersion} {pool : Pubkey}
    {policy : VerifierPolicyV1} {accounts : List AccountInfo} {selection : VerifierSelectionV1} {slot : UInt64}
    {l : Ledger} {evidence : AuthenticatedVerifierSelectionV1} (hprogram : policy.registryProgram = env.programId)
    (h : authenticateVerifierSelection env.findProgramAddress v pool policy accounts selection slot l = .ok evidence) :
    ∃ registryAccount entryAccount registry entry, accounts = [registryAccount, entryAccount] ∧
      Selected env v pool registryAccount.key entryAccount.key selection slot registry entry l := by
  unfold authenticateVerifierSelection at h
  split at h
  · rename_i registryAccount entryAccount
    simp only [except_bind_eq_ok, selectRegistry, selectEntry, requireReadonlyRegistryAccount, require_eq_ok,
      mapErr_eq_ok, except_pure_eq_ok, hprogram] at h
    obtain ⟨_, ⟨_, ⟨hrowner, -⟩, _, haddress, registry, hregistry, _, -, _, hunpaused, rfl⟩, _, ⟨_, ⟨heowner, -⟩, _, -,
      entry, hentry, _, ⟨hpool, -, hverifier, hprofile, hrelease, hversion, -⟩, _, hactive, _, helapsed, _, -, rfl⟩,
      -⟩ := h
    exact ⟨registryAccount, entryAccount, registry, entry, rfl, registryAt_eq_some.mpr ⟨hrowner, hregistry⟩, haddress,
      hunpaused, entryAt_eq_some.mpr ⟨heowner, hentry⟩, hpool, hverifier, hprofile, hrelease, hversion, hactive,
      helapsed⟩
  · cases h

theorem authenticateVerifierSelectionV1_version {findProgramAddress : List Bytes → Pubkey → Pubkey × UInt8}
    {pool : Pubkey} {policy : VerifierPolicyV1} {accounts : List AccountInfo} {selection : VerifierSelectionV1}
    {slot : UInt64} {l : Ledger} {evidence : AuthenticatedVerifierSelectionV1}
    (h : authenticateVerifierSelectionV1 findProgramAddress pool policy accounts selection slot l = .ok evidence) :
    authenticateVerifierSelection findProgramAddress (policyVersion policy) pool policy accounts selection slot l =
      .ok evidence := by
  simp only [authenticateVerifierSelectionV1, except_bind_eq_ok] at h
  obtain ⟨_, -, h⟩ := h
  unfold policyVersion
  split_ifs at h ⊢ <;> exact h

/-! ### Tracing an entry -/

/-- An accepted activation of the entry account. -/
def Activates (v : RegistryVersion) (k : Pubkey) (e : RegistryEvent) : Prop :=
  ∃ slot accounts expected, e = .accepted (v := v) slot accounts (.activate expected) ∧ entryKeyOf accounts = some k

/-- An accepted retirement of the entry account. -/
def Retires (v : RegistryVersion) (k : Pubkey) (e : RegistryEvent) : Prop :=
  ∃ slot accounts expected, e = .accepted (v := v) slot accounts (.retire expected) ∧ entryKeyOf accounts = some k

/-- The entry was scheduled in these events, under the registry of its pool and with that
registry's delay, and activated after that unless it is still pending. -/
structure ScheduledIn (env : RegistryEnvironment) {v : RegistryVersion} (k : Pubkey) (entry : VerifierRegistryEntry v)
    (before : List RegistryEvent) (slot : UInt64) (accounts : List AccountInfo) (expected : UInt64)
    (hash : ExecutableHash v) (after : List RegistryEvent) (registry : VerifierRegistry v) (events : List RegistryEvent)
    (l : Ledger) : Prop where
  events_eq : events = before ++ .accepted slot accounts (.scheduleProfile expected entry.verifierProgram
    entry.profileBinding entry.releaseBinding entry.statementVersion entry.activationSlot hash) :: after
  registryKey : registryKeyOf accounts =
    some (poolV1VerifierRegistryAddress env.findProgramAddress v env.programId entry.pool).1
  entryKey : entryKeyOf accounts = some k
  registry_at : registryAt env v l (poolV1VerifierRegistryAddress env.findProgramAddress v env.programId entry.pool).1 =
    some registry
  delayed : slot.toNat + registry.minimumActivationDelaySlots.toNat ≤ entry.activationSlot.toNat
  activated : entry.status ≠ .pending → ∃ e ∈ after, Activates v k e

/-- Every entry of the ledger was scheduled in the events so far, and every retirement shows in its entry. -/
structure Traced (env : RegistryEnvironment) (events : List RegistryEvent) (s : RegistryState) : Prop where
  scheduled : ∀ v k (entry : VerifierRegistryEntry v), entryAt env v s.ledger k = some entry →
    ∃ before slot accounts expected hash after registry,
      ScheduledIn env k entry before slot accounts expected hash after registry events s.ledger
  retired : ∀ v k, ∀ e ∈ events, Retires v k e →
    ∃ entry, entryAt env v s.ledger k = some entry ∧ entry.status = .retired

section
variable {env : RegistryEnvironment} {v : RegistryVersion} {s t : RegistryState} {e : RegistryEvent}
  {events : List RegistryEvent}

/-- The trace of an entry survives a step that leaves its identity alone. -/
theorem Traced.scheduled_step (h : Traced env events s) (hstep : Step env s e t) {k : Pubkey}
    {entry entry' : VerifierRegistryEntry v} (hentry : entryAt env v s.ledger k = some entry)
    (hmoves : EntryMoves entry entry') (hactivates : entry.status = .pending → entry'.status ≠ .pending → Activates v k e) :
    ∃ before slot accounts expected hash after registry,
      ScheduledIn env k entry' before slot accounts expected hash after registry (events ++ [e]) t.ledger := by
  obtain ⟨before, slot, accounts, expected, hash, after, registry, hin⟩ := h.scheduled v k entry hentry
  obtain ⟨registry', hregistry, hsucceeds⟩ := hstep.registry_succeeds hin.registry_at
  have hactivated : entry'.status ≠ .pending → ∃ e' ∈ after ++ [e], Activates v k e' := by
    intro hne
    by_cases hpending : entry.status = .pending
    · exact ⟨e, List.mem_append_right after List.mem_cons_self, hactivates hpending hne⟩
    · obtain ⟨e', hmem, he'⟩ := hin.activated hpending
      exact ⟨e', List.mem_append_left [e] hmem, he'⟩
  have hevents : events ++ [e] = before ++ .accepted slot accounts (.scheduleProfile expected entry.verifierProgram
      entry.profileBinding entry.releaseBinding entry.statementVersion entry.activationSlot hash) ::
        (after ++ [e]) := by
    rw [hin.events_eq, List.append_assoc, List.cons_append]
  have hdelayed := hsucceeds.delay ▸ hin.delayed
  refine ⟨before, slot, accounts, expected, hash, after ++ [e], registry', ?_⟩
  cases hmoves <;>
    exact ⟨hevents, hin.registryKey, hin.entryKey, hregistry, hdelayed, hactivated⟩

theorem Traced.step (h : Traced env events s) (hstep : Step env s e t) : Traced env (events ++ [e]) t where
  scheduled w k entry hentry := by
    rcases hstep.cases with hkept | ⟨v, slot, accounts, i, rfl, -, haccepted⟩
    · have hbefore : entryAt env w s.ledger k = some entry := (hkept (.entry w) k).symm.trans hentry
      exact h.scheduled_step hstep hbefore .same fun hpending hne => absurd hpending hne
    · cases haccepted.entry_effect w k with
      | kept _ same =>
        exact h.scheduled_step hstep (same.symm.trans hentry) .same fun hpending hne => absurd hpending hne
      | @scheduled key _ r next expected _ _ _ _ _ hash _ mutates registry_after target _ delayed after =>
        obtain rfl := Option.some_inj.mp (after.symm.trans hentry)
        have haddress := mutates.address
        refine ⟨events, slot, accounts, expected, hash, [], next, rfl, ?_, target, ?_, ?_, fun hne => absurd rfl hne⟩
        · rw [mutates.key_eq, haddress]
          rfl
        · rw [← registry_after, haddress]
          rfl
        · rw [mutates.delay]
          exact delayed
      | activated target before pending _ after =>
        obtain rfl := Option.some_inj.mp (after.symm.trans hentry)
        exact h.scheduled_step hstep before (.activated pending) fun _ _ => ⟨slot, accounts, _, rfl, target⟩
      | retired _ before active _ _ after =>
        obtain rfl := Option.some_inj.mp (after.symm.trans hentry)
        refine h.scheduled_step hstep before (.retired active slot) fun hpending _ => ?_
        rw [active] at hpending
        cases hpending
  retired w k e' hmem hretires := by
    rcases List.mem_append.mp hmem with hmem | hmem
    · obtain ⟨entry, hentry, hretired⟩ := h.retired w k e' hmem hretires
      obtain ⟨entry', hentry', hmoves⟩ := hstep.entry_moves hentry
      refine ⟨entry', hentry', ?_⟩
      cases hmoves with
      | same => exact hretired
      | activated pending =>
        rw [pending] at hretired
        cases hretired
      | retired active => rfl
    · obtain rfl := List.mem_singleton.mp hmem
      obtain ⟨slot, accounts, expected, rfl, htarget⟩ := hretires
      cases (processDecodedInstruction_accepted hstep.ledger).entry_effect w k with
      | kept other => exact absurd ⟨htarget, rfl⟩ other
      | retired _ _ _ _ _ after => exact ⟨_, after, rfl⟩

theorem Traced.genesis (h : Registry.Genesis env s) : Traced env [] s where
  scheduled v k entry hentry := by
    have hnone : entryAt env v s.ledger k = none := h.recordAt_none (.entry v) k
    rw [hnone] at hentry
    cases hentry
  retired v k e hmem := nomatch hmem

theorem Runs.traced {start : RegistryState} (hstart : Registry.Genesis env start) (hrun : Runs env start events s) :
    Traced env events s := by
  have htraced : Traced env ([] ++ events) s :=
    Run.traced (fun _ _ _ _ h hstep => h.step hstep) (Traced.genesis hstart) hrun
  exact htraced

/-- A verifier the pool selects after any run of the registry program was scheduled in that run, at least the
registry's delay before now and with exactly the selected program, profile, release and statement version, was
activated after that and never retired, and its registry is not paused. -/
theorem selection_scheduled_activated_unretired {start : RegistryState} {pool : Pubkey} {policy : VerifierPolicyV1}
    {accounts : List AccountInfo} {selection : VerifierSelectionV1} {slot : UInt64}
    {evidence : AuthenticatedVerifierSelectionV1} (hstart : Registry.Genesis env start) (hrun : Runs env start events s)
    (hprogram : policy.registryProgram = env.programId)
    (h : authenticateVerifierSelectionV1 env.findProgramAddress pool policy accounts selection slot s.ledger =
      .ok evidence) :
    ∃ (registryAccount entryAccount : AccountInfo) (registry : VerifierRegistry (policyVersion policy))
      (before after : List RegistryEvent) (scheduledAt expected activationSlot : UInt64)
      (scheduleAccounts : List AccountInfo) (hash : ExecutableHash (policyVersion policy)),
      accounts = [registryAccount, entryAccount] ∧
      registryAt env (policyVersion policy) s.ledger registryAccount.key = some registry ∧
      registry.isPaused = false ∧
      events = before ++ .accepted scheduledAt scheduleAccounts (.scheduleProfile expected selection.verifierProgram
        selection.profileBinding selection.releaseBinding selection.statementVersion activationSlot hash) :: after ∧
      registryKeyOf scheduleAccounts = some registryAccount.key ∧
      entryKeyOf scheduleAccounts = some entryAccount.key ∧
      scheduledAt.toNat + registry.minimumActivationDelaySlots.toNat ≤ slot.toNat ∧
      (∃ e ∈ after, Activates (policyVersion policy) entryAccount.key e) ∧
      ∀ e ∈ events, ¬ Retires (policyVersion policy) entryAccount.key e := by
  obtain ⟨registryAccount, entryAccount, registry, entry, rfl, hselected⟩ :=
    authenticateVerifierSelection_selected hprogram (authenticateVerifierSelectionV1_version h)
  have htraced := Runs.traced hstart hrun
  obtain ⟨before, scheduledAt, scheduleAccounts, expected, hash, after, registry', hin⟩ :=
    htraced.scheduled _ _ entry hselected.entry_at
  have hevents := hin.events_eq
  have hregistryKey := hin.registryKey
  have hregistry := hin.registry_at
  rw [hselected.program_eq, hselected.profile_eq, hselected.release_eq, hselected.version_eq] at hevents
  rw [hselected.pool_eq, ← hselected.address] at hregistryKey hregistry
  obtain rfl := Option.some_inj.mp (hregistry.symm.trans hselected.registry_at)
  have hactive : entry.status ≠ .pending := by
    rw [hselected.active]
    decide
  have helapsed := UInt64.le_iff_toNat_le.mp hselected.elapsed
  refine ⟨registryAccount, entryAccount, registry', before, after, scheduledAt, expected, entry.activationSlot,
    scheduleAccounts, hash, rfl, hregistry, hselected.unpaused, hevents, hregistryKey, hin.entryKey,
    le_trans hin.delayed helapsed, hin.activated hactive, fun e hmem hretires => ?_⟩
  obtain ⟨entry', hentry', hretired⟩ := htraced.retired _ _ e hmem hretires
  obtain rfl := Option.some_inj.mp (hentry'.symm.trans hselected.entry_at)
  rw [hselected.active] at hretired
  cases hretired

end

/-! ### The registry's sample run -/

def samplePolicy : VerifierPolicyV1 := ⟨0, Bytes32.filled 9, Bytes32.filled 7, Bytes32.filled 2⟩

def sampleSelection : VerifierSelectionV1 := ⟨Bytes32.filled 5, Bytes32.filled 3, Bytes32.filled 4, 1⟩

def sampleAccounts : List AccountInfo :=
  [⟨Registry.Sample.registryAccount.key, false, false⟩, ⟨Registry.Sample.entryAccount.key, false, false⟩]

set_option maxRecDepth 100000 in
theorem sampleSelection_ok : authenticateVerifierSelectionV1 Registry.Sample.environment.findProgramAddress Registry.Sample.pool
    samplePolicy sampleAccounts sampleSelection 12 Registry.Sample.activated.ledger =
      .ok ⟨samplePolicy, Registry.Sample.pool, sampleSelection, 2, none, 12⟩ := by
  decide +kernel

/-- At the slot of its activation the pool selects the entry of the sample run. -/
theorem selection_scheduled_activated_unretired_sample :
    ∃ (registryAccount entryAccount : AccountInfo) (registry : VerifierRegistry .v1)
      (before after : List RegistryEvent) (scheduledAt expected activationSlot : UInt64)
      (scheduleAccounts : List AccountInfo) (hash : ExecutableHash .v1),
      sampleAccounts = [registryAccount, entryAccount] ∧
      registryAt Registry.Sample.environment .v1 Registry.Sample.activated.ledger registryAccount.key = some registry ∧
      registry.isPaused = false ∧
      Registry.Sample.events = before ++ .accepted scheduledAt scheduleAccounts (.scheduleProfile expected (Bytes32.filled 5)
        (Bytes32.filled 3) (Bytes32.filled 4) 1 activationSlot hash) :: after ∧
      registryKeyOf scheduleAccounts = some registryAccount.key ∧
      entryKeyOf scheduleAccounts = some entryAccount.key ∧
      scheduledAt.toNat + registry.minimumActivationDelaySlots.toNat ≤ (12 : UInt64).toNat ∧
      (∃ e ∈ after, Activates .v1 entryAccount.key e) ∧
      ∀ e ∈ Registry.Sample.events, ¬ Retires .v1 entryAccount.key e :=
  selection_scheduled_activated_unretired Registry.Sample.genesis Registry.Sample.runs rfl sampleSelection_ok

end Aspis.Pool
