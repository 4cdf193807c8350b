import Aspis.Pool.GovernedSelection

/-! Selections under an immutable-deployment policy. The entry the pool selects was
scheduled against a program without upgrade authority, activated, and only then was
its registry frozen; from there on the selection stays what it is. -/

namespace Aspis.Pool

open Lib Chain Statement Registry

/-- The entry was scheduled against an observed immutable deployment, at least the registry's delay before the slot,
then activated, and after that the registry was frozen. -/
def CertifiedBeforeFreeze (env : RegistryEnvironment) (start : RegistryState) (events : List RegistryEvent)
    (pool k : Pubkey) (registry : VerifierRegistryV2) (entry : VerifierRegistryEntryV2) (slot : UInt64) : Prop :=
  ∃ (toSchedule toActivate toFreeze rest : List RegistryEvent) (schedule activate freeze : RegistryEvent)
    (x : RegistryState),
    events = toSchedule ++ schedule :: (toActivate ++ activate :: (toFreeze ++ freeze :: rest)) ∧
    Runs env start toSchedule x ∧
    Schedules env x.ledger k entry registry.minimumActivationDelaySlots slot schedule ∧
    Activates .v2 k activate ∧ Freezes .v2 (registryKey env .v2 pool) freeze

section
variable {env : RegistryEnvironment} {pool k : Pubkey} {policy : VerifierPolicyV1} {accounts : List AccountInfo}
  {selection : VerifierSelectionV1} {slot slot' : UInt64} {l l' : Ledger}
  {evidence : AuthenticatedVerifierSelectionV1} {start s t x y : RegistryState} {events later : List RegistryEvent}
  {e : RegistryEvent}

/-! ### The way to a selection -/

theorem freeze_keeps_entries (h : Step env x e y) (hfreeze : Freezes .v2 (registryKey env .v2 pool) e) :
    entryAt env .v2 y.ledger k = entryAt env .v2 x.ledger k := by
  obtain ⟨slot, accounts, expected, rfl, -⟩ := hfreeze
  cases (processDecodedInstruction_accepted h.ledger).entry_effect .v2 k with
  | kept _ same => exact same

/-- Only an activation takes an entry out of its pending status. -/
theorem activates_of_leaves_pending {entry entry' : VerifierRegistryEntryV2} (h : Step env x e y)
    (hentry : entryAt env .v2 x.ledger k = some entry) (hpending : entry.status = .pending)
    (hentry' : entryAt env .v2 y.ledger k = some entry') (hmoved : entry'.status ≠ .pending) : Activates .v2 k e := by
  have hchanged : ¬ entryAt env .v2 y.ledger k = entryAt env .v2 x.ledger k := by
    intro hsame
    rw [hentry, hentry'] at hsame
    obtain rfl := Option.some_inj.mp hsame
    exact hmoved hpending
  rcases h.cases with hkept | ⟨v, slot, accounts, i, rfl, -, haccepted⟩
  · exact absurd (hkept (.entry .v2) k) hchanged
  · cases haccepted.entry_effect .v2 k with
    | kept _ same => exact absurd same hchanged
    | scheduled _ _ _ before =>
      rw [before] at hentry
      cases hentry
    | activated target => exact ⟨slot, accounts, _, rfl, target⟩
    | retired _ before active =>
      obtain rfl := Option.some_inj.mp (before.symm.trans hentry)
      rw [hpending] at active
      cases active

/-- An entry that has left its pending status was scheduled and then activated. -/
theorem Runs.scheduled_activated {entry : VerifierRegistryEntryV2} (hstart : Registry.Genesis env start)
    (hrun : Runs env start events s) (hentry : entryAt env .v2 s.ledger k = some entry)
    (hmoved : entry.status ≠ .pending) :
    ∃ toSchedule schedule toActivate activate rest x registry,
      events = toSchedule ++ schedule :: (toActivate ++ activate :: rest) ∧ Runs env start toSchedule x ∧
      registryAt env .v2 s.ledger (registryKey env .v2 entry.pool) = some registry ∧
      Schedules env x.ledger k entry registry.minimumActivationDelaySlots entry.activationSlot schedule ∧
      Activates .v2 k activate := by
  have hnone : ¬ ∃ entry, entryAt env .v2 start.ledger k = some entry := by
    rintro ⟨entry, hsome⟩
    have hempty : entryAt env .v2 start.ledger k = none := hstart.recordAt_none (.entry .v2) k
    rw [hempty] at hsome
    cases hsome
  obtain ⟨toSchedule, schedule, afterSchedule, x, y, rfl, hbefore, hstep, hafter, hx, entry₀, hy⟩ :=
    Run.exists_step_into (fun st => ∃ entry, entryAt env .v2 st.ledger k = some entry) hrun hnone ⟨entry, hentry⟩
  have hempty : entryAt env .v2 x.ledger k = none := Option.eq_none_iff_forall_not_mem.mpr fun a ha => hx ⟨a, ha⟩
  obtain ⟨registry₀, hregistry₀, hschedules⟩ := hstep.schedules hempty hy
  obtain ⟨entry', hentry', hsame⟩ := Runs.sameCertificate hafter hy
  obtain rfl := Option.some_inj.mp (hentry'.symm.trans hentry)
  obtain ⟨registry, hregistry, hdelay⟩ := Runs.registry_delay hafter hregistry₀
  -- the activation is the step in which the entry leaves its pending status
  have hpending : ¬ ∃ entry, entryAt env .v2 y.ledger k = some entry ∧ entry.status ≠ .pending := by
    rintro ⟨entry, hsome, hne⟩
    obtain rfl := Option.some_inj.mp (hsome.symm.trans hy)
    exact hne (hstep.entry_opened hempty hy)
  obtain ⟨toActivate, activate, rest, p, q, rfl, hwait, hactivation, -, hp, entry₂, hq, hne⟩ :=
    Run.exists_step_into (fun st => ∃ entry, entryAt env .v2 st.ledger k = some entry ∧ entry.status ≠ .pending)
      hafter hpending ⟨entry', hentry, hmoved⟩
  obtain ⟨entry₁, hentry₁, -⟩ := Runs.sameCertificate hwait hy
  have hstill : entry₁.status = .pending := by
    by_contra hleft
    exact hp ⟨entry₁, hentry₁, hleft⟩
  refine ⟨toSchedule, schedule, toActivate, activate, rest, x, registry, rfl, hbefore, ?_, ?_,
    activates_of_leaves_pending hactivation hentry₁ hstill hq hne⟩
  · rw [hsame.pool]
    exact hregistry
  · rw [hdelay]
    refine hschedules.later hsame (UInt64.le_of_eq ?_)
    exact hsame.activation.symm

/-- An active entry of a frozen registry was certified before the freeze. -/
theorem Runs.certified {registry : VerifierRegistryV2} {entry : VerifierRegistryEntryV2}
    (hstart : Registry.Genesis env start) (hrun : Runs env start events s)
    (hregistry : registryAt env .v2 s.ledger (registryKey env .v2 pool) = some registry)
    (hfrozen : registry.isImmutable = true) (hentry : entryAt env .v2 s.ledger k = some entry)
    (hpool : entry.pool = pool) (hactive : entry.status = .active) (helapsed : entry.activationSlot ≤ slot) :
    CertifiedBeforeFreeze env start events pool k registry entry slot := by
  obtain ⟨beforeFreeze, freeze, rest, x, y, rfl, hbefore, hstep, hafter, hx, hy⟩ :=
    Run.exists_step_into (fun st => Frozen env .v2 pool st.ledger) hrun hstart.not_frozen ⟨registry, hregistry, hfrozen⟩
  have hfreezes := hstep.freezes hx hy
  have hkept := Runs.familyKept hafter hy
  have hentry' : entryAt env .v2 x.ledger k = some entry :=
    (freeze_keeps_entries hstep hfreezes).symm.trans (hkept.no_new k entry hentry hpool)
  have hmoved : entry.status ≠ .pending := by
    rw [hactive]
    decide
  obtain ⟨toSchedule, schedule, toActivate, activate, toFreeze, x', registry', rfl, hscheduling, hregistry', hschedules,
    hactivates⟩ := Runs.scheduled_activated hstart hbefore hentry' hmoved
  obtain ⟨registry'', hregistry'', hdelay⟩ := Runs.registry_delay (.cons hstep hafter) hregistry'
  rw [hpool] at hregistry''
  obtain rfl := Option.some_inj.mp (hregistry''.symm.trans hregistry)
  refine ⟨toSchedule, toActivate, toFreeze, rest, schedule, activate, freeze, x', ?_, hscheduling, ?_, hactivates,
    hfreezes⟩
  · simp only [List.append_assoc, List.cons_append]
  · rw [hdelay]
    exact hschedules.later ⟨rfl, rfl, rfl, rfl, rfl, rfl, rfl⟩ helapsed

/-! ### After the freeze -/

/-- Owner, executable flag and data of the account are as they were. -/
structure SameAccount (l l' : Ledger) (k : Pubkey) : Prop where
  owner : (l' k).owner = (l k).owner
  executable : (l' k).executable = (l k).executable
  data : (l' k).data = (l k).data

theorem SameAccount.trans {m : Ledger} (h : SameAccount l m k) (h' : SameAccount m l' k) : SameAccount l l' k :=
  ⟨h'.owner.trans h.owner, h'.executable.trans h.executable, h'.data.trans h.data⟩

theorem RuntimeStep.sameAccount (h : RuntimeStep env s e t) (hkept : Untouched env s.ledger t.ledger k)
    (howner : (s.ledger k).owner = env.programId) : SameAccount s.ledger t.ledger k := by
  obtain ⟨howner', hdata⟩ := hkept howner
  exact ⟨howner'.trans howner.symm, h.executable_kept howner, hdata⟩

/-- A frozen registry and its entries stay as they are. -/
theorem RuntimeRuns.sameAccount (h : RuntimeRuns env s later t) (hfrozen : Frozen env .v2 pool s.ledger) :
    SameAccount s.ledger t.ledger (registryKey env .v2 pool) ∧ ∀ k entry, entryAt env .v2 s.ledger k = some entry →
      entry.pool = pool → SameAccount s.ledger t.ledger k := by
  induction h with
  | nil s => exact ⟨⟨rfl, rfl, rfl⟩, fun _ _ _ _ => ⟨rfl, rfl, rfl⟩⟩
  | cons hstep _ ih =>
    have hkept := hstep.familyKept hfrozen
    obtain ⟨hregistry, hentries⟩ := ih (hkept.frozen hfrozen)
    obtain ⟨r, hr, -⟩ := hfrozen
    refine ⟨(RuntimeStep.sameAccount hstep hkept.registry (Slot.of_recordAt hr).owned).trans hregistry, ?_⟩
    intro k entry hentry hpool
    have huntouched := hkept.entries k entry hentry hpool
    exact (RuntimeStep.sameAccount hstep huntouched (Slot.of_recordAt hentry).owned).trans
      (hentries k entry (huntouched.recordAt hentry) hpool)

theorem selectRegistry_same {v : RegistryVersion} {account : AccountInfo} (h : SameAccount l l' account.key) :
    selectRegistry env.findProgramAddress v pool policy account l' =
      selectRegistry env.findProgramAddress v pool policy account l := by
  simp only [selectRegistry, requireReadonlyRegistryAccount, AccountInfo.owner, AccountInfo.executable, AccountInfo.data,
    h.owner, h.executable, h.data]

theorem selectEntry_later {v : RegistryVersion} {account : AccountInfo} {entry : VerifierRegistryEntry v}
    (h : selectEntry env.findProgramAddress v pool policy account selection slot l = .ok entry)
    (hsame : SameAccount l l' account.key) (hretirement : entry.hasNoRetirementSlot = true) (hle : slot ≤ slot') :
    selectEntry env.findProgramAddress v pool policy account selection slot' l' = .ok entry := by
  simp only [selectEntry, requireReadonlyRegistryAccount, AccountInfo.owner, AccountInfo.executable, AccountInfo.data,
    hsame.owner, hsame.executable, hsame.data, except_bind_eq_ok, require_eq_ok, mapErr_eq_ok, except_pure_eq_ok] at h ⊢
  obtain ⟨_, hread, _, haddress, entry', hdecode, _, hmatch, _, hactive, _, helapsed, _, -, rfl⟩ := h
  refine ⟨(), hread, (), haddress, entry', hdecode, (), hmatch, (), hactive, (), UInt64.le_trans helapsed hle, (), ?_, rfl⟩
  rintro ⟨hne, -⟩
  exact hne (of_decide_eq_true hretirement)

theorem selectRegistry_ok {account : AccountInfo} {registry : VerifierRegistryV2}
    (hprogram : policy.registryProgram = env.programId)
    (h : selectRegistry env.findProgramAddress .v2 pool policy account l = .ok registry) :
    account.key = registryKey env .v2 pool ∧ registryAt env .v2 l account.key = some registry ∧
      registry.isImmutable = true ∧ registry.isPaused = false := by
  simp only [selectRegistry, requireReadonlyRegistryAccount, except_bind_eq_ok, require_eq_ok, mapErr_eq_ok,
    except_pure_eq_ok, hprogram] at h
  obtain ⟨_, ⟨howner, -⟩, _, haddress, registry', hregistry, _, ⟨-, -, -, hmeets⟩, _, hunpaused, rfl⟩ := h
  exact ⟨haddress, registryAt_eq_some.mpr ⟨howner, hregistry⟩, (of_decide_eq_true hmeets).1, hunpaused⟩

/-- The entry is the selected one and active at the slot. -/
structure ActiveEntry (pool : Pubkey) (selection : VerifierSelectionV1) (slot : UInt64)
    (entry : VerifierRegistryEntryV2) : Prop where
  pool_eq : entry.pool = pool
  program_eq : entry.verifierProgram = selection.verifierProgram
  profile_eq : entry.profileBinding = selection.profileBinding
  release_eq : entry.releaseBinding = selection.releaseBinding
  version_eq : entry.statementVersion = selection.statementVersion
  active : entry.status = .active
  elapsed : entry.activationSlot ≤ slot

theorem selectEntry_ok {account : AccountInfo} {entry : VerifierRegistryEntryV2}
    (hprogram : policy.registryProgram = env.programId)
    (h : selectEntry env.findProgramAddress .v2 pool policy account selection slot l = .ok entry) :
    entryAt env .v2 l account.key = some entry ∧ ActiveEntry pool selection slot entry := by
  simp only [selectEntry, requireReadonlyRegistryAccount, except_bind_eq_ok, require_eq_ok, mapErr_eq_ok,
    except_pure_eq_ok, hprogram] at h
  obtain ⟨_, ⟨howner, -⟩, _, -, entry', hentry, _, ⟨hpool, -, hverifier, hprofile, hrelease, hversion, -⟩, _, hactive, _,
    helapsed, _, -, rfl⟩ := h
  exact ⟨entryAt_eq_some.mpr ⟨howner, hentry⟩, hpool, hverifier, hprofile, hrelease, hversion, hactive, helapsed⟩

/-- The evidence of a selection under an immutable-deployment policy. -/
def certifiedEvidence (policy : VerifierPolicyV1) (registry : VerifierRegistryV2) (entry : VerifierRegistryEntryV2)
    (slot : UInt64) : AuthenticatedVerifierSelectionV1 :=
  ⟨policy, entry.pool, ⟨entry.verifierProgram, entry.profileBinding, entry.releaseBinding, entry.statementVersion⟩,
    registry.generation.toNat, some bpfLoaderUpgradeable, slot.toNat⟩

theorem authenticateVerifierSelectionV1_v2 (hdeployment : policy.flags &&& 2 ≠ 0) :
    authenticateVerifierSelectionV1 env.findProgramAddress pool policy accounts selection slot l = .ok evidence ↔
      validateVerifierPolicyV1 policy = .ok () ∧ ∃ registryAccount entryAccount registry entry,
        accounts = [registryAccount, entryAccount] ∧
        selectRegistry env.findProgramAddress .v2 pool policy registryAccount l = .ok registry ∧
        selectEntry env.findProgramAddress .v2 pool policy entryAccount selection slot l = .ok entry ∧
        evidence = certifiedEvidence policy registry entry slot := by
  simp only [authenticateVerifierSelectionV1, except_bind_eq_ok, mapErr_eq_ok, if_pos hdeployment,
    authenticateVerifierSelectionV2, authenticateVerifierSelection]
  constructor
  · rintro ⟨_, hvalid, h⟩
    split at h
    · simp only [except_bind_eq_ok, except_pure_eq_ok] at h
      obtain ⟨registry, hregistry, entry, hentry, rfl⟩ := h
      exact ⟨hvalid, _, _, registry, entry, rfl, hregistry, hentry, rfl⟩
    · cases h
  · rintro ⟨hvalid, registryAccount, entryAccount, registry, entry, rfl, hregistry, hentry, rfl⟩
    refine ⟨(), hvalid, ?_⟩
    simp only [except_bind_eq_ok, except_pure_eq_ok]
    exact ⟨registry, hregistry, entry, hentry, rfl⟩

/-- Whatever the pool selects under an immutable-deployment policy rests on a frozen, unpaused registry and was certified
before the freeze. After the freeze the registry and its entries keep every byte, so what is selected stays selected and
what is pending is never selected. -/
theorem immutable_selection_certified (hstart : Registry.Genesis env start) (hrun : Runs env start events s)
    (hprogram : policy.registryProgram = env.programId) (hdeployment : policy.flags &&& 2 ≠ 0) :
    (∀ accounts selection slot evidence,
      authenticateVerifierSelectionV1 env.findProgramAddress pool policy accounts selection slot s.ledger = .ok evidence →
        ∃ registryAccount entryAccount registry entry, accounts = [registryAccount, entryAccount] ∧
          registryAccount.key = registryKey env .v2 pool ∧
          registryAt env .v2 s.ledger registryAccount.key = some registry ∧ registry.isImmutable = true ∧
          registry.isPaused = false ∧ entryAt env .v2 s.ledger entryAccount.key = some entry ∧
          ActiveEntry pool selection slot entry ∧
          CertifiedBeforeFreeze env start events pool entryAccount.key registry entry slot) ∧
    (Frozen env .v2 pool s.ledger → ∀ later t, RuntimeRuns env s later t →
      SameAccount s.ledger t.ledger (registryKey env .v2 pool) ∧
      (∀ k entry, entryAt env .v2 s.ledger k = some entry → entry.pool = pool → SameAccount s.ledger t.ledger k) ∧
      (∀ accounts selection slot evidence slot', slot ≤ slot' →
        authenticateVerifierSelectionV1 env.findProgramAddress pool policy accounts selection slot s.ledger =
          .ok evidence →
        authenticateVerifierSelectionV1 env.findProgramAddress pool policy accounts selection slot' t.ledger =
          .ok { evidence with authenticatedAtSlot := slot'.toNat }) ∧
      ∀ registryAccount entryAccount selection slot evidence entry,
        entryAt env .v2 s.ledger entryAccount.key = some entry → entry.pool = pool → entry.status = .pending →
        authenticateVerifierSelectionV1 env.findProgramAddress pool policy [registryAccount, entryAccount] selection slot
          t.ledger ≠ .ok evidence) := by
  refine ⟨fun accounts selection slot evidence h => ?_, fun hfrozen later t hlater => ?_⟩
  · obtain ⟨-, registryAccount, entryAccount, registry, entry, rfl, hregistry, hentry, -⟩ :=
      (authenticateVerifierSelectionV1_v2 hdeployment).mp h
    obtain ⟨hkey, hregistryAt, himmutable, hunpaused⟩ := selectRegistry_ok hprogram hregistry
    obtain ⟨hentryAt, hactive⟩ := selectEntry_ok hprogram hentry
    refine ⟨registryAccount, entryAccount, registry, entry, rfl, hkey, hregistryAt, himmutable, hunpaused, hentryAt,
      hactive, ?_⟩
    rw [hkey] at hregistryAt
    exact Runs.certified hstart hrun hregistryAt himmutable hentryAt hactive.pool_eq hactive.active hactive.elapsed
  · obtain ⟨hregistries, hentries⟩ := RuntimeRuns.sameAccount hlater hfrozen
    refine ⟨hregistries, hentries, fun accounts selection slot evidence slot' hle h => ?_,
      fun registryAccount entryAccount selection slot evidence entry hpending hpool hstatus h => ?_⟩
    · obtain ⟨hvalid, registryAccount, entryAccount, registry, entry, rfl, hregistry, hentry, rfl⟩ :=
        (authenticateVerifierSelectionV1_v2 hdeployment).mp h
      obtain ⟨hkey, -⟩ := selectRegistry_ok hprogram hregistry
      obtain ⟨hentryAt, hactive⟩ := selectEntry_ok hprogram hentry
      have hsound := Runs.entriesSound hrun hstart.entriesSound .v2 entryAccount.key entry hentryAt
      have hretirement : entry.hasNoRetirementSlot = true := by
        refine hsound.no_retirement ?_
        rw [hactive.active]
        decide
      have hsame := hentries entryAccount.key entry hentryAt hactive.pool_eq
      rw [← hkey] at hregistries
      refine (authenticateVerifierSelectionV1_v2 hdeployment).mpr ⟨hvalid, registryAccount, entryAccount, registry, entry,
        rfl, ?_, selectEntry_later hentry hsame hretirement hle, rfl⟩
      rw [selectRegistry_same hregistries]
      exact hregistry
    · -- the pending entry is still there, and a selected one would be active
      obtain ⟨-, registryAccount', entryAccount', registry', entry', haccounts, -, hentry, -⟩ :=
        (authenticateVerifierSelectionV1_v2 hdeployment).mp h
      obtain ⟨rfl, rfl⟩ : registryAccount = registryAccount' ∧ entryAccount = entryAccount' := by simpa using haccounts
      obtain ⟨hentryAt, hactive⟩ := selectEntry_ok hprogram hentry
      have hkept := Runs.familyKept (RuntimeRuns.runs hlater) hfrozen
      have hbefore := hkept.no_new _ entry' hentryAt hactive.pool_eq
      obtain rfl := Option.some_inj.mp (hbefore.symm.trans hpending)
      have hclash := hactive.active
      rw [hstatus] at hclash
      cases hclash

end

/-! ### A certified sample run

A deployment with the loader's account format: a registry of the second family is opened, one entry is scheduled against
a program without upgrade authority and activated, and the registry is frozen. -/

namespace CertifiedSample

/-- The loader's tag, then its fields; an absent authority is a zero byte. -/
def loaderState (data : Bytes) : Option UpgradeableLoaderState :=
  if slice 0 4 data = [2, 0, 0, 0] then some (.program (Bytes32.read 4 data))
  else if slice 0 4 data = [3, 0, 0, 0] then
    some (.programData (leNat (slice 4 8 data)) (if byteAt 12 data = 0 then none else some (Bytes32.read 13 data)))
  else none

def environment : RegistryEnvironment where
  programId := Bytes32.filled 9
  findProgramAddress seeds _ := (Bytes32.filled (seeds.flatten.foldl UInt8.add 0), 255)
  minimumBalance _ := 1
  deserializeLoaderState := loaderState
  hash executable := Bytes32.filled (executable.foldl UInt8.add 0)
  programId_ne_system := Registry.Sample.environment.programId_ne_system

def pool : Pubkey := Bytes32.filled 1

def authority : AccountInfo := ⟨Bytes32.filled 7, true, false⟩

def payer : AccountInfo := ⟨Bytes32.filled 6, true, true⟩

def system : AccountInfo := ⟨systemProgram, false, false⟩

def program (k : Pubkey) : AccountInfo := ⟨k, false, false⟩

def programdata (k : Pubkey) : AccountInfo := ⟨programdataAddressOf environment.findProgramAddress k, false, false⟩

/-- A program account and the program data account it links to. -/
def programAccount (k : Pubkey) : Account :=
  ⟨bpfLoaderUpgradeable, 1, [2, 0, 0, 0] ++ (programdata k).key.bytes, true⟩

def programdataAccount : Account := ⟨bpfLoaderUpgradeable, 1, [3, 0, 0, 0] ++ zeros 41 ++ [1, 2, 3], false⟩

def verifier : Pubkey := Bytes32.filled 5

def start : RegistryState where
  ledger k := if k = systemProgram then ⟨nativeLoader, 1, [], true⟩
    else if k = environment.programId then programAccount environment.programId
    else if k = verifier then programAccount verifier
    else if k = (programdata environment.programId).key then programdataAccount
    else if k = (programdata verifier).key then programdataAccount
    else ⟨systemProgram, if k = payer.key then 1000 else 0, [], false⟩
  slot := 0

def registryAccount : AccountInfo := ⟨registryKey environment .v2 pool, false, true⟩

def entryAccount : AccountInfo :=
  ⟨(poolV1VerifierEntryAddress environment.findProgramAddress .v2 environment.programId pool (Bytes32.filled 3)
    (Bytes32.filled 4)).1, false, true⟩

def openAccounts : List AccountInfo :=
  [registryAccount, authority, payer, system, program environment.programId, programdata environment.programId]

def openInstruction : RegistryInstructionV2 :=
  .initializeRegistry pool (Bytes32.filled 2) 10 (show Bytes32 from Bytes32.filled 6)

def scheduleAccounts : List AccountInfo :=
  [registryAccount, entryAccount, authority, payer, system, program verifier, programdata verifier]

def scheduleInstruction : RegistryInstructionV2 :=
  .scheduleProfile 0 verifier (Bytes32.filled 3) (Bytes32.filled 4) 1 12 (show Bytes32 from Bytes32.filled 6)

def openRegistry : RegistryHandler Unit := processDecodedInstruction environment openAccounts 1 openInstruction

def schedule : RegistryHandler Unit := processDecodedInstruction environment scheduleAccounts 2 scheduleInstruction

def activate : RegistryHandler Unit :=
  processDecodedInstruction environment [registryAccount, entryAccount, authority] 12 (.activate (v := .v2) 1)

def freeze : RegistryHandler Unit :=
  processDecodedInstruction environment [registryAccount, authority] 13 (.freeze (v := .v2) 2)

def opened : RegistryState := ⟨openRegistry.final start.ledger, 1⟩

def scheduled : RegistryState := ⟨schedule.final opened.ledger, 2⟩

def activated : RegistryState := ⟨activate.final scheduled.ledger, 12⟩

def frozen : RegistryState := ⟨freeze.final activated.ledger, 13⟩

def events : List RegistryEvent :=
  [.accepted 1 openAccounts openInstruction, .accepted 2 scheduleAccounts scheduleInstruction,
    .accepted 12 [registryAccount, entryAccount, authority] (.activate (v := .v2) 1),
    .accepted 13 [registryAccount, authority] (.freeze (v := .v2) 2)]

def policy : VerifierPolicyV1 := ⟨3, Bytes32.filled 9, Bytes32.zero, Bytes32.filled 2⟩

def selection : VerifierSelectionV1 := ⟨verifier, Bytes32.filled 3, Bytes32.filled 4, 1⟩

def accounts : List AccountInfo := [⟨registryAccount.key, false, false⟩, ⟨entryAccount.key, false, false⟩]

def evidence : AuthenticatedVerifierSelectionV1 := ⟨policy, pool, selection, 3, some bpfLoaderUpgradeable, 14⟩

set_option maxRecDepth 100000 in
theorem instructions_succeed : openRegistry.succeeds start.ledger = true ∧ schedule.succeeds opened.ledger = true ∧
    activate.succeeds scheduled.ledger = true ∧ freeze.succeeds activated.ledger = true ∧
    authenticateVerifierSelectionV1 environment.findProgramAddress pool policy accounts selection 14 frozen.ledger =
      .ok evidence := by
  decide +kernel

theorem selected : authenticateVerifierSelectionV1 environment.findProgramAddress pool policy accounts selection 14
    frozen.ledger = .ok evidence := instructions_succeed.2.2.2.2

set_option maxRecDepth 100000 in
theorem openRegistry_ok : openRegistry start.ledger = .ok () opened.ledger := Exec.ok_final instructions_succeed.1

set_option maxRecDepth 100000 in
theorem schedule_ok : schedule opened.ledger = .ok () scheduled.ledger := Exec.ok_final instructions_succeed.2.1

set_option maxRecDepth 100000 in
theorem activate_ok : activate scheduled.ledger = .ok () activated.ledger := Exec.ok_final instructions_succeed.2.2.1

set_option maxRecDepth 100000 in
theorem freeze_ok : freeze activated.ledger = .ok () frozen.ledger := Exec.ok_final instructions_succeed.2.2.2.1

theorem genesis : Registry.Genesis environment start := by
  intro k howner
  change allZero (if k = systemProgram then _ else _ : Account).data = true
  change (if k = systemProgram then _ else _ : Account).owner = environment.programId at howner
  have hloader : bpfLoaderUpgradeable ≠ environment.programId := by decide
  split_ifs at howner ⊢ <;> first | exact absurd howner hloader | rfl

theorem runs : Runs environment start events frozen := by
  refine .cons (t := opened) ⟨?_, rfl, openRegistry_ok⟩ ?_
  · decide
  refine .cons (t := scheduled) ⟨?_, rfl, schedule_ok⟩ ?_
  · decide
  refine .cons (t := activated) ⟨?_, rfl, activate_ok⟩ ?_
  · decide
  refine .cons (t := frozen) ⟨?_, rfl, freeze_ok⟩ (.nil frozen)
  decide

end CertifiedSample

/-- The verifier of the sample run is certified, and it stays selected whatever happens after the freeze. -/
theorem immutable_selection_certified_sample :
    (∃ registryAccount entryAccount registry entry, CertifiedSample.accounts = [registryAccount, entryAccount] ∧
      registryAt CertifiedSample.environment .v2 CertifiedSample.frozen.ledger registryAccount.key = some registry ∧
      CertifiedBeforeFreeze CertifiedSample.environment CertifiedSample.start CertifiedSample.events CertifiedSample.pool
        entryAccount.key registry entry 14) ∧
    ∀ later t, RuntimeRuns CertifiedSample.environment CertifiedSample.frozen later t → ∀ slot', 14 ≤ slot' →
      authenticateVerifierSelectionV1 CertifiedSample.environment.findProgramAddress CertifiedSample.pool
        CertifiedSample.policy CertifiedSample.accounts CertifiedSample.selection slot' t.ledger =
          .ok { CertifiedSample.evidence with authenticatedAtSlot := slot'.toNat } := by
  have hdeployment : CertifiedSample.policy.flags &&& 2 ≠ 0 := by decide
  obtain ⟨hselected, hfrozen⟩ :=
    immutable_selection_certified CertifiedSample.genesis CertifiedSample.runs rfl hdeployment
  obtain ⟨registryAccount, entryAccount, registry, entry, haccounts, hkey, hregistry, himmutable, -, -, -, hcertified⟩ :=
    hselected _ _ _ _ CertifiedSample.selected
  refine ⟨⟨registryAccount, entryAccount, registry, entry, haccounts, hregistry, hcertified⟩,
    fun later t hlater slot' hle => ?_⟩
  obtain ⟨-, -, hlater, -⟩ := hfrozen ⟨registry, hkey ▸ hregistry, himmutable⟩ later t hlater
  exact hlater _ _ _ _ slot' hle CertifiedSample.selected

end Aspis.Pool
