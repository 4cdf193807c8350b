import Aspis.Pool.Accounts
import Aspis.Statement.VerifierRegistry

/-! The verifier registry program. One registry account per pool carries a
generation counter and a pause flag; entries are scheduled, activated and
retired under it. The two account families run through the same handlers; the
second one also authenticates the immutable deployments it certifies. -/

namespace Aspis.Registry

open Lib Chain Statement

inductive RegistryProgramErrorV1
  | invalidInstruction
  | invalidAccountCount
  | duplicateAccount
  | invalidRegistryAddress
  | invalidRegistryAccount
  | invalidEntryAddress
  | invalidEntryAccount
  | invalidAuthority
  | invalidPayer
  | invalidSystemProgram
  | invalidFreshAccount
  | generationMismatch
  | generationOverflow
  | registryFrozen
  | registryAlreadyPaused
  | registryNotPaused
  | activationDelayOverflow
  | activationDelayNotElapsed
  | entryNotPending
  | entryNotActive
  | invalidEntryState
  | replacementNotActive
  | incompatibleReplacement
  | invalidRetirementSlot
  | invalidVerifierProgram
  | invalidProgramData
  | verifierNotImmutable
  | executableHashMismatch
  deriving DecidableEq, Repr

inductive RegistryError
  | custom (error : RegistryProgramErrorV1)
  | program (error : ProgramError)
  deriving DecidableEq, Repr

instance : Coe RegistryProgramErrorV1 RegistryError := ⟨.custom⟩

/-- The account states of the upgradeable loader. -/
inductive UpgradeableLoaderState
  | uninitialized
  | buffer (authority : Option Pubkey)
  | program (programdataAddress : Pubkey)
  | programData (slot : ℕ) (upgradeAuthorityAddress : Option Pubkey)
  deriving DecidableEq

/-- What the registry program takes from outside its own code. -/
structure RegistryEnvironment where
  programId : Pubkey
  findProgramAddress : List Bytes → Pubkey → Pubkey × UInt8
  minimumBalance : ℕ → ℕ
  deserializeLoaderState : Bytes → Option UpgradeableLoaderState
  hash : Bytes → Bytes32
  programId_ne_system : programId ≠ systemProgram

abbrev RegistryHandler (α : Type) := Exec RegistryError Ledger α

def ExecutableHash : RegistryVersion → Type
  | .v1 => Unit
  | .v2 => Bytes32

inductive RegistryInstruction (v : RegistryVersion)
  | initializeRegistry (pool policyBinding : Bytes32) (minimumActivationDelaySlots : UInt64)
      (expectedRegistryExecutableHash : ExecutableHash v)
  | scheduleProfile (expectedGeneration : UInt64) (verifierProgram profileBinding releaseBinding : Bytes32)
      (statementVersion : UInt8) (activationSlot : UInt64) (expectedExecutableHash : ExecutableHash v)
  | pause (expectedGeneration : UInt64)
  | unpause (expectedGeneration : UInt64)
  | activate (expectedGeneration : UInt64)
  | retire (expectedGeneration : UInt64)
  | freeze (expectedGeneration : UInt64)

abbrev RegistryInstructionV1 := RegistryInstruction .v1
abbrev RegistryInstructionV2 := RegistryInstruction .v2

/-! ### Addresses

Seed texts `aspis-verifier-registry-v1`, `aspis-verifier-entry-v1` and their
second versions. -/

def registrySeed : RegistryVersion → Bytes
  | .v1 => [97, 115, 112, 105, 115, 45, 118, 101, 114, 105, 102, 105, 101, 114, 45, 114, 101, 103, 105, 115, 116, 114,
      121, 45, 118, 49]
  | .v2 => [97, 115, 112, 105, 115, 45, 118, 101, 114, 105, 102, 105, 101, 114, 45, 114, 101, 103, 105, 115, 116, 114,
      121, 45, 118, 50]

def entrySeed : RegistryVersion → Bytes
  | .v1 => [97, 115, 112, 105, 115, 45, 118, 101, 114, 105, 102, 105, 101, 114, 45, 101, 110, 116, 114, 121, 45, 118,
      49]
  | .v2 => [97, 115, 112, 105, 115, 45, 118, 101, 114, 105, 102, 105, 101, 114, 45, 101, 110, 116, 114, 121, 45, 118,
      50]

section
variable (findProgramAddress : List Bytes → Pubkey → Pubkey × UInt8)

def poolV1VerifierRegistryAddress (v : RegistryVersion) (registryProgram pool : Pubkey) : Pubkey × UInt8 :=
  findProgramAddress [registrySeed v, pool.bytes] registryProgram

def poolV1VerifierEntryAddress (v : RegistryVersion) (registryProgram pool : Pubkey)
    (profileBinding releaseBinding : Bytes32) : Pubkey × UInt8 :=
  findProgramAddress [entrySeed v, pool.bytes, profileBinding.bytes, releaseBinding.bytes] registryProgram

/-- The program data account of the upgradeable loader for a program. -/
def programdataAddressOf (program : Pubkey) : Pubkey :=
  (findProgramAddress [program.bytes] Pool.bpfLoaderUpgradeable).1

end

/-! ### Checks -/

def checkedAdd (a b : UInt64) : Option UInt64 := if a.toNat + b.toNat < 2 ^ 64 then some (a + b) else none

def requireUniqueAccounts (accounts : List AccountInfo) : Except RegistryError Unit :=
  require (accounts.map (·.key)).Nodup (.custom .duplicateAccount)

def requireInitialAuthority (authority : AccountInfo) (l : Ledger) : Except RegistryError Unit :=
  require (authority.key ≠ Bytes32.zero ∧ authority.isSigner = true ∧ authority.isWritable = false ∧
    authority.executable l = false) (.custom .invalidAuthority)

def requirePayerAndSystemProgram (payer system : AccountInfo) (l : Ledger) : Except RegistryError Unit := do
  require (payer.isSigner = true ∧ payer.isWritable = true ∧ payer.executable l = false ∧
    payer.owner l = systemProgram) (.custom .invalidPayer)
  require (system.key = systemProgram ∧ system.owner l = Pool.nativeLoader ∧ system.executable l = true ∧
    system.isSigner = false ∧ system.isWritable = false) (.custom .invalidSystemProgram)

section
variable {v : RegistryVersion}

def requireAuthority (registry : VerifierRegistry v) (authority : AccountInfo) (l : Ledger) :
    Except RegistryError Unit := do
  require (registry.isImmutable = false) (.custom .registryFrozen)
  require (authority.key = registry.authority ∧ authority.isSigner = true ∧ authority.isWritable = false ∧
    authority.executable l = false) (.custom .invalidAuthority)

def requireEntryRegistryMatch (registry : VerifierRegistry v) (entry : VerifierRegistryEntry v) :
    Except RegistryError Unit :=
  require (entry.pool = registry.pool ∧ entry.policyBinding = registry.policyBinding) (.custom .invalidEntryAccount)

def requireGeneration (registry : VerifierRegistry v) (expected : UInt64) : Except RegistryError Unit :=
  require (registry.generation = expected) (.custom .generationMismatch)

def incrementedRegistry (registry : VerifierRegistry v) : Except RegistryError (VerifierRegistry v) := do
  let generation ← okOr (checkedAdd registry.generation 1) (.custom .generationOverflow)
  return { registry with generation }

def encodedRegistry (registry : VerifierRegistry v) : Except RegistryError Bytes :=
  mapErr (fun _ => .custom .invalidRegistryAccount) (encodeVerifierRegistry registry)

def encodedEntry (entry : VerifierRegistryEntry v) : Except RegistryError Bytes :=
  mapErr (fun _ => .custom .invalidEntryAccount) (encodeVerifierRegistryEntry entry)

end

section
variable (env : RegistryEnvironment)

structure ImmutableLoaderV3DeploymentV2 where
  programdataAddress : Pubkey
  executableHash : Bytes32
  deriving DecidableEq

def PROGRAM_ACCOUNT_BYTES : ℕ := 36

def PROGRAMDATA_METADATA_BYTES : ℕ := 45

/-- The program data account a program account links to. -/
def linkedProgramdata (data : Bytes) : Except RegistryError Pubkey := do
  require (data.length = PROGRAM_ACCOUNT_BYTES) (.custom .invalidVerifierProgram)
  match env.deserializeLoaderState data with
  | some (.program programdataAddress) => .ok programdataAddress
  | _ => .error (.custom .invalidVerifierProgram)

/-- The hash of everything after the metadata of a program data account without upgrade authority. -/
def immutableExecutableHash (data : Bytes) : Except RegistryError Bytes32 := do
  require (data.length > PROGRAMDATA_METADATA_BYTES) (.custom .invalidProgramData)
  match env.deserializeLoaderState (data.take PROGRAMDATA_METADATA_BYTES) with
  | some (.programData _ none) => .ok (env.hash (data.drop PROGRAMDATA_METADATA_BYTES))
  | some (.programData _ (some _)) => .error (.custom .verifierNotImmutable)
  | _ => .error (.custom .invalidProgramData)

def authenticateImmutableLoaderV3DeploymentV2 (expectedProgram : Pubkey) (program programdata : AccountInfo)
    (l : Ledger) : Except RegistryError ImmutableLoaderV3DeploymentV2 := do
  require (program.key = expectedProgram ∧ program.owner l = Pool.bpfLoaderUpgradeable ∧ program.executable l = true ∧
    program.isSigner = false ∧ program.isWritable = false) (.custom .invalidVerifierProgram)
  require (programdata.owner l = Pool.bpfLoaderUpgradeable ∧ programdata.executable l = false ∧
    programdata.isSigner = false ∧ programdata.isWritable = false) (.custom .invalidProgramData)
  let linked ← linkedProgramdata env (program.data l)
  require (linked = programdata.key ∧ linked = programdataAddressOf env.findProgramAddress expectedProgram)
    (.custom .invalidProgramData)
  let executableHash ← immutableExecutableHash env (programdata.data l)
  require (executableHash ≠ Bytes32.zero) (.custom .invalidProgramData)
  return ⟨linked, executableHash⟩

/-! ### Fresh accounts -/

def planFreshProgramPda (account : AccountInfo) (expected : Pubkey) (exactBytes : ℕ) (l : Ledger) :
    Except RegistryError Pool.FreshPdaPreparationV1 := do
  require (account.key = expected ∧ account.executable l = false ∧ account.isSigner = false ∧
    account.isWritable = true) (.custom .invalidFreshAccount)
  if account.owner l = env.programId then
    require ((account.data l).length = exactBytes ∧ allZero (account.data l) = true) (.custom .invalidFreshAccount)
    return .programOwnedZeroed
  else
    require (account.owner l = systemProgram ∧ account.data l = []) (.custom .invalidFreshAccount)
    return .createOrAllocateSystemOwned

def systemCpi (f : Ledger → Except ProgramError Ledger) : RegistryHandler Unit :=
  Exec.call fun l => mapErr .program (f l)

def topUp (payer account : AccountInfo) (deficit : ℕ) : RegistryHandler Unit :=
  if deficit ≠ 0 then systemCpi (systemTransfer payer.key account.key deficit) else pure ()

def createOrAllocatePda (payer account : AccountInfo) (exactBytes : ℕ) : RegistryHandler Unit := do
  Exec.query fun l => require (account.owner l = systemProgram ∧ account.data l = []) (.custom .invalidFreshAccount)
  let required := max (env.minimumBalance exactBytes) 1
  let lamports ← Exec.query fun l => .ok (account.lamports l)
  if lamports = 0 then
    systemCpi (systemCreateAccount payer.key account.key required exactBytes env.programId)
  else
    topUp payer account (required - lamports)
    systemCpi (systemAllocate account.key exactBytes)
    systemCpi (systemAssign account.key env.programId)

def requireZeroProgramAccount (account : AccountInfo) (exactBytes : ℕ) (l : Ledger) : Except RegistryError Unit := do
  require (account.owner l = env.programId ∧ account.executable l = false ∧ account.isSigner = false ∧
    account.isWritable = true) (.custom .invalidFreshAccount)
  require ((account.data l).length = exactBytes ∧ allZero (account.data l) = true) (.custom .invalidFreshAccount)

/-- Create the account when it is not there yet. -/
def createIfNeeded (payer account : AccountInfo) (exactBytes : ℕ) (preparation : Pool.FreshPdaPreparationV1) :
    RegistryHandler Unit :=
  if preparation = .createOrAllocateSystemOwned then do
    createOrAllocatePda env payer account exactBytes
    Exec.query (requireZeroProgramAccount env account exactBytes)
  else pure ()

/-! ### Loading and committing -/

/-- The certified deployment of a second-family registry is this program's own. -/
def registryDeploymentMatches : (v : RegistryVersion) → RegistryDeployment v → Bool
  | .v1, _ => true
  | .v2, (d : RegistryDeploymentV2) => d.registryProgram = env.programId ∧
      d.loaderProgram = Pool.bpfLoaderUpgradeable ∧
      d.programdataAddress = programdataAddressOf env.findProgramAddress env.programId

def entryDeploymentMatches (verifierProgram : Pubkey) : (v : RegistryVersion) → EntryDeployment v → Bool
  | .v1, _ => true
  | .v2, (d : EntryDeploymentV2) => d.loaderProgram = Pool.bpfLoaderUpgradeable ∧
      d.programdataAddress = programdataAddressOf env.findProgramAddress verifierProgram ∧
      d.expectedUpgradeAuthority = Bytes32.zero

def loadRegistry (v : RegistryVersion) (account : AccountInfo) (l : Ledger) :
    Except RegistryError (VerifierRegistry v) := do
  require (account.owner l = env.programId ∧ account.executable l = false ∧ account.isSigner = false ∧
    account.isWritable = true) (.custom .invalidRegistryAccount)
  let registry ← mapErr (fun _ => .custom .invalidRegistryAccount) (decodeVerifierRegistry v (account.data l))
  require (account.key = (poolV1VerifierRegistryAddress env.findProgramAddress v env.programId registry.pool).1 ∧
    registryDeploymentMatches env v registry.deployment = true) (.custom .invalidRegistryAddress)
  return registry

def loadEntry (v : RegistryVersion) (account : AccountInfo) (writable : Bool) (l : Ledger) :
    Except RegistryError (VerifierRegistryEntry v) := do
  require (account.owner l = env.programId ∧ account.executable l = false ∧ account.isSigner = false ∧
    account.isWritable = writable) (.custom .invalidEntryAccount)
  let entry ← mapErr (fun _ => .custom .invalidEntryAccount) (decodeVerifierRegistryEntry v (account.data l))
  require (account.key = (poolV1VerifierEntryAddress env.findProgramAddress v env.programId entry.pool
      entry.profileBinding entry.releaseBinding).1 ∧
    entryDeploymentMatches env entry.verifierProgram v entry.deployment = true) (.custom .invalidEntryAddress)
  return entry

def commitRegistry (account : AccountInfo) (image : Bytes) : RegistryHandler Unit := do
  Exec.query fun l => require ((account.data l).length = image.length) (.custom .invalidRegistryAccount)
  Exec.update (setData account.key image)

/-- Both lengths are checked before either image is written. -/
def commitRegistryAndEntry (registryAccount : AccountInfo) (registry : Bytes) (entryAccount : AccountInfo)
    (entry : Bytes) : RegistryHandler Unit := do
  Exec.query fun l => require ((registryAccount.data l).length = registry.length ∧
    (entryAccount.data l).length = entry.length) (.custom .invalidAccountCount)
  Exec.update (setData registryAccount.key registry)
  Exec.update (setData entryAccount.key entry)

/-! ### The handlers -/

/-- Write a new registry to its fresh account. -/
def installRegistry (v : RegistryVersion) (registryAccount payer : AccountInfo) (registry : VerifierRegistry v) :
    RegistryHandler Unit := do
  let image ← Exec.query fun _ => mapErr (fun _ => .custom .invalidInstruction) (encodedRegistry registry)
  let preparation ← Exec.query (planFreshProgramPda env registryAccount
    (poolV1VerifierRegistryAddress env.findProgramAddress v env.programId registry.pool).1
    (RecordKind.bytes (.registry v)))
  createIfNeeded env payer registryAccount (RecordKind.bytes (.registry v)) preparation
  commitRegistry registryAccount image

def processInitialize (accounts : List AccountInfo) (pool policyBinding : Bytes32)
    (minimumActivationDelaySlots : UInt64) : RegistryHandler Unit :=
  match accounts with
  | [registryAccount, authority, payer, system] => do
    Exec.query fun l => do
      requireUniqueAccounts accounts
      requireInitialAuthority authority l
      requirePayerAndSystemProgram payer system l
    installRegistry env .v1 registryAccount payer
      ⟨0, pool, authority.key, policyBinding, 0, minimumActivationDelaySlots, ()⟩
  | _ => Exec.query fun _ => .error (.custom .invalidAccountCount)

def processInitializeV2 (accounts : List AccountInfo) (pool policyBinding : Bytes32)
    (minimumActivationDelaySlots : UInt64) (expectedRegistryExecutableHash : Bytes32) : RegistryHandler Unit :=
  match accounts with
  | [registryAccount, authority, payer, system, program, programdata] => do
    let deployment ← Exec.query fun l => do
      requireUniqueAccounts accounts
      requireInitialAuthority authority l
      requirePayerAndSystemProgram payer system l
      let deployment ← authenticateImmutableLoaderV3DeploymentV2 env env.programId program programdata l
      require (deployment.executableHash = expectedRegistryExecutableHash) (.custom .executableHashMismatch)
      return deployment
    installRegistry env .v2 registryAccount payer ⟨0, pool, authority.key, policyBinding, 0,
      minimumActivationDelaySlots, (⟨env.programId, Pool.bpfLoaderUpgradeable, deployment.programdataAddress,
        deployment.executableHash⟩ : RegistryDeploymentV2)⟩
  | _ => Exec.query fun _ => .error (.custom .invalidAccountCount)

/-- The registry under which an entry may be scheduled for the given slot. -/
def scheduleRegistry (v : RegistryVersion) (accounts : List AccountInfo)
    (registryAccount authority payer system : AccountInfo) (expectedGeneration activationSlot currentSlot : UInt64)
    (l : Ledger) : Except RegistryError (VerifierRegistry v) := do
  requireUniqueAccounts accounts
  let registry ← loadRegistry env v registryAccount l
  requireAuthority registry authority l
  requireGeneration registry expectedGeneration
  requirePayerAndSystemProgram payer system l
  let earliest ← okOr (checkedAdd currentSlot registry.minimumActivationDelaySlots) (.custom .activationDelayOverflow)
  require (earliest ≤ activationSlot) (.custom .activationDelayNotElapsed)
  return registry

/-- Write a new entry to its fresh account, together with the next registry. -/
def installEntry (v : RegistryVersion) (registryAccount entryAccount payer : AccountInfo)
    (registry : VerifierRegistry v) (entry : VerifierRegistryEntry v) : RegistryHandler Unit := do
  let (entryImage, registryImage) ← Exec.query fun _ => do
    let entryImage ← mapErr (fun _ => .custom .invalidInstruction) (encodedEntry entry)
    let next ← incrementedRegistry registry
    let registryImage ← encodedRegistry next
    return (entryImage, registryImage)
  let preparation ← Exec.query (planFreshProgramPda env entryAccount
    (poolV1VerifierEntryAddress env.findProgramAddress v env.programId registry.pool entry.profileBinding
      entry.releaseBinding).1 (RecordKind.bytes (.entry v)))
  createIfNeeded env payer entryAccount (RecordKind.bytes (.entry v)) preparation
  commitRegistryAndEntry registryAccount registryImage entryAccount entryImage

/-- An entry as it is scheduled: pending and without retirement. -/
def scheduledEntry {v : RegistryVersion} (registry : VerifierRegistry v)
    (verifierProgram profileBinding releaseBinding : Bytes32) (statementVersion : UInt8) (activationSlot : UInt64)
    (deployment : EntryDeployment v) : VerifierRegistryEntry v :=
  ⟨.pending, statementVersion, registry.pool, verifierProgram, profileBinding, releaseBinding, activationSlot,
    POOL_V1_VERIFIER_ENTRY_NO_RETIREMENT_SLOT, registry.policyBinding, deployment⟩

def processSchedule (accounts : List AccountInfo) (expectedGeneration : UInt64)
    (verifierProgram profileBinding releaseBinding : Bytes32) (statementVersion : UInt8)
    (activationSlot currentSlot : UInt64) : RegistryHandler Unit :=
  match accounts with
  | [registryAccount, entryAccount, authority, payer, system] => do
    let registry ← Exec.query (scheduleRegistry env .v1 accounts registryAccount authority payer system
      expectedGeneration activationSlot currentSlot)
    installEntry env .v1 registryAccount entryAccount payer registry
      (scheduledEntry registry verifierProgram profileBinding releaseBinding statementVersion activationSlot ())
  | _ => Exec.query fun _ => .error (.custom .invalidAccountCount)

def processScheduleV2 (accounts : List AccountInfo) (expectedGeneration : UInt64)
    (verifierProgram profileBinding releaseBinding : Bytes32) (statementVersion : UInt8) (activationSlot : UInt64)
    (expectedExecutableHash : Bytes32) (currentSlot : UInt64) : RegistryHandler Unit :=
  match accounts with
  | [registryAccount, entryAccount, authority, payer, system, program, programdata] => do
    let (registry, deployment) ← Exec.query fun l => do
      let registry ← scheduleRegistry env .v2 accounts registryAccount authority payer system expectedGeneration
        activationSlot currentSlot l
      let deployment ← authenticateImmutableLoaderV3DeploymentV2 env verifierProgram program programdata l
      require (deployment.executableHash = expectedExecutableHash) (.custom .executableHashMismatch)
      return (registry, deployment)
    installEntry env .v2 registryAccount entryAccount payer registry
      (scheduledEntry registry verifierProgram profileBinding releaseBinding statementVersion activationSlot
        (⟨Pool.bpfLoaderUpgradeable, deployment.programdataAddress, deployment.executableHash, Bytes32.zero⟩ :
          EntryDeploymentV2))
  | _ => Exec.query fun _ => .error (.custom .invalidAccountCount)

/-- The registry an authorized mutation starts from. -/
def authorizedRegistry (v : RegistryVersion) (accounts : List AccountInfo) (registryAccount authority : AccountInfo)
    (expectedGeneration : UInt64) (l : Ledger) : Except RegistryError (VerifierRegistry v) := do
  requireUniqueAccounts accounts
  let registry ← loadRegistry env v registryAccount l
  requireAuthority registry authority l
  requireGeneration registry expectedGeneration
  return registry

def pausedFlags (flags : UInt8) (paused : Bool) : UInt8 := if paused then flags ||| 1 else flags &&& ~~~ 1

def processPauseChange (v : RegistryVersion) (accounts : List AccountInfo) (expectedGeneration : UInt64)
    (paused : Bool) : RegistryHandler Unit :=
  match accounts with
  | [registryAccount, authority] => do
    let image ← Exec.query fun l => do
      let registry ← authorizedRegistry env v accounts registryAccount authority expectedGeneration l
      require (registry.isPaused ≠ paused)
        (.custom (if paused then .registryAlreadyPaused else .registryNotPaused))
      let next ← incrementedRegistry registry
      encodedRegistry { next with flags := pausedFlags next.flags paused }
    commitRegistry registryAccount image
  | _ => Exec.query fun _ => .error (.custom .invalidAccountCount)

def processActivate (v : RegistryVersion) (accounts : List AccountInfo) (expectedGeneration currentSlot : UInt64) :
    RegistryHandler Unit :=
  match accounts with
  | [registryAccount, entryAccount, authority] => do
    let (registryImage, entryImage) ← Exec.query fun l => do
      let registry ← authorizedRegistry env v accounts registryAccount authority expectedGeneration l
      let entry ← loadEntry env v entryAccount true l
      requireEntryRegistryMatch registry entry
      require (entry.status = .pending) (.custom .entryNotPending)
      require (entry.hasNoRetirementSlot = true) (.custom .invalidEntryState)
      require (entry.activationSlot ≤ currentSlot) (.custom .activationDelayNotElapsed)
      let next ← incrementedRegistry registry
      let registryImage ← encodedRegistry next
      let entryImage ← encodedEntry { entry with status := .active }
      return (registryImage, entryImage)
    commitRegistryAndEntry registryAccount registryImage entryAccount entryImage
  | _ => Exec.query fun _ => .error (.custom .invalidAccountCount)

def processRetire (v : RegistryVersion) (accounts : List AccountInfo) (expectedGeneration currentSlot : UInt64) :
    RegistryHandler Unit :=
  match accounts with
  | [registryAccount, retiringAccount, replacementAccount, authority] => do
    let (registryImage, entryImage) ← Exec.query fun l => do
      let registry ← authorizedRegistry env v accounts registryAccount authority expectedGeneration l
      let retiring ← loadEntry env v retiringAccount true l
      let replacement ← loadEntry env v replacementAccount false l
      requireEntryRegistryMatch registry retiring
      requireEntryRegistryMatch registry replacement
      require (retiring.isActiveAt currentSlot = true) (.custom .entryNotActive)
      require (retiring.hasNoRetirementSlot = true) (.custom .invalidEntryState)
      require (replacement.isActiveAt currentSlot = true) (.custom .replacementNotActive)
      require (replacement.isExactCompatibleReplacementFor retiring currentSlot = true)
        (.custom .incompatibleReplacement)
      require (retiring.activationSlot < currentSlot) (.custom .invalidRetirementSlot)
      let next ← incrementedRegistry registry
      let registryImage ← encodedRegistry next
      let entryImage ← encodedEntry { retiring with status := .retired, retirementSlot := currentSlot }
      return (registryImage, entryImage)
    commitRegistryAndEntry registryAccount registryImage retiringAccount entryImage
  | _ => Exec.query fun _ => .error (.custom .invalidAccountCount)

def processFreeze (v : RegistryVersion) (accounts : List AccountInfo) (expectedGeneration : UInt64) :
    RegistryHandler Unit :=
  match accounts with
  | [registryAccount, authority] => do
    let image ← Exec.query fun l => do
      let registry ← authorizedRegistry env v accounts registryAccount authority expectedGeneration l
      let next ← incrementedRegistry registry
      encodedRegistry { next with flags := next.flags ||| 2, authority := Bytes32.zero }
    commitRegistry registryAccount image
  | _ => Exec.query fun _ => .error (.custom .invalidAccountCount)

def processInitializeOf (accounts : List AccountInfo) (pool policyBinding : Bytes32) (delay : UInt64) :
    (v : RegistryVersion) → ExecutableHash v → RegistryHandler Unit
  | .v1, _ => processInitialize env accounts pool policyBinding delay
  | .v2, (hash : Bytes32) => processInitializeV2 env accounts pool policyBinding delay hash

def processScheduleOf (accounts : List AccountInfo) (expectedGeneration : UInt64)
    (verifierProgram profileBinding releaseBinding : Bytes32) (statementVersion : UInt8)
    (activationSlot currentSlot : UInt64) : (v : RegistryVersion) → ExecutableHash v → RegistryHandler Unit
  | .v1, _ => processSchedule env accounts expectedGeneration verifierProgram profileBinding releaseBinding
      statementVersion activationSlot currentSlot
  | .v2, (hash : Bytes32) => processScheduleV2 env accounts expectedGeneration verifierProgram profileBinding
      releaseBinding statementVersion activationSlot hash currentSlot

/-- The dispatcher; instructions that need no clock are given slot zero. -/
def processDecodedInstruction {v : RegistryVersion} (accounts : List AccountInfo) (slot : UInt64) :
    RegistryInstruction v → RegistryHandler Unit
  | .initializeRegistry pool policyBinding delay hash =>
    processInitializeOf env accounts pool policyBinding delay v hash
  | .scheduleProfile expectedGeneration verifierProgram profileBinding releaseBinding statementVersion activationSlot
      hash => processScheduleOf env accounts expectedGeneration verifierProgram profileBinding releaseBinding
        statementVersion activationSlot slot v hash
  | .pause expectedGeneration => processPauseChange env v accounts expectedGeneration true
  | .unpause expectedGeneration => processPauseChange env v accounts expectedGeneration false
  | .activate expectedGeneration => processActivate env v accounts expectedGeneration slot
  | .retire expectedGeneration => processRetire env v accounts expectedGeneration slot
  | .freeze expectedGeneration => processFreeze env v accounts expectedGeneration

end

end Aspis.Registry
