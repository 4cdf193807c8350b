import Aspis.Lib.Exec
import Aspis.Lib.Records

/-! The account images of the verifier registry. There are two families of
accounts, told apart by their magic bytes; the second repeats the fields of the
first and binds the registry and each entry to an immutable deployment. -/

namespace Aspis.Statement

open Lib

inductive PoolV1VerifierRegistryFormatError
  | wrongLength
  | wrongMagic
  | wrongVersion
  | nonZeroReserved
  | unsupportedFlags
  | invalidStatus
  | invalidAuthorityMode
  | zeroRequiredBinding
  | invalidActivationDelay
  | invalidStatementVersion
  | invalidRetirementSlot
  | invalidDeploymentMode
  deriving DecidableEq, Repr

inductive RegistryVersion
  | v1
  | v2
  deriving DecidableEq, Repr

inductive VerifierEntryStatusV1
  | pending
  | active
  | paused
  | retired
  deriving DecidableEq, Repr

def VerifierEntryStatusV1.code : VerifierEntryStatusV1 → UInt8
  | .pending => 0
  | .active => 1
  | .paused => 2
  | .retired => 3

def VerifierEntryStatusV1.ofCode (code : UInt8) : Option VerifierEntryStatusV1 :=
  if code = 0 then some .pending else if code = 1 then some .active else if code = 2 then some .paused
  else if code = 3 then some .retired else none

@[simp] theorem VerifierEntryStatusV1.ofCode_code (s : VerifierEntryStatusV1) : ofCode s.code = some s := by
  cases s <;> rfl

/-- The deployment a second-family registry is certified for. -/
structure RegistryDeploymentV2 where
  registryProgram : Bytes32
  loaderProgram : Bytes32
  programdataAddress : Bytes32
  executableHash : Bytes32
  deriving DecidableEq

/-- The deployment a second-family entry certifies. -/
structure EntryDeploymentV2 where
  loaderProgram : Bytes32
  programdataAddress : Bytes32
  executableHash : Bytes32
  expectedUpgradeAuthority : Bytes32
  deriving DecidableEq

def RegistryDeployment : RegistryVersion → Type
  | .v1 => Unit
  | .v2 => RegistryDeploymentV2

def EntryDeployment : RegistryVersion → Type
  | .v1 => Unit
  | .v2 => EntryDeploymentV2

structure VerifierRegistry (v : RegistryVersion) where
  flags : UInt8
  pool : Bytes32
  authority : Bytes32
  policyBinding : Bytes32
  generation : UInt64
  minimumActivationDelaySlots : UInt64
  deployment : RegistryDeployment v

structure VerifierRegistryEntry (v : RegistryVersion) where
  status : VerifierEntryStatusV1
  statementVersion : UInt8
  pool : Bytes32
  verifierProgram : Bytes32
  profileBinding : Bytes32
  releaseBinding : Bytes32
  activationSlot : UInt64
  retirementSlot : UInt64
  policyBinding : Bytes32
  deployment : EntryDeployment v

abbrev VerifierRegistryV1 := VerifierRegistry .v1
abbrev VerifierRegistryV2 := VerifierRegistry .v2
abbrev VerifierRegistryEntryV1 := VerifierRegistryEntry .v1
abbrev VerifierRegistryEntryV2 := VerifierRegistryEntry .v2

def POOL_V1_VERIFIER_ENTRY_NO_RETIREMENT_SLOT : UInt64 := 18446744073709551615

namespace VerifierRegistry

variable {v : RegistryVersion}

def isPaused (r : VerifierRegistry v) : Bool := r.flags &&& 1 ≠ 0

def isImmutable (r : VerifierRegistry v) : Bool := r.flags &&& 2 ≠ 0

end VerifierRegistry

namespace VerifierRegistryEntry

variable {v : RegistryVersion}

def hasNoRetirementSlot (e : VerifierRegistryEntry v) : Bool :=
  e.retirementSlot = POOL_V1_VERIFIER_ENTRY_NO_RETIREMENT_SLOT

/-- The interval in which the pool accepts the entry. -/
def isActiveAt (e : VerifierRegistryEntry v) (slot : UInt64) : Bool :=
  e.status = .active ∧ e.activationSlot ≤ slot ∧ (e.hasNoRetirementSlot = true ∨ slot < e.retirementSlot)

/-- Same pool, policy, profile and statement version, another release, and active now. -/
def isExactCompatibleReplacementFor (e retiring : VerifierRegistryEntry v) (slot : UInt64) : Bool :=
  e.pool = retiring.pool ∧ e.policyBinding = retiring.policyBinding ∧ e.profileBinding = retiring.profileBinding ∧
    e.statementVersion = retiring.statementVersion ∧ e.releaseBinding ≠ retiring.releaseBinding ∧
    e.isActiveAt slot = true

end VerifierRegistryEntry

/-! ### Validation -/

/-- The bindings of a registry's deployment that must not be zero. -/
def registryDeploymentBound : (v : RegistryVersion) → RegistryDeployment v → Bool
  | .v1, _ => true
  | .v2, (d : RegistryDeploymentV2) => d.registryProgram ≠ Bytes32.zero ∧ d.loaderProgram ≠ Bytes32.zero ∧
      d.programdataAddress ≠ Bytes32.zero ∧ d.executableHash ≠ Bytes32.zero

def entryDeploymentBound : (v : RegistryVersion) → EntryDeployment v → Bool
  | .v1, _ => true
  | .v2, (d : EntryDeploymentV2) => d.loaderProgram ≠ Bytes32.zero ∧ d.programdataAddress ≠ Bytes32.zero ∧
      d.executableHash ≠ Bytes32.zero

/-- Certified programs have no upgrade authority. -/
def entryAuthorityRevoked : (v : RegistryVersion) → EntryDeployment v → Bool
  | .v1, _ => true
  | .v2, (d : EntryDeploymentV2) => d.expectedUpgradeAuthority = Bytes32.zero

section
variable {v : RegistryVersion}

def validateVerifierRegistry (r : VerifierRegistry v) : Except PoolV1VerifierRegistryFormatError Unit := do
  require (r.flags &&& ~~~ 3 = 0) .unsupportedFlags
  require (r.pool ≠ Bytes32.zero ∧ r.policyBinding ≠ Bytes32.zero ∧ registryDeploymentBound v r.deployment = true)
    .zeroRequiredBinding
  require (r.isImmutable = true ↔ r.authority = Bytes32.zero) .invalidAuthorityMode
  require (r.minimumActivationDelaySlots ≠ 0) .invalidActivationDelay

def validateVerifierRegistryEntry (e : VerifierRegistryEntry v) : Except PoolV1VerifierRegistryFormatError Unit := do
  require (e.statementVersion ≠ 0) .invalidStatementVersion
  require (e.pool ≠ Bytes32.zero ∧ e.verifierProgram ≠ Bytes32.zero ∧ e.profileBinding ≠ Bytes32.zero ∧
    e.releaseBinding ≠ Bytes32.zero ∧ e.policyBinding ≠ Bytes32.zero ∧ entryDeploymentBound v e.deployment = true)
    .zeroRequiredBinding
  require (entryAuthorityRevoked v e.deployment = true) .invalidAuthorityMode
  require (¬ (e.hasNoRetirementSlot = false ∧ e.retirementSlot ≤ e.activationSlot)) .invalidRetirementSlot

end

abbrev validateVerifierRegistryV1 : VerifierRegistryV1 → Except PoolV1VerifierRegistryFormatError Unit :=
  validateVerifierRegistry
abbrev validateVerifierRegistryV2 : VerifierRegistryV2 → Except PoolV1VerifierRegistryFormatError Unit :=
  validateVerifierRegistry
abbrev validateVerifierRegistryEntryV1 : VerifierRegistryEntryV1 → Except PoolV1VerifierRegistryFormatError Unit :=
  validateVerifierRegistryEntry
abbrev validateVerifierRegistryEntryV2 : VerifierRegistryEntryV2 → Except PoolV1VerifierRegistryFormatError Unit :=
  validateVerifierRegistryEntry

/-! ### Images -/

/-- The kinds of accounts the registry program keeps. -/
inductive RecordKind
  | registry (v : RegistryVersion)
  | entry (v : RegistryVersion)
  deriving DecidableEq, Repr

def RecordKind.magic : RecordKind → Bytes
  | .registry .v1 => [65, 83, 82, 71]
  | .entry .v1 => [65, 83, 82, 69]
  | .registry .v2 => [65, 83, 82, 50]
  | .entry .v2 => [65, 83, 69, 50]

def RecordKind.bytes : RecordKind → ℕ
  | .registry .v1 => 128
  | .entry .v1 => 192
  | .registry .v2 => 256
  | .entry .v2 => 320

/-- Magic, version, flags and two bytes that are reserved in the first family. -/
def registryHead : (v : RegistryVersion) → UInt8 → Bytes
  | .v1, flags => RecordKind.magic (.registry .v1) ++ [1, flags, 0, 0]
  | .v2, flags => RecordKind.magic (.registry .v2) ++ [2, flags, 1, 0]

def registryTail : (v : RegistryVersion) → RegistryDeployment v → Bytes
  | .v1, _ => []
  | .v2, (d : RegistryDeploymentV2) => d.registryProgram.bytes ++ (d.loaderProgram.bytes ++
      (d.programdataAddress.bytes ++ d.executableHash.bytes))

def registryImage {v : RegistryVersion} (r : VerifierRegistry v) : Bytes :=
  registryHead v r.flags ++ (r.pool.bytes ++ (r.authority.bytes ++ (r.policyBinding.bytes ++ (u64Bytes r.generation ++
    (u64Bytes r.minimumActivationDelaySlots ++ (registryTail v r.deployment ++ zeros 8))))))

def entryHead : (v : RegistryVersion) → VerifierEntryStatusV1 → UInt8 → Bytes
  | .v1, status, statementVersion => RecordKind.magic (.entry .v1) ++ [1, status.code, statementVersion, 0]
  | .v2, status, statementVersion => RecordKind.magic (.entry .v2) ++ [2, status.code, statementVersion, 1]

def entryMiddle : (v : RegistryVersion) → EntryDeployment v → Bytes
  | .v1, _ => []
  | .v2, (d : EntryDeploymentV2) => d.loaderProgram.bytes ++ (d.programdataAddress.bytes ++
      (d.executableHash.bytes ++ d.expectedUpgradeAuthority.bytes))

def entryImage {v : RegistryVersion} (e : VerifierRegistryEntry v) : Bytes :=
  entryHead v e.status e.statementVersion ++ (e.pool.bytes ++ (e.verifierProgram.bytes ++ (e.profileBinding.bytes ++
    (e.releaseBinding.bytes ++ (entryMiddle v e.deployment ++ (u64Bytes e.activationSlot ++
      (u64Bytes e.retirementSlot ++ (e.policyBinding.bytes ++ zeros 8))))))))

def encodeVerifierRegistry {v : RegistryVersion} (r : VerifierRegistry v) :
    Except PoolV1VerifierRegistryFormatError Bytes := do
  validateVerifierRegistry r
  return registryImage r

def encodeVerifierRegistryEntry {v : RegistryVersion} (e : VerifierRegistryEntry v) :
    Except PoolV1VerifierRegistryFormatError Bytes := do
  validateVerifierRegistryEntry e
  return entryImage e

abbrev encodeVerifierRegistryV1 : VerifierRegistryV1 → Except PoolV1VerifierRegistryFormatError Bytes :=
  encodeVerifierRegistry
abbrev encodeVerifierRegistryV2 : VerifierRegistryV2 → Except PoolV1VerifierRegistryFormatError Bytes :=
  encodeVerifierRegistry
abbrev encodeVerifierRegistryEntryV1 : VerifierRegistryEntryV1 → Except PoolV1VerifierRegistryFormatError Bytes :=
  encodeVerifierRegistryEntry
abbrev encodeVerifierRegistryEntryV2 : VerifierRegistryEntryV2 → Except PoolV1VerifierRegistryFormatError Bytes :=
  encodeVerifierRegistryEntry

def decodeVerifierRegistryV1 (bytes : Bytes) : Except PoolV1VerifierRegistryFormatError VerifierRegistryV1 := do
  require (bytes.length = 128) .wrongLength
  require (slice 0 4 bytes = RecordKind.magic (.registry .v1)) .wrongMagic
  require (slice 4 1 bytes = [1]) .wrongVersion
  require (slice 6 2 bytes = zeros 2 ∧ slice 120 8 bytes = zeros 8) .nonZeroReserved
  let registry : VerifierRegistryV1 := ⟨byteAt 5 bytes, Bytes32.read 8 bytes, Bytes32.read 40 bytes,
    Bytes32.read 72 bytes, readU64 104 bytes, readU64 112 bytes, ()⟩
  validateVerifierRegistryV1 registry
  return registry

def decodeVerifierRegistryV2 (bytes : Bytes) : Except PoolV1VerifierRegistryFormatError VerifierRegistryV2 := do
  require (bytes.length = 256) .wrongLength
  require (slice 0 4 bytes = RecordKind.magic (.registry .v2)) .wrongMagic
  require (slice 4 1 bytes = [2]) .wrongVersion
  require (slice 6 1 bytes = [1]) .invalidDeploymentMode
  require (slice 7 1 bytes = [0] ∧ slice 248 8 bytes = zeros 8) .nonZeroReserved
  let registry : VerifierRegistryV2 := ⟨byteAt 5 bytes, Bytes32.read 8 bytes, Bytes32.read 40 bytes,
    Bytes32.read 72 bytes, readU64 104 bytes, readU64 112 bytes, (⟨Bytes32.read 120 bytes, Bytes32.read 152 bytes,
      Bytes32.read 184 bytes, Bytes32.read 216 bytes⟩ : RegistryDeploymentV2)⟩
  validateVerifierRegistryV2 registry
  return registry

def decodeVerifierRegistryEntryV1 (bytes : Bytes) :
    Except PoolV1VerifierRegistryFormatError VerifierRegistryEntryV1 := do
  require (bytes.length = 192) .wrongLength
  require (slice 0 4 bytes = RecordKind.magic (.entry .v1)) .wrongMagic
  require (slice 4 1 bytes = [1]) .wrongVersion
  require (slice 7 1 bytes = [0] ∧ slice 184 8 bytes = zeros 8) .nonZeroReserved
  let status ← okOr (VerifierEntryStatusV1.ofCode (byteAt 5 bytes)) .invalidStatus
  let entry : VerifierRegistryEntryV1 := ⟨status, byteAt 6 bytes, Bytes32.read 8 bytes, Bytes32.read 40 bytes,
    Bytes32.read 72 bytes, Bytes32.read 104 bytes, readU64 136 bytes, readU64 144 bytes, Bytes32.read 152 bytes, ()⟩
  validateVerifierRegistryEntryV1 entry
  return entry

def decodeVerifierRegistryEntryV2 (bytes : Bytes) :
    Except PoolV1VerifierRegistryFormatError VerifierRegistryEntryV2 := do
  require (bytes.length = 320) .wrongLength
  require (slice 0 4 bytes = RecordKind.magic (.entry .v2)) .wrongMagic
  require (slice 4 1 bytes = [2]) .wrongVersion
  require (slice 7 1 bytes = [1]) .invalidDeploymentMode
  require (slice 312 8 bytes = zeros 8) .nonZeroReserved
  let status ← okOr (VerifierEntryStatusV1.ofCode (byteAt 5 bytes)) .invalidStatus
  let entry : VerifierRegistryEntryV2 := ⟨status, byteAt 6 bytes, Bytes32.read 8 bytes, Bytes32.read 40 bytes,
    Bytes32.read 72 bytes, Bytes32.read 104 bytes, readU64 264 bytes, readU64 272 bytes, Bytes32.read 280 bytes,
    (⟨Bytes32.read 136 bytes, Bytes32.read 168 bytes, Bytes32.read 200 bytes, Bytes32.read 232 bytes⟩ :
      EntryDeploymentV2)⟩
  validateVerifierRegistryEntryV2 entry
  return entry

def decodeVerifierRegistry : (v : RegistryVersion) → Bytes →
    Except PoolV1VerifierRegistryFormatError (VerifierRegistry v)
  | .v1 => decodeVerifierRegistryV1
  | .v2 => decodeVerifierRegistryV2

def decodeVerifierRegistryEntry : (v : RegistryVersion) → Bytes →
    Except PoolV1VerifierRegistryFormatError (VerifierRegistryEntry v)
  | .v1 => decodeVerifierRegistryEntryV1
  | .v2 => decodeVerifierRegistryEntryV2

/-! ### Reading an image back -/

theorem RecordKind.magic_inj {a b : RecordKind} (h : a.magic = b.magic) : a = b := by
  rcases a with a | a <;> rcases b with b | b <;> cases a <;> cases b <;>
    first | rfl | (exact absurd h (by decide))

theorem RecordKind.magic_not_zero (a : RecordKind) : allZero a.magic = false := by
  rcases a with a | a <;> cases a <;> decide

@[simp] theorem RecordKind.length_magic (a : RecordKind) : a.magic.length = 4 := by
  rcases a with a | a <;> cases a <;> rfl

@[simp] theorem length_registryHead (v : RegistryVersion) (flags : UInt8) : (registryHead v flags).length = 8 := by
  cases v <;> simp [registryHead]

@[simp] theorem length_entryHead (v : RegistryVersion) (status : VerifierEntryStatusV1) (statementVersion : UInt8) :
    (entryHead v status statementVersion).length = 8 := by
  cases v <;> simp [entryHead]

theorem magic_registryImage {v : RegistryVersion} (r : VerifierRegistry v) :
    slice 0 4 (registryImage r) = RecordKind.magic (.registry v) := by
  rw [registryImage, slice_append_left (by simp)]
  cases v <;> rfl

theorem magic_entryImage {v : RegistryVersion} (e : VerifierRegistryEntry v) :
    slice 0 4 (entryImage e) = RecordKind.magic (.entry v) := by
  rw [entryImage, slice_append_left (by simp)]
  cases v <;> rfl

theorem decode_registryImage {v : RegistryVersion} {r : VerifierRegistry v} {u : Unit}
    (h : validateVerifierRegistry r = .ok u) : decodeVerifierRegistry v (registryImage r) = .ok r := by
  have hpool : Bytes32.read 8 (registryImage r) = r.pool := Bytes32.read_eq (by
    simp [registryImage, slice_append_right, slice_append_head])
  have hauthority : Bytes32.read 40 (registryImage r) = r.authority := Bytes32.read_eq (by
    simp [registryImage, slice_append_right, slice_append_head])
  have hpolicy : Bytes32.read 72 (registryImage r) = r.policyBinding := Bytes32.read_eq (by
    simp [registryImage, slice_append_right, slice_append_head])
  have hgeneration : readU64 104 (registryImage r) = r.generation := readU64_of_slice (by
    simp [registryImage, slice_append_right, slice_append_head])
  have hdelay : readU64 112 (registryImage r) = r.minimumActivationDelaySlots := readU64_of_slice (by
    simp [registryImage, slice_append_right, slice_append_head])
  have hmagic := magic_registryImage r
  cases v with
  | v1 =>
    have hread : (⟨byteAt 5 (registryImage r), Bytes32.read 8 (registryImage r), Bytes32.read 40 (registryImage r),
        Bytes32.read 72 (registryImage r), readU64 104 (registryImage r), readU64 112 (registryImage r), ()⟩ :
          VerifierRegistryV1) = r := by
      rw [hpool, hauthority, hpolicy, hgeneration, hdelay]
      rfl
    have htail : slice 120 8 (registryImage r) = zeros 8 := by
      simp [registryImage, registryTail, slice_append_right, slice_all]
    simp only [decodeVerifierRegistry, decodeVerifierRegistryV1, except_bind_eq_ok, require_eq_ok, except_pure_eq_ok,
      hread]
    exact ⟨(), by simp [registryImage, registryTail], (), hmagic, (), rfl, (), ⟨rfl, htail⟩, (), h, trivial⟩
  | v2 =>
    have hprogram : Bytes32.read 120 (registryImage r) = RegistryDeploymentV2.registryProgram r.deployment :=
      Bytes32.read_eq (by simp [registryImage, registryTail, slice_append_right, slice_append_head])
    have hloader : Bytes32.read 152 (registryImage r) = RegistryDeploymentV2.loaderProgram r.deployment :=
      Bytes32.read_eq (by simp [registryImage, registryTail, slice_append_right, slice_append_head])
    have hdata : Bytes32.read 184 (registryImage r) = RegistryDeploymentV2.programdataAddress r.deployment :=
      Bytes32.read_eq (by simp [registryImage, registryTail, slice_append_right, slice_append_head])
    have hhash : Bytes32.read 216 (registryImage r) = RegistryDeploymentV2.executableHash r.deployment :=
      Bytes32.read_eq (by simp [registryImage, registryTail, slice_append_right, slice_append_head])
    have hread : (⟨byteAt 5 (registryImage r), Bytes32.read 8 (registryImage r), Bytes32.read 40 (registryImage r),
        Bytes32.read 72 (registryImage r), readU64 104 (registryImage r), readU64 112 (registryImage r),
        (⟨Bytes32.read 120 (registryImage r), Bytes32.read 152 (registryImage r), Bytes32.read 184 (registryImage r),
          Bytes32.read 216 (registryImage r)⟩ : RegistryDeploymentV2)⟩ : VerifierRegistryV2) = r := by
      rw [hpool, hauthority, hpolicy, hgeneration, hdelay, hprogram, hloader, hdata, hhash]
      rfl
    have htail : slice 248 8 (registryImage r) = zeros 8 := by
      simp [registryImage, registryTail, slice_append_right, slice_all]
    simp only [decodeVerifierRegistry, decodeVerifierRegistryV2, except_bind_eq_ok, require_eq_ok, except_pure_eq_ok,
      hread]
    exact ⟨(), by simp [registryImage, registryTail], (), hmagic, (), rfl, (), rfl, (), ⟨rfl, htail⟩, (), h, trivial⟩

theorem decode_entryImage {v : RegistryVersion} {e : VerifierRegistryEntry v} {u : Unit}
    (h : validateVerifierRegistryEntry e = .ok u) : decodeVerifierRegistryEntry v (entryImage e) = .ok e := by
  have hpool : Bytes32.read 8 (entryImage e) = e.pool := Bytes32.read_eq (by
    simp [entryImage, slice_append_right, slice_append_head])
  have hprogram : Bytes32.read 40 (entryImage e) = e.verifierProgram := Bytes32.read_eq (by
    simp [entryImage, slice_append_right, slice_append_head])
  have hprofile : Bytes32.read 72 (entryImage e) = e.profileBinding := Bytes32.read_eq (by
    simp [entryImage, slice_append_right, slice_append_head])
  have hrelease : Bytes32.read 104 (entryImage e) = e.releaseBinding := Bytes32.read_eq (by
    simp [entryImage, slice_append_right, slice_append_head])
  have hmagic := magic_entryImage e
  have hstatus : VerifierEntryStatusV1.ofCode (byteAt 5 (entryImage e)) = some e.status := by
    cases v <;> exact VerifierEntryStatusV1.ofCode_code e.status
  cases v with
  | v1 =>
    have hactivation : readU64 136 (entryImage e) = e.activationSlot := readU64_of_slice (by
      simp [entryImage, entryMiddle, slice_append_right, slice_append_head])
    have hretirement : readU64 144 (entryImage e) = e.retirementSlot := readU64_of_slice (by
      simp [entryImage, entryMiddle, slice_append_right, slice_append_head])
    have hpolicy : Bytes32.read 152 (entryImage e) = e.policyBinding := Bytes32.read_eq (by
      simp [entryImage, entryMiddle, slice_append_right, slice_append_head])
    have hread : (⟨e.status, byteAt 6 (entryImage e), Bytes32.read 8 (entryImage e), Bytes32.read 40 (entryImage e),
        Bytes32.read 72 (entryImage e), Bytes32.read 104 (entryImage e), readU64 136 (entryImage e),
        readU64 144 (entryImage e), Bytes32.read 152 (entryImage e), ()⟩ : VerifierRegistryEntryV1) = e := by
      rw [hpool, hprogram, hprofile, hrelease, hactivation, hretirement, hpolicy]
      rfl
    have htail : slice 184 8 (entryImage e) = zeros 8 := by
      simp [entryImage, entryMiddle, slice_append_right, slice_all]
    simp only [decodeVerifierRegistryEntry, decodeVerifierRegistryEntryV1, except_bind_eq_ok, require_eq_ok,
      okOr_eq_ok, except_pure_eq_ok]
    exact ⟨(), by simp [entryImage, entryMiddle], (), hmagic, (), rfl, (), ⟨rfl, htail⟩, e.status, hstatus, (),
      (congrArg validateVerifierRegistryEntry hread).trans h, hread⟩
  | v2 =>
    have hactivation : readU64 264 (entryImage e) = e.activationSlot := readU64_of_slice (by
      simp [entryImage, entryMiddle, slice_append_right, slice_append_head])
    have hretirement : readU64 272 (entryImage e) = e.retirementSlot := readU64_of_slice (by
      simp [entryImage, entryMiddle, slice_append_right, slice_append_head])
    have hpolicy : Bytes32.read 280 (entryImage e) = e.policyBinding := Bytes32.read_eq (by
      simp [entryImage, entryMiddle, slice_append_right, slice_append_head])
    have hloader : Bytes32.read 136 (entryImage e) = EntryDeploymentV2.loaderProgram e.deployment :=
      Bytes32.read_eq (by simp [entryImage, entryMiddle, slice_append_right, slice_append_head])
    have hdata : Bytes32.read 168 (entryImage e) = EntryDeploymentV2.programdataAddress e.deployment :=
      Bytes32.read_eq (by simp [entryImage, entryMiddle, slice_append_right, slice_append_head])
    have hhash : Bytes32.read 200 (entryImage e) = EntryDeploymentV2.executableHash e.deployment :=
      Bytes32.read_eq (by simp [entryImage, entryMiddle, slice_append_right, slice_append_head])
    have hauthority : Bytes32.read 232 (entryImage e) = EntryDeploymentV2.expectedUpgradeAuthority e.deployment :=
      Bytes32.read_eq (by simp [entryImage, entryMiddle, slice_append_right, slice_append_head])
    have hread : (⟨e.status, byteAt 6 (entryImage e), Bytes32.read 8 (entryImage e), Bytes32.read 40 (entryImage e),
        Bytes32.read 72 (entryImage e), Bytes32.read 104 (entryImage e), readU64 264 (entryImage e),
        readU64 272 (entryImage e), Bytes32.read 280 (entryImage e), (⟨Bytes32.read 136 (entryImage e),
          Bytes32.read 168 (entryImage e), Bytes32.read 200 (entryImage e), Bytes32.read 232 (entryImage e)⟩ :
          EntryDeploymentV2)⟩ : VerifierRegistryEntryV2) = e := by
      rw [hpool, hprogram, hprofile, hrelease, hactivation, hretirement, hpolicy, hloader, hdata, hhash, hauthority]
      rfl
    have htail : slice 312 8 (entryImage e) = zeros 8 := by
      simp [entryImage, entryMiddle, slice_append_right, slice_all]
    simp only [decodeVerifierRegistryEntry, decodeVerifierRegistryEntryV2, except_bind_eq_ok, require_eq_ok,
      okOr_eq_ok, except_pure_eq_ok]
    exact ⟨(), by simp [entryImage, entryMiddle], (), hmagic, (), rfl, (), rfl, (), htail, e.status, hstatus, (),
      (congrArg validateVerifierRegistryEntry hread).trans h, hread⟩

/-- A decoded registry is valid and its bytes start with the registry magic. -/
theorem decodeVerifierRegistry_ok {v : RegistryVersion} {bytes : Bytes} {r : VerifierRegistry v}
    (h : decodeVerifierRegistry v bytes = .ok r) :
    slice 0 4 bytes = RecordKind.magic (.registry v) ∧ validateVerifierRegistry r = .ok () := by
  cases v with
  | v1 =>
    simp only [decodeVerifierRegistry, decodeVerifierRegistryV1, except_bind_eq_ok, require_eq_ok,
      except_pure_eq_ok] at h
    obtain ⟨_, -, _, hmagic, _, -, _, -, _, hvalid, rfl⟩ := h
    exact ⟨hmagic, hvalid⟩
  | v2 =>
    simp only [decodeVerifierRegistry, decodeVerifierRegistryV2, except_bind_eq_ok, require_eq_ok,
      except_pure_eq_ok] at h
    obtain ⟨_, -, _, hmagic, _, -, _, -, _, -, _, hvalid, rfl⟩ := h
    exact ⟨hmagic, hvalid⟩

theorem decodeVerifierRegistryEntry_ok {v : RegistryVersion} {bytes : Bytes} {e : VerifierRegistryEntry v}
    (h : decodeVerifierRegistryEntry v bytes = .ok e) :
    slice 0 4 bytes = RecordKind.magic (.entry v) ∧ validateVerifierRegistryEntry e = .ok () := by
  cases v with
  | v1 =>
    simp only [decodeVerifierRegistryEntry, decodeVerifierRegistryEntryV1, except_bind_eq_ok, require_eq_ok,
      except_pure_eq_ok] at h
    obtain ⟨_, -, _, hmagic, _, -, _, -, _, -, _, hvalid, rfl⟩ := h
    exact ⟨hmagic, hvalid⟩
  | v2 =>
    simp only [decodeVerifierRegistryEntry, decodeVerifierRegistryEntryV2, except_bind_eq_ok, require_eq_ok,
      except_pure_eq_ok] at h
    obtain ⟨_, -, _, hmagic, _, -, _, -, _, -, _, -, _, hvalid, rfl⟩ := h
    exact ⟨hmagic, hvalid⟩

/-! ### Accepted bytes are encodings -/

theorem VerifierEntryStatusV1.code_of_ofCode {code : UInt8} {s : VerifierEntryStatusV1} (h : ofCode code = some s) :
    s.code = code := by
  unfold ofCode at h
  split_ifs at h <;> obtain rfl := Option.some.inj h <;> simp_all [VerifierEntryStatusV1.code]

theorem registryImage_of_decode {v : RegistryVersion} {bytes : Bytes} {r : VerifierRegistry v}
    (h : decodeVerifierRegistry v bytes = .ok r) : registryImage r = bytes := by
  cases v with
  | v1 =>
    simp only [decodeVerifierRegistry, decodeVerifierRegistryV1, except_bind_eq_ok, require_eq_ok,
      except_pure_eq_ok] at h
    obtain ⟨-, hlen, -, hmagic, -, hversion, -, ⟨hreserved, htail⟩, -, -, rfl⟩ := h
    have hhead : registryHead .v1 (byteAt 5 bytes) = slice 0 8 bytes := by
      rw [slice_split 0 4 4, slice_split 4 1 3, slice_split 5 1 2, hmagic, hversion, hreserved, slice_one (by omega)]
      rfl
    simp (disch := omega) only [registryImage, hhead, registryTail, List.nil_append, Bytes32.read_bytes,
      u64Bytes_readU64, ← htail, slice_join]
    exact slice_all hlen
  | v2 =>
    simp only [decodeVerifierRegistry, decodeVerifierRegistryV2, except_bind_eq_ok, require_eq_ok,
      except_pure_eq_ok] at h
    obtain ⟨-, hlen, -, hmagic, -, hversion, -, hmode, -, ⟨hreserved, htail⟩, -, -, rfl⟩ := h
    have hhead : registryHead .v2 (byteAt 5 bytes) = slice 0 8 bytes := by
      rw [slice_split 0 4 4, slice_split 4 1 3, slice_split 5 1 2, slice_split 6 1 1, hmagic, hversion, hmode,
        hreserved, slice_one (by omega)]
      rfl
    simp (disch := omega) only [registryImage, hhead, registryTail, Bytes32.read_bytes,
      u64Bytes_readU64, ← htail, slice_join]
    exact slice_all hlen

theorem entryImage_of_decode {v : RegistryVersion} {bytes : Bytes} {e : VerifierRegistryEntry v}
    (h : decodeVerifierRegistryEntry v bytes = .ok e) : entryImage e = bytes := by
  cases v with
  | v1 =>
    simp only [decodeVerifierRegistryEntry, decodeVerifierRegistryEntryV1, except_bind_eq_ok, require_eq_ok,
      okOr_eq_ok, except_pure_eq_ok] at h
    obtain ⟨-, hlen, -, hmagic, -, hversion, -, ⟨hreserved, htail⟩, status, hstatus, -, -, rfl⟩ := h
    have hhead : entryHead .v1 status (byteAt 6 bytes) = slice 0 8 bytes := by
      rw [slice_split 0 4 4, slice_split 4 1 3, slice_split 5 1 2, slice_split 6 1 1, hmagic, hversion, hreserved,
        slice_one (by omega), slice_one (by omega), ← VerifierEntryStatusV1.code_of_ofCode hstatus]
      rfl
    simp (disch := omega) only [entryImage, hhead, entryMiddle, List.nil_append, Bytes32.read_bytes,
      u64Bytes_readU64, ← htail, slice_join]
    exact slice_all hlen
  | v2 =>
    simp only [decodeVerifierRegistryEntry, decodeVerifierRegistryEntryV2, except_bind_eq_ok, require_eq_ok,
      okOr_eq_ok, except_pure_eq_ok] at h
    obtain ⟨-, hlen, -, hmagic, -, hversion, -, hmode, -, htail, status, hstatus, -, -, rfl⟩ := h
    have hhead : entryHead .v2 status (byteAt 6 bytes) = slice 0 8 bytes := by
      rw [slice_split 0 4 4, slice_split 4 1 3, slice_split 5 1 2, slice_split 6 1 1, hmagic, hversion, hmode,
        slice_one (by omega), slice_one (by omega), ← VerifierEntryStatusV1.code_of_ofCode hstatus]
      rfl
    simp (disch := omega) only [entryImage, hhead, entryMiddle, Bytes32.read_bytes,
      u64Bytes_readU64, ← htail, slice_join]
    exact slice_all hlen

end Aspis.Statement
