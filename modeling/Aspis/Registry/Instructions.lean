import Aspis.Lib.Format
import Aspis.Lib.Records
import Aspis.Registry.Processor

/-! The instruction bytes of the registry program. Both versions share one layout;
the second appends the hash of the executable it expects and marks a scheduled
profile as immutable. -/

namespace Aspis.Registry

open Lib Chain Statement

def REGISTRY_MUTATION_INSTRUCTION_MAGIC : Bytes := [65, 83, 82, 77]

def REGISTRY_MUTATION_INSTRUCTION_VERSION : RegistryVersion → UInt8
  | .v1 => 1
  | .v2 => 2

def REGISTRY_INITIALIZE_INSTRUCTION_BYTES : RegistryVersion → ℕ
  | .v1 => 80
  | .v2 => 112

def REGISTRY_SCHEDULE_INSTRUCTION_BYTES : RegistryVersion → ℕ
  | .v1 => 128
  | .v2 => 160

def REGISTRY_SIMPLE_MUTATION_INSTRUCTION_BYTES : ℕ := 16

inductive RegistryMutationOpcodeV1
  | initializeRegistry
  | scheduleProfile
  | pause
  | unpause
  | activate
  | retire
  | freeze
  deriving DecidableEq, Repr

namespace RegistryMutationOpcodeV1

def code : RegistryMutationOpcodeV1 → UInt8
  | initializeRegistry => 0
  | scheduleProfile => 1
  | pause => 2
  | unpause => 3
  | activate => 4
  | retire => 5
  | freeze => 6

def tryFrom (value : UInt8) : Except RegistryProgramErrorV1 RegistryMutationOpcodeV1 :=
  match value with
  | 0 => .ok initializeRegistry
  | 1 => .ok scheduleProfile
  | 2 => .ok pause
  | 3 => .ok unpause
  | 4 => .ok activate
  | 5 => .ok retire
  | 6 => .ok freeze
  | _ => .error .invalidInstruction

theorem tryFrom_code (o : RegistryMutationOpcodeV1) : tryFrom o.code = .ok o := by
  cases o <;> rfl

theorem code_of_tryFrom {value : UInt8} {o : RegistryMutationOpcodeV1} (h : tryFrom value = .ok o) : o.code = value := by
  unfold tryFrom at h
  split at h <;> first | (obtain rfl := Except.ok.inj h; rfl) | cases h

end RegistryMutationOpcodeV1

def instructionHeader (v : RegistryVersion) (opcode : RegistryMutationOpcodeV1) : Bytes :=
  REGISTRY_MUTATION_INSTRUCTION_MAGIC ++ (u8Bytes (REGISTRY_MUTATION_INSTRUCTION_VERSION v) ++ (u8Bytes opcode.code ++
    zeros 2))

def requireInstructionHeader (v : RegistryVersion) (bytes : Bytes) :
    Except RegistryProgramErrorV1 RegistryMutationOpcodeV1 := do
  require (8 ≤ bytes.length ∧ slice 0 4 bytes = REGISTRY_MUTATION_INSTRUCTION_MAGIC ∧
    byteAt 4 bytes = REGISTRY_MUTATION_INSTRUCTION_VERSION v ∧ slice 6 2 bytes = zeros 2) .invalidInstruction
  RegistryMutationOpcodeV1.tryFrom (byteAt 5 bytes)

/-- The executable hash that the second version appends. -/
def hashBytes : (v : RegistryVersion) → ExecutableHash v → Bytes
  | .v1, _ => []
  | .v2, hash => Bytes32.bytes hash

def readHash (off : ℕ) (bytes : Bytes) : (v : RegistryVersion) → ExecutableHash v
  | .v1 => ()
  | .v2 => Bytes32.read off bytes

/-- The seven bytes after the statement version: the second version writes the
deployment mode of an immutable loader. -/
def scheduleReserved : RegistryVersion → Bytes
  | .v1 => zeros 7
  | .v2 => u8Bytes 1 ++ zeros 6

section
variable {v : RegistryVersion}

def encodeInitializeRegistry (pool policyBinding : Bytes32) (minimumActivationDelaySlots : UInt64)
    (hash : ExecutableHash v) : Bytes :=
  instructionHeader v .initializeRegistry ++ (pool.bytes ++ (policyBinding.bytes ++
    (u64Bytes minimumActivationDelaySlots ++ hashBytes v hash)))

def encodeScheduleProfile (expectedGeneration : UInt64) (verifierProgram profileBinding releaseBinding : Bytes32)
    (statementVersion : UInt8) (activationSlot : UInt64) (hash : ExecutableHash v) : Bytes :=
  instructionHeader v .scheduleProfile ++ (u64Bytes expectedGeneration ++ (verifierProgram.bytes ++
    (profileBinding.bytes ++ (releaseBinding.bytes ++ (u8Bytes statementVersion ++ (scheduleReserved v ++
    (u64Bytes activationSlot ++ hashBytes v hash)))))))

def encodeSimpleMutation (v : RegistryVersion) (opcode : RegistryMutationOpcodeV1) (expectedGeneration : UInt64) :
    Except RegistryProgramErrorV1 Bytes := do
  require (opcode ≠ .initializeRegistry ∧ opcode ≠ .scheduleProfile) .invalidInstruction
  return instructionHeader v opcode ++ u64Bytes expectedGeneration

/-- The encoder of each instruction. -/
def encodeRegistryInstruction : RegistryInstruction v → Except RegistryProgramErrorV1 Bytes
  | .initializeRegistry pool policyBinding delay hash => .ok (encodeInitializeRegistry pool policyBinding delay hash)
  | .scheduleProfile generation program profile release version slot hash =>
    .ok (encodeScheduleProfile generation program profile release version slot hash)
  | .pause generation => encodeSimpleMutation v .pause generation
  | .unpause generation => encodeSimpleMutation v .unpause generation
  | .activate generation => encodeSimpleMutation v .activate generation
  | .retire generation => encodeSimpleMutation v .retire generation
  | .freeze generation => encodeSimpleMutation v .freeze generation

/-- The one field of a simple mutation. -/
def decodeSimpleMutation (bytes : Bytes) (mutation : UInt64 → RegistryInstruction v) :
    Except RegistryProgramErrorV1 (RegistryInstruction v) := do
  require (bytes.length = REGISTRY_SIMPLE_MUTATION_INSTRUCTION_BYTES) .invalidInstruction
  return mutation (readU64 8 bytes)

def decodeInitializeRegistry (bytes : Bytes) : Except RegistryProgramErrorV1 (RegistryInstruction v) := do
  require (bytes.length = REGISTRY_INITIALIZE_INSTRUCTION_BYTES v) .invalidInstruction
  return .initializeRegistry (Bytes32.read 8 bytes) (Bytes32.read 40 bytes) (readU64 72 bytes) (readHash 80 bytes v)

def decodeScheduleProfile (bytes : Bytes) : Except RegistryProgramErrorV1 (RegistryInstruction v) := do
  require (bytes.length = REGISTRY_SCHEDULE_INSTRUCTION_BYTES v ∧ slice 113 7 bytes = scheduleReserved v)
    .invalidInstruction
  return .scheduleProfile (readU64 8 bytes) (Bytes32.read 16 bytes) (Bytes32.read 48 bytes) (Bytes32.read 80 bytes)
    (byteAt 112 bytes) (readU64 120 bytes) (readHash 128 bytes v)

def decodeOpcode (bytes : Bytes) : RegistryMutationOpcodeV1 → Except RegistryProgramErrorV1 (RegistryInstruction v)
  | .initializeRegistry => decodeInitializeRegistry bytes
  | .scheduleProfile => decodeScheduleProfile bytes
  | .pause => decodeSimpleMutation bytes .pause
  | .unpause => decodeSimpleMutation bytes .unpause
  | .activate => decodeSimpleMutation bytes .activate
  | .retire => decodeSimpleMutation bytes .retire
  | .freeze => decodeSimpleMutation bytes .freeze

variable (v) in
def decodeRegistryInstruction (bytes : Bytes) : Except RegistryProgramErrorV1 (RegistryInstruction v) := do
  let opcode ← requireInstructionHeader v bytes
  decodeOpcode bytes opcode

/-! ### Headers -/

theorem length_instructionMagic : REGISTRY_MUTATION_INSTRUCTION_MAGIC.length = 4 := by
  simp [REGISTRY_MUTATION_INSTRUCTION_MAGIC]

@[simp] theorem length_instructionHeader (opcode : RegistryMutationOpcodeV1) :
    (instructionHeader v opcode).length = 8 := by
  simp [instructionHeader, length_instructionMagic]

@[simp] theorem length_scheduleReserved (v : RegistryVersion) : (scheduleReserved v).length = 7 := by
  cases v <;> simp [scheduleReserved]

theorem requireInstructionHeader_header (opcode : RegistryMutationOpcodeV1) (rest : Bytes) :
    requireInstructionHeader v (instructionHeader v opcode ++ rest) = .ok opcode := by
  have hmagic : slice 0 4 (instructionHeader v opcode ++ rest) = REGISTRY_MUTATION_INSTRUCTION_MAGIC := by
    simp [instructionHeader, slice_append_head, length_instructionMagic]
  have hversion : byteAt 4 (instructionHeader v opcode ++ rest) = REGISTRY_MUTATION_INSTRUCTION_VERSION v :=
    byteAt_of_slice (by simp [instructionHeader, slice_append_right, slice_append_head, length_instructionMagic])
  have hopcode : byteAt 5 (instructionHeader v opcode ++ rest) = opcode.code :=
    byteAt_of_slice (by simp [instructionHeader, slice_append_right, slice_append_head, length_instructionMagic])
  have hreserved : slice 6 2 (instructionHeader v opcode ++ rest) = zeros 2 := by
    simp [instructionHeader, slice_append_right, slice_append_head, length_instructionMagic]
  simp only [requireInstructionHeader, except_bind_eq_ok, require_eq_ok, hopcode]
  exact ⟨(), ⟨by simp, hmagic, hversion, hreserved⟩, RegistryMutationOpcodeV1.tryFrom_code opcode⟩

theorem header_of_requireInstructionHeader {bytes : Bytes} {opcode : RegistryMutationOpcodeV1}
    (h : requireInstructionHeader v bytes = .ok opcode) :
    instructionHeader v opcode = slice 0 8 bytes ∧ slice 0 4 bytes = REGISTRY_MUTATION_INSTRUCTION_MAGIC ∧
      byteAt 4 bytes = REGISTRY_MUTATION_INSTRUCTION_VERSION v := by
  simp only [requireInstructionHeader, except_bind_eq_ok, require_eq_ok] at h
  obtain ⟨-, ⟨hlen, hmagic, hversion, hreserved⟩, hopcode⟩ := h
  refine ⟨?_, hmagic, hversion⟩
  rw [instructionHeader, RegistryMutationOpcodeV1.code_of_tryFrom hopcode, ← hmagic, ← hversion, ← hreserved]
  simp (disch := omega) only [u8Bytes_byteAt, slice_join]

/-! ### Exactness -/

theorem length_hashBytes_v2 (hash : ExecutableHash .v2) : (hashBytes .v2 hash).length = 32 := Bytes32.length_eq hash

/-- The hash is what an instruction of the second version is longer by. -/
theorem length_hashBytes (hash : ExecutableHash v) :
    REGISTRY_INITIALIZE_INSTRUCTION_BYTES v = 80 + (hashBytes v hash).length ∧
      REGISTRY_SCHEDULE_INSTRUCTION_BYTES v = 128 + (hashBytes v hash).length := by
  cases v with
  | v1 => exact ⟨rfl, rfl⟩
  | v2 =>
    rw [length_hashBytes_v2]
    exact ⟨rfl, rfl⟩

theorem readHash_of_drop {off : ℕ} {bytes : Bytes} {hash : ExecutableHash v} (h : bytes.drop off = hashBytes v hash) :
    readHash off bytes v = hash := by
  cases v with
  | v1 => rfl
  | v2 =>
    apply Bytes32.read_eq
    rw [slice, h]
    exact List.take_of_length_le (length_hashBytes_v2 hash).le

theorem decode_encodeInitializeRegistry (pool policyBinding : Bytes32) (delay : UInt64) (hash : ExecutableHash v) :
    decodeInitializeRegistry (encodeInitializeRegistry pool policyBinding delay hash) =
      .ok (.initializeRegistry pool policyBinding delay hash) := by
  have hlen : (encodeInitializeRegistry pool policyBinding delay hash).length =
      REGISTRY_INITIALIZE_INSTRUCTION_BYTES v := by
    rw [(length_hashBytes hash).1]
    simp [encodeInitializeRegistry]
    omega
  have hpool : Bytes32.read 8 (encodeInitializeRegistry pool policyBinding delay hash) = pool := Bytes32.read_eq (by
    simp [encodeInitializeRegistry, slice_append_right, slice_append_head])
  have hpolicy : Bytes32.read 40 (encodeInitializeRegistry pool policyBinding delay hash) = policyBinding :=
    Bytes32.read_eq (by simp [encodeInitializeRegistry, slice_append_right, slice_append_head])
  have hdelay : readU64 72 (encodeInitializeRegistry pool policyBinding delay hash) = delay := readU64_of_slice (by
    simp [encodeInitializeRegistry, slice_append_right, slice_append_head])
  have hhash : readHash 80 (encodeInitializeRegistry pool policyBinding delay hash) v = hash := readHash_of_drop (by
    simp [encodeInitializeRegistry, List.drop_append, List.drop_of_length_le])
  simp only [decodeInitializeRegistry, except_bind_eq_ok, require_eq_ok, except_pure_eq_ok, hpool, hpolicy, hdelay, hhash]
  exact ⟨(), hlen, trivial⟩

theorem decode_encodeScheduleProfile (generation : UInt64) (program profile release : Bytes32) (version : UInt8)
    (slot : UInt64) (hash : ExecutableHash v) :
    decodeScheduleProfile (encodeScheduleProfile generation program profile release version slot hash) =
      .ok (.scheduleProfile generation program profile release version slot hash) := by
  obtain ⟨image, himage⟩ : ∃ image, image = encodeScheduleProfile generation program profile release version slot hash :=
    ⟨_, rfl⟩
  rw [← himage]
  have hlen : image.length = REGISTRY_SCHEDULE_INSTRUCTION_BYTES v := by
    rw [himage, (length_hashBytes hash).2]
    simp [encodeScheduleProfile]
    omega
  have hgeneration : readU64 8 image = generation := readU64_of_slice (by
    simp [himage, encodeScheduleProfile, slice_append_right, slice_append_head])
  have hprogram : Bytes32.read 16 image = program := Bytes32.read_eq (by
    simp [himage, encodeScheduleProfile, slice_append_right, slice_append_head])
  have hprofile : Bytes32.read 48 image = profile := Bytes32.read_eq (by
    simp [himage, encodeScheduleProfile, slice_append_right, slice_append_head])
  have hrelease : Bytes32.read 80 image = release := Bytes32.read_eq (by
    simp [himage, encodeScheduleProfile, slice_append_right, slice_append_head])
  have hversion : byteAt 112 image = version := byteAt_of_slice (by
    simp [himage, encodeScheduleProfile, slice_append_right, slice_append_head])
  have hreserved : slice 113 7 image = scheduleReserved v := by
    simp [himage, encodeScheduleProfile, slice_append_right, slice_append_head]
  have hslot : readU64 120 image = slot := readU64_of_slice (by
    simp [himage, encodeScheduleProfile, slice_append_right, slice_append_head])
  have hhash : readHash 128 image v = hash := readHash_of_drop (by
    simp [himage, encodeScheduleProfile, List.drop_append, List.drop_of_length_le])
  simp only [decodeScheduleProfile, except_bind_eq_ok, require_eq_ok, except_pure_eq_ok, hgeneration, hprogram, hprofile,
    hrelease, hversion, hslot, hhash]
  exact ⟨(), ⟨hlen, hreserved⟩, trivial⟩

theorem decode_encodeSimpleMutation {opcode : RegistryMutationOpcodeV1} {generation : UInt64} {bytes : Bytes}
    (mutation : UInt64 → RegistryInstruction v) (h : encodeSimpleMutation v opcode generation = .ok bytes) :
    requireInstructionHeader v bytes = .ok opcode ∧ decodeSimpleMutation bytes mutation = .ok (mutation generation) := by
  simp only [encodeSimpleMutation, except_bind_eq_ok, require_eq_ok, except_pure_eq_ok] at h
  obtain ⟨-, -, rfl⟩ := h
  have hgeneration : readU64 8 (instructionHeader v opcode ++ u64Bytes generation) = generation :=
    readU64_of_slice (by simp [slice_append_right, slice_all])
  refine ⟨requireInstructionHeader_header opcode _, ?_⟩
  simp only [decodeSimpleMutation, except_bind_eq_ok, require_eq_ok, except_pure_eq_ok, hgeneration]
  exact ⟨(), by simp [REGISTRY_SIMPLE_MUTATION_INSTRUCTION_BYTES], trivial⟩

theorem decode_encodeRegistryInstruction {i : RegistryInstruction v} {bytes : Bytes}
    (h : encodeRegistryInstruction i = .ok bytes) : decodeRegistryInstruction v bytes = .ok i := by
  simp only [decodeRegistryInstruction, except_bind_eq_ok]
  cases i with
  | initializeRegistry pool policyBinding delay hash =>
    obtain rfl := Except.ok.inj h
    exact ⟨.initializeRegistry, requireInstructionHeader_header _ _, decode_encodeInitializeRegistry _ _ _ _⟩
  | scheduleProfile generation program profile release version slot hash =>
    obtain rfl := Except.ok.inj h
    exact ⟨.scheduleProfile, requireInstructionHeader_header _ _, decode_encodeScheduleProfile _ _ _ _ _ _ _⟩
  | pause generation => exact ⟨.pause, decode_encodeSimpleMutation _ h⟩
  | unpause generation => exact ⟨.unpause, decode_encodeSimpleMutation _ h⟩
  | activate generation => exact ⟨.activate, decode_encodeSimpleMutation _ h⟩
  | retire generation => exact ⟨.retire, decode_encodeSimpleMutation _ h⟩
  | freeze generation => exact ⟨.freeze, decode_encodeSimpleMutation _ h⟩

theorem hashBytes_readHash {off : ℕ} {bytes : Bytes}
    (hlen : bytes.length = off + (hashBytes v (readHash off bytes v)).length) :
    hashBytes v (readHash off bytes v) = slice off (bytes.length - off) bytes := by
  cases v with
  | v1 =>
    have hnil : bytes.length - off = 0 := by
      rw [hlen]
      simp [hashBytes]
    rw [hnil]
    rfl
  | v2 =>
    rw [length_hashBytes_v2] at hlen
    rw [show bytes.length - off = 32 by omega]
    exact Bytes32.read_bytes (by omega)

theorem encode_decodeInitializeRegistry {bytes : Bytes} {i : RegistryInstruction v}
    (hheader : instructionHeader v .initializeRegistry = slice 0 8 bytes) (h : decodeInitializeRegistry bytes = .ok i) :
    encodeRegistryInstruction i = .ok bytes := by
  simp only [decodeInitializeRegistry, except_bind_eq_ok, require_eq_ok, except_pure_eq_ok] at h
  obtain ⟨-, hlen, rfl⟩ := h
  rw [(length_hashBytes (readHash 80 bytes v)).1] at hlen
  have hhash := hashBytes_readHash hlen
  rw [encodeRegistryInstruction, encodeInitializeRegistry, hheader, hhash]
  simp (disch := omega) only [u64Bytes_readU64, Bytes32.read_bytes, slice_join]
  exact congrArg _ (slice_all (by omega))

theorem encode_decodeScheduleProfile {bytes : Bytes} {i : RegistryInstruction v}
    (hheader : instructionHeader v .scheduleProfile = slice 0 8 bytes) (h : decodeScheduleProfile bytes = .ok i) :
    encodeRegistryInstruction i = .ok bytes := by
  simp only [decodeScheduleProfile, except_bind_eq_ok, require_eq_ok, except_pure_eq_ok] at h
  obtain ⟨-, ⟨hlen, hreserved⟩, rfl⟩ := h
  rw [(length_hashBytes (readHash 128 bytes v)).2] at hlen
  have hhash := hashBytes_readHash hlen
  rw [encodeRegistryInstruction, encodeScheduleProfile, hheader, hhash, ← hreserved]
  simp (disch := omega) only [u8Bytes_byteAt, u64Bytes_readU64, Bytes32.read_bytes, slice_join]
  exact congrArg _ (slice_all (by omega))

theorem encode_decodeSimpleMutation {opcode : RegistryMutationOpcodeV1} {bytes : Bytes} {i : RegistryInstruction v}
    {mutation : UInt64 → RegistryInstruction v} (hheader : instructionHeader v opcode = slice 0 8 bytes)
    (hopcode : opcode ≠ .initializeRegistry ∧ opcode ≠ .scheduleProfile) (h : decodeSimpleMutation bytes mutation = .ok i) :
    ∃ generation, i = mutation generation ∧ encodeSimpleMutation v opcode generation = .ok bytes := by
  simp only [decodeSimpleMutation, except_bind_eq_ok, require_eq_ok, except_pure_eq_ok] at h
  obtain ⟨-, hlen, rfl⟩ := h
  simp only [REGISTRY_SIMPLE_MUTATION_INSTRUCTION_BYTES] at hlen
  refine ⟨_, rfl, ?_⟩
  simp only [encodeSimpleMutation, except_bind_eq_ok, require_eq_ok, except_pure_eq_ok]
  refine ⟨(), hopcode, ?_⟩
  rw [hheader, u64Bytes_readU64 (by omega), slice_join _ rfl]
  exact slice_all hlen

theorem encode_decodeRegistryInstruction {bytes : Bytes} {i : RegistryInstruction v}
    (h : decodeRegistryInstruction v bytes = .ok i) : encodeRegistryInstruction i = .ok bytes := by
  simp only [decodeRegistryInstruction, except_bind_eq_ok] at h
  obtain ⟨opcode, hrequire, h⟩ := h
  obtain ⟨hheader, -, -⟩ := header_of_requireInstructionHeader hrequire
  cases opcode with
  | initializeRegistry => exact encode_decodeInitializeRegistry hheader h
  | scheduleProfile => exact encode_decodeScheduleProfile hheader h
  | pause =>
    obtain ⟨generation, rfl, hencode⟩ := encode_decodeSimpleMutation hheader (by decide) h
    exact hencode
  | unpause =>
    obtain ⟨generation, rfl, hencode⟩ := encode_decodeSimpleMutation hheader (by decide) h
    exact hencode
  | activate =>
    obtain ⟨generation, rfl, hencode⟩ := encode_decodeSimpleMutation hheader (by decide) h
    exact hencode
  | retire =>
    obtain ⟨generation, rfl, hencode⟩ := encode_decodeSimpleMutation hheader (by decide) h
    exact hencode
  | freeze =>
    obtain ⟨generation, rfl, hencode⟩ := encode_decodeSimpleMutation hheader (by decide) h
    exact hencode

theorem instruction_exact : (Format.ofExcept (decodeRegistryInstruction v) encodeRegistryInstruction
    fun _ => True).Exact :=
  Format.exact_ofExcept (fun _ _ _ h => decode_encodeRegistryInstruction h)
    fun _ _ h => ⟨trivial, encode_decodeRegistryInstruction h⟩

end

end Aspis.Registry
