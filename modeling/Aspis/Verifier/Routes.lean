import Aspis.Forest.Terminal
import Aspis.Verifier.DispatchExact
import Aspis.Verifier.Receipt

/-! The routes of the minimal production dispatcher. The first bytes of an
instruction choose a handler: a four-byte magic for the compact requests, one
tag byte for everything else. A route is the chosen handler together with the
arguments its own check of the bytes gives it, and it has one wire image. The
magics all begin with the tag of the refunding spend, whose wire has 169 bytes
of caller-chosen content: the request magic is tested behind a length gate, the
two pair-forest magics are not. -/

namespace Aspis.Verifier

open Lib Chain Statement Forest

/-! ### Reading the wire -/

def productionTake (n : ℕ) (input : Bytes) : Except VerifierError (FixedBytes n × Bytes) :=
  if h : n ≤ input.length then .ok (⟨input.take n, List.length_take_of_le h⟩, input.drop n)
  else .error .invalidInstructionData

/-- One value read from its `n` bytes. -/
def productionValue {α : Type} (n : ℕ) (ofBytes : FixedBytes n → α) (input : Bytes) : Except VerifierError (α × Bytes) := do
  let (head, rest) ← productionTake n input
  return (ofBytes head, rest)

def productionDigest : Bytes → Except VerifierError (Bytes32 × Bytes) := productionValue 32 fun b => ⟨b.1, b.2⟩

def productionU8 : Bytes → Except VerifierError (UInt8 × Bytes) := productionValue 1 fun b => byteAt 0 b.1

def productionU16 : Bytes → Except VerifierError (UInt16 × Bytes) := productionValue 2 fun b => UInt16.ofNat (leNat b.1)

def productionU32 : Bytes → Except VerifierError (UInt32 × Bytes) := productionValue 4 fun b => UInt32.ofNat (leNat b.1)

def productionU64 : Bytes → Except VerifierError (UInt64 × Bytes) := productionValue 8 fun b => UInt64.ofNat (leNat b.1)

def productionRequireEmpty (input : Bytes) : Except VerifierError Unit := require (input = []) .invalidInstructionData

def u16Bytes (x : UInt16) : Bytes := leBytes 2 x.toNat

@[simp] theorem length_u16Bytes (x : UInt16) : (u16Bytes x).length = 2 := length_leBytes 2 _

section
variable {input rest : Bytes}

theorem productionTake_eq_ok {n : ℕ} {head : FixedBytes n} :
    productionTake n input = .ok (head, rest) ↔ input = head.1 ++ rest := by
  constructor
  · intro h
    rw [productionTake] at h
    split at h
    · obtain ⟨rfl, rfl⟩ := Prod.mk.inj (Except.ok.inj h)
      exact (List.take_append_drop n input).symm
    · cases h
  · rintro rfl
    have hle : n ≤ (head.1 ++ rest).length := by rw [List.length_append, head.2]; omega
    rw [productionTake, dif_pos hle]
    have htake : (⟨(head.1 ++ rest).take n, List.length_take_of_le hle⟩ : FixedBytes n) = head :=
      Subtype.ext (List.take_left' head.2)
    rw [htake, List.drop_left' head.2]

/-- The read is exact when the value and its bytes determine each other. -/
theorem productionValue_eq_ok {n : ℕ} {α : Type} {ofBytes : FixedBytes n → α} {toBytes : α → Bytes}
    (hlength : ∀ x, (toBytes x).length = n) (hof : ∀ x, ofBytes ⟨toBytes x, hlength x⟩ = x)
    (hto : ∀ d, toBytes (ofBytes d) = d.1) {x : α} :
    productionValue n ofBytes input = .ok (x, rest) ↔ input = toBytes x ++ rest := by
  simp only [productionValue, except_bind_eq_ok, except_pure_eq_ok, Prod.exists, productionTake_eq_ok, Prod.mk.injEq]
  constructor
  · rintro ⟨head, rest', hinput, rfl, rfl⟩
    rw [hto head, hinput]
  · rintro rfl
    exact ⟨⟨toBytes x, hlength x⟩, rest, rfl, hof x, rfl⟩

theorem productionDigest_eq_ok {x : Bytes32} : productionDigest input = .ok (x, rest) ↔ input = x.bytes ++ rest :=
  productionValue_eq_ok Bytes32.length_eq (fun _ => rfl) fun _ => rfl

theorem productionU8_eq_ok {x : UInt8} : productionU8 input = .ok (x, rest) ↔ input = u8Bytes x ++ rest := by
  refine productionValue_eq_ok length_u8Bytes (fun _ => rfl) fun d => ?_
  have hd := d.2
  rw [u8Bytes_byteAt (by omega), slice_all hd]

theorem leBytes_of_length {w : ℕ} {d : Bytes} (h : d.length = w) : leBytes w (leNat d) = d ∧ leNat d < 256 ^ w := by
  subst h
  exact ⟨leBytes_leNat d, leNat_lt d⟩

theorem productionU16_eq_ok {x : UInt16} : productionU16 input = .ok (x, rest) ↔ input = u16Bytes x ++ rest := by
  refine productionValue_eq_ok length_u16Bytes (fun y => ?_) fun d => ?_
  · have hlt := y.toNat_lt
    simp only [u16Bytes]
    rw [leNat_leBytes_of_lt (by omega), UInt16.ofNat_toNat]
  · obtain ⟨hd, hlt⟩ := leBytes_of_length d.2
    have hmod : (UInt16.ofNat (leNat d.1)).toNat = leNat d.1 := by
      rw [UInt16.toNat_ofNat']
      exact Nat.mod_eq_of_lt hlt
    rw [u16Bytes, hmod, hd]

theorem productionU32_eq_ok {x : UInt32} : productionU32 input = .ok (x, rest) ↔ input = u32Bytes x ++ rest := by
  refine productionValue_eq_ok length_u32Bytes (fun y => ?_) fun d => ?_
  · have hlt := y.toNat_lt
    simp only [u32Bytes]
    rw [leNat_leBytes_of_lt (by omega), UInt32.ofNat_toNat]
  · obtain ⟨hd, hlt⟩ := leBytes_of_length d.2
    have hmod : (UInt32.ofNat (leNat d.1)).toNat = leNat d.1 := by
      rw [UInt32.toNat_ofNat']
      exact Nat.mod_eq_of_lt hlt
    rw [u32Bytes, hmod, hd]

theorem productionU64_eq_ok {x : UInt64} : productionU64 input = .ok (x, rest) ↔ input = u64Bytes x ++ rest := by
  refine productionValue_eq_ok length_u64Bytes (fun y => ?_) fun d => ?_
  · have hlt := y.toNat_lt
    simp only [u64Bytes]
    rw [leNat_leBytes_of_lt (by omega), UInt64.ofNat_toNat]
  · obtain ⟨hd, hlt⟩ := leBytes_of_length d.2
    have hmod : (UInt64.ofNat (leNat d.1)).toNat = leNat d.1 := by
      rw [UInt64.toNat_ofNat']
      exact Nat.mod_eq_of_lt hlt
    rw [u64Bytes, hmod, hd]

end

/-! ### The arms of the dispatcher -/

/-- The optional routes that are compiled in. -/
structure WireFeatures where
  v5ProductionTag67 : Bool
  v6ProductionTag72 : Bool
  v7ProductionTag73 : Bool
  v7PoolDispatchProfile : Bool
  v7PairForestAsq8 : Bool
  v7PairForestAsf8 : Bool
  deriving DecidableEq

/-- A build with all the routes of another one. -/
structure WireFeatures.Extends (f f₀ : WireFeatures) : Prop where
  v5 : f₀.v5ProductionTag67 = true → f.v5ProductionTag67 = true
  v6 : f₀.v6ProductionTag72 = true → f.v6ProductionTag72 = true
  v7 : f₀.v7ProductionTag73 = true → f.v7ProductionTag73 = true
  pool : f₀.v7PoolDispatchProfile = true → f.v7PoolDispatchProfile = true
  asq8 : f₀.v7PairForestAsq8 = true → f.v7PairForestAsq8 = true
  asf8 : f₀.v7PairForestAsf8 = true → f.v7PairForestAsf8 = true

inductive Route
  | pairForestAsq8 (request : PoolV1PairForestTerminalRequestV1)
  | pairForestAsf8 (statement : PoolV1PairForestTerminalStatementV1)
  | poolNativeAsvq (request : VerifierDispatchRequestV1)
  | poolAsvq (request : VerifierDispatchRequestV1)
  | initProof (totalLen : UInt32)
  | uploadChunk (offset : UInt32) (chunk : Bytes)
  | verifySpend (pool : Bytes32) (sequence : UInt64) (publicInput : FixedBytes 104) (outputAnchor : Bytes32)
      (deploymentDomain : Bytes32)
  | applySpend (inputs : AtomicPaymentPublicInputs)
  | finalizeProof
  | initializeAtomicPool (sequence : UInt64) (anchor : Bytes32) (domainTag : Bytes)
  | closeProof
  | applySpendWithProofRefund (inputs : AtomicPaymentPublicInputs)
  | v5Spend (inputs : AtomicPaymentPublicInputs)
  | v6Spend (c1FrontierNodes c2FrontierNodes : UInt16) (selector : UInt8) (inputs : AtomicPaymentPublicInputs)
  | v7Spend (frontierNodes : UInt16) (inputs : AtomicPaymentPublicInputs)
  | receiptInitialize (request : VerifierDispatchRequestV1)
  | receiptFinalize (request : VerifierDispatchRequestV1)
  | receiptClose

def ATOMIC_ERROR_VERIFIER_NOT_INTEGRATED : UInt32 := 0x41531003

def V5_FULL_CU_TRANSACTION_WIRE_BYTES : ℕ := 169

def V6_ATOMIC_WIRE_BYTES : ℕ := 174

def V7_ATOMIC_WIRE_BYTES : ℕ := 171

/-- The public inputs of a spend, which close its wire. -/
def productionPublicInputs (wire : Bytes) : Except VerifierError AtomicPaymentPublicInputs := do
  let (currentAnchor, wire) ← productionDigest wire
  let (nullifier, wire) ← productionDigest wire
  let (outputCommitment, wire) ← productionDigest wire
  let (outputAnchor, wire) ← productionDigest wire
  let (assetId, wire) ← productionU32 wire
  let (fee, wire) ← productionU32 wire
  let (deploymentDomain, wire) ← productionDigest wire
  productionRequireEmpty wire
  return ⟨currentAnchor, nullifier, outputCommitment, outputAnchor, assetId, fee, deploymentDomain⟩

def initProofArm (wire : Bytes) : Except VerifierError Route := do
  let (totalLen, wire) ← productionU32 wire
  productionRequireEmpty wire
  return .initProof totalLen

def uploadChunkArm (wire : Bytes) : Except VerifierError Route := do
  let (offset, wire) ← productionU32 wire
  let (chunkLen, wire) ← productionU32 wire
  require (wire.length = chunkLen.toNat) .invalidInstructionData
  return .uploadChunk offset wire

def verifySpendArm (wire : Bytes) : Except VerifierError Route := do
  let (pool, wire) ← productionDigest wire
  let (sequence, wire) ← productionU64 wire
  let (publicInput, wire) ← productionTake 104 wire
  let (outputAnchor, wire) ← productionDigest wire
  let (deploymentDomain, wire) ← productionDigest wire
  let (diagnosticUnmined, wire) ← productionU8 wire
  productionRequireEmpty wire
  require (diagnosticUnmined = 0) .invalidInstructionData
  return .verifySpend pool sequence publicInput outputAnchor deploymentDomain

def initializeAtomicPoolArm (wire : Bytes) : Except VerifierError Route := do
  let (sequence, wire) ← productionU64 wire
  let (anchor, wire) ← productionDigest wire
  let (domainTagLen, wire) ← productionU32 wire
  require (wire.length = domainTagLen.toNat) .invalidInstructionData
  return .initializeAtomicPool sequence anchor wire

/-- An arm without arguments. -/
def emptyArm (r : Route) (wire : Bytes) : Except VerifierError Route := do
  productionRequireEmpty wire
  return r

/-- An arm that takes the public inputs of a spend. -/
def spendArm (r : AtomicPaymentPublicInputs → Route) (wire : Bytes) : Except VerifierError Route := do
  let inputs ← productionPublicInputs wire
  return r inputs

def v5Arm (wire : Bytes) : Except VerifierError Route := do
  require (1 + wire.length = V5_FULL_CU_TRANSACTION_WIRE_BYTES) .invalidInstructionData
  let inputs ← productionPublicInputs wire
  return .v5Spend inputs

def v6Arm (wire : Bytes) : Except VerifierError Route := do
  require (1 + wire.length = V6_ATOMIC_WIRE_BYTES) .invalidInstructionData
  let (c1FrontierNodes, wire) ← productionU16 wire
  let (c2FrontierNodes, wire) ← productionU16 wire
  let (selector, wire) ← productionU8 wire
  let inputs ← productionPublicInputs wire
  return .v6Spend c1FrontierNodes c2FrontierNodes selector inputs

def v7Arm (wire : Bytes) : Except VerifierError Route := do
  require (1 + wire.length = V7_ATOMIC_WIRE_BYTES) .invalidInstructionData
  let (frontierNodes, wire) ← productionU16 wire
  let inputs ← productionPublicInputs wire
  return .v7Spend frontierNodes inputs

section
variable (hashv : List Bytes → Bytes32)

/-- An arm whose bytes are a dispatch request. -/
def requestArm (r : VerifierDispatchRequestV1 → Route) (bytes : Bytes) : Except VerifierError Route := do
  let request ← mapErr (fun _ => .invalidInstructionData) (decodeVerifierDispatchRequestV1 hashv bytes)
  return r request

def asvqArm (data : Bytes) : Except VerifierError Route :=
  if data.length = V7_POOL_NATIVE_TAG73_REQUEST_BYTES then requestArm hashv .poolNativeAsvq data
  else requestArm hashv .poolAsvq data

def asq8Arm (data : Bytes) : Except VerifierError Route := do
  require (data.length = POOL_V1_PAIR_FOREST_TERMINAL_REQUEST_BYTES) .invalidInstructionData
  let request ← mapErr (fun _ => .invalidInstructionData) (decodePoolV1PairForestTerminalRequestV1 data)
  return .pairForestAsq8 request

def asf8Arm (data : Bytes) : Except VerifierError Route := do
  require (data.length = POOL_V1_PAIR_FOREST_TERMINAL_STATEMENT_BYTES) .invalidInstructionData
  let statement ← mapErr (fun _ => .invalidInstructionData) (decodePoolV1PairForestTerminalStatementV1 data)
  return .pairForestAsf8 statement

/-- The arm of a compiled-in tag; without its feature the tag is unknown. -/
def featureArm (enabled : Bool) (arm : Except VerifierError Route) : Except VerifierError Route :=
  if enabled = true then arm else .error .invalidInstructionData

def tagArm (f : WireFeatures) (tag : UInt8) (wire : Bytes) : Except VerifierError Route :=
  if tag = 0 then initProofArm wire
  else if tag = 1 then uploadChunkArm wire
  else if tag = 59 then verifySpendArm wire
  else if tag = 60 then spendArm .applySpend wire
  else if tag = 61 then .error (.custom ATOMIC_ERROR_VERIFIER_NOT_INTEGRATED)
  else if tag = 62 then emptyArm .finalizeProof wire
  else if tag = 63 then initializeAtomicPoolArm wire
  else if tag = 64 then emptyArm .closeProof wire
  else if tag = 65 then spendArm .applySpendWithProofRefund wire
  else if tag = 67 then featureArm f.v5ProductionTag67 (v5Arm wire)
  else if tag = 72 then featureArm f.v6ProductionTag72 (v6Arm wire)
  else if tag = 73 then featureArm f.v7ProductionTag73 (v7Arm wire)
  else if tag = 74 then featureArm f.v7PoolDispatchProfile (requestArm hashv .receiptInitialize wire)
  else if tag = 75 then featureArm f.v7PoolDispatchProfile (requestArm hashv .receiptFinalize wire)
  else if tag = 76 then featureArm f.v7PoolDispatchProfile (emptyArm .receiptClose wire)
  else .error .invalidInstructionData

def numericRoute (f : WireFeatures) : Bytes → Except VerifierError Route
  | [] => .error .invalidInstructionData
  | tag :: wire => tagArm hashv f tag wire

/-- Which handler an instruction reaches, and with what. -/
def productionRoute (f : WireFeatures) (data : Bytes) : Except VerifierError Route :=
  if f.v7PairForestAsq8 = true ∧ POOL_V1_PAIR_FOREST_TERMINAL_REQUEST_MAGIC <+: data then asq8Arm data
  else if f.v7PairForestAsf8 = true ∧ POOL_V1_PAIR_FOREST_TERMINAL_STATEMENT_MAGIC <+: data then asf8Arm data
  else if f.v7PoolDispatchProfile = true ∧ POOL_V1_VERIFIER_DISPATCH_BINDING_PREFIX_BYTES < data.length ∧
      POOL_V1_VERIFIER_DISPATCH_REQUEST_MAGIC <+: data then asvqArm hashv data
  else numericRoute hashv f data

end

/-! ### What each route's wire is -/

def publicInputsImage (i : AtomicPaymentPublicInputs) : Bytes :=
  i.currentAnchor.bytes ++ (i.nullifier.bytes ++ (i.outputCommitment.bytes ++ (i.outputAnchor.bytes ++
    (u32Bytes i.assetId ++ (u32Bytes i.fee ++ i.deploymentDomain.bytes)))))

@[simp] theorem length_publicInputsImage (i : AtomicPaymentPublicInputs) : (publicInputsImage i).length = 168 := by
  simp [publicInputsImage, Bytes32.length_eq]

namespace Route

/-- The route is compiled in. -/
def Compiled (f : WireFeatures) : Route → Prop
  | pairForestAsq8 _ => f.v7PairForestAsq8 = true
  | pairForestAsf8 _ => f.v7PairForestAsf8 = true
  | poolNativeAsvq _ | poolAsvq _ => f.v7PoolDispatchProfile = true
  | v5Spend _ => f.v5ProductionTag67 = true
  | v6Spend _ _ _ _ => f.v6ProductionTag72 = true
  | v7Spend _ _ => f.v7ProductionTag73 = true
  | receiptInitialize _ | receiptFinalize _ | receiptClose => f.v7PoolDispatchProfile = true
  | _ => True

/-- The bytes of an instruction of the route. -/
def Wire (hashv : List Bytes → Bytes32) (data : Bytes) : Route → Prop
  | pairForestAsq8 request => encodePoolV1PairForestTerminalRequestV1 request = .ok data
  | pairForestAsf8 statement => encodePoolV1PairForestTerminalStatementV1 statement = .ok data
  | poolNativeAsvq request => encodeVerifierDispatchRequestV1 hashv request = .ok data ∧
      data.length = V7_POOL_NATIVE_TAG73_REQUEST_BYTES
  | poolAsvq request => encodeVerifierDispatchRequestV1 hashv request = .ok data ∧
      data.length ≠ V7_POOL_NATIVE_TAG73_REQUEST_BYTES
  | initProof totalLen => data = 0 :: u32Bytes totalLen
  | uploadChunk offset chunk => chunk.length < 2 ^ 32 ∧
      data = 1 :: (u32Bytes offset ++ (leBytes 4 chunk.length ++ chunk))
  | verifySpend pool sequence publicInput outputAnchor deploymentDomain =>
      data = 59 :: (pool.bytes ++ (u64Bytes sequence ++ (publicInput.1 ++ (outputAnchor.bytes ++
        (deploymentDomain.bytes ++ [0])))))
  | applySpend inputs => data = 60 :: publicInputsImage inputs
  | finalizeProof => data = [62]
  | initializeAtomicPool sequence anchor domainTag => domainTag.length < 2 ^ 32 ∧
      data = 63 :: (u64Bytes sequence ++ (anchor.bytes ++ (leBytes 4 domainTag.length ++ domainTag)))
  | closeProof => data = [64]
  | applySpendWithProofRefund inputs => data = 65 :: publicInputsImage inputs
  | v5Spend inputs => data = 67 :: publicInputsImage inputs
  | v6Spend c1FrontierNodes c2FrontierNodes selector inputs =>
      data = 72 :: (u16Bytes c1FrontierNodes ++ (u16Bytes c2FrontierNodes ++ (u8Bytes selector ++
        publicInputsImage inputs)))
  | v7Spend frontierNodes inputs => data = 73 :: (u16Bytes frontierNodes ++ publicInputsImage inputs)
  | receiptInitialize request => ∃ wire, encodeVerifierDispatchRequestV1 hashv request = .ok wire ∧ data = 74 :: wire
  | receiptFinalize request => ∃ wire, encodeVerifierDispatchRequestV1 hashv request = .ok wire ∧ data = 75 :: wire
  | receiptClose => data = [76]

/-- The route is chosen by a tag byte. -/
def Numeric : Route → Prop
  | pairForestAsq8 _ | pairForestAsf8 _ | poolNativeAsvq _ | poolAsvq _ => False
  | _ => True

theorem Compiled.mono {f f₀ : WireFeatures} (h : f.Extends f₀) {r : Route} (hr : r.Compiled f₀) : r.Compiled f := by
  cases r with
  | pairForestAsq8 _ => exact h.asq8 hr
  | pairForestAsf8 _ => exact h.asf8 hr
  | poolNativeAsvq _ => exact h.pool hr
  | poolAsvq _ => exact h.pool hr
  | v5Spend _ => exact h.v5 hr
  | v6Spend _ _ _ _ => exact h.v6 hr
  | v7Spend _ _ => exact h.v7 hr
  | receiptInitialize _ => exact h.pool hr
  | receiptFinalize _ => exact h.pool hr
  | receiptClose => exact h.pool hr
  | _ => exact True.intro

end Route

/-! ### One lemma for each arm -/

section
variable {hashv : List Bytes → Bytes32} {f : WireFeatures} {data wire : Bytes} {r : Route}

theorem productionRequireEmpty_eq_ok {u : Unit} : productionRequireEmpty wire = .ok u ↔ wire = [] := require_eq_ok

theorem productionPublicInputs_eq_ok {inputs : AtomicPaymentPublicInputs} :
    productionPublicInputs wire = .ok inputs ↔ wire = publicInputsImage inputs := by
  simp only [productionPublicInputs, except_bind_eq_ok, except_pure_eq_ok, Prod.exists, productionDigest_eq_ok,
    productionU32_eq_ok, productionRequireEmpty_eq_ok]
  constructor
  · rintro ⟨_, _, rfl, _, _, rfl, _, _, rfl, _, _, rfl, _, _, rfl, _, _, rfl, _, _, rfl, _, rfl, rfl⟩
    simp [publicInputsImage]
  · rintro rfl
    exact ⟨_, _, rfl, _, _, rfl, _, _, rfl, _, _, rfl, _, _, rfl, _, _, rfl, _, [], (List.append_nil _).symm, (), rfl, rfl⟩

/-- A length word reads as the length of what follows exactly when the length fits. -/
theorem u32Bytes_length_eq {x : UInt32} {tail : Bytes} (h : tail.length = x.toNat) :
    tail.length < 2 ^ 32 ∧ u32Bytes x = leBytes 4 tail.length := by
  have hlt := x.toNat_lt
  exact ⟨by omega, by rw [u32Bytes, h]⟩

theorem leBytes_length_eq {tail : Bytes} (h : tail.length < 2 ^ 32) :
    leBytes 4 tail.length = u32Bytes (UInt32.ofNat tail.length) ∧ tail.length = (UInt32.ofNat tail.length).toNat := by
  have hnat : (UInt32.ofNat tail.length).toNat = tail.length := by
    rw [UInt32.toNat_ofNat']
    exact Nat.mod_eq_of_lt h
  exact ⟨by rw [u32Bytes, hnat], hnat.symm⟩

theorem initProofArm_eq_ok : initProofArm wire = .ok r ↔ ∃ t, wire = u32Bytes t ∧ Route.initProof t = r := by
  simp only [initProofArm, except_bind_eq_ok, except_pure_eq_ok, Prod.exists, productionU32_eq_ok,
    productionRequireEmpty_eq_ok]
  constructor
  · rintro ⟨t, _, rfl, _, rfl, rfl⟩
    exact ⟨t, List.append_nil _, rfl⟩
  · rintro ⟨t, rfl, rfl⟩
    exact ⟨t, [], (List.append_nil _).symm, (), rfl, rfl⟩

theorem uploadChunkArm_eq_ok : uploadChunkArm wire = .ok r ↔ ∃ (offset : UInt32) (chunk : Bytes),
    chunk.length < 2 ^ 32 ∧ wire = u32Bytes offset ++ (leBytes 4 chunk.length ++ chunk) ∧
      Route.uploadChunk offset chunk = r := by
  simp only [uploadChunkArm, except_bind_eq_ok, except_pure_eq_ok, Prod.exists, productionU32_eq_ok, require_eq_ok]
  constructor
  · rintro ⟨offset, _, rfl, n, chunk, rfl, _, hlen, rfl⟩
    obtain ⟨hlt, hword⟩ := u32Bytes_length_eq hlen
    exact ⟨offset, chunk, hlt, by rw [hword], rfl⟩
  · rintro ⟨offset, chunk, hlt, rfl, rfl⟩
    obtain ⟨hword, hlen⟩ := leBytes_length_eq hlt
    exact ⟨offset, _, rfl, _, chunk, by rw [hword], (), hlen, rfl⟩

theorem initializeAtomicPoolArm_eq_ok : initializeAtomicPoolArm wire = .ok r ↔
    ∃ (sequence : UInt64) (anchor : Bytes32) (domainTag : Bytes), domainTag.length < 2 ^ 32 ∧
      wire = u64Bytes sequence ++ (anchor.bytes ++ (leBytes 4 domainTag.length ++ domainTag)) ∧
      Route.initializeAtomicPool sequence anchor domainTag = r := by
  simp only [initializeAtomicPoolArm, except_bind_eq_ok, except_pure_eq_ok, Prod.exists, productionU32_eq_ok,
    productionU64_eq_ok, productionDigest_eq_ok, require_eq_ok]
  constructor
  · rintro ⟨sequence, _, rfl, anchor, _, rfl, n, domainTag, rfl, _, hlen, rfl⟩
    obtain ⟨hlt, hword⟩ := u32Bytes_length_eq hlen
    exact ⟨sequence, anchor, domainTag, hlt, by rw [hword], rfl⟩
  · rintro ⟨sequence, anchor, domainTag, hlt, rfl, rfl⟩
    obtain ⟨hword, hlen⟩ := leBytes_length_eq hlt
    exact ⟨sequence, _, rfl, anchor, _, rfl, _, domainTag, by rw [hword], (), hlen, rfl⟩

theorem verifySpendArm_eq_ok : verifySpendArm wire = .ok r ↔
    ∃ (pool : Bytes32) (sequence : UInt64) (publicInput : FixedBytes 104) (outputAnchor deploymentDomain : Bytes32),
      wire = pool.bytes ++ (u64Bytes sequence ++ (publicInput.1 ++ (outputAnchor.bytes ++
        (deploymentDomain.bytes ++ [0])))) ∧
      Route.verifySpend pool sequence publicInput outputAnchor deploymentDomain = r := by
  simp only [verifySpendArm, except_bind_eq_ok, except_pure_eq_ok, Prod.exists, productionU64_eq_ok,
    productionDigest_eq_ok, productionTake_eq_ok, productionU8_eq_ok, productionRequireEmpty_eq_ok, require_eq_ok]
  constructor
  · rintro ⟨pool, _, rfl, sequence, _, rfl, publicInput, _, rfl, outputAnchor, _, rfl, domain, _, rfl, _, _, rfl, _, rfl, _,
      rfl, rfl⟩
    exact ⟨pool, sequence, publicInput, outputAnchor, domain, rfl, rfl⟩
  · rintro ⟨pool, sequence, publicInput, outputAnchor, domain, rfl, rfl⟩
    exact ⟨pool, _, rfl, sequence, _, rfl, publicInput, _, rfl, outputAnchor, _, rfl, domain, _, rfl, 0, [], rfl, (), rfl,
      (), rfl, rfl⟩

theorem emptyArm_eq_ok {route : Route} : emptyArm route wire = .ok r ↔ wire = [] ∧ route = r := by
  simp only [emptyArm, except_bind_eq_ok, except_pure_eq_ok, productionRequireEmpty_eq_ok, exists_const]

theorem spendArm_eq_ok {route : AtomicPaymentPublicInputs → Route} :
    spendArm route wire = .ok r ↔ ∃ inputs, wire = publicInputsImage inputs ∧ route inputs = r := by
  simp only [spendArm, except_bind_eq_ok, except_pure_eq_ok, productionPublicInputs_eq_ok]

theorem v5Arm_eq_ok : v5Arm wire = .ok r ↔ ∃ inputs, wire = publicInputsImage inputs ∧ Route.v5Spend inputs = r := by
  simp only [v5Arm, except_bind_eq_ok, except_pure_eq_ok, productionPublicInputs_eq_ok, require_eq_ok, exists_const]
  constructor
  · rintro ⟨-, h⟩
    exact h
  · rintro ⟨inputs, rfl, rfl⟩
    exact ⟨by simp [V5_FULL_CU_TRANSACTION_WIRE_BYTES], inputs, rfl, rfl⟩

theorem v6Arm_eq_ok : v6Arm wire = .ok r ↔ ∃ (c1 c2 : UInt16) (selector : UInt8) (inputs : AtomicPaymentPublicInputs),
    wire = u16Bytes c1 ++ (u16Bytes c2 ++ (u8Bytes selector ++ publicInputsImage inputs)) ∧
      Route.v6Spend c1 c2 selector inputs = r := by
  simp only [v6Arm, except_bind_eq_ok, except_pure_eq_ok, productionPublicInputs_eq_ok, productionU16_eq_ok,
    productionU8_eq_ok, require_eq_ok, exists_const, Prod.exists]
  constructor
  · rintro ⟨-, c1, _, rfl, c2, _, rfl, selector, _, rfl, inputs, rfl, rfl⟩
    exact ⟨c1, c2, selector, inputs, rfl, rfl⟩
  · rintro ⟨c1, c2, selector, inputs, rfl, rfl⟩
    exact ⟨by simp [V6_ATOMIC_WIRE_BYTES], c1, _, rfl, c2, _, rfl, selector, _, rfl, inputs, rfl, rfl⟩

theorem v7Arm_eq_ok : v7Arm wire = .ok r ↔ ∃ (frontierNodes : UInt16) (inputs : AtomicPaymentPublicInputs),
    wire = u16Bytes frontierNodes ++ publicInputsImage inputs ∧ Route.v7Spend frontierNodes inputs = r := by
  simp only [v7Arm, except_bind_eq_ok, except_pure_eq_ok, productionPublicInputs_eq_ok, productionU16_eq_ok,
    require_eq_ok, exists_const, Prod.exists]
  constructor
  · rintro ⟨-, frontierNodes, _, rfl, inputs, rfl, rfl⟩
    exact ⟨frontierNodes, inputs, rfl, rfl⟩
  · rintro ⟨frontierNodes, inputs, rfl, rfl⟩
    exact ⟨by simp [V7_ATOMIC_WIRE_BYTES], frontierNodes, _, rfl, inputs, rfl, rfl⟩

theorem requestArm_eq_ok {route : VerifierDispatchRequestV1 → Route} : requestArm hashv route wire = .ok r ↔
    ∃ request, encodeVerifierDispatchRequestV1 hashv request = .ok wire ∧ route request = r := by
  simp only [requestArm, except_bind_eq_ok, except_pure_eq_ok, mapErr_eq_ok]
  constructor
  · rintro ⟨request, hdecode, rfl⟩
    exact ⟨request, encode_decodeVerifierDispatchRequestV1 hdecode, rfl⟩
  · rintro ⟨request, hencode, rfl⟩
    exact ⟨request, decode_encodeVerifierDispatchRequestV1 hencode, rfl⟩

theorem asvqArm_eq_ok : asvqArm hashv data = .ok r ↔ ∃ request,
    encodeVerifierDispatchRequestV1 hashv request = .ok data ∧
      ((data.length = V7_POOL_NATIVE_TAG73_REQUEST_BYTES ∧ Route.poolNativeAsvq request = r) ∨
        (data.length ≠ V7_POOL_NATIVE_TAG73_REQUEST_BYTES ∧ Route.poolAsvq request = r)) := by
  rw [asvqArm]
  by_cases hlen : data.length = V7_POOL_NATIVE_TAG73_REQUEST_BYTES
  · rw [if_pos hlen, requestArm_eq_ok]
    simp only [hlen, true_and, ne_eq, not_true, false_and, or_false]
  · rw [if_neg hlen, requestArm_eq_ok]
    simp only [hlen, false_and, ne_eq, not_false_eq_true, true_and, false_or]

theorem asq8Arm_eq_ok : asq8Arm data = .ok r ↔ ∃ request,
    encodePoolV1PairForestTerminalRequestV1 request = .ok data ∧ Route.pairForestAsq8 request = r := by
  simp only [asq8Arm, except_bind_eq_ok, except_pure_eq_ok, mapErr_eq_ok, require_eq_ok, exists_const]
  constructor
  · rintro ⟨-, request, hdecode, rfl⟩
    exact ⟨request, encode_decodeTerminalRequest hdecode, rfl⟩
  · rintro ⟨request, hencode, rfl⟩
    have hdecode := decode_encodeTerminalRequest hencode
    refine ⟨?_, request, hdecode, rfl⟩
    simp only [decodePoolV1PairForestTerminalRequestV1, except_bind_eq_ok, require_eq_ok] at hdecode
    obtain ⟨-, hlen, -⟩ := hdecode
    exact hlen

theorem asf8Arm_eq_ok : asf8Arm data = .ok r ↔ ∃ statement,
    encodePoolV1PairForestTerminalStatementV1 statement = .ok data ∧ Route.pairForestAsf8 statement = r := by
  simp only [asf8Arm, except_bind_eq_ok, except_pure_eq_ok, mapErr_eq_ok, require_eq_ok, exists_const]
  constructor
  · rintro ⟨-, statement, hdecode, rfl⟩
    exact ⟨statement, encode_decodeTerminalStatement hdecode, rfl⟩
  · rintro ⟨statement, hencode, rfl⟩
    have hdecode := decode_encodeTerminalStatement hencode
    refine ⟨?_, statement, hdecode, rfl⟩
    simp only [decodePoolV1PairForestTerminalStatementV1, except_bind_eq_ok, require_eq_ok] at hdecode
    obtain ⟨-, hlen, -⟩ := hdecode
    exact hlen

theorem featureArm_eq_ok {enabled : Bool} {arm : Except VerifierError Route} :
    featureArm enabled arm = .ok r ↔ enabled = true ∧ arm = .ok r := by
  rw [featureArm]
  split <;> simp_all

theorem tagArm_sound {tag : UInt8} (h : tagArm hashv f tag wire = .ok r) : r.Compiled f ∧ r.Wire hashv (tag :: wire) := by
  unfold tagArm at h
  by_cases h0 : tag = 0
  · rw [if_pos h0] at h
    obtain ⟨t, rfl, rfl⟩ := initProofArm_eq_ok.mp h
    exact ⟨True.intro, by rw [h0]; rfl⟩
  rw [if_neg h0] at h
  by_cases h1 : tag = 1
  · rw [if_pos h1] at h
    obtain ⟨offset, chunk, hlt, rfl, rfl⟩ := uploadChunkArm_eq_ok.mp h
    exact ⟨True.intro, hlt, by rw [h1]⟩
  rw [if_neg h1] at h
  by_cases h59 : tag = 59
  · rw [if_pos h59] at h
    obtain ⟨pool, sequence, publicInput, outputAnchor, domain, rfl, rfl⟩ := verifySpendArm_eq_ok.mp h
    exact ⟨True.intro, by rw [h59]; rfl⟩
  rw [if_neg h59] at h
  by_cases h60 : tag = 60
  · rw [if_pos h60] at h
    obtain ⟨inputs, rfl, rfl⟩ := spendArm_eq_ok.mp h
    exact ⟨True.intro, by rw [h60]; rfl⟩
  rw [if_neg h60] at h
  by_cases h61 : tag = 61
  · rw [if_pos h61] at h
    cases h
  rw [if_neg h61] at h
  by_cases h62 : tag = 62
  · rw [if_pos h62] at h
    obtain ⟨rfl, rfl⟩ := emptyArm_eq_ok.mp h
    exact ⟨True.intro, by rw [h62]; rfl⟩
  rw [if_neg h62] at h
  by_cases h63 : tag = 63
  · rw [if_pos h63] at h
    obtain ⟨sequence, anchor, domainTag, hlt, rfl, rfl⟩ := initializeAtomicPoolArm_eq_ok.mp h
    exact ⟨True.intro, hlt, by rw [h63]⟩
  rw [if_neg h63] at h
  by_cases h64 : tag = 64
  · rw [if_pos h64] at h
    obtain ⟨rfl, rfl⟩ := emptyArm_eq_ok.mp h
    exact ⟨True.intro, by rw [h64]; rfl⟩
  rw [if_neg h64] at h
  by_cases h65 : tag = 65
  · rw [if_pos h65] at h
    obtain ⟨inputs, rfl, rfl⟩ := spendArm_eq_ok.mp h
    exact ⟨True.intro, by rw [h65]; rfl⟩
  rw [if_neg h65] at h
  by_cases h67 : tag = 67
  · rw [if_pos h67] at h
    obtain ⟨hf, h⟩ := featureArm_eq_ok.mp h
    obtain ⟨inputs, rfl, rfl⟩ := v5Arm_eq_ok.mp h
    exact ⟨hf, by rw [h67]; rfl⟩
  rw [if_neg h67] at h
  by_cases h72 : tag = 72
  · rw [if_pos h72] at h
    obtain ⟨hf, h⟩ := featureArm_eq_ok.mp h
    obtain ⟨c1, c2, selector, inputs, rfl, rfl⟩ := v6Arm_eq_ok.mp h
    exact ⟨hf, by rw [h72]; rfl⟩
  rw [if_neg h72] at h
  by_cases h73 : tag = 73
  · rw [if_pos h73] at h
    obtain ⟨hf, h⟩ := featureArm_eq_ok.mp h
    obtain ⟨frontierNodes, inputs, rfl, rfl⟩ := v7Arm_eq_ok.mp h
    exact ⟨hf, by rw [h73]; rfl⟩
  rw [if_neg h73] at h
  by_cases h74 : tag = 74
  · rw [if_pos h74] at h
    obtain ⟨hf, h⟩ := featureArm_eq_ok.mp h
    obtain ⟨request, hencode, rfl⟩ := requestArm_eq_ok.mp h
    exact ⟨hf, wire, hencode, by rw [h74]⟩
  rw [if_neg h74] at h
  by_cases h75 : tag = 75
  · rw [if_pos h75] at h
    obtain ⟨hf, h⟩ := featureArm_eq_ok.mp h
    obtain ⟨request, hencode, rfl⟩ := requestArm_eq_ok.mp h
    exact ⟨hf, wire, hencode, by rw [h75]⟩
  rw [if_neg h75] at h
  by_cases h76 : tag = 76
  · rw [if_pos h76] at h
    obtain ⟨hf, h⟩ := featureArm_eq_ok.mp h
    obtain ⟨rfl, rfl⟩ := emptyArm_eq_ok.mp h
    exact ⟨hf, by rw [h76]; rfl⟩
  rw [if_neg h76] at h
  cases h

theorem numericRoute_complete (hnumeric : r.Numeric) (hcompiled : r.Compiled f) (hwire : r.Wire hashv data) :
    numericRoute hashv f data = .ok r := by
  cases r with
  | pairForestAsq8 _ => exact hnumeric.elim
  | pairForestAsf8 _ => exact hnumeric.elim
  | poolNativeAsvq _ => exact hnumeric.elim
  | poolAsvq _ => exact hnumeric.elim
  | initProof t =>
    rw [hwire]
    exact initProofArm_eq_ok.mpr ⟨t, rfl, rfl⟩
  | uploadChunk offset chunk =>
    rw [hwire.2]
    exact uploadChunkArm_eq_ok.mpr ⟨offset, chunk, hwire.1, rfl, rfl⟩
  | verifySpend pool sequence publicInput outputAnchor domain =>
    rw [hwire]
    exact verifySpendArm_eq_ok.mpr ⟨pool, sequence, publicInput, outputAnchor, domain, rfl, rfl⟩
  | applySpend inputs =>
    rw [hwire]
    exact spendArm_eq_ok.mpr ⟨inputs, rfl, rfl⟩
  | finalizeProof =>
    rw [hwire]
    exact emptyArm_eq_ok.mpr ⟨rfl, rfl⟩
  | initializeAtomicPool sequence anchor domainTag =>
    rw [hwire.2]
    exact initializeAtomicPoolArm_eq_ok.mpr ⟨sequence, anchor, domainTag, hwire.1, rfl, rfl⟩
  | closeProof =>
    rw [hwire]
    exact emptyArm_eq_ok.mpr ⟨rfl, rfl⟩
  | applySpendWithProofRefund inputs =>
    rw [hwire]
    exact spendArm_eq_ok.mpr ⟨inputs, rfl, rfl⟩
  | v5Spend inputs =>
    rw [hwire]
    exact featureArm_eq_ok.mpr ⟨hcompiled, v5Arm_eq_ok.mpr ⟨inputs, rfl, rfl⟩⟩
  | v6Spend c1 c2 selector inputs =>
    rw [hwire]
    exact featureArm_eq_ok.mpr ⟨hcompiled, v6Arm_eq_ok.mpr ⟨c1, c2, selector, inputs, rfl, rfl⟩⟩
  | v7Spend frontierNodes inputs =>
    rw [hwire]
    exact featureArm_eq_ok.mpr ⟨hcompiled, v7Arm_eq_ok.mpr ⟨frontierNodes, inputs, rfl, rfl⟩⟩
  | receiptInitialize request =>
    obtain ⟨wire, hencode, rfl⟩ := hwire
    exact featureArm_eq_ok.mpr ⟨hcompiled, requestArm_eq_ok.mpr ⟨request, hencode, rfl⟩⟩
  | receiptFinalize request =>
    obtain ⟨wire, hencode, rfl⟩ := hwire
    exact featureArm_eq_ok.mpr ⟨hcompiled, requestArm_eq_ok.mpr ⟨request, hencode, rfl⟩⟩
  | receiptClose =>
    rw [hwire]
    exact featureArm_eq_ok.mpr ⟨hcompiled, emptyArm_eq_ok.mpr ⟨rfl, rfl⟩⟩

theorem numericRoute_sound (h : numericRoute hashv f data = .ok r) : r.Compiled f ∧ r.Wire hashv data := by
  cases data with
  | nil => cases h
  | cons tag wire => exact tagArm_sound h

/-! ### The prefixes -/

theorem magic_isPrefix_of_slice {magic : Bytes} (hlength : magic.length = 4) (h : slice 0 4 data = magic) : magic <+: data := by
  rw [List.prefix_iff_eq_take, hlength, ← h]
  rfl

/-- An instruction begins with one magic only. -/
theorem magic_unique {magic magic' : Bytes} (h : magic <+: data) (h' : magic' <+: data)
    (hlength : magic.length = magic'.length) : magic = magic' :=
  (List.prefix_of_prefix_length_le h h' hlength.le).eq_of_length hlength

theorem asq8_wire {request : PoolV1PairForestTerminalRequestV1}
    (h : encodePoolV1PairForestTerminalRequestV1 request = .ok data) :
    POOL_V1_PAIR_FOREST_TERMINAL_REQUEST_MAGIC <+: data := by
  have hdecode := decode_encodeTerminalRequest h
  simp only [decodePoolV1PairForestTerminalRequestV1, except_bind_eq_ok, require_eq_ok] at hdecode
  obtain ⟨-, -, -, hmagic, -⟩ := hdecode
  exact magic_isPrefix_of_slice length_terminalRequestMagic hmagic

theorem asf8_wire {statement : PoolV1PairForestTerminalStatementV1}
    (h : encodePoolV1PairForestTerminalStatementV1 statement = .ok data) :
    POOL_V1_PAIR_FOREST_TERMINAL_STATEMENT_MAGIC <+: data := by
  have hdecode := decode_encodeTerminalStatement h
  simp only [decodePoolV1PairForestTerminalStatementV1, except_bind_eq_ok, require_eq_ok] at hdecode
  obtain ⟨-, -, -, hmagic, -⟩ := hdecode
  exact magic_isPrefix_of_slice length_terminalStatementMagic hmagic

/-- A request carries at least one byte of statement behind its prefix. -/
theorem asvq_wire {request : VerifierDispatchRequestV1} (h : encodeVerifierDispatchRequestV1 hashv request = .ok data) :
    POOL_V1_VERIFIER_DISPATCH_REQUEST_MAGIC <+: data ∧
      POOL_V1_VERIFIER_DISPATCH_BINDING_PREFIX_BYTES < data.length := by
  have hdecode := decode_encodeVerifierDispatchRequestV1 h
  simp only [decodeVerifierDispatchRequestV1, requirePayload, verifierStatementPayloadDigestV1, except_bind_eq_ok,
    require_eq_ok] at hdecode
  obtain ⟨-, -, -, hmagic, -, -, binding, -, -, ⟨-, -, _, ⟨-, -, -, ⟨hnonempty, -⟩, -⟩, -⟩, -⟩ := hdecode
  refine ⟨magic_isPrefix_of_slice length_requestMagic hmagic, ?_⟩
  have hpos := List.length_pos_of_ne_nil hnonempty
  rw [List.length_drop] at hpos
  omega

/-- Among the tagged wires only the refunding spend's begins with the first byte of the magics. -/
theorem numericWire_length {magic : Bytes} (hnumeric : r.Numeric) (hwire : r.Wire hashv data)
    (hmagic : (65 :: magic) <+: data) : data.length = 169 := by
  obtain ⟨tail, rfl⟩ := hmagic
  cases r with
  | pairForestAsq8 _ => exact hnumeric.elim
  | pairForestAsf8 _ => exact hnumeric.elim
  | poolNativeAsvq _ => exact hnumeric.elim
  | poolAsvq _ => exact hnumeric.elim
  | applySpendWithProofRefund inputs =>
    rw [hwire, List.length_cons, length_publicInputsImage]
  | uploadChunk _ _ => exact absurd (List.cons.inj hwire.2).1 (by decide)
  | initializeAtomicPool _ _ _ => exact absurd (List.cons.inj hwire.2).1 (by decide)
  | receiptInitialize _ =>
    obtain ⟨_, -, hdata⟩ := hwire
    exact absurd (List.cons.inj hdata).1 (by decide)
  | receiptFinalize _ =>
    obtain ⟨_, -, hdata⟩ := hwire
    exact absurd (List.cons.inj hdata).1 (by decide)
  | _ => exact absurd (List.cons.inj hwire).1 (by decide)

/-! ### The whole dispatcher -/

/-- A 169-byte instruction that begins with the magic of a compiled-in pair-forest route. -/
def Captured (f : WireFeatures) (data : Bytes) : Prop :=
  data.length = 169 ∧ ((f.v7PairForestAsq8 = true ∧ POOL_V1_PAIR_FOREST_TERMINAL_REQUEST_MAGIC <+: data) ∨
    (f.v7PairForestAsf8 = true ∧ POOL_V1_PAIR_FOREST_TERMINAL_STATEMENT_MAGIC <+: data))

/-- An accepted instruction has the wire of its route, captured or not. -/
theorem productionRoute_sound (h : productionRoute hashv f data = .ok r) : r.Compiled f ∧ r.Wire hashv data := by
  unfold productionRoute at h
  split_ifs at h with hasq8 hasf8 hasvq
  · obtain ⟨request, hencode, rfl⟩ := asq8Arm_eq_ok.mp h
    exact ⟨hasq8.1, hencode⟩
  · obtain ⟨statement, hencode, rfl⟩ := asf8Arm_eq_ok.mp h
    exact ⟨hasf8.1, hencode⟩
  · obtain ⟨request, hencode, ⟨hlen, rfl⟩ | ⟨hlen, rfl⟩⟩ := asvqArm_eq_ok.mp h
    · exact ⟨hasvq.1, hencode, hlen⟩
    · exact ⟨hasvq.1, hencode, hlen⟩
  · exact numericRoute_sound h

theorem productionRoute_asvq {request : VerifierDispatchRequestV1} (hpool : f.v7PoolDispatchProfile = true)
    (h : encodeVerifierDispatchRequestV1 hashv request = .ok data) :
    productionRoute hashv f data = asvqArm hashv data := by
  obtain ⟨hmagic, hlen⟩ := asvq_wire h
  have hasq8 : ¬ (f.v7PairForestAsq8 = true ∧ POOL_V1_PAIR_FOREST_TERMINAL_REQUEST_MAGIC <+: data) :=
    fun hq => absurd (magic_unique hq.2 hmagic rfl) (by decide)
  have hasf8 : ¬ (f.v7PairForestAsf8 = true ∧ POOL_V1_PAIR_FOREST_TERMINAL_STATEMENT_MAGIC <+: data) :=
    fun hf => absurd (magic_unique hf.2 hmagic rfl) (by decide)
  rw [productionRoute, if_neg hasq8, if_neg hasf8, if_pos ⟨hpool, hlen, hmagic⟩]

/-- What the length gates are for: a tagged wire is not taken for a compact request. -/
theorem productionRoute_numeric (hfree : ¬ Captured f data) (hnumeric : r.Numeric) (hwire : r.Wire hashv data) :
    productionRoute hashv f data = numericRoute hashv f data := by
  have hasq8 : ¬ (f.v7PairForestAsq8 = true ∧ POOL_V1_PAIR_FOREST_TERMINAL_REQUEST_MAGIC <+: data) :=
    fun hq => hfree ⟨numericWire_length hnumeric hwire hq.2, .inl hq⟩
  have hasf8 : ¬ (f.v7PairForestAsf8 = true ∧ POOL_V1_PAIR_FOREST_TERMINAL_STATEMENT_MAGIC <+: data) :=
    fun hf => hfree ⟨numericWire_length hnumeric hwire hf.2, .inr hf⟩
  have hasvq : ¬ (f.v7PoolDispatchProfile = true ∧ POOL_V1_VERIFIER_DISPATCH_BINDING_PREFIX_BYTES < data.length ∧
      POOL_V1_VERIFIER_DISPATCH_REQUEST_MAGIC <+: data) := by
    rintro ⟨-, hlong, hmagic⟩
    have hlen := numericWire_length hnumeric hwire hmagic
    rw [hlen, POOL_V1_VERIFIER_DISPATCH_BINDING_PREFIX_BYTES] at hlong
    omega
  rw [productionRoute, if_neg hasq8, if_neg hasf8, if_neg hasvq]

theorem productionRoute_complete (hfree : ¬ Captured f data) (hcompiled : r.Compiled f) (hwire : r.Wire hashv data) :
    productionRoute hashv f data = .ok r := by
  by_cases hnumeric : r.Numeric
  · rw [productionRoute_numeric hfree hnumeric hwire]
    exact numericRoute_complete hnumeric hcompiled hwire
  cases r with
  | pairForestAsq8 request =>
    rw [productionRoute, if_pos ⟨hcompiled, asq8_wire hwire⟩]
    exact asq8Arm_eq_ok.mpr ⟨request, hwire, rfl⟩
  | pairForestAsf8 statement =>
    have hasq8 : ¬ (f.v7PairForestAsq8 = true ∧ POOL_V1_PAIR_FOREST_TERMINAL_REQUEST_MAGIC <+: data) :=
      fun hq => absurd (magic_unique hq.2 (asf8_wire hwire) rfl) (by decide)
    rw [productionRoute, if_neg hasq8, if_pos ⟨hcompiled, asf8_wire hwire⟩]
    exact asf8Arm_eq_ok.mpr ⟨statement, hwire, rfl⟩
  | poolNativeAsvq request =>
    rw [productionRoute_asvq hcompiled hwire.1]
    exact asvqArm_eq_ok.mpr ⟨request, hwire.1, .inl ⟨hwire.2, rfl⟩⟩
  | poolAsvq request =>
    rw [productionRoute_asvq hcompiled hwire.1]
    exact asvqArm_eq_ok.mpr ⟨request, hwire.1, .inr ⟨hwire.2, rfl⟩⟩
  | _ => exact absurd True.intro hnumeric

/-- A captured instruction reaches a handler that refuses its length. -/
theorem productionRoute_captured (h : Captured f data) : productionRoute hashv f data = .error .invalidInstructionData := by
  obtain ⟨hlen, hmagic⟩ := h
  have hasq8 : asq8Arm data = .error .invalidInstructionData := by
    simp only [asq8Arm, require, hlen, POOL_V1_PAIR_FOREST_TERMINAL_REQUEST_BYTES]
    rfl
  have hasf8 : asf8Arm data = .error .invalidInstructionData := by
    simp only [asf8Arm, require, hlen, POOL_V1_PAIR_FOREST_TERMINAL_STATEMENT_BYTES]
    rfl
  unfold productionRoute
  split_ifs with hq hf
  · exact hasq8
  · exact hasf8
  · exact absurd hmagic (by simp only [hq, hf, or_self, not_false_eq_true])
  · exact absurd hmagic (by simp only [hq, hf, or_self, not_false_eq_true])

theorem exists_digest {d : Bytes} (h : 32 ≤ d.length) :
    ∃ (x : Bytes32) (rest : Bytes), d = x.bytes ++ rest ∧ rest.length = d.length - 32 :=
  ⟨⟨d.take 32, List.length_take_of_le h⟩, d.drop 32, (List.take_append_drop 32 d).symm, List.length_drop⟩

theorem exists_u32 {d : Bytes} (h : 4 ≤ d.length) :
    ∃ (x : UInt32) (rest : Bytes), d = u32Bytes x ++ rest ∧ rest.length = d.length - 4 := by
  refine ⟨readU32 0 d, d.drop 4, ?_, List.length_drop⟩
  rw [u32Bytes_readU32 (by omega)]
  exact (List.take_append_drop 4 d).symm

/-- Every 168 bytes are the public inputs of a spend. -/
theorem exists_publicInputs (h : wire.length = 168) : ∃ inputs, wire = publicInputsImage inputs := by
  obtain ⟨currentAnchor, rest, rfl, h1⟩ := @exists_digest wire (by omega)
  obtain ⟨nullifier, rest, rfl, h2⟩ := @exists_digest rest (by omega)
  obtain ⟨outputCommitment, rest, rfl, h3⟩ := @exists_digest rest (by omega)
  obtain ⟨outputAnchor, rest, rfl, h4⟩ := @exists_digest rest (by omega)
  obtain ⟨assetId, rest, rfl, h5⟩ := @exists_u32 rest (by omega)
  obtain ⟨fee, rest, rfl, h6⟩ := @exists_u32 rest (by omega)
  obtain ⟨deploymentDomain, rest, rfl, h7⟩ := @exists_digest rest (by omega)
  have hrest : rest = [] := List.eq_nil_of_length_eq_zero (by omega)
  subst hrest
  exact ⟨⟨currentAnchor, nullifier, outputCommitment, outputAnchor, assetId, fee, deploymentDomain⟩,
    by simp [publicInputsImage]⟩

theorem refund_wire {magic : Bytes} (hlen : data.length = 169) (hmagic : (65 :: magic) <+: data) :
    ∃ inputs, data = 65 :: publicInputsImage inputs := by
  obtain ⟨tail, rfl⟩ := hmagic
  rw [List.cons_append, List.length_cons] at hlen
  obtain ⟨inputs, himage⟩ := @exists_publicInputs (magic ++ tail) (by omega)
  exact ⟨inputs, by rw [List.cons_append, himage]⟩

/-- Routing is by exact wire, it is kept when routes are added, and refunding spends reach their path, on every
instruction but the captured ones. -/
theorem route_by_exact_wire (hashv : List Bytes → Bytes32) (f : WireFeatures) (data : Bytes) :
    ((∀ r, productionRoute hashv f data = .ok r ↔ r.Compiled f ∧ r.Wire hashv data) ∧
      (∀ f₀, f.Extends f₀ → ∀ r, productionRoute hashv f₀ data = .ok r → productionRoute hashv f data = .ok r) ∧
      (∀ inputs, data = 65 :: publicInputsImage inputs →
        productionRoute hashv f data = .ok (.applySpendWithProofRefund inputs))) ↔ ¬ Captured f data := by
  constructor
  · rintro ⟨-, -, hspend⟩ hcaptured
    have hwire : ∃ inputs, data = 65 :: publicInputsImage inputs := by
      obtain ⟨hlen, ⟨-, hmagic⟩ | ⟨-, hmagic⟩⟩ := hcaptured
      · exact refund_wire hlen hmagic
      · exact refund_wire hlen hmagic
    obtain ⟨inputs, hdata⟩ := hwire
    have haccepted := hspend inputs hdata
    rw [productionRoute_captured hcaptured] at haccepted
    cases haccepted
  · intro hfree
    refine ⟨fun r => ⟨productionRoute_sound, fun h => productionRoute_complete hfree h.1 h.2⟩, ?_, ?_⟩
    · intro f₀ hextends r hr
      obtain ⟨hcompiled, hwire⟩ := productionRoute_sound hr
      exact productionRoute_complete hfree (hcompiled.mono hextends) hwire
    · intro inputs hdata
      exact productionRoute_complete hfree True.intro hdata

end

/-- A spend whose current anchor begins with the request magic's last three bytes is refused once the compact route is
compiled in, and taken without it. -/
theorem spend_captured_by_asq8 :
    ∃ (hashv : List Bytes → Bytes32) (f f₀ : WireFeatures) (inputs : AtomicPaymentPublicInputs),
      f.v7PairForestAsq8 = true ∧ f.Extends f₀ ∧
      productionRoute hashv f₀ (65 :: publicInputsImage inputs) = .ok (.applySpendWithProofRefund inputs) ∧
      productionRoute hashv f (65 :: publicInputsImage inputs) = .error .invalidInstructionData := by
  refine ⟨fun _ => Bytes32.zero, ⟨false, false, true, false, true, false⟩, ⟨false, false, true, false, false, false⟩,
    ⟨⟨[83, 81, 56] ++ zeros 29, by simp⟩, Bytes32.zero, Bytes32.zero, Bytes32.zero, 0, 0, Bytes32.zero⟩, rfl,
    ⟨id, id, id, id, nofun, id⟩, ?_, ?_⟩
  · exact productionRoute_complete (by simp [Captured]) True.intro rfl
  · apply productionRoute_captured
    exact ⟨by simp, .inl ⟨rfl, by decide⟩⟩

end Aspis.Verifier
