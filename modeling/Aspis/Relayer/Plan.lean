import Aspis.Lib.Records
import Aspis.Pool.Nullifier

/-! The relayer boundary: an unsigned instruction is validated and given its
request id, and an operator policy decides whether the request is admitted. The
hash and the instruction validators are parameters. -/

namespace Aspis.Relayer

open Lib Chain Pool

/-! ### Requests -/

inductive RelayerRequestKindV1
  | initializePool
  | deposit
  | prepareSettlement
  | settlePrepared
  | cancelPrepared
  | privateTransfer
  | withdrawal
  deriving DecidableEq, Repr

structure AccountMeta where
  pubkey : Pubkey
  isSigner : Bool
  isWritable : Bool
  deriving DecidableEq

/-- An instruction as a client builds it. -/
structure UnsignedInstruction where
  programId : Pubkey
  accounts : List AccountMeta
  data : Bytes
  deriving DecidableEq

structure RelayerSnapshotV1 where
  pinnedProgramId : Pubkey
  registryProgram : Pubkey
  currentRootSequence : UInt64
  observedSlot : UInt64
  poolStateSha256 : Bytes32
  deriving DecidableEq

structure PreparedSettlementValidationContextV1 where
  transitionKind : PoolV1TransitionKind
  sourceRootSequence : UInt64
  planAuthority : Pubkey
  authorizationReceipt : Pubkey
  verifierProfile : Bytes32
  verifierRelease : Bytes32
  corePlan : Pubkey
  rolloverShard : Option Pubkey
  assetMint : Option Pubkey
  deriving DecidableEq

structure RelayerPlanV1 where
  requestId : Bytes32
  kind : RelayerRequestKindV1
  snapshot : RelayerSnapshotV1
  feePayer : Pubkey
  preparedPlan : Option PreparedSettlementValidationContextV1
  instruction : UnsignedInstruction
  deriving DecidableEq

/-- The errors of the transaction builder; those of its instruction codecs are numbered. -/
inductive PoolTransactionBuilderErrorV1
  | unpinnedProgramId
  | arithmeticOverflow
  | treeCapacityExceeded
  | anchorAfterCurrentRoot
  | missingRolloverPayer
  | unexpectedRolloverPayer
  | accountAlias
  | wrongProgramId
  | wrongAccountLayout
  | format (code : ℕ)
  deriving DecidableEq, Repr

inductive RelayerErrorV1
  | invalidFeePayer
  | unauthenticatedSnapshot
  | lengthOverflow
  | invalidInstruction (error : PoolTransactionBuilderErrorV1)
  deriving DecidableEq, Repr

/-- The hash and the validators of the transaction builder. -/
structure RelayerServicesV1 where
  sha256 : Bytes → Bytes32
  validatePoolInstruction : RelayerSnapshotV1 → UnsignedInstruction → Except PoolTransactionBuilderErrorV1 Unit
  validatePreparedPlanInstruction : RelayerSnapshotV1 → PreparedSettlementValidationContextV1 → UnsignedInstruction →
    Except PoolTransactionBuilderErrorV1 Unit

/-- The kind is read off the first four ASCII bytes. -/
def requestKindV1 (instruction : UnsignedInstruction) : Except RelayerErrorV1 RelayerRequestKindV1 :=
  let tag := instruction.data.take 4
  if tag = [65, 83, 73, 78] then .ok .initializePool
  else if tag = [65, 83, 68, 73] then .ok .deposit
  else if tag = [65, 83, 80, 80] then .ok .prepareSettlement
  else if tag = [65, 83, 80, 70] then .ok .settlePrepared
  else if tag = [65, 83, 80, 88] then .ok .cancelPrepared
  else if tag = [65, 83, 80, 84] then .ok .privateTransfer
  else if tag = [65, 83, 87, 68] then .ok .withdrawal
  else .error (.invalidInstruction .wrongAccountLayout)

def boolByte (b : Bool) : UInt8 := if b then 1 else 0

/-- The ASCII bytes `aspis:pool-v1:permissionless-relayer-request:sha256:v1`. -/
def POOL_V1_RELAYER_REQUEST_DOMAIN : Bytes := "aspis:pool-v1:permissionless-relayer-request:sha256:v1".toUTF8.toList

def POOL_V1_RELAYER_POLICY_DOMAIN : Bytes := "aspis:pool-v1:relayer-operator-policy:sha256:v1".toUTF8.toList

def hashedOption : Option Pubkey → Bytes
  | some key => 1 :: key.bytes
  | none => [0]

def hashedContext : Option PreparedSettlementValidationContextV1 → Bytes
  | none => [0]
  | some c => [1, c.transitionKind.code] ++ u64Bytes c.sourceRootSequence ++ c.planAuthority.bytes ++
      c.authorizationReceipt.bytes ++ c.verifierProfile.bytes ++ c.verifierRelease.bytes ++ c.corePlan.bytes ++
      hashedOption c.rolloverShard ++ hashedOption c.assetMint

def hashedAccount (a : AccountMeta) : Bytes :=
  a.pubkey.bytes ++ (u8Bytes (boolByte a.isSigner) ++ u8Bytes (boolByte a.isWritable))

/-- What the request id is the hash of. -/
def requestPreimage (snapshot : RelayerSnapshotV1) (feePayer : Pubkey)
    (preparedPlan : Option PreparedSettlementValidationContextV1) (instruction : UnsignedInstruction) : Bytes :=
  POOL_V1_RELAYER_REQUEST_DOMAIN ++ snapshot.pinnedProgramId.bytes ++ snapshot.registryProgram.bytes ++
    u64Bytes snapshot.currentRootSequence ++ u64Bytes snapshot.observedSlot ++ snapshot.poolStateSha256.bytes ++
    feePayer.bytes ++ hashedContext preparedPlan ++ leBytes 2 instruction.accounts.length ++
    instruction.accounts.flatMap hashedAccount ++ leBytes 4 instruction.data.length ++ instruction.data

section
variable (services : RelayerServicesV1)

def preparePermissionlessRelayerPlanAfterValidationV1 (snapshot : RelayerSnapshotV1) (feePayer : Pubkey)
    (instruction : UnsignedInstruction) (preparedPlan : Option PreparedSettlementValidationContextV1)
    (validated : Except PoolTransactionBuilderErrorV1 Unit) : Except RelayerErrorV1 RelayerPlanV1 := do
  require (feePayer ≠ Bytes32.zero) .invalidFeePayer
  require (snapshot.observedSlot ≠ 0 ∧ snapshot.poolStateSha256 ≠ Bytes32.zero) .unauthenticatedSnapshot
  mapErr .invalidInstruction validated
  let kind ← requestKindV1 instruction
  require (instruction.accounts.length < 2 ^ 16) .lengthOverflow
  require (instruction.data.length < 2 ^ 32) .lengthOverflow
  return ⟨services.sha256 (requestPreimage snapshot feePayer preparedPlan instruction), kind, snapshot, feePayer,
    preparedPlan, instruction⟩

def preparePermissionlessRelayerPlanV1 (snapshot : RelayerSnapshotV1) (feePayer : Pubkey)
    (instruction : UnsignedInstruction) : Except RelayerErrorV1 RelayerPlanV1 :=
  preparePermissionlessRelayerPlanAfterValidationV1 services snapshot feePayer instruction none
    (services.validatePoolInstruction snapshot instruction)

def preparePermissionlessPreparedRelayerPlanV1 (snapshot : RelayerSnapshotV1) (feePayer : Pubkey)
    (context : PreparedSettlementValidationContextV1) (instruction : UnsignedInstruction) :
    Except RelayerErrorV1 RelayerPlanV1 :=
  preparePermissionlessRelayerPlanAfterValidationV1 services snapshot feePayer instruction (some context)
    (services.validatePreparedPlanInstruction snapshot context instruction)

/-- Build a plan again from what it carries. -/
def rebuildPlan (plan : RelayerPlanV1) : Except RelayerErrorV1 RelayerPlanV1 :=
  match plan.preparedPlan with
  | some context => preparePermissionlessPreparedRelayerPlanV1 services plan.snapshot plan.feePayer context plan.instruction
  | none => preparePermissionlessRelayerPlanV1 services plan.snapshot plan.feePayer plan.instruction

end

/-! ### Admission -/

structure RelayerPolicyV1 where
  paused : Bool
  operatorFeePayer : Pubkey
  allowInitialize : Bool
  allowDeposit : Bool
  allowPrepareSettlement : Bool
  allowSettlePrepared : Bool
  allowCancelPrepared : Bool
  allowPrivateTransfer : Bool
  allowWithdrawal : Bool
  maxSnapshotAgeSlots : UInt64
  maxQueueDepth : UInt32
  maxInflight : UInt32
  rateWindowSlots : UInt64
  maxAdmissionsPerWindow : UInt32
  maxEstimatedFeeLamports : UInt64
  minimumFeePayerReserveLamports : UInt64
  deriving DecidableEq

structure RelayerAdmissionContextV1 where
  nowSlot : UInt64
  queueDepth : ℕ
  inflight : ℕ
  rateWindowStartSlot : UInt64
  admissionsInWindow : UInt32
  estimatedFeeLamports : UInt64
  feePayerBalanceLamports : UInt64

structure RelayerAdmissionV1 where
  requestId : Bytes32
  policyId : Bytes32
  kind : RelayerRequestKindV1
  admittedAtSlot : UInt64
  rateWindowStartSlot : UInt64
  admissionsInWindowAfter : UInt32
  deriving DecidableEq

inductive RelayerAdmissionErrorV1
  | invalidPolicy
  | paused
  | wrongFeePayer
  | futureSnapshot
  | staleSnapshot
  | instructionKindDisabled
  | operatorSignerMismatch
  | queueFull
  | inflightFull
  | futureRateWindow
  | rateLimited
  | feeEstimateTooHigh
  | insufficientFeeReserve
  deriving DecidableEq, Repr

def kindEnabled (policy : RelayerPolicyV1) : RelayerRequestKindV1 → Bool
  | .initializePool => policy.allowInitialize
  | .deposit => policy.allowDeposit
  | .prepareSettlement => policy.allowPrepareSettlement
  | .settlePrepared => policy.allowSettlePrepared
  | .cancelPrepared => policy.allowCancelPrepared
  | .privateTransfer => policy.allowPrivateTransfer
  | .withdrawal => policy.allowWithdrawal

def relayerPolicyIdV1 (sha256 : Bytes → Bytes32) (policy : RelayerPolicyV1) : Bytes32 :=
  sha256 (POOL_V1_RELAYER_POLICY_DOMAIN ++ [boolByte policy.paused] ++ policy.operatorFeePayer.bytes ++
    [boolByte policy.allowInitialize, boolByte policy.allowDeposit, boolByte policy.allowPrepareSettlement,
      boolByte policy.allowSettlePrepared, boolByte policy.allowCancelPrepared, boolByte policy.allowPrivateTransfer,
      boolByte policy.allowWithdrawal] ++ u64Bytes policy.maxSnapshotAgeSlots ++ u32Bytes policy.maxQueueDepth ++
    u32Bytes policy.maxInflight ++ u64Bytes policy.rateWindowSlots ++ u32Bytes policy.maxAdmissionsPerWindow ++
    u64Bytes policy.maxEstimatedFeeLamports ++ u64Bytes policy.minimumFeePayerReserveLamports)

/-- The limits that a policy must set. -/
def PolicyShape (policy : RelayerPolicyV1) : Prop :=
  policy.operatorFeePayer ≠ Bytes32.zero ∧ policy.maxSnapshotAgeSlots ≠ 0 ∧ policy.maxQueueDepth ≠ 0 ∧
    policy.maxInflight ≠ 0 ∧ policy.rateWindowSlots ≠ 0 ∧ policy.maxAdmissionsPerWindow ≠ 0

instance (policy : RelayerPolicyV1) : Decidable (PolicyShape policy) :=
  inferInstanceAs (Decidable (_ ∧ _ ∧ _ ∧ _ ∧ _ ∧ _))

/-- Other than for a deposit, the only signer is the fee payer. -/
def operatorSignerMatches (plan : RelayerPlanV1) : Bool :=
  plan.kind = .deposit ∨ (plan.instruction.accounts.filter (·.isSigner)).map (·.pubkey) = [plan.feePayer]

/-- The reserve and the estimated fee must be covered. -/
def FeeCovered (policy : RelayerPolicyV1) (estimatedFee balance : UInt64) : Prop :=
  policy.minimumFeePayerReserveLamports.toNat + estimatedFee.toNat < U64_LIMIT ∧
    policy.minimumFeePayerReserveLamports.toNat + estimatedFee.toNat ≤ balance.toNat

instance (policy : RelayerPolicyV1) (estimatedFee balance : UInt64) : Decidable (FeeCovered policy estimatedFee balance) :=
  inferInstanceAs (Decidable (_ ∧ _))

/-- The rate window an admission falls in and the admissions counted there before it. -/
def currentWindow (policy : RelayerPolicyV1) (context : RelayerAdmissionContextV1) : UInt64 × UInt32 :=
  if policy.rateWindowSlots ≤ context.nowSlot - context.rateWindowStartSlot then (context.nowSlot, 0)
  else (context.rateWindowStartSlot, context.admissionsInWindow)

def admitRelayerPlanV1 (sha256 : Bytes → Bytes32) (policy : RelayerPolicyV1) (context : RelayerAdmissionContextV1)
    (plan : RelayerPlanV1) : Except RelayerAdmissionErrorV1 RelayerAdmissionV1 := do
  require (PolicyShape policy) .invalidPolicy
  require (policy.paused = false) .paused
  require (plan.feePayer = policy.operatorFeePayer) .wrongFeePayer
  require (plan.snapshot.observedSlot ≤ context.nowSlot) .futureSnapshot
  require (context.nowSlot - plan.snapshot.observedSlot ≤ policy.maxSnapshotAgeSlots) .staleSnapshot
  require (kindEnabled policy plan.kind = true) .instructionKindDisabled
  require (operatorSignerMatches plan = true) .operatorSignerMismatch
  require (context.queueDepth < policy.maxQueueDepth.toNat) .queueFull
  require (context.inflight < policy.maxInflight.toNat) .inflightFull
  require (context.estimatedFeeLamports ≤ policy.maxEstimatedFeeLamports) .feeEstimateTooHigh
  require (FeeCovered policy context.estimatedFeeLamports context.feePayerBalanceLamports) .insufficientFeeReserve
  require (context.rateWindowStartSlot ≤ context.nowSlot) .futureRateWindow
  let (start, before) := currentWindow policy context
  require (before < policy.maxAdmissionsPerWindow) .rateLimited
  return ⟨plan.requestId, relayerPolicyIdV1 sha256 policy, plan.kind, context.nowSlot, start, before + 1⟩

end Aspis.Relayer
