import Aspis.Relayer.Plan

/-! The relayer queue on disk: a checksummed header with the policy id and the
rate window, and one record of its own length for every entry. -/

namespace Aspis.Relayer

open Lib Chain Pool

inductive DurableRelayerStatusV1
  | queued
  | inflight
  deriving DecidableEq, Repr

structure DurableRelayerEntryV1 where
  plan : RelayerPlanV1
  admission : RelayerAdmissionV1
  status : DurableRelayerStatusV1
  deriving DecidableEq

inductive DurableStateErrorV1
  | migrationInProgress
  | legacyStoreRetired
  | authorityConflict
  | imageTooLarge
  | wrongMagic
  | wrongVersion
  | nonZeroReserved
  | checksumMismatch
  | truncated
  | trailingBytes
  | countOverflow
  | duplicateRecord
  | policyMismatch
  | invalidRelayerState
  | invalidQueueTransition
  | relayer (error : RelayerErrorV1)
  | admission (error : RelayerAdmissionErrorV1)
  deriving DecidableEq, Repr

def RELAYER_HEADER_BYTES : ℕ := 88

def RELAYER_RECORD_HEADER_BYTES : ℕ := 276

def RELAYER_PREPARED_PLAN_CONTEXT_BYTES : ℕ := 240

def CHECKSUM_OFFSET : ℕ := 56

def MAX_DURABLE_IMAGE_BYTES : ℕ := 64 * 1024 * 1024

def MAX_RELAYER_RECORDS : ℕ := 100000

def MAX_RELAYER_ACCOUNTS : ℕ := 256

def MAX_RELAYER_INSTRUCTION_BYTES : ℕ := 1024 * 1024

/-! ### Small codes -/

def encodeKindV1 : RelayerRequestKindV1 → UInt8
  | .initializePool => 0
  | .deposit => 1
  | .privateTransfer => 2
  | .withdrawal => 3
  | .prepareSettlement => 4
  | .settlePrepared => 5
  | .cancelPrepared => 6

def decodeKindV1 (b : UInt8) : Except DurableStateErrorV1 RelayerRequestKindV1 :=
  if b = 0 then .ok .initializePool
  else if b = 1 then .ok .deposit
  else if b = 2 then .ok .privateTransfer
  else if b = 3 then .ok .withdrawal
  else if b = 4 then .ok .prepareSettlement
  else if b = 5 then .ok .settlePrepared
  else if b = 6 then .ok .cancelPrepared
  else .error .invalidRelayerState

def decodeBoolV1 (b : UInt8) : Except DurableStateErrorV1 Bool :=
  if b = 0 then .ok false else if b = 1 then .ok true else .error .invalidRelayerState

def encodeStatus : DurableRelayerStatusV1 → UInt8
  | .queued => 0
  | .inflight => 1

def decodeStatus (b : UInt8) : Except DurableStateErrorV1 DurableRelayerStatusV1 :=
  if b = 0 then .ok .queued else if b = 1 then .ok .inflight else .error .invalidRelayerState

def decodeTransition (b : UInt8) : Except DurableStateErrorV1 PoolV1TransitionKind :=
  if b = 1 then .ok .privateTransfer else if b = 2 then .ok .withdrawal else .error .invalidRelayerState

theorem decodeKindV1_encodeKindV1 (k : RelayerRequestKindV1) : decodeKindV1 (encodeKindV1 k) = .ok k := by
  cases k <;> rfl

theorem decodeBoolV1_boolByte (b : Bool) : decodeBoolV1 (boolByte b) = .ok b := by
  cases b <;> rfl

theorem decodeStatus_encodeStatus (s : DurableRelayerStatusV1) : decodeStatus (encodeStatus s) = .ok s := by
  cases s <;> rfl

theorem decodeTransition_code (k : PoolV1TransitionKind) : decodeTransition k.code = .ok k := by
  cases k <;> rfl

/-! ### Accounts and contexts -/

def decodeAccount (chunk : Bytes) : Except DurableStateErrorV1 AccountMeta := do
  let isSigner ← decodeBoolV1 (byteAt 32 chunk)
  let isWritable ← decodeBoolV1 (byteAt 33 chunk)
  return ⟨Bytes32.read 0 chunk, isSigner, isWritable⟩

@[simp] theorem length_hashedAccount (a : AccountMeta) : (hashedAccount a).length = 34 := by simp [hashedAccount]

/-- An account stands in a record as it is hashed. -/
theorem decodeAccount_hashedAccount (a : AccountMeta) : decodeAccount (hashedAccount a) = .ok a := by
  have hkey : Bytes32.read 0 (hashedAccount a) = a.pubkey := Bytes32.read_eq (by
    simp [hashedAccount, slice_append_head])
  have hsigner : byteAt 32 (hashedAccount a) = boolByte a.isSigner := byteAt_of_slice (by
    simp [hashedAccount, slice_append_right, slice_append_head])
  have hwritable : byteAt 33 (hashedAccount a) = boolByte a.isWritable := byteAt_of_slice (by
    simp [hashedAccount, slice_append_right, slice_all])
  rw [decodeAccount, hsigner, decodeBoolV1_boolByte, except_ok_bind, hwritable, decodeBoolV1_boolByte, except_ok_bind, hkey]
  rfl

/-- An optional key, or zeros. -/
def optionalKey : Option Pubkey → Bytes
  | some key => key.bytes
  | none => zeros 32

def contextFlags (c : PreparedSettlementValidationContextV1) : UInt8 :=
  (if c.rolloverShard.isSome then 1 else 0) + (if c.assetMint.isSome then 2 else 0)

def encodeRelayerPreparedPlanContextV1 (c : PreparedSettlementValidationContextV1) : Bytes :=
  u8Bytes c.transitionKind.code ++ (u8Bytes (contextFlags c) ++ (zeros 6 ++ (u64Bytes c.sourceRootSequence ++
    (c.planAuthority.bytes ++ (c.authorizationReceipt.bytes ++ (c.verifierProfile.bytes ++ (c.verifierRelease.bytes ++
      (c.corePlan.bytes ++ (optionalKey c.rolloverShard ++ optionalKey c.assetMint)))))))))

/-- A key that its flag says is there; without the flag its bytes must be zero. -/
def decodeOptionalKey (present : Bool) (off : ℕ) (d : Bytes) : Except DurableStateErrorV1 (Option Pubkey) :=
  if present then .ok (some (Bytes32.read off d))
  else do
    require (slice off 32 d = zeros 32) .nonZeroReserved
    return none

def decodeRelayerPreparedPlanContextV1 (d : Bytes) :
    Except DurableStateErrorV1 PreparedSettlementValidationContextV1 := do
  require (d.length = RELAYER_PREPARED_PLAN_CONTEXT_BYTES) .truncated
  require ((byteAt 1 d).toNat < 4 ∧ slice 2 6 d = zeros 6) .nonZeroReserved
  let transitionKind ← decodeTransition (byteAt 0 d)
  let rolloverShard ← decodeOptionalKey ((byteAt 1 d).toNat.testBit 0) 176 d
  let assetMint ← decodeOptionalKey ((byteAt 1 d).toNat.testBit 1) 208 d
  return ⟨transitionKind, readU64 8 d, Bytes32.read 16 d, Bytes32.read 48 d, Bytes32.read 80 d, Bytes32.read 112 d,
    Bytes32.read 144 d, rolloverShard, assetMint⟩

@[simp] theorem length_optionalKey (k : Option Pubkey) : (optionalKey k).length = 32 := by
  cases k <;> simp [optionalKey]

@[simp] theorem length_encodeContext (c : PreparedSettlementValidationContextV1) :
    (encodeRelayerPreparedPlanContextV1 c).length = RELAYER_PREPARED_PLAN_CONTEXT_BYTES := by
  simp [encodeRelayerPreparedPlanContextV1, RELAYER_PREPARED_PLAN_CONTEXT_BYTES]

theorem decodeOptionalKey_of_slice {k : Option Pubkey} {off : ℕ} {d : Bytes} (h : slice off 32 d = optionalKey k) :
    decodeOptionalKey k.isSome off d = .ok k := by
  cases k with
  | none =>
    have hzero : slice off 32 d = zeros 32 := h
    rw [decodeOptionalKey, if_neg (by simp), require_of _ hzero, except_ok_bind]
    rfl
  | some key =>
    rw [decodeOptionalKey, if_pos (by simp), Bytes32.read_eq h]

theorem contextFlags_bits (c : PreparedSettlementValidationContextV1) : (contextFlags c).toNat < 4 ∧
    (contextFlags c).toNat.testBit 0 = c.rolloverShard.isSome ∧ (contextFlags c).toNat.testBit 1 = c.assetMint.isSome := by
  unfold contextFlags
  cases c.rolloverShard.isSome <;> cases c.assetMint.isSome <;> decide

theorem decodeContext_encodeContext (c : PreparedSettlementValidationContextV1) :
    decodeRelayerPreparedPlanContextV1 (encodeRelayerPreparedPlanContextV1 c) = .ok c := by
  have hbits := contextFlags_bits c
  have hkind : byteAt 0 (encodeRelayerPreparedPlanContextV1 c) = c.transitionKind.code := byteAt_of_slice (by
    simp [encodeRelayerPreparedPlanContextV1, slice_append_head])
  have hflags : byteAt 1 (encodeRelayerPreparedPlanContextV1 c) = contextFlags c := byteAt_of_slice (by
    simp [encodeRelayerPreparedPlanContextV1, slice_append_right, slice_append_head])
  have hreserved : slice 2 6 (encodeRelayerPreparedPlanContextV1 c) = zeros 6 := by
    simp [encodeRelayerPreparedPlanContextV1, slice_append_right, slice_append_head]
  have hsequence : readU64 8 (encodeRelayerPreparedPlanContextV1 c) = c.sourceRootSequence := readU64_of_slice (by
    simp [encodeRelayerPreparedPlanContextV1, slice_append_right, slice_append_head])
  have hauthority : Bytes32.read 16 (encodeRelayerPreparedPlanContextV1 c) = c.planAuthority := Bytes32.read_eq (by
    simp [encodeRelayerPreparedPlanContextV1, slice_append_right, slice_append_head])
  have hreceipt : Bytes32.read 48 (encodeRelayerPreparedPlanContextV1 c) = c.authorizationReceipt := Bytes32.read_eq (by
    simp [encodeRelayerPreparedPlanContextV1, slice_append_right, slice_append_head])
  have hprofile : Bytes32.read 80 (encodeRelayerPreparedPlanContextV1 c) = c.verifierProfile := Bytes32.read_eq (by
    simp [encodeRelayerPreparedPlanContextV1, slice_append_right, slice_append_head])
  have hrelease : Bytes32.read 112 (encodeRelayerPreparedPlanContextV1 c) = c.verifierRelease := Bytes32.read_eq (by
    simp [encodeRelayerPreparedPlanContextV1, slice_append_right, slice_append_head])
  have hcore : Bytes32.read 144 (encodeRelayerPreparedPlanContextV1 c) = c.corePlan := Bytes32.read_eq (by
    simp [encodeRelayerPreparedPlanContextV1, slice_append_right, slice_append_head])
  have hshard : decodeOptionalKey c.rolloverShard.isSome 176 (encodeRelayerPreparedPlanContextV1 c) =
      .ok c.rolloverShard := decodeOptionalKey_of_slice (by
    simp [encodeRelayerPreparedPlanContextV1, slice_append_right, slice_append_head])
  have hmint : decodeOptionalKey c.assetMint.isSome 208 (encodeRelayerPreparedPlanContextV1 c) = .ok c.assetMint :=
    decodeOptionalKey_of_slice (by simp [encodeRelayerPreparedPlanContextV1, slice_append_right, slice_all])
  rw [decodeRelayerPreparedPlanContextV1, require_of _ (length_encodeContext c), except_ok_bind, hflags,
    require_of _ ⟨hbits.1, hreserved⟩, except_ok_bind, hkind, decodeTransition_code, except_ok_bind, hbits.2.1, hshard,
    except_ok_bind, hbits.2.2, hmint, except_ok_bind, hsequence, hauthority, hreceipt, hprofile, hrelease, hcore]
  rfl

/-! ### Records -/

/-- The fixed part of a record. -/
def recordHeader (e : DurableRelayerEntryV1) : Bytes :=
  e.plan.requestId.bytes ++ (u8Bytes (encodeKindV1 e.plan.kind) ++ (u8Bytes (encodeStatus e.status) ++
    (u8Bytes (boolByte e.plan.preparedPlan.isSome) ++ (zeros 1 ++ (e.plan.snapshot.pinnedProgramId.bytes ++
      (e.plan.snapshot.registryProgram.bytes ++ (u64Bytes e.plan.snapshot.currentRootSequence ++
        (u64Bytes e.plan.snapshot.observedSlot ++ (e.plan.snapshot.poolStateSha256.bytes ++ (e.plan.feePayer.bytes ++
          (e.plan.instruction.programId.bytes ++ (leBytes 4 e.plan.instruction.accounts.length ++
            (leBytes 4 e.plan.instruction.data.length ++ (e.admission.policyId.bytes ++
              (u64Bytes e.admission.admittedAtSlot ++ (u64Bytes e.admission.rateWindowStartSlot ++
                (u32Bytes e.admission.admissionsInWindowAfter ++ zeros 4)))))))))))))))))

def encodeOptionalContext : Option PreparedSettlementValidationContextV1 → Bytes
  | some c => encodeRelayerPreparedPlanContextV1 c
  | none => []

def encodeRecord (e : DurableRelayerEntryV1) : Bytes :=
  recordHeader e ++ (e.plan.instruction.accounts.flatMap hashedAccount ++
    (e.plan.instruction.data ++ encodeOptionalContext e.plan.preparedPlan))

/-- The context at the end of a record, where its flag says there is one. -/
def decodeOptionalContext (present : Bool) (d : Bytes) :
    Except DurableStateErrorV1 (Option PreparedSettlementValidationContextV1) :=
  if present then do
    let context ← decodeRelayerPreparedPlanContextV1 d
    return some context
  else .ok none

/-- Read the record at an offset, and where the next one starts. -/
def decodeRecord (off : ℕ) (bytes : Bytes) : Except DurableStateErrorV1 (DurableRelayerEntryV1 × ℕ) := do
  let headerEnd := off + RELAYER_RECORD_HEADER_BYTES
  require (headerEnd ≤ bytes.length) .truncated
  let header := slice off RELAYER_RECORD_HEADER_BYTES bytes
  let hasPreparedPlan ← decodeBoolV1 (byteAt 34 header)
  require (byteAt 35 header = 0 ∧ slice 272 4 header = zeros 4) .nonZeroReserved
  let kind ← decodeKindV1 (byteAt 32 header)
  let status ← decodeStatus (byteAt 33 header)
  let accountCount := leNat (slice 212 4 header)
  let dataLength := leNat (slice 216 4 header)
  require (accountCount ≤ MAX_RELAYER_ACCOUNTS ∧ dataLength ≤ MAX_RELAYER_INSTRUCTION_BYTES) .invalidRelayerState
  let accountsBytes := accountCount * 34
  let bodyLength := accountsBytes + dataLength + if hasPreparedPlan then RELAYER_PREPARED_PLAN_CONTEXT_BYTES else 0
  require (headerEnd + bodyLength ≤ bytes.length) .truncated
  let body := slice headerEnd bodyLength bytes
  let accounts ← decodeRecords 34 decodeAccount accountCount 0 body
  let preparedPlan ← decodeOptionalContext hasPreparedPlan (body.drop (accountsBytes + dataLength))
  let snapshot : RelayerSnapshotV1 := ⟨Bytes32.read 36 header, Bytes32.read 68 header, readU64 100 header,
    readU64 108 header, Bytes32.read 116 header⟩
  let plan : RelayerPlanV1 := ⟨Bytes32.read 0 header, kind, snapshot, Bytes32.read 148 header, preparedPlan,
    ⟨Bytes32.read 180 header, accounts, slice accountsBytes dataLength body⟩⟩
  return (⟨plan, ⟨plan.requestId, Bytes32.read 220 header, kind, readU64 252 header, readU64 260 header,
    readU32 268 header⟩, status⟩, headerEnd + bodyLength)

@[simp] theorem length_recordHeader (e : DurableRelayerEntryV1) :
    (recordHeader e).length = RELAYER_RECORD_HEADER_BYTES := by
  simp [recordHeader, RELAYER_RECORD_HEADER_BYTES]

/-- What stands after the fixed part. -/
def recordBody (e : DurableRelayerEntryV1) : Bytes :=
  e.plan.instruction.accounts.flatMap hashedAccount ++ (e.plan.instruction.data ++ encodeOptionalContext e.plan.preparedPlan)

theorem length_accounts (accounts : List AccountMeta) :
    (accounts.flatMap hashedAccount).length = accounts.length * 34 :=
  length_flatMap_const fun a _ => length_hashedAccount a

theorem length_encodeOptionalContext (c : Option PreparedSettlementValidationContextV1) :
    (encodeOptionalContext c).length = if c.isSome then RELAYER_PREPARED_PLAN_CONTEXT_BYTES else 0 := by
  cases c with
  | none => rfl
  | some c => exact length_encodeContext c

theorem length_recordBody (e : DurableRelayerEntryV1) : (recordBody e).length =
    e.plan.instruction.accounts.length * 34 + e.plan.instruction.data.length +
      if e.plan.preparedPlan.isSome then RELAYER_PREPARED_PLAN_CONTEXT_BYTES else 0 := by
  rw [recordBody, List.length_append, List.length_append, length_accounts, length_encodeOptionalContext, Nat.add_assoc]

/-- An entry whose record says all there is: the admission is of its plan, and its lists can be counted. -/
structure FitsRecord (e : DurableRelayerEntryV1) : Prop where
  request_eq : e.admission.requestId = e.plan.requestId
  kind_eq : e.admission.kind = e.plan.kind
  accounts_le : e.plan.instruction.accounts.length ≤ MAX_RELAYER_ACCOUNTS
  data_le : e.plan.instruction.data.length ≤ MAX_RELAYER_INSTRUCTION_BYTES

theorem decodeOptionalContext_encode (c : Option PreparedSettlementValidationContextV1) :
    decodeOptionalContext c.isSome (encodeOptionalContext c) = .ok c := by
  cases c with
  | none => rfl
  | some c =>
    rw [decodeOptionalContext, if_pos (by simp), encodeOptionalContext, decodeContext_encodeContext, except_ok_bind]
    rfl

theorem decodeRecord_readsBack {e : DurableRelayerEntryV1} (h : FitsRecord e) : ReadsBack decodeRecord encodeRecord e := by
  intro before after
  have haccountsLe := h.accounts_le
  have hdataLe := h.data_le
  simp only [MAX_RELAYER_ACCOUNTS] at haccountsLe
  simp only [MAX_RELAYER_INSTRUCTION_BYTES] at hdataLe
  have hsplit : before ++ (encodeRecord e ++ after) = before ++ (recordHeader e ++ (recordBody e ++ after)) := by
    simp only [encodeRecord, recordBody, List.append_assoc]
  have hlength : (encodeRecord e).length = RELAYER_RECORD_HEADER_BYTES + (recordBody e).length := by
    rw [encodeRecord, List.length_append, length_recordHeader]
    rfl
  have hheader : slice before.length RELAYER_RECORD_HEADER_BYTES (before ++ (recordHeader e ++ (recordBody e ++ after))) =
      recordHeader e := by
    rw [slice_append_right le_rfl, Nat.sub_self, slice_append_head (length_recordHeader e).symm]
  have hbody : slice (before.length + RELAYER_RECORD_HEADER_BYTES) (recordBody e).length
      (before ++ (recordHeader e ++ (recordBody e ++ after))) = recordBody e := by
    rw [slice_append_right (by omega), Nat.add_sub_cancel_left, slice_append_right (by simp), length_recordHeader,
      Nat.sub_self, slice_append_head rfl]
  have hroom : before.length + RELAYER_RECORD_HEADER_BYTES ≤
      (before ++ (recordHeader e ++ (recordBody e ++ after))).length := by
    simp only [List.length_append, length_recordHeader]
    omega
  have hroom' : before.length + RELAYER_RECORD_HEADER_BYTES + (recordBody e).length ≤
      (before ++ (recordHeader e ++ (recordBody e ++ after))).length := by
    simp only [List.length_append, length_recordHeader]
    omega
  have hcontextFlag : byteAt 34 (recordHeader e) = boolByte e.plan.preparedPlan.isSome := byteAt_of_slice (by
    simp [recordHeader, slice_append_right, slice_append_head])
  have hreserved : byteAt 35 (recordHeader e) = 0 := byteAt_of_slice_one (by
    simp [recordHeader, slice_append_right, slice_append_head]
    rfl)
  have hreserved' : slice 272 4 (recordHeader e) = zeros 4 := by
    simp [recordHeader, slice_append_right, slice_all]
  have hkind : byteAt 32 (recordHeader e) = encodeKindV1 e.plan.kind := byteAt_of_slice (by
    simp [recordHeader, slice_append_right, slice_append_head])
  have hstatus : byteAt 33 (recordHeader e) = encodeStatus e.status := byteAt_of_slice (by
    simp [recordHeader, slice_append_right, slice_append_head])
  have haccountCount : leNat (slice 212 4 (recordHeader e)) = e.plan.instruction.accounts.length := by
    have hslice : slice 212 4 (recordHeader e) = leBytes 4 e.plan.instruction.accounts.length := by
      simp [recordHeader, slice_append_right, slice_append_head]
    rw [hslice, leNat_leBytes_of_lt (by omega)]
  have hdataLength : leNat (slice 216 4 (recordHeader e)) = e.plan.instruction.data.length := by
    have hslice : slice 216 4 (recordHeader e) = leBytes 4 e.plan.instruction.data.length := by
      simp [recordHeader, slice_append_right, slice_append_head]
    rw [hslice, leNat_leBytes_of_lt (by omega)]
  have haccounts : decodeRecords 34 decodeAccount e.plan.instruction.accounts.length 0 (recordBody e) =
      .ok e.plan.instruction.accounts :=
    @decodeRecords_flatMap _ _ 34 hashedAccount decodeAccount _ [] _ 0 rfl (fun a _ => length_hashedAccount a)
      fun a _ => decodeAccount_hashedAccount a
  have hdata : slice (e.plan.instruction.accounts.length * 34) e.plan.instruction.data.length (recordBody e) =
      e.plan.instruction.data := by
    rw [recordBody, slice_append_right (by rw [length_accounts]), length_accounts, Nat.sub_self, slice_append_head rfl]
  have hcontext : (recordBody e).drop (e.plan.instruction.accounts.length * 34 + e.plan.instruction.data.length) =
      encodeOptionalContext e.plan.preparedPlan := by
    rw [recordBody, ← List.append_assoc, List.drop_left' (by rw [List.length_append, length_accounts])]
  have hrequest : Bytes32.read 0 (recordHeader e) = e.plan.requestId := Bytes32.read_eq (by
    simp [recordHeader, slice_append_head])
  have hpinned : Bytes32.read 36 (recordHeader e) = e.plan.snapshot.pinnedProgramId := Bytes32.read_eq (by
    simp [recordHeader, slice_append_right, slice_append_head])
  have hregistry : Bytes32.read 68 (recordHeader e) = e.plan.snapshot.registryProgram := Bytes32.read_eq (by
    simp [recordHeader, slice_append_right, slice_append_head])
  have hsequence : readU64 100 (recordHeader e) = e.plan.snapshot.currentRootSequence := readU64_of_slice (by
    simp [recordHeader, slice_append_right, slice_append_head])
  have hobserved : readU64 108 (recordHeader e) = e.plan.snapshot.observedSlot := readU64_of_slice (by
    simp [recordHeader, slice_append_right, slice_append_head])
  have hpool : Bytes32.read 116 (recordHeader e) = e.plan.snapshot.poolStateSha256 := Bytes32.read_eq (by
    simp [recordHeader, slice_append_right, slice_append_head])
  have hpayer : Bytes32.read 148 (recordHeader e) = e.plan.feePayer := Bytes32.read_eq (by
    simp [recordHeader, slice_append_right, slice_append_head])
  have hprogram : Bytes32.read 180 (recordHeader e) = e.plan.instruction.programId := Bytes32.read_eq (by
    simp [recordHeader, slice_append_right, slice_append_head])
  have hpolicy : Bytes32.read 220 (recordHeader e) = e.admission.policyId := Bytes32.read_eq (by
    simp [recordHeader, slice_append_right, slice_append_head])
  have hadmitted : readU64 252 (recordHeader e) = e.admission.admittedAtSlot := readU64_of_slice (by
    simp [recordHeader, slice_append_right, slice_append_head])
  have hwindow : readU64 260 (recordHeader e) = e.admission.rateWindowStartSlot := readU64_of_slice (by
    simp [recordHeader, slice_append_right, slice_append_head])
  have hafter : readU32 268 (recordHeader e) = e.admission.admissionsInWindowAfter := readU32_of_slice (by
    simp [recordHeader, slice_append_right, slice_append_head])
  rw [hsplit, hlength, decodeRecord]
  dsimp only
  rw [require_of _ hroom, except_ok_bind, hheader, hcontextFlag, decodeBoolV1_boolByte, except_ok_bind,
    require_of _ ⟨hreserved, hreserved'⟩, except_ok_bind, hkind, decodeKindV1_encodeKindV1, except_ok_bind, hstatus,
    decodeStatus_encodeStatus, except_ok_bind, haccountCount, hdataLength, require_of _ ⟨h.accounts_le, h.data_le⟩,
    except_ok_bind, ← length_recordBody, require_of _ hroom', except_ok_bind, hbody, haccounts, except_ok_bind, hcontext,
    decodeOptionalContext_encode, except_ok_bind, hrequest, hpinned, hregistry, hsequence, hobserved, hpool, hpayer,
    hprogram, hpolicy, hadmitted, hwindow, hafter, hdata, Nat.add_assoc]
  obtain ⟨plan, ⟨request, policy, kind, admitted, window, after'⟩, status⟩ := e
  obtain rfl : request = plan.requestId := h.request_eq
  obtain rfl : kind = plan.kind := h.kind_eq
  rfl

/-! ### The image -/

/-- The ASCII bytes `ASRQ`, the version and three reserved bytes. -/
def relayerPreamble : Bytes := [65, 83, 82, 81, 1, 0, 0, 0]

@[simp] theorem length_relayerPreamble : relayerPreamble.length = 8 := by simp [relayerPreamble]

/-- The header up to the checksum. -/
def relayerHeader (policyId : Bytes32) (start : UInt64) (admissions : UInt32) (count : ℕ) : Bytes :=
  relayerPreamble ++ (policyId.bytes ++ (u64Bytes start ++ (u32Bytes admissions ++ leBytes 4 count)))

@[simp] theorem length_relayerHeader (policyId : Bytes32) (start : UInt64) (admissions : UInt32) (count : ℕ) :
    (relayerHeader policyId start admissions count).length = CHECKSUM_OFFSET := by
  simp [relayerHeader, CHECKSUM_OFFSET]

def RELAYER_CHECKSUM_DOMAIN : Bytes := "aspis:pool-v1:durable-relayer-state:sha256:v1".toUTF8.toList

section
variable (sha256 : Bytes → Bytes32)

def checksumImageV1 (domain bytes : Bytes) : Except DurableStateErrorV1 Bytes32 := do
  require (RELAYER_HEADER_BYTES ≤ bytes.length) .truncated
  return sha256 (domain ++ maskedImage CHECKSUM_OFFSET bytes)

/-- Write the records after one another, as long as the image stays small enough. -/
def appendRecords (output : Bytes) : List DurableRelayerEntryV1 → Except DurableStateErrorV1 Bytes
  | [] => .ok output
  | e :: rest => do
    require (e.plan.instruction.accounts.length < 2 ^ 32) .countOverflow
    require (e.plan.instruction.data.length < 2 ^ 32) .countOverflow
    require (e.plan.instruction.accounts.length ≤ MAX_RELAYER_ACCOUNTS ∧
      e.plan.instruction.data.length ≤ MAX_RELAYER_INSTRUCTION_BYTES) .invalidRelayerState
    let longer := output ++ encodeRecord e
    require (longer.length ≤ MAX_DURABLE_IMAGE_BYTES) .imageTooLarge
    appendRecords longer rest

def encodeRelayerImageV1 (policyId : Bytes32) (start : UInt64) (admissions : UInt32)
    (entries : List DurableRelayerEntryV1) : Except DurableStateErrorV1 Bytes := do
  require (entries.length < 2 ^ 32) .countOverflow
  let output ← appendRecords (relayerHeader policyId start admissions entries.length ++ zeros 32) entries
  let checksum ← checksumImageV1 sha256 RELAYER_CHECKSUM_DOMAIN output
  return patch CHECKSUM_OFFSET checksum.bytes output

def validateHeaderV1 (bytes : Bytes) : Except DurableStateErrorV1 Unit := do
  require (RELAYER_HEADER_BYTES ≤ bytes.length) .truncated
  require (slice 0 4 bytes = slice 0 4 relayerPreamble) .wrongMagic
  require (slice 4 1 bytes = slice 4 1 relayerPreamble) .wrongVersion
  require (slice 5 3 bytes = zeros 3) .nonZeroReserved
  require (bytes.length ≤ MAX_DURABLE_IMAGE_BYTES) .imageTooLarge

/-- The policy id, the rate window and the entries of an image. -/
structure RelayerImageV1 where
  policyId : Bytes32
  rateWindowStartSlot : UInt64
  admissionsInWindow : UInt32
  entries : List DurableRelayerEntryV1
  deriving DecidableEq

def decodeRelayerImageV1 (bytes : Bytes) : Except DurableStateErrorV1 RelayerImageV1 := do
  validateHeaderV1 bytes
  let expected ← checksumImageV1 sha256 RELAYER_CHECKSUM_DOMAIN bytes
  require (Bytes32.read CHECKSUM_OFFSET bytes = expected) .checksumMismatch
  let entryCount := leNat (slice 52 4 bytes)
  require (entryCount ≤ MAX_RELAYER_RECORDS) .countOverflow
  let (entries, last) ← decodeRun decodeRecord entryCount RELAYER_HEADER_BYTES bytes
  require (last = bytes.length) .trailingBytes
  return ⟨Bytes32.read 8 bytes, readU64 40 bytes, readU32 48 bytes, entries⟩

end

theorem appendRecords_ok {entries : List DurableRelayerEntryV1} {output image : Bytes}
    (h : appendRecords output entries = .ok image) (hsmall : output.length ≤ MAX_DURABLE_IMAGE_BYTES) :
    image = output ++ entries.flatMap encodeRecord ∧ image.length ≤ MAX_DURABLE_IMAGE_BYTES ∧
      ∀ e ∈ entries, e.plan.instruction.accounts.length ≤ MAX_RELAYER_ACCOUNTS ∧
        e.plan.instruction.data.length ≤ MAX_RELAYER_INSTRUCTION_BYTES := by
  induction entries generalizing output with
  | nil =>
    obtain rfl := Except.ok.inj h
    exact ⟨by simp, hsmall, fun e he => absurd he List.not_mem_nil⟩
  | cons e rest ih =>
    simp only [appendRecords, except_bind_eq_ok, require_eq_ok] at h
    obtain ⟨_, _, _, _, _, hfits, _, hlonger, hrest⟩ := h
    obtain ⟨rfl, hlength, hall⟩ := ih hrest hlonger
    refine ⟨by rw [List.flatMap_cons, List.append_assoc], hlength, fun e' he' => ?_⟩
    rcases List.mem_cons.mp he' with rfl | hmem
    · exact hfits
    · exact hall e' hmem

/-- An image that could be written is read back whole. -/
theorem decode_encodeRelayerImageV1 {sha256 : Bytes → Bytes32} {policyId : Bytes32} {start : UInt64} {admissions : UInt32}
    {entries : List DurableRelayerEntryV1} {image : Bytes}
    (h : encodeRelayerImageV1 sha256 policyId start admissions entries = .ok image)
    (hentries : ∀ e ∈ entries, e.admission.requestId = e.plan.requestId ∧ e.admission.kind = e.plan.kind)
    (hcount : entries.length ≤ MAX_RELAYER_RECORDS) :
    decodeRelayerImageV1 sha256 image = .ok ⟨policyId, start, admissions, entries⟩ := by
  have hlimit : entries.length < 2 ^ 32 := by
    simp only [MAX_RELAYER_RECORDS] at hcount
    omega
  simp only [encodeRelayerImageV1, checksumImageV1, except_bind_eq_ok, require_eq_ok, except_pure_eq_ok] at h
  obtain ⟨_, _, output, happend, checksum, ⟨_, _, hchecksum⟩, himage⟩ := h
  obtain ⟨houtput, hsmall, hfits⟩ := appendRecords_ok happend (by simp [CHECKSUM_OFFSET, MAX_DURABLE_IMAGE_BYTES])
  rw [List.append_assoc] at houtput
  rw [houtput, patch_checksum checksum (length_relayerHeader _ _ _ _)] at himage
  have hlength : image.length = output.length := by
    rw [← himage, houtput]
    simp
  have hlong : RELAYER_HEADER_BYTES ≤ image.length := by
    rw [← himage]
    simp [RELAYER_HEADER_BYTES, CHECKSUM_OFFSET]
    omega
  have hread : ∀ {off len : ℕ} {b : Bytes}, off + len ≤ 56 →
      slice off len (relayerHeader policyId start admissions entries.length) = b → slice off len image = b := by
    intro off len b hlen hslice
    rw [← himage, slice_append_left (by simpa [CHECKSUM_OFFSET] using hlen), hslice]
  have hmagic : slice 0 4 image = slice 0 4 relayerPreamble := hread (by omega) (by
    rw [relayerHeader, slice_append_left (by simp)])
  have hversion : slice 4 1 image = slice 4 1 relayerPreamble := hread (by omega) (by
    rw [relayerHeader, slice_append_left (by simp)])
  have hreserved : slice 5 3 image = zeros 3 := hread (by omega) (by
    rw [relayerHeader, slice_append_left (by simp)]
    rfl)
  have hpolicy : Bytes32.read 8 image = policyId := Bytes32.read_eq (hread (by omega) (by
    simp [relayerHeader, slice_append_right, slice_append_head]))
  have hstart : readU64 40 image = start := readU64_of_slice (hread (by omega) (by
    simp [relayerHeader, slice_append_right, slice_append_head]))
  have hadmissions : readU32 48 image = admissions := readU32_of_slice (hread (by omega) (by
    simp [relayerHeader, slice_append_right, slice_append_head]))
  have hentryCount : leNat (slice 52 4 image) = entries.length := by
    have hslice : slice 52 4 image = leBytes 4 entries.length := hread (by omega) (by
      simp [relayerHeader, slice_append_right, slice_all])
    rw [hslice, leNat_leBytes_of_lt (by omega)]
  have hstored : Bytes32.read CHECKSUM_OFFSET image = checksum := Bytes32.read_eq (by
    rw [← himage, slice_append_right (by simp), length_relayerHeader, Nat.sub_self,
      slice_append_head checksum.length_eq.symm])
  have hexpected : checksumImageV1 sha256 RELAYER_CHECKSUM_DOMAIN image = .ok checksum := by
    rw [checksumImageV1, require_of _ hlong, except_ok_bind, ← hchecksum, houtput, ← himage]
    exact congrArg (fun b => Except.ok (sha256 (RELAYER_CHECKSUM_DOMAIN ++ b)))
      (maskedImage_congr checksum Bytes32.zero (length_relayerHeader _ _ _ _))
  have hrecords : decodeRun decodeRecord entries.length RELAYER_HEADER_BYTES image = .ok (entries, image.length) := by
    have hsplit : image = (relayerHeader policyId start admissions entries.length ++ checksum.bytes) ++
        (entries.flatMap encodeRecord ++ []) := by
      rw [← himage, List.append_nil, List.append_assoc]
    have hfront : (relayerHeader policyId start admissions entries.length ++ checksum.bytes).length =
        RELAYER_HEADER_BYTES := by
      simp [RELAYER_HEADER_BYTES, CHECKSUM_OFFSET]
    have hrun := @decodeRun_flatMap _ _ decodeRecord encodeRecord entries
      (relayerHeader policyId start admissions entries.length ++ checksum.bytes) [] fun e he =>
        decodeRecord_readsBack ⟨(hentries e he).1, (hentries e he).2, (hfits e he).1, (hfits e he).2⟩
    rw [← hsplit, hfront] at hrun
    rw [hrun]
    conv_rhs => rw [hsplit, List.length_append, hfront, List.append_nil]
  have hheader : validateHeaderV1 image = .ok () := by
    rw [validateHeaderV1, require_of _ hlong, except_ok_bind, require_of _ hmagic, except_ok_bind, require_of _ hversion,
      except_ok_bind, require_of _ hreserved, except_ok_bind, require_of _ (hlength ▸ hsmall)]
  rw [decodeRelayerImageV1, hheader, except_ok_bind, hexpected, except_ok_bind, require_of _ hstored, except_ok_bind]
  dsimp only
  rw [hentryCount, require_of _ hcount, except_ok_bind, hrecords, except_ok_bind]
  dsimp only
  rw [require_of _ rfl, except_ok_bind, hpolicy, hstart, hadmissions]
  rfl

/-- Entries that fit their records and together one image can be written. -/
theorem appendRecords_of_fits {entries : List DurableRelayerEntryV1} {output : Bytes}
    (hfits : ∀ e ∈ entries, e.plan.instruction.accounts.length ≤ MAX_RELAYER_ACCOUNTS ∧
      e.plan.instruction.data.length ≤ MAX_RELAYER_INSTRUCTION_BYTES)
    (hsmall : output.length + (entries.flatMap encodeRecord).length ≤ MAX_DURABLE_IMAGE_BYTES) :
    appendRecords output entries = .ok (output ++ entries.flatMap encodeRecord) := by
  induction entries generalizing output with
  | nil => simp [appendRecords]
  | cons e rest ih =>
    have he := hfits e List.mem_cons_self
    have haccounts : e.plan.instruction.accounts.length < 2 ^ 32 := by
      have := he.1
      simp only [MAX_RELAYER_ACCOUNTS] at this
      omega
    have hdata : e.plan.instruction.data.length < 2 ^ 32 := by
      have := he.2
      simp only [MAX_RELAYER_INSTRUCTION_BYTES] at this
      omega
    rw [List.flatMap_cons, List.length_append] at hsmall
    have hlonger : (output ++ encodeRecord e).length ≤ MAX_DURABLE_IMAGE_BYTES := by
      rw [List.length_append]
      omega
    have hrest := @ih (output ++ encodeRecord e) (fun e' he' => hfits e' (List.mem_cons_of_mem e he')) (by
      rw [List.length_append]
      omega)
    rw [appendRecords, require_of _ haccounts, except_ok_bind, require_of _ hdata, except_ok_bind, require_of _ he,
      except_ok_bind]
    dsimp only
    rw [require_of _ hlonger, except_ok_bind, hrest, List.flatMap_cons, List.append_assoc]

theorem encodeRelayerImageV1_of_fits {sha256 : Bytes → Bytes32} {policyId : Bytes32} {start : UInt64} {admissions : UInt32}
    {entries : List DurableRelayerEntryV1}
    (hfits : ∀ e ∈ entries, e.plan.instruction.accounts.length ≤ MAX_RELAYER_ACCOUNTS ∧
      e.plan.instruction.data.length ≤ MAX_RELAYER_INSTRUCTION_BYTES)
    (hsmall : RELAYER_HEADER_BYTES + (entries.flatMap encodeRecord).length ≤ MAX_DURABLE_IMAGE_BYTES)
    (hcount : entries.length < 2 ^ 32) : ∃ image,
      encodeRelayerImageV1 sha256 policyId start admissions entries = .ok image ∧ image.length ≤ MAX_DURABLE_IMAGE_BYTES := by
  have hfront : (relayerHeader policyId start admissions entries.length ++ zeros 32).length = RELAYER_HEADER_BYTES := by
    simp [RELAYER_HEADER_BYTES, CHECKSUM_OFFSET]
  have happend := @appendRecords_of_fits entries (relayerHeader policyId start admissions entries.length ++ zeros 32) hfits
    (by rw [hfront]; exact hsmall)
  have hlong : RELAYER_HEADER_BYTES ≤ ((relayerHeader policyId start admissions entries.length ++ zeros 32) ++
      entries.flatMap encodeRecord).length := by
    rw [List.length_append, hfront]
    omega
  have hencode : encodeRelayerImageV1 sha256 policyId start admissions entries = .ok (patch CHECKSUM_OFFSET
      (sha256 (RELAYER_CHECKSUM_DOMAIN ++ maskedImage CHECKSUM_OFFSET
        ((relayerHeader policyId start admissions entries.length ++ zeros 32) ++ entries.flatMap encodeRecord))).bytes
      ((relayerHeader policyId start admissions entries.length ++ zeros 32) ++ entries.flatMap encodeRecord)) := by
    rw [encodeRelayerImageV1, require_of _ hcount, except_ok_bind, happend, except_ok_bind, checksumImageV1,
      require_of _ hlong, except_ok_bind]
    rfl
  refine ⟨_, hencode, ?_⟩
  rw [length_patch_of_le, List.length_append, hfront]
  · exact hsmall
  · rw [Bytes32.length_eq]
    exact hlong

end Aspis.Relayer
