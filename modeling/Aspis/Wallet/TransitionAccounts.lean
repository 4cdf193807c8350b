import Aspis.Pool.PageLayouts
import Aspis.Verifier.Dispatch
import Aspis.Wallet.DurableState

/-! The wallet's view of a spend's account list. It sees only the keys of a
finalized instruction, and checks for a direct spend, a preparation and a
settlement that every page stands where the program reads it. The places that it
computes are those of the program's own planners. -/

namespace Aspis.Wallet

open Lib Chain Statement Pool
open Verifier (verifierStatementPayloadDigestV1 POOL_V1_HISTORICAL_ANCHOR_VERSION)

/-- The errors of the account checks. -/
inductive PoolRpcAdapterErrorV1
  | identityMismatch
  | missingInstructionAccounts
  | instructionAccountAlias
  | wrongInstructionAccounts
  | sequenceOverflow
  deriving DecidableEq, Repr

/-! ### The checks of an account list -/

def requireUniqueInstructionAccountsV1 (keys : List Pubkey) : Except PoolRpcAdapterErrorV1 Unit := do
  require (keys ≠ []) .missingInstructionAccounts
  require keys.Nodup .instructionAccountAlias

def instructionAccountV1 (keys : List Pubkey) (index : ℕ) : Except PoolRpcAdapterErrorV1 Pubkey :=
  okOr keys[index]? .wrongInstructionAccounts

/-- The account at `index` is the expected one. -/
def requireAccount (keys : List Pubkey) (index : ℕ) (key : Pubkey) : Except PoolRpcAdapterErrorV1 Unit := do
  let account ← instructionAccountV1 keys index
  require (account = key) .wrongInstructionAccounts

/-- The account at `index` is any but the zero key. -/
def requireNonzeroAccount (keys : List Pubkey) (index : ℕ) : Except PoolRpcAdapterErrorV1 Pubkey := do
  let account ← instructionAccountV1 keys index
  require (account ≠ Bytes32.zero) .wrongInstructionAccounts
  return account

section
variable (env : Environment) (identity : DepositScanIdentityV1)

/-- The page that the last new root opens, and the place after it. -/
def rolloverCursor (keys : List Pubkey) (currentPage finalPage cursor : ℕ) : Except PoolRpcAdapterErrorV1 ℕ :=
  if finalPage > currentPage then do
    requireAccount keys cursor (poolV1RootPageAddress env identity.pool finalPage).1
    return cursor + 1
  else return cursor

/-- The current page, unless the anchor page is the same, and the place after it. -/
def currentCursor (keys : List Pubkey) (anchorPage currentPage cursor : ℕ) : Except PoolRpcAdapterErrorV1 ℕ :=
  if (poolV1RootPageAddress env identity.pool currentPage).1 ≠ (poolV1RootPageAddress env identity.pool anchorPage).1 then do
    requireAccount keys cursor (poolV1RootPageAddress env identity.pool currentPage).1
    return cursor + 1
  else return cursor

def nullifierMarkerAddress (nullifier : Digest) : Except PoolRpcAdapterErrorV1 Pubkey := do
  require (DigestIsCanonical nullifier) .wrongInstructionAccounts
  return (poolV1NullifierMarkerAddress env identity.pool nullifier).1

/-- The token accounts of a withdrawal. -/
def requireTokenAccounts (keys : List Pubkey) (token : ℕ) : Option Bytes32 → Except PoolRpcAdapterErrorV1 Unit
  | none => return ()
  | some destination => do
    requireAccount keys token identity.assetMint
    requireAccount keys (token + 1) identity.vaultTokenAccount
    requireAccount keys (token + 2) destination
    requireAccount keys (token + 3) (poolV1VaultAuthorityAddress env identity.pool).1
    requireAccount keys (token + 4) LEGACY_SPL_TOKEN_PROGRAM_ID

/-- How many token accounts a transition has. -/
def tokenSuffix (kind : PoolV1TransitionKind) : ℕ := if kind = .withdrawal then 5 else 0

/-! ### A direct spend -/

/-- The accounts behind the pages: marker, payer, system program, four of the verifier, the token accounts. -/
def requireDirectSuffix (nullifier : Digest) (kind : PoolV1TransitionKind) (destination : Option Bytes32)
    (keys : List Pubkey) (cursor : ℕ) : Except PoolRpcAdapterErrorV1 Unit := do
  let marker ← nullifierMarkerAddress env identity nullifier
  require (keys.length = cursor + 7 + tokenSuffix kind) .wrongInstructionAccounts
  requireAccount keys cursor marker
  let _ ← requireNonzeroAccount keys (cursor + 1)
  requireAccount keys (cursor + 2) systemProgram
  let _ ← requireNonzeroAccount keys (cursor + 3)
  let _ ← requireNonzeroAccount keys (cursor + 4)
  let _ ← requireNonzeroAccount keys (cursor + 5)
  let _ ← requireNonzeroAccount keys (cursor + 6)
  requireTokenAccounts env identity keys (cursor + 7) destination

def validateDirectTransitionAccountsV1 (currentRootSequence finalRootSequence anchorSequence : ℕ) (nullifier : Digest)
    (kind : PoolV1TransitionKind) (destination : Option Bytes32) (keys : List Pubkey) :
    Except PoolRpcAdapterErrorV1 Unit := do
  requireUniqueInstructionAccountsV1 keys
  require (anchorSequence ≤ currentRootSequence) .wrongInstructionAccounts
  let anchorPage := (rootHistoryLocation anchorSequence).pageNumber
  let currentPage := (rootHistoryLocation currentRootSequence).pageNumber
  let finalPage := (rootHistoryLocation finalRootSequence).pageNumber
  require (anchorPage ≤ currentPage ∧ finalPage ≤ currentPage + 1) .wrongInstructionAccounts
  requireAccount keys 0 identity.pool
  requireAccount keys 1 (poolV1RootPageAddress env identity.pool anchorPage).1
  let cursor ← currentCursor env identity keys anchorPage currentPage 2
  let cursor ← rolloverCursor env identity keys currentPage finalPage cursor
  requireDirectSuffix env identity nullifier kind destination keys cursor

/-! ### A settlement -/

/-- The shard that holds the image of the page that is opened. -/
def settledShard (rollover : Bool) (corePlan : Pubkey) (keys : List Pubkey) (cursor : ℕ) :
    Except PoolRpcAdapterErrorV1 (Option Pubkey × ℕ) :=
  if rollover then do
    let shard ← requireNonzeroAccount keys cursor
    require (shard = (poolV1PreparedSettlementRolloverAddress env env.programId corePlan).1) .wrongInstructionAccounts
    return (some shard, cursor + 1)
  else return (none, cursor)

/-- The accounts behind the pages: marker, receipt, two of the registry, plan, shard, system program, token accounts. -/
def requireSettledSuffix (nullifier : Digest) (kind : PoolV1TransitionKind) (destination : Option Bytes32)
    (rollover : Bool) (keys : List Pubkey) (cursor : ℕ) :
    Except PoolRpcAdapterErrorV1 AuthenticatedPreparedSettlementPlanIdentityV1 := do
  let marker ← nullifierMarkerAddress env identity nullifier
  require (keys.length = cursor + 5 + rollover.toNat + 1 + tokenSuffix kind) .wrongInstructionAccounts
  requireAccount keys cursor marker
  let _ ← requireNonzeroAccount keys (cursor + 1)
  let _ ← requireNonzeroAccount keys (cursor + 2)
  let _ ← requireNonzeroAccount keys (cursor + 3)
  let corePlan ← requireNonzeroAccount keys (cursor + 4)
  let planAuthority ← instructionAccountV1 keys 0
  let (shard, cursor) ← settledShard env rollover corePlan keys (cursor + 5)
  requireAccount keys cursor systemProgram
  requireTokenAccounts env identity keys (cursor + 1) destination
  return ⟨planAuthority, corePlan, shard⟩

def validatePreparedTransitionAccountsV1 (currentRootSequence finalRootSequence : ℕ) (nullifier : Digest)
    (kind : PoolV1TransitionKind) (destination : Option Bytes32) (keys : List Pubkey) :
    Except PoolRpcAdapterErrorV1 AuthenticatedPreparedSettlementPlanIdentityV1 := do
  requireUniqueInstructionAccountsV1 keys
  let currentPage := (rootHistoryLocation currentRootSequence).pageNumber
  let finalPage := (rootHistoryLocation finalRootSequence).pageNumber
  require (finalPage ≤ currentPage + 1) .wrongInstructionAccounts
  let _ ← requireNonzeroAccount keys 0
  requireAccount keys 1 identity.pool
  requireAccount keys 2 (poolV1RootPageAddress env identity.pool currentPage).1
  let cursor ← rolloverCursor env identity keys currentPage finalPage 3
  requireSettledSuffix env identity nullifier kind destination (decide (finalPage > currentPage)) keys cursor

/-- The account checks of a spend that appends, direct or settled. -/
def authenticatedTransitionAccountsV1 (currentRootSequence anchorSequence : ℕ) (nullifier : Digest)
    (kind : PoolV1TransitionKind) (secondOutputOrDestination : Bytes32) (prepared : Bool) (keys : List Pubkey) :
    Except PoolRpcAdapterErrorV1 (Option AuthenticatedPreparedSettlementPlanIdentityV1) := do
  let finalRootSequence := currentRootSequence + kind.appendCount
  require (finalRootSequence < U64_LIMIT) .sequenceOverflow
  require (currentRootSequence < POOL_V1_LEAF_CAPACITY ∧ finalRootSequence ≤ POOL_V1_LEAF_CAPACITY) .sequenceOverflow
  let destination := if kind = .withdrawal then some secondOutputOrDestination else none
  if prepared then do
    let plan ← validatePreparedTransitionAccountsV1 env identity currentRootSequence finalRootSequence nullifier kind
      destination keys
    return some plan
  else do
    validateDirectTransitionAccountsV1 env identity currentRootSequence finalRootSequence anchorSequence nullifier kind
      destination keys
    return none

/-! ### A preparation -/

/-- What a decoded preparation gives its check. -/
structure PreparedSpendV1 where
  transitionKind : PoolV1TransitionKind
  notBeforeSlot : UInt64
  expiresAtSlot : UInt64
  envelope : HistoricalAnchorEnvelopeV1
  statementPool : Pubkey
  statementDomain : Bytes32
  statementAssetId : M31
  statementPayload : Bytes
  deriving DecidableEq

def requireIdentity (pool deploymentDomain : Bytes32) (assetId : M31) : Except PoolRpcAdapterErrorV1 Unit :=
  require (pool = identity.pool ∧ deploymentDomain = identity.deploymentDomain ∧ assetId.raw.toNat = identity.assetId)
    .identityMismatch

/-- The shard account of a preparation, when it opens a page, and the system program. -/
def preparedShard (rollover : Bool) (corePlan : Pubkey) (keys : List Pubkey) (cursor : ℕ) :
    Except PoolRpcAdapterErrorV1 (Option Pubkey) :=
  if rollover then do
    let shard := (poolV1PreparedSettlementRolloverAddress env env.programId corePlan).1
    requireAccount keys cursor shard
    requireAccount keys (cursor + 1) systemProgram
    return some shard
  else do
    requireAccount keys cursor systemProgram
    return none

/-- The accounts behind the pages: receipt, two of the registry, plan, shard, system program. -/
def preparedSettlementSuffix (id : DepositEventIdV1) (spend : PreparedSpendV1) (currentRootSequence : ℕ)
    (planAuthority : Pubkey) (rolloverPage : Option Pubkey) (keys : List Pubkey) (cursor : ℕ) :
    Except PoolRpcAdapterErrorV1 AuthenticatedPreparedSettlementV1 := do
  require (keys.length = cursor + if rolloverPage.isSome then 6 else 5) .wrongInstructionAccounts
  let receipt ← requireNonzeroAccount keys cursor
  let registry ← requireNonzeroAccount keys (cursor + 1)
  let entry ← requireNonzeroAccount keys (cursor + 2)
  let digest ← mapErr (fun _ => .wrongInstructionAccounts) (verifierStatementPayloadDigestV1 env.hashv
    POOL_V1_HISTORICAL_ANCHOR_VERSION spend.envelope.verifierProfile spend.envelope.verifierRelease spend.statementPayload)
  let corePlan := (poolV1PreparedSettlementPlanAddress env env.programId identity.pool digest currentRootSequence
    planAuthority).1
  requireAccount keys (cursor + 3) corePlan
  let shard ← preparedShard env rolloverPage.isSome corePlan keys (cursor + 4)
  return ⟨id, spend.transitionKind, .ofNat currentRootSequence, spend.notBeforeSlot, spend.expiresAtSlot, planAuthority,
    receipt, registry, entry, spend.envelope.verifierProfile, spend.envelope.verifierRelease, corePlan, rolloverPage, shard⟩

/-- The check of a preparation after its instruction is decoded. -/
def authenticatePreparedSettlementV1 (currentRootSequence : ℕ) (id : DepositEventIdV1) (spend : PreparedSpendV1)
    (keys : List Pubkey) : Except PoolRpcAdapterErrorV1 AuthenticatedPreparedSettlementV1 := do
  requireIdentity identity spend.statementPool spend.statementDomain spend.statementAssetId
  requireUniqueInstructionAccountsV1 keys
  let finalSequence := currentRootSequence + spend.transitionKind.appendCount
  require (finalSequence < U64_LIMIT) .wrongInstructionAccounts
  require (spend.envelope.anchorSequence ≤ currentRootSequence ∧ currentRootSequence < POOL_V1_LEAF_CAPACITY ∧
    finalSequence ≤ POOL_V1_LEAF_CAPACITY) .wrongInstructionAccounts
  let anchorPage := (rootHistoryLocation spend.envelope.anchorSequence).pageNumber
  let currentPage := (rootHistoryLocation currentRootSequence).pageNumber
  let finalPage := (rootHistoryLocation finalSequence).pageNumber
  require (anchorPage ≤ currentPage ∧ finalPage ≤ currentPage + 1) .wrongInstructionAccounts
  let planAuthority ← requireNonzeroAccount keys 0
  requireAccount keys 1 identity.pool
  requireAccount keys 2 (poolV1RootPageAddress env identity.pool anchorPage).1
  let cursor ← currentCursor env identity keys anchorPage currentPage 3
  let cursor ← rolloverCursor env identity keys currentPage finalPage cursor
  let rolloverPage := if finalPage > currentPage then some (poolV1RootPageAddress env identity.pool finalPage).1 else none
  preparedSettlementSuffix env identity id spend currentRootSequence planAuthority rolloverPage keys cursor

end

/-! ### The places that the checks expect -/

/-- The keys of an instruction: at least one and no two alike. -/
def UniqueKeys (keys : List Pubkey) : Prop := keys ≠ [] ∧ keys.Nodup

theorem requireUniqueInstructionAccountsV1_eq_ok {keys : List Pubkey} {u : Unit} :
    requireUniqueInstructionAccountsV1 keys = .ok u ↔ UniqueKeys keys := by
  simp only [requireUniqueInstructionAccountsV1, except_bind_eq_ok, require_eq_ok, UniqueKeys, exists_const]

theorem requireAccount_eq_ok {keys : List Pubkey} {index : ℕ} {key : Pubkey} {u : Unit} :
    requireAccount keys index key = .ok u ↔ keys[index]? = some key := by
  simp only [requireAccount, instructionAccountV1, except_bind_eq_ok, require_eq_ok, okOr_eq_ok]
  constructor
  · rintro ⟨account, hat, rfl⟩
    exact hat
  · intro hat
    exact ⟨key, hat, rfl⟩

theorem requireNonzeroAccount_eq_ok {keys : List Pubkey} {index : ℕ} {key : Pubkey} :
    requireNonzeroAccount keys index = .ok key ↔ keys[index]? = some key ∧ key ≠ Bytes32.zero := by
  simp only [requireNonzeroAccount, instructionAccountV1, except_bind_eq_ok, require_eq_ok, okOr_eq_ok,
    except_pure_eq_ok]
  constructor
  · rintro ⟨account, hat, -, hne, rfl⟩
    exact ⟨hat, hne⟩
  · rintro ⟨hat, hne⟩
    exact ⟨key, hat, (), hne, rfl⟩

section
variable {env : Environment} {identity : DepositScanIdentityV1} {keys : List Pubkey}

theorem currentCursor_eq_ok (pages : SpendPages) {start cursor : ℕ}
    (hanchor : keys[start]? = some (pages.anchorKey env identity.pool)) :
    currentCursor env identity keys pages.anchor pages.current (start + 1) = .ok cursor ↔
      keys[start + pages.currentOffset env identity.pool]? = some (pages.currentKey env identity.pool) ∧
        cursor = start + pages.currentOffset env identity.pool + 1 := by
  unfold SpendPages.anchorKey at hanchor
  unfold currentCursor SpendPages.currentOffset SpendPages.anchorKey SpendPages.currentKey
  by_cases hsame : (poolV1RootPageAddress env identity.pool pages.anchor).1 =
    (poolV1RootPageAddress env identity.pool pages.current).1
  · rw [if_neg (not_not.mpr hsame.symm), if_pos hsame, except_pure_eq_ok]
    simp [hanchor, hsame, eq_comm]
  · rw [if_pos (Ne.symm hsame), if_neg hsame]
    simp only [except_bind_eq_ok, requireAccount_eq_ok, except_pure_eq_ok]
    simp [eq_comm]

theorem rolloverCursor_eq_ok (anchorSequence : ℕ) {sequence count start cursor : ℕ} :
    rolloverCursor env identity keys (rootHistoryLocation sequence).pageNumber
        (rootHistoryLocation (sequence + count)).pageNumber start = .ok cursor ↔
      (∀ number ∈ (spendPages anchorSequence sequence count).rollover,
        keys[start]? = some (poolV1RootPageAddress env identity.pool number).1) ∧
        cursor = start + (spendPages anchorSequence sequence count).rolloverCount := by
  by_cases hrollover :
    (rootHistoryLocation (sequence + count)).pageNumber > (rootHistoryLocation sequence).pageNumber
  · simp only [rolloverCursor, spendPages, SpendPages.rolloverCount, if_pos hrollover, except_bind_eq_ok,
      requireAccount_eq_ok, except_pure_eq_ok, exists_const]
    simp [eq_comm]
  · simp only [rolloverCursor, spendPages, SpendPages.rolloverCount, if_neg hrollover, except_pure_eq_ok]
    simp [eq_comm]

/-- The sequence numbers of a spend fit into the tree. -/
def SequenceRoom (sequence count : ℕ) : Prop :=
  sequence < POOL_V1_LEAF_CAPACITY ∧ sequence + count ≤ POOL_V1_LEAF_CAPACITY

theorem SequenceRoom.lt_limit {sequence count : ℕ} (h : SequenceRoom sequence count) : sequence + count < U64_LIMIT := by
  simp only [SequenceRoom, POOL_V1_LEAF_CAPACITY, POOL_V1_TREE_DEPTH, U64_LIMIT] at *
  omega

theorem pageNumber_mono {a b : ℕ} (h : a ≤ b) :
    (rootHistoryLocation a).pageNumber ≤ (rootHistoryLocation b).pageNumber :=
  Nat.div_le_div_right h

variable {sequence anchorSequence : ℕ} {nullifier : Digest} {kind : PoolV1TransitionKind}

theorem pageNumber_final (sequence : ℕ) (kind : PoolV1TransitionKind) :
    (rootHistoryLocation (sequence + kind.appendCount)).pageNumber ≤ (rootHistoryLocation sequence).pageNumber + 1 :=
  (pageNumber_bounds sequence (kind.appendCount_le.2.trans (by decide))).2

/-- A direct spend is accepted when its pages stand behind the pool. -/
theorem validateDirectTransitionAccountsV1_eq_ok {destination : Option Bytes32} {u : Unit} :
    validateDirectTransitionAccountsV1 env identity sequence (sequence + kind.appendCount) anchorSequence nullifier kind
        destination keys = .ok u ↔
      UniqueKeys keys ∧ anchorSequence ≤ sequence ∧ keys[0]? = some identity.pool ∧
      (spendPages anchorSequence sequence kind.appendCount).At env identity.pool keys 1 ∧
      requireDirectSuffix env identity nullifier kind destination keys
        ((spendPages anchorSequence sequence kind.appendCount).suffixStart env identity.pool 1) = .ok () := by
  have hfinal := pageNumber_final sequence kind
  simp only [validateDirectTransitionAccountsV1, except_bind_eq_ok, require_eq_ok,
    requireUniqueInstructionAccountsV1_eq_ok, requireAccount_eq_ok]
  constructor
  · rintro ⟨-, hunique, -, hle, -, -, -, hpool, -, hanchor, cursor, hcurrent, last, hrollover, hsuffix⟩
    obtain ⟨hcurrentAt, rfl⟩ := (currentCursor_eq_ok (spendPages anchorSequence sequence kind.appendCount) hanchor).mp
      hcurrent
    obtain ⟨hrolloverAt, rfl⟩ := (rolloverCursor_eq_ok anchorSequence).mp hrollover
    exact ⟨hunique, hle, hpool, ⟨hanchor, hcurrentAt, hrolloverAt⟩, hsuffix⟩
  · rintro ⟨hunique, hle, hpool, hpages, hsuffix⟩
    exact ⟨(), hunique, (), hle, (), ⟨pageNumber_mono hle, hfinal⟩, (), hpool, (), hpages.anchor_at, _,
      (currentCursor_eq_ok (spendPages anchorSequence sequence kind.appendCount) hpages.anchor_at).mpr
        ⟨hpages.current_at, rfl⟩, _, (rolloverCursor_eq_ok anchorSequence).mpr ⟨hpages.rollover_at, rfl⟩, hsuffix⟩

theorem isSome_rollover (anchorSequence sequence count : ℕ) :
    (spendPages anchorSequence sequence count).rollover.isSome =
      decide ((rootHistoryLocation (sequence + count)).pageNumber > (rootHistoryLocation sequence).pageNumber) := by
  unfold spendPages
  split_ifs with h <;> simp [h]

/-- A settlement is accepted when its pages stand behind the authority and the pool. -/
theorem validatePreparedTransitionAccountsV1_eq_ok (anchorSequence : ℕ) {destination : Option Bytes32}
    {plan : AuthenticatedPreparedSettlementPlanIdentityV1} :
    validatePreparedTransitionAccountsV1 env identity sequence (sequence + kind.appendCount) nullifier kind destination
        keys = .ok plan ↔
      UniqueKeys keys ∧ (∃ authority, keys[0]? = some authority ∧ authority ≠ Bytes32.zero) ∧
      keys[1]? = some identity.pool ∧
      (spendPages anchorSequence sequence kind.appendCount).SettleAt env identity.pool keys 2 ∧
      requireSettledSuffix env identity nullifier kind destination
        (spendPages anchorSequence sequence kind.appendCount).rollover.isSome keys
        (3 + (spendPages anchorSequence sequence kind.appendCount).rolloverCount) = .ok plan := by
  have hfinal := pageNumber_final sequence kind
  simp only [validatePreparedTransitionAccountsV1, except_bind_eq_ok, require_eq_ok,
    requireUniqueInstructionAccountsV1_eq_ok, requireAccount_eq_ok, requireNonzeroAccount_eq_ok, isSome_rollover]
  constructor
  · rintro ⟨-, hunique, -, -, authority, hauthority, -, hpool, -, hcurrent, cursor, hrollover, hsuffix⟩
    obtain ⟨hrolloverAt, rfl⟩ := (rolloverCursor_eq_ok anchorSequence).mp hrollover
    exact ⟨hunique, ⟨authority, hauthority⟩, hpool, ⟨hcurrent, hrolloverAt⟩, hsuffix⟩
  · rintro ⟨hunique, ⟨authority, hauthority⟩, hpool, hpages, hsuffix⟩
    exact ⟨(), hunique, (), hfinal, authority, hauthority, (), hpool, (), hpages.current_at, _,
      (rolloverCursor_eq_ok anchorSequence).mpr ⟨hpages.rollover_at, rfl⟩, hsuffix⟩

/-- A preparation is accepted when its pages stand behind the authority and the pool. -/
theorem authenticatePreparedSettlementV1_eq_ok {id : DepositEventIdV1} {spend : PreparedSpendV1}
    {prepared : AuthenticatedPreparedSettlementV1} :
    authenticatePreparedSettlementV1 env identity sequence id spend keys = .ok prepared ↔
      requireIdentity identity spend.statementPool spend.statementDomain spend.statementAssetId = .ok () ∧
      UniqueKeys keys ∧ spend.envelope.anchorSequence ≤ sequence ∧
      SequenceRoom sequence spend.transitionKind.appendCount ∧
      ∃ authority, (keys[0]? = some authority ∧ authority ≠ Bytes32.zero) ∧ keys[1]? = some identity.pool ∧
        (spendPages spend.envelope.anchorSequence sequence spend.transitionKind.appendCount).At env identity.pool keys 2 ∧
        preparedSettlementSuffix env identity id spend sequence authority
          ((spendPages spend.envelope.anchorSequence sequence spend.transitionKind.appendCount).rollover.map fun number =>
            (poolV1RootPageAddress env identity.pool number).1) keys
          ((spendPages spend.envelope.anchorSequence sequence spend.transitionKind.appendCount).suffixStart env
            identity.pool 2) = .ok prepared := by
  have hfinal := pageNumber_final sequence spend.transitionKind
  have hmap : (spendPages spend.envelope.anchorSequence sequence spend.transitionKind.appendCount).rollover.map
      (fun number => (poolV1RootPageAddress env identity.pool number).1) =
      if (rootHistoryLocation (sequence + spend.transitionKind.appendCount)).pageNumber >
          (rootHistoryLocation sequence).pageNumber then
        some (poolV1RootPageAddress env identity.pool
          (rootHistoryLocation (sequence + spend.transitionKind.appendCount)).pageNumber).1
      else none := by
    unfold spendPages
    split_ifs <;> rfl
  rw [hmap]
  simp only [authenticatePreparedSettlementV1, except_bind_eq_ok, require_eq_ok,
    requireUniqueInstructionAccountsV1_eq_ok, requireAccount_eq_ok, requireNonzeroAccount_eq_ok]
  constructor
  · rintro ⟨_, hidentity, -, hunique, -, -, -, ⟨hle, hroom⟩, -, -, authority, hauthority, -, hpool, -, hanchor, cursor,
      hcurrent, last, hrollover, hsuffix⟩
    obtain ⟨hcurrentAt, rfl⟩ := (currentCursor_eq_ok
      (spendPages spend.envelope.anchorSequence sequence spend.transitionKind.appendCount) hanchor).mp hcurrent
    obtain ⟨hrolloverAt, rfl⟩ := (rolloverCursor_eq_ok spend.envelope.anchorSequence).mp hrollover
    exact ⟨hidentity, hunique, hle, hroom, authority, hauthority, hpool, ⟨hanchor, hcurrentAt, hrolloverAt⟩, hsuffix⟩
  · rintro ⟨hidentity, hunique, hle, hroom, authority, hauthority, hpool, hpages, hsuffix⟩
    exact ⟨(), hidentity, (), hunique, (), hroom.lt_limit, (), ⟨hle, hroom⟩, (), ⟨pageNumber_mono hle, hfinal⟩, authority,
      hauthority, (), hpool, (), hpages.anchor_at, _,
      (currentCursor_eq_ok (spendPages spend.envelope.anchorSequence sequence spend.transitionKind.appendCount)
        hpages.anchor_at).mpr ⟨hpages.current_at, rfl⟩, _,
      (rolloverCursor_eq_ok spend.envelope.anchorSequence).mpr ⟨hpages.rollover_at, rfl⟩, hsuffix⟩

/-- The wallet's check of a spend that appends: room in the tree, then the check of its kind. -/
theorem authenticatedTransitionAccountsV1_eq_ok {output : Bytes32} {prepared : Bool}
    {settled : Option AuthenticatedPreparedSettlementPlanIdentityV1} :
    authenticatedTransitionAccountsV1 env identity sequence anchorSequence nullifier kind output prepared keys =
        .ok settled ↔
      SequenceRoom sequence kind.appendCount ∧
      if prepared then
        ∃ plan, validatePreparedTransitionAccountsV1 env identity sequence (sequence + kind.appendCount) nullifier kind
          (if kind = .withdrawal then some output else none) keys = .ok plan ∧ settled = some plan
      else validateDirectTransitionAccountsV1 env identity sequence (sequence + kind.appendCount) anchorSequence nullifier
        kind (if kind = .withdrawal then some output else none) keys = .ok () ∧ settled = none := by
  simp only [authenticatedTransitionAccountsV1, except_bind_eq_ok, require_eq_ok]
  cases prepared with
  | false =>
    simp only [Bool.false_eq_true, if_false, except_bind_eq_ok, except_pure_eq_ok]
    constructor
    · rintro ⟨-, -, -, hroom, _, hdirect, rfl⟩
      exact ⟨hroom, hdirect, rfl⟩
    · rintro ⟨hroom, hdirect, rfl⟩
      exact ⟨(), hroom.lt_limit, (), hroom, (), hdirect, rfl⟩
  | true =>
    simp only [if_true, except_bind_eq_ok, except_pure_eq_ok]
    constructor
    · rintro ⟨-, -, -, hroom, plan, hplan, rfl⟩
      exact ⟨hroom, plan, hplan, rfl⟩
    · rintro ⟨hroom, plan, hplan, rfl⟩
      exact ⟨(), hroom.lt_limit, (), hroom, plan, hplan, rfl⟩

end

/-! ### One layout -/

section
variable (env : Environment) (identity : DepositScanIdentityV1) (s : PoolStateV1) (anchorSequence : ℕ)
  (kind : PoolV1TransitionKind) (l : Ledger)

/-- The program's planners and the wallet's checks put the same pages at the same places. -/
structure LayoutsAgree (pages : SpendPages) : Prop where
  /-- A direct spend: the pool, then the pages. -/
  direct_planner : ∀ accounts layout,
    planSpendPageLayoutV1 env accounts s anchorSequence kind.appendCount l = .ok layout ↔
      SequenceRoom s.currentRootSequence kind.appendCount ∧ pages.anchor ≤ pages.current ∧
      ∃ pool, accounts[0]? = some pool ∧ pages.LayoutAt env pool.key accounts 1 layout ∧
        SpendPageFlags env pool.key pages s layout l
  direct_wallet : ∀ nullifier output keys settled,
    authenticatedTransitionAccountsV1 env identity s.currentRootSequence anchorSequence nullifier kind output false keys =
        .ok settled ↔
      SequenceRoom s.currentRootSequence kind.appendCount ∧
      (UniqueKeys keys ∧ anchorSequence ≤ s.currentRootSequence ∧ keys[0]? = some identity.pool ∧
        pages.At env identity.pool keys 1 ∧
        requireDirectSuffix env identity nullifier kind (if kind = .withdrawal then some output else none) keys
          (pages.suffixStart env identity.pool 1) = .ok ()) ∧ settled = none
  /-- A preparation: the authority, the pool, then the pages. -/
  prepare_planner : ∀ accounts layout,
    planPrepareSettlementPageLayoutV1 env accounts s anchorSequence kind.appendCount l = .ok layout ↔
      SequenceRoom s.currentRootSequence kind.appendCount ∧ pages.anchor ≤ pages.current ∧
      ∃ pool, accounts[1]? = some pool ∧ pages.LayoutAt env pool.key accounts 2 layout ∧
        ReadonlyPage env layout.anchor l ∧ ReadonlyPage env layout.current l
  prepare_wallet : ∀ id spend keys prepared, spend.transitionKind = kind → spend.envelope.anchorSequence = anchorSequence →
    (authenticatePreparedSettlementV1 env identity s.currentRootSequence id spend keys = .ok prepared ↔
      requireIdentity identity spend.statementPool spend.statementDomain spend.statementAssetId = .ok () ∧
      UniqueKeys keys ∧ anchorSequence ≤ s.currentRootSequence ∧
      SequenceRoom s.currentRootSequence kind.appendCount ∧
      ∃ authority, (keys[0]? = some authority ∧ authority ≠ Bytes32.zero) ∧ keys[1]? = some identity.pool ∧
        pages.At env identity.pool keys 2 ∧
        preparedSettlementSuffix env identity id spend s.currentRootSequence authority
          (pages.rollover.map fun number => (poolV1RootPageAddress env identity.pool number).1) keys
          (pages.suffixStart env identity.pool 2) = .ok prepared)
  /-- A settlement: the authority, the pool, the current page and the page that is opened. -/
  settle_planner : ∀ accounts settled,
    planSettlePreparedLayoutV1 env accounts s kind l = .ok settled ↔
      SequenceRoom s.currentRootSequence kind.appendCount ∧ ∃ pool current next, accounts[1]? = some pool ∧
        pages.SettleAt env pool.key (accounts.map (·.key)) 2 ∧ accounts[2]? = some current ∧
        requireProgramAccount env.programId current l
          (decide ((rootHistoryLocation (s.currentRootSequence + 1)).pageNumber =
            (rootHistoryLocation s.currentRootSequence).pageNumber)) = .ok () ∧ current.isSigner = false ∧
        (next = pages.rollover.bind fun _ => accounts[3]?) ∧ (∀ account ∈ next, WritablePage env account l) ∧
        settleSuffix current (decide ((rootHistoryLocation (s.currentRootSequence + 1)).pageNumber =
            (rootHistoryLocation s.currentRootSequence).pageNumber)) next kind
          (accounts.drop (3 + pages.rolloverCount)) = .ok settled
  settle_wallet : ∀ nullifier output keys settled,
    authenticatedTransitionAccountsV1 env identity s.currentRootSequence anchorSequence nullifier kind output true keys =
        .ok settled ↔
      SequenceRoom s.currentRootSequence kind.appendCount ∧ ∃ plan,
        (UniqueKeys keys ∧ (∃ authority, keys[0]? = some authority ∧ authority ≠ Bytes32.zero) ∧
          keys[1]? = some identity.pool ∧ pages.SettleAt env identity.pool keys 2 ∧
          requireSettledSuffix env identity nullifier kind (if kind = .withdrawal then some output else none)
            pages.rollover.isSome keys (3 + pages.rolloverCount) = .ok plan) ∧ settled = some plan
  /-- The plan of a settlement fills the page that is opened exactly when the lists have one, and stores every root on
  the page and in the slot of its sequence number. -/
  distribution : ∀ (history : PrevalidatedCurrentHistoryV1) pool current header,
    SequenceRoom s.currentRootSequence kind.appendCount → history.requireMatches env pool current s l = .ok header →
    ∃ inCurrent inNext,
      checkedHistoryDistribution s.currentRootSequence header kind.appendCount = .ok (inCurrent, inNext) ∧
      inCurrent + inNext = kind.appendCount ∧
      (pages.rollover = if inNext = 0 then none else some (header.pageNumber + 1)) ∧
      ∀ i < kind.appendCount,
        rootHistoryLocation (s.currentRootSequence + 1 + i) = assignedPlace header inCurrent i ∧
        ∀ receipt number first, (current.data l).length = POOL_V1_ROOT_HISTORY_PAGE_ACCOUNT_BYTES →
          some (slice (64 + 32 * (rootHistoryLocation (s.currentRootSequence + 1 + i)).slot) 32
            (plannedPage (current.data l) header pool.key number first (appendRoots receipt) inCurrent i)) =
            (appendRoots receipt)[i]?.map encodeDigestCanonical

theorem spendRoom_iff {count : ℕ} : SpendRoom s count ↔ SequenceRoom s.currentRootSequence count :=
  ⟨fun h => ⟨h.not_full, h.fits⟩, fun h => ⟨h.1, h.2⟩⟩

/-- The distribution of a plan whose current page is validated. -/
theorem plan_distribution {history : PrevalidatedCurrentHistoryV1} {pool current : AccountInfo}
    {header : RootPageHeaderV1} (hroom : SequenceRoom s.currentRootSequence kind.appendCount)
    (hmatches : history.requireMatches env pool current s l = .ok header) :
    ∃ inCurrent inNext,
      checkedHistoryDistribution s.currentRootSequence header kind.appendCount = .ok (inCurrent, inNext) ∧
      inCurrent + inNext = kind.appendCount ∧
      ((spendPages anchorSequence s.currentRootSequence kind.appendCount).rollover =
        if inNext = 0 then none else some (header.pageNumber + 1)) ∧
      ∀ i < kind.appendCount,
        rootHistoryLocation (s.currentRootSequence + 1 + i) = assignedPlace header inCurrent i ∧
        ∀ receipt number first, (current.data l).length = POOL_V1_ROOT_HISTORY_PAGE_ACCOUNT_BYTES →
          some (slice (64 + 32 * (rootHistoryLocation (s.currentRootSequence + 1 + i)).slot) 32
            (plannedPage (current.data l) header pool.key number first (appendRoots receipt) inCurrent i)) =
            (appendRoots receipt)[i]?.map encodeDigestCanonical := by
  obtain ⟨hpage, -⟩ := history.requireMatches_ok hmatches
  obtain ⟨inCurrent, inNext, hok, hsum, hfit, hplace, hrollover⟩ := checkedHistoryDistribution_places anchorSequence
    hroom.2 kind.appendCount_le hpage.page_eq hpage.filled_eq
  have hcount := kind.appendCount_le
  refine ⟨inCurrent, inNext, hok, hsum, hrollover, fun i hi => ⟨hplace i hi, fun receipt number first hlen => ?_⟩⟩
  have hroots : (appendRoots receipt).length = 2 := rfl
  rw [hplace i hi]
  exact slice_plannedPage (by omega) (by omega) (hroots ▸ by decide) hfit hlen

/-- For every sequence number, anchor, kind of spend and list of accounts, one layout decides all five. -/
theorem spend_layouts_agree :
    LayoutsAgree env identity s anchorSequence kind l (spendPages anchorSequence s.currentRootSequence kind.appendCount) := by
  have hcount : kind.appendCount ≤ POOL_V1_ROOT_HISTORY_CAPACITY := kind.appendCount_le.2.trans (by decide)
  constructor
  case direct_planner =>
    intro accounts layout
    rw [planSpendPageLayoutV1_eq_ok hcount, spendRoom_iff]
  case direct_wallet =>
    intro nullifier output keys settled
    rw [authenticatedTransitionAccountsV1_eq_ok, if_neg (by decide), validateDirectTransitionAccountsV1_eq_ok]
  case prepare_planner =>
    intro accounts layout
    rw [planPrepareSettlementPageLayoutV1_eq_ok hcount, spendRoom_iff]
  case prepare_wallet =>
    rintro id spend keys prepared rfl rfl
    exact authenticatePreparedSettlementV1_eq_ok
  case settle_planner =>
    intro accounts settled
    rw [planSettlePreparedLayoutV1_eq_ok anchorSequence, spendRoom_iff]
  case settle_wallet =>
    intro nullifier output keys settled
    rw [authenticatedTransitionAccountsV1_eq_ok, if_pos rfl]
    simp only [validatePreparedTransitionAccountsV1_eq_ok anchorSequence]
  case distribution =>
    intro history pool current header hroom hmatches
    exact plan_distribution env s anchorSequence kind l hroom hmatches

end

end Aspis.Wallet
