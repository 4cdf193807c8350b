import Aspis.Pool.Transition
import Aspis.Pool.Vault

/-! Pool initialization and vault-backed deposits. A deposit moves tokens into
the vault and appends the commitment of its public note; the leaf is written
only after the exact balance change has been read back. -/

namespace Aspis.Pool

open Lib Chain Statement

section
variable (env : Environment)

/-! ### Initialization -/

inductive VaultPreparationV1
  | createAndInitialize
  | initializedEmpty
  deriving DecidableEq, Repr

def requireInitializedEmptyVault (pool mint : Pubkey) (vault : AccountInfo) (l : Ledger) :
    Except ProgramError Unit := do
  require (vault.key = (poolV1VaultTokenAccountAddress env pool).1 ∧
    vault.owner l = LEGACY_SPL_TOKEN_PROGRAM_ID ∧ vault.executable l = false ∧ vault.isSigner = false ∧
    vault.isWritable = true) (.custom .invalidVaultTokenAddress)
  let parsed ← parseLegacyTokenAccountV1 (vault.data l)
  require (parsed.mint = mint ∧ parsed.authority = (poolV1VaultAuthorityAddress env pool).1 ∧ parsed.amount = 0 ∧
    parsed.hasDelegate = false ∧ parsed.isNative = false ∧ parsed.delegatedAmount = 0 ∧
    parsed.hasCloseAuthority = false) (.custom .unsupportedTokenConfiguration)

def planVaultInitialization (pool mint : Pubkey) (vault : AccountInfo) (l : Ledger) :
    Except ProgramError VaultPreparationV1 := do
  require (vault.key = (poolV1VaultTokenAccountAddress env pool).1 ∧ vault.executable l = false ∧
    vault.isSigner = false ∧ vault.isWritable = true) (.custom .invalidVaultTokenAddress)
  if vault.owner l = systemProgram ∧ vault.data l = [] then
    return .createAndInitialize
  else
    requireInitializedEmptyVault env pool mint vault l
    return .initializedEmpty

def initializeVaultAccount (pool : Pubkey) (mint vault payer system : AccountInfo) (preparation : VaultPreparationV1) : Handler Unit :=
  if preparation = .initializedEmpty then pure ()
  else do
    createOrAllocatePda env payer vault system 165 LEGACY_SPL_TOKEN_PROGRAM_ID
    Exec.call (env.initializeAccount3 vault.key mint.key (poolV1VaultAuthorityAddress env pool).1)
    Exec.query (requireInitializedEmptyVault env pool mint.key vault)

def processInitializeV1 (accounts : List AccountInfo) (init : PoolInitializationV1) : Handler Unit :=
  match accounts with
  | [payer, pool, pageZero, mint, vault, tokenProgram, system] => do
    let (poolPreparation, pagePreparation, vaultPreparation) ← Exec.query fun l => do
      requireUniqueAccounts accounts
      requirePayerAndSystemProgram payer system l
      requireTokenProgramAccount tokenProgram l
      require (mint.key = init.assetMint ∧ mint.owner l = LEGACY_SPL_TOKEN_PROGRAM_ID ∧
        mint.executable l = false ∧ mint.isSigner = false ∧ mint.isWritable = false) (.custom .invalidMint)
      let _ ← parseLegacyMintV1 (mint.data l)
      let poolPreparation ← planFreshProgramPda env pool (poolV1StateAddress env init.assetMint).1
        POOL_V1_STATE_ACCOUNT_BYTES l
      let pagePreparation ← planFreshProgramPda env pageZero (poolV1RootPageAddress env pool.key 0).1
        POOL_V1_ROOT_HISTORY_PAGE_ACCOUNT_BYTES l
      let vaultPreparation ← planVaultInitialization env pool.key init.assetMint vault l
      let state ← PoolStateV1.genesis env pool.key init
      state.validateEncoding env
      return (poolPreparation, pagePreparation, vaultPreparation)
    createProgramPdaIfNeeded env payer pool system POOL_V1_STATE_ACCOUNT_BYTES poolPreparation
    createProgramPdaIfNeeded env payer pageZero system POOL_V1_ROOT_HISTORY_PAGE_ACCOUNT_BYTES pagePreparation
    initializeVaultAccount env pool.key mint vault payer system vaultPreparation
    initializePoolAccountsV1 env pool pageZero init
  | _ => Exec.query fun _ => .error (if accounts.length < 7 then .notEnoughAccountKeys else .invalidArgument)

/-! ### Deposits -/

structure DepositRequestV1 where
  ownerKey : Digest
  amount : ℕ
  salt : Digest
  encryptedNotePayload : Bytes
  deriving DecidableEq

structure DepositReceiptV1 where
  pool : Pubkey
  assetMint : Pubkey
  sourceTokenAccount : Pubkey
  vaultTokenAccount : Pubkey
  amount : ℕ
  encryptedNotePayloadBytes : ℕ
  noteCommitment : Digest
  leafIndex : ℕ
  rootSequence : ℕ
  root : Digest
  deriving DecidableEq

def validateRequest (r : DepositRequestV1) : Except ProgramError Unit := do
  require (r.amount ≠ 0 ∧ r.amount < VALUE_LIMIT) (.custom .invalidDepositAmount)
  require (r.encryptedNotePayload.length ≤ 512) (.custom .invalidEncryptedNotePayload)
  require (DigestIsCanonical r.ownerKey ∧ DigestIsCanonical r.salt) (.custom .nonCanonicalLeaf)

/-- The receipt is validated again when it is emitted. -/
def validateDepositReceiptV1 (r : DepositReceiptV1) : Except ProgramError Unit := do
  require (r.pool ≠ Bytes32.zero ∧ r.assetMint ≠ Bytes32.zero ∧ r.sourceTokenAccount ≠ Bytes32.zero ∧
    r.vaultTokenAccount ≠ Bytes32.zero ∧ r.sourceTokenAccount ≠ r.vaultTokenAccount) .invalidAccountData
  require (r.amount ≠ 0 ∧ r.amount < VALUE_LIMIT) .invalidAccountData
  require (r.encryptedNotePayloadBytes ≤ 512) .invalidAccountData
  require (DigestIsCanonical r.noteCommitment ∧ DigestIsCanonical r.root) .invalidAccountData
  require (r.leafIndex + 1 = r.rootSequence) .invalidAccountData

/-- The checks and the transfer plan of a deposit against a decoded pool. -/
def planVaultBackedDeposit (stateAccounts tokenAccounts : List AccountInfo) (pool : AccountInfo)
    (c : CanonicalPoolStateV1) (r : DepositRequestV1) (l : Ledger) :
    Except ProgramError (LegacyDepositTransferPlanV1 × Digest) := do
  validateRequest r
  require (∀ a ∈ stateAccounts, ∀ b ∈ tokenAccounts, a.key ≠ b.key) .invalidArgument
  c.requireSameWritableAccount env pool l
  let plan ← planLegacyDepositTransferFromIdentityV1 env c.state.identity.pool c.state.identity tokenAccounts
    r.amount l
  return (plan, env.noteCommitment r.ownerKey r.amount c.state.identity.assetId r.salt)

def applyPrevalidatedVaultBackedDepositV1 (pool current : AccountInfo) (next : Option AccountInfo)
    (tokenAccounts : List AccountInfo) (c : CanonicalPoolStateV1) (r : DepositRequestV1) :
    Handler DepositReceiptV1 := do
  let (plan, note) ← Exec.query
    (planVaultBackedDeposit env (pool :: current :: next.toList) tokenAccounts pool c r)
  let append ← applyAuthorizedAppendAfterPrevalidatedV1 env pool current next c (.one note) do
    Exec.call (env.transferChecked plan.instruction)
    Exec.query (validateExactDepositDeltaV1 tokenAccounts plan)
  let receipt : DepositReceiptV1 :=
    { pool := c.state.identity.pool, assetMint := c.state.identity.assetMint, sourceTokenAccount := plan.source
      vaultTokenAccount := plan.vault, amount := r.amount
      encryptedNotePayloadBytes := r.encryptedNotePayload.length, noteCommitment := note
      leafIndex := append.first.leafIndex, rootSequence := append.first.leafIndex + 1, root := append.first.root }
  Exec.query fun _ => validateDepositReceiptV1 receipt
  return receipt

def depositRollsToNextPage (s : PoolStateV1) : Bool :=
  (rootHistoryLocation (s.currentRootSequence + 1)).pageNumber ≠
    (rootHistoryLocation s.currentRootSequence).pageNumber

/-- A deposit whose root still fits the current page. -/
def depositInCurrentPage (pool : AccountInfo) (rest : List AccountInfo) (c : CanonicalPoolStateV1)
    (r : DepositRequestV1) : Handler DepositReceiptV1 :=
  match rest with
  | [current, mint, source, sourceAuthority, vault, tokenProgram] => do
    Exec.query fun l => do
      requireUniqueAccounts (pool :: rest)
      requireTokenProgramAccount tokenProgram l
    applyPrevalidatedVaultBackedDepositV1 env pool current none [mint, source, sourceAuthority, vault, tokenProgram] c r
  | _ => Exec.query fun _ => .error (if rest.length < 6 then .notEnoughAccountKeys else .invalidArgument)

/-- A deposit whose root starts a new page, which is created first. -/
def depositInNextPage (pool : AccountInfo) (rest : List AccountInfo) (c : CanonicalPoolStateV1)
    (r : DepositRequestV1) : Handler DepositReceiptV1 :=
  match rest with
  | [current, next, mint, source, sourceAuthority, vault, tokenProgram, payer, system] => do
    let nextNumber := (rootHistoryLocation (c.state.currentRootSequence + 1)).pageNumber
    let preparation ← Exec.query fun l => do
      requireUniqueAccounts (pool :: rest)
      requirePayerAndSystemProgram payer system l
      requireTokenProgramAccount tokenProgram l
      require (current.isSigner = false ∧ current.isWritable = false) .invalidAccountData
      let _ ← validateCurrentHistory env pool current c.state l
      let _ ← planLegacyDepositTransferFromIdentityV1 env pool.key c.state.identity
        [mint, source, sourceAuthority, vault, tokenProgram] r.amount l
      planFreshProgramPda env next (poolV1RootPageAddress env pool.key nextNumber).1
        POOL_V1_ROOT_HISTORY_PAGE_ACCOUNT_BYTES l
    createProgramPdaIfNeeded env payer next system POOL_V1_ROOT_HISTORY_PAGE_ACCOUNT_BYTES preparation
    Exec.query (validateNewPageAccount env pool.key nextNumber next)
    applyPrevalidatedVaultBackedDepositV1 env pool current (some next)
      [mint, source, sourceAuthority, vault, tokenProgram] c r
  | _ => Exec.query fun _ => .error (if rest.length < 9 then .notEnoughAccountKeys else .invalidArgument)

def processDepositV1 (accounts : List AccountInfo) (r : DepositRequestV1) : Handler DepositReceiptV1 :=
  match accounts with
  | [] => Exec.query fun _ => .error .notEnoughAccountKeys
  | pool :: rest => do
    let c ← Exec.query (CanonicalPoolStateV1.decodeAccount env pool)
    if depositRollsToNextPage c.state = false then depositInCurrentPage env pool rest c r
    else depositInNextPage env pool rest c r

/-! ### What a successful instruction did -/

variable {env : Environment}

/-- The steps of a successful deposit. -/
structure DepositRun (env : Environment) (pool current : AccountInfo) (next : Option AccountInfo)
    (tokenAccounts : List AccountInfo) (c : CanonicalPoolStateV1) (r : DepositRequestV1)
    (transfer : LegacyDepositTransferPlanV1) (plan : AppendPlanV1) (l created paid l' : Ledger)
    (receipt : DepositReceiptV1) : Prop where
  decoded : CanonicalPoolStateV1.decodeAccount env pool l = .ok c
  created_call : SystemCall l created
  planned : planVaultBackedDeposit env (pool :: current :: next.toList) tokenAccounts pool c r created =
    .ok (transfer, receipt.noteCommitment)
  canonical : DigestIsCanonical receipt.noteCommitment
  append : planAuthorizedAppend env pool current next (.canonical c) none (.one receipt.noteCommitment) created =
    .ok plan
  transferred : env.transferChecked transfer.instruction created = .ok paid
  delta : validateExactDepositDeltaV1 tokenAccounts transfer paid = .ok ()
  persisted : plan.persist pool.key current.key paid = l'
  receipt_pool : receipt.pool = c.state.identity.pool
  receipt_amount : receipt.amount = r.amount

theorem applyPrevalidatedVaultBackedDepositV1_run {pool current : AccountInfo} {next : Option AccountInfo}
    {tokenAccounts : List AccountInfo} {c : CanonicalPoolStateV1} {r : DepositRequestV1} {l created l' : Ledger}
    {receipt : DepositReceiptV1} (hdecoded : CanonicalPoolStateV1.decodeAccount env pool l = .ok c)
    (hcreated : SystemCall l created)
    (h : applyPrevalidatedVaultBackedDepositV1 env pool current next tokenAccounts c r created = .ok receipt l') :
    ∃ transfer plan paid,
      DepositRun env pool current next tokenAccounts c r transfer plan l created paid l' receipt := by
  simp only [applyPrevalidatedVaultBackedDepositV1, applyAuthorizedAppendAfterPrevalidatedV1,
    applyAuthorizedAppendAfterCheckedStateV1_ok, AuthorizedAppendV1.validateLeaves, Exec.bind_ok, Exec.query_ok,
    Exec.call_ok, Exec.pure_ok, require_eq_ok] at h
  obtain ⟨⟨transfer, note⟩, _, ⟨hplanned, rfl⟩, append, _, ⟨_, _, ⟨-, rfl⟩, _, _, ⟨hcanon, rfl⟩, plan, m, happend,
    ⟨_, paid, hpaid, hdelta, rfl⟩, hpersist, rfl⟩, _, _, ⟨-, rfl⟩, rfl, rfl⟩ := h
  exact ⟨transfer, plan, paid, hdecoded, hcreated, hplanned, hcanon note (by simp [AuthorizedAppendV1.leaves]),
    happend, hpaid, hdelta, hpersist, rfl, rfl⟩

theorem depositInCurrentPage_run {pool : AccountInfo} {rest : List AccountInfo} {c : CanonicalPoolStateV1}
    {r : DepositRequestV1} {l l' : Ledger} {receipt : DepositReceiptV1}
    (hdecoded : CanonicalPoolStateV1.decodeAccount env pool l = .ok c)
    (h : depositInCurrentPage env pool rest c r l = .ok receipt l') :
    ∃ current next tokenAccounts transfer plan created paid,
      DepositRun env pool current next tokenAccounts c r transfer plan l created paid l' receipt := by
  unfold depositInCurrentPage at h
  split at h
  · simp only [Exec.bind_ok, Exec.query_ok] at h
    obtain ⟨_, _, ⟨-, rfl⟩, h⟩ := h
    obtain ⟨transfer, plan, paid, hrun⟩ :=
      applyPrevalidatedVaultBackedDepositV1_run hdecoded (SystemCall.refl _) h
    exact ⟨_, _, _, transfer, plan, _, paid, hrun⟩
  · simp [Exec.query_ok] at h

theorem depositInNextPage_run {pool : AccountInfo} {rest : List AccountInfo} {c : CanonicalPoolStateV1}
    {r : DepositRequestV1} {l l' : Ledger} {receipt : DepositReceiptV1}
    (hdecoded : CanonicalPoolStateV1.decodeAccount env pool l = .ok c)
    (h : depositInNextPage env pool rest c r l = .ok receipt l') :
    ∃ current next tokenAccounts transfer plan created paid,
      DepositRun env pool current next tokenAccounts c r transfer plan l created paid l' receipt := by
  unfold depositInNextPage at h
  split at h
  · simp only [Exec.bind_ok, Exec.query_ok] at h
    obtain ⟨preparation, _, ⟨-, rfl⟩, _, created, hcreated, _, _, ⟨-, rfl⟩, h⟩ := h
    obtain ⟨transfer, plan, paid, hrun⟩ :=
      applyPrevalidatedVaultBackedDepositV1_run hdecoded (createProgramPdaIfNeeded_call hcreated) h
    exact ⟨_, _, _, transfer, plan, created, paid, hrun⟩
  · simp [Exec.query_ok] at h

theorem processDepositV1_run {accounts : List AccountInfo} {r : DepositRequestV1} {l l' : Ledger}
    {receipt : DepositReceiptV1} (h : processDepositV1 env accounts r l = .ok receipt l') :
    ∃ pool current next tokenAccounts c transfer plan created paid, accounts.head? = some pool ∧
      DepositRun env pool current next tokenAccounts c r transfer plan l created paid l' receipt := by
  cases accounts with
  | nil => simp [processDepositV1, Exec.query_ok] at h
  | cons pool rest =>
    simp only [processDepositV1, Exec.bind_ok, Exec.query_ok] at h
    obtain ⟨c, _, ⟨hdecoded, rfl⟩, h⟩ := h
    split_ifs at h
    · obtain ⟨current, next, tokenAccounts, transfer, plan, created, paid, hrun⟩ :=
        depositInCurrentPage_run hdecoded h
      exact ⟨pool, current, next, tokenAccounts, c, transfer, plan, created, paid, rfl, hrun⟩
    · obtain ⟨current, next, tokenAccounts, transfer, plan, created, paid, hrun⟩ :=
        depositInNextPage_run hdecoded h
      exact ⟨pool, current, next, tokenAccounts, c, transfer, plan, created, paid, rfl, hrun⟩

/-- The vault was there already, or a system account was made into one. -/
def VaultInitialized (env : Environment) (l l' : Ledger) : Prop :=
  SystemCall l l' ∨ ∃ vault mint authority m, (l vault).owner = systemProgram ∧ SystemCall l m ∧
    env.initializeAccount3 vault mint authority m = .ok l'

theorem VaultInitialized.outside {l l' : Ledger} (h : VaultInitialized env l l') : Outside env.programId l l' := by
  rcases h with hcall | ⟨vault, mint, authority, m, -, hcall, hinit⟩
  · exact hcall.outside env.programId_ne_system
  · exact (hcall.outside env.programId_ne_system).trans (env.initializeAccount3_outside _ _ _ _ _ hinit)

/-- The steps of a successful initialization. -/
structure InitializeRun (env : Environment) (pool pageZero : AccountInfo) (init : PoolInitializationV1)
    (state : PoolStateV1) (l prepared l' : Ledger) : Prop where
  vault : VaultInitialized env l prepared
  pool_owner : (prepared pool.key).owner = env.programId
  pool_zeroed : allZero (prepared pool.key).data = true
  pool_address : pool.key = (poolV1StateAddress env init.assetMint).1
  page : NewPage env pool.key 0 pageZero.key prepared
  distinct : pool.key ≠ pageZero.key
  genesis : PoolStateV1.genesis env pool.key init = .ok state
  written : l' = setData pageZero.key (writeNewPageUnchecked pool.key 0 0 [env.emptyRoots POOL_V1_TREE_DEPTH])
    (setData pool.key state.writeEncodingPrevalidated prepared)

theorem InitializeRun.outside {pool pageZero : AccountInfo} {init : PoolInitializationV1} {state : PoolStateV1}
    {l prepared l' : Ledger} (h : InitializeRun env pool pageZero init state l prepared l') :
    Outside env.programId l prepared := h.vault.outside

theorem planVaultInitialization_system {pool mint : Pubkey} {vault : AccountInfo} {l : Ledger}
    (h : planVaultInitialization env pool mint vault l = .ok .createAndInitialize) :
    (l vault.key).owner = systemProgram := by
  simp only [planVaultInitialization, except_bind_eq_ok] at h
  obtain ⟨_, -, h⟩ := h
  split_ifs at h with hsystem
  · exact hsystem.1
  · simp only [except_bind_eq_ok, except_pure_eq_ok] at h
    obtain ⟨_, -, h⟩ := h
    cases h

theorem initializeVaultAccount_initialized {pool mintKey : Pubkey} {mint vault payer system : AccountInfo}
    {preparation : VaultPreparationV1} {l m l' : Ledger} {u : Unit}
    (hplan : planVaultInitialization env pool mintKey vault l = .ok preparation) (hcall : SystemCall l m)
    (h : initializeVaultAccount env pool mint vault payer system preparation m = .ok u l') :
    VaultInitialized env l l' := by
  unfold initializeVaultAccount at h
  split_ifs at h with hprepared
  · obtain ⟨-, rfl⟩ := Exec.pure_ok.mp h
    exact .inl hcall
  · simp only [Exec.bind_ok, Exec.call_ok, Exec.query_ok] at h
    obtain ⟨_, n, hcreate, _, o, hinit, -, rfl⟩ := h
    cases preparation with
    | initializedEmpty => exact absurd rfl hprepared
    | createAndInitialize =>
      exact .inr ⟨vault.key, _, _, n, planVaultInitialization_system hplan,
        hcall.trans (createOrAllocatePda_call hcreate), hinit⟩

theorem initializePoolAccountsV1_ok {pool pageZero : AccountInfo} {init : PoolInitializationV1}
    {l prepared l' : Ledger} {u : Unit} (hvault : VaultInitialized env l prepared)
    (h : initializePoolAccountsV1 env pool pageZero init prepared = .ok u l') :
    ∃ state, InitializeRun env pool pageZero init state l prepared l' := by
  simp only [initializePoolAccountsV1, Exec.bind_ok, Exec.query_ok, Exec.update_ok, except_bind_eq_ok, require_eq_ok,
    except_pure_eq_ok] at h
  obtain ⟨state, _, ⟨⟨_, howner, _, haddress, _, hpage, _, hne, _, ⟨-, hzero⟩, state', hgenesis, _, -, rfl⟩, rfl⟩, _,
    _, rfl, rfl⟩ := h
  exact ⟨_, hvault, requireProgramAccount_ok howner, hzero, haddress, validateNewPageAccount_ok hpage, hne, hgenesis, rfl⟩

theorem processInitializeV1_run {accounts : List AccountInfo} {init : PoolInitializationV1} {l l' : Ledger} {u : Unit}
    (h : processInitializeV1 env accounts init l = .ok u l') :
    ∃ pool pageZero state prepared, accounts[1]? = some pool ∧
      InitializeRun env pool pageZero init state l prepared l' := by
  unfold processInitializeV1 at h
  split at h
  · rename_i payer pool pageZero mint vault tokenProgram system
    simp only [Exec.bind_ok, Exec.query_ok, except_bind_eq_ok, except_pure_eq_ok] at h
    obtain ⟨⟨p, q, v⟩, _, ⟨⟨_, -, _, -, _, -, _, -, _, -, p', -, q', -, v', hplan, _, -, _, -, heq⟩, rfl⟩, _, m, hpool,
      _, n, hpage, _, o, hvault, h⟩ := h
    cases heq
    have hcall := (createProgramPdaIfNeeded_call hpool).trans (createProgramPdaIfNeeded_call hpage)
    obtain ⟨state, hrun⟩ := initializePoolAccountsV1_ok (initializeVaultAccount_initialized hplan hcall hvault) h
    exact ⟨pool, pageZero, state, o, rfl, hrun⟩
  · simp [Exec.query_ok] at h

end

end Aspis.Pool
