import Aspis.Pool.Ideal
import Aspis.Pool.Program

/-! A small deployment to run the program on: addresses are polynomial hashes of
their seeds, the tree hash is constant, and the token program moves balances.
Any number of deposits up to the last slot of the first page succeeds on it, and
leaves a ledger that is known exactly. -/

namespace Aspis.Pool.Sample

open Lib Chain Statement

/-! ### The deployment -/

def addressOf (seeds : List Bytes) : Pubkey :=
  ⟨leBytes 8 (seeds.flatten.foldl (fun h b => (h * 257 + b.toNat + 1) % 1000000007) 7) ++ List.replicate 24 77,
    by simp⟩

/-- A token account with another balance. -/
def withBalance (data : Bytes) (amount : ℕ) : Bytes := patch 64 (leBytes 8 amount) data

/-- The account is one of the token program. -/
def IsTokenAccount (account : Account) : Prop :=
  account.owner = LEGACY_SPL_TOKEN_PROGRAM_ID ∧ account.data.length = 165

instance (account : Account) : Decidable (IsTokenAccount account) := inferInstanceAs (Decidable (_ ∧ _))

/-- Move a balance between two different token accounts. -/
def transferTokens (t : TokenTransfer) (l : Ledger) : Except ProgramError Ledger :=
  if IsTokenAccount (l t.source) ∧ IsTokenAccount (l t.destination) ∧ t.source ≠ t.destination ∧
      t.amount ≤ leNat (slice 64 8 (l t.source).data) then
    .ok (setData t.destination
      (withBalance (l t.destination).data (leNat (slice 64 8 (l t.destination).data) + t.amount))
      (setData t.source (withBalance (l t.source).data (leNat (slice 64 8 (l t.source).data) - t.amount)) l))
  else .error .external

theorem transferTokens_ok {t : TokenTransfer} {l l' : Ledger} (h : transferTokens t l = .ok l') :
    IsTokenAccount (l t.source) ∧ IsTokenAccount (l t.destination) ∧
      l' = setData t.destination
        (withBalance (l t.destination).data (leNat (slice 64 8 (l t.destination).data) + t.amount))
        (setData t.source (withBalance (l t.source).data (leNat (slice 64 8 (l t.source).data) - t.amount)) l) := by
  unfold transferTokens at h
  split_ifs at h with hok
  cases h
  exact ⟨hok.1, hok.2.1, rfl⟩

theorem setData_outside {programId key : Pubkey} {data : Bytes} {l : Ledger} (h : (l key).owner ≠ programId) :
    Outside programId l (setData key data l) where
  kept k hk := by
    have hne : k ≠ key := fun heq => h (heq ▸ hk)
    rw [setData_of_ne hne]
    exact ⟨hk, rfl⟩
  fresh k hk hk' := by
    rw [setData_owner] at hk'
    exact absurd hk' hk

def programId : Pubkey := Bytes32.filled 9

theorem programId_ne_token : LEGACY_SPL_TOKEN_PROGRAM_ID ≠ programId := by decide

theorem transferTokens_outside {t : TokenTransfer} {l l' : Ledger} (h : transferTokens t l = .ok l') :
    Outside programId l l' := by
  obtain ⟨hsource, hdestination, rfl⟩ := transferTokens_ok h
  refine (setData_outside ?_).trans (setData_outside ?_)
  · rw [hsource.1]
    exact programId_ne_token
  · rw [setData_owner, hdestination.1]
    exact programId_ne_token

def environment : Environment where
  programId := programId
  findProgramAddress seeds _ := (addressOf seeds, 255)
  hashv parts := addressOf (parts.map (·.take 48))
  minimumBalance _ := 1
  treeParent _ _ := Digest.zero
  noteCommitment _ _ _ _ := Digest.zero
  transferChecked := transferTokens
  initializeAccount3 _ _ _ _ := .error .external
  programId_ne_system := by decide
  treeParent_canonical _ _ := Environment.zero_canonical
  transferChecked_outside _ _ _ h := transferTokens_outside h
  initializeAccount3_outside _ _ _ _ _ h := nomatch h

/-! ### The pool and its accounts -/

def mint : Pubkey := Bytes32.filled 1

def source : Pubkey := Bytes32.filled 2

def depositor : Pubkey := Bytes32.filled 3

def payer : Pubkey := Bytes32.filled 4

def destination : Pubkey := Bytes32.filled 5

def pool : Pubkey := (poolV1StateAddress environment mint).1

def page (n : ℕ) : Pubkey := (poolV1RootPageAddress environment pool n).1

def vault : Pubkey := (poolV1VaultTokenAccountAddress environment pool).1

def vaultAuthority : Pubkey := (poolV1VaultAuthorityAddress environment pool).1

def initialization : PoolInitializationV1 :=
  ⟨mint, LEGACY_SPL_TOKEN_PROGRAM_ID, ⟨3⟩, Bytes32.filled 33,
    ⟨0, Bytes32.filled 30, Bytes32.filled 31, Bytes32.filled 32⟩⟩

/-- The log of the pool after `n` deposits of the same note. -/
def log (n : ℕ) : PoolLog :=
  ⟨⟨pool, mint, LEGACY_SPL_TOKEN_PROGRAM_ID, ⟨3⟩, Bytes32.filled 33⟩, initialization.verifierPolicy,
    List.replicate n Digest.zero⟩

def mintData : Bytes := zeros 44 ++ ([6, 1] ++ zeros 36)

def tokenData (authority : Pubkey) (amount : ℕ) : Bytes :=
  mint.bytes ++ (authority.bytes ++ (leBytes 8 amount ++ (zeros 36 ++ ([1] ++ zeros 56))))

/-! ### A withdrawal and its authorization -/

def verifier : Pubkey := Bytes32.filled 40

def nullifier : Digest := fun _ => ⟨7⟩

/-- Withdraw one token of the pool's first note. -/
def statement : CanonicalSettlementStatementV1 :=
  ⟨pool, Bytes32.filled 33, 0, Digest.zero, nullifier, ⟨3⟩, .withdrawal 1 destination Digest.zero⟩

def binding : VerifierDispatchBindingV1 :=
  ⟨1, .withdrawal, verifier, Bytes32.filled 41, Bytes32.filled 42, pool, Bytes32.filled 33, 0, Digest.zero, nullifier,
    Bytes32.filled 43, Bytes32.filled 44, Bytes32.filled 45, Bytes32.filled 46, 100, 216⟩

def receiptAccount : PoolV1AuthorizationReceiptAccountV1 :=
  ⟨.verified, 255, 1, verifier, Bytes32.filled 45, Bytes32.filled 43, Bytes32.filled 47, Bytes32.filled 48,
    some ⟨255, 1, binding⟩⟩

def receiptInputs : PoolV1AuthorizationReceiptPdaInputsV1 :=
  ⟨Bytes32.filled 45, Bytes32.filled 43, Bytes32.filled 47, 255⟩

/-- Every payload is the one statement and every receipt account its verified receipt. -/
def services : AuthorizationServices where
  decodeCanonicalStatement _ _ := some statement
  decodeReceiptAccount _ := some receiptAccount
  statementPayloadDigest _ _ _ _ := some (Bytes32.filled 43)
  validateReceiptRequest _ _ _ := true
  receiptPdaInputs _ _ := some receiptInputs
  validateReceiptPdaInputs _ _ := true
  envelopeDigest _ := some (Bytes32.filled 44)
  authenticateVerifierSelection pool policy _ selection slot _ := .ok ⟨policy, pool, selection, 0, none, slot⟩

def deployment : Deployment := ⟨environment, services, fun _ _ _ _ => .ok ()⟩

def receiptKey : Pubkey := (poolV1AuthorizationReceiptAccountAddress environment verifier receiptInputs).1

/-! ### Ledgers -/

/-- The accounts that are not empty. -/
def keys : List Pubkey :=
  [pool, page 0, vault, source, mint, LEGACY_SPL_TOKEN_PROGRAM_ID, systemProgram, payer, destination, receiptKey]

/-- The accounts of a deposit, and the address that is none. -/
def depositKeys : List Pubkey :=
  [Bytes32.zero, pool, page 0, mint, source, depositor, vault, LEGACY_SPL_TOKEN_PROGRAM_ID]

set_option maxRecDepth 100000 in
theorem addresses_distinct : keys.Nodup ∧ depositor ∉ keys ∧ depositKeys.Nodup := by decide +kernel

theorem keys_nodup : keys.Nodup := addresses_distinct.1

def ledgerOf (accounts : List Account) : Ledger := fun k =>
  accounts.getD (keys.idxOf k) ⟨systemProgram, 0, [], false⟩

theorem ledgerOf_key {accounts : List Account} {i : ℕ} (h : i < keys.length) :
    ledgerOf accounts keys[i] = accounts.getD i ⟨systemProgram, 0, [], false⟩ := by
  rw [ledgerOf, keys_nodup.idxOf_getElem i h]

theorem setData_ledgerOf {accounts : List Account} {i : ℕ} {data : Bytes} (h : i < keys.length)
    (hi : i < accounts.length) : setData keys[i] data (ledgerOf accounts) =
      ledgerOf (accounts.set i { accounts[i] with data := data }) := by
  have hkey : ledgerOf accounts keys[i] = accounts[i] := by
    rw [ledgerOf_key h, List.getD_eq_getElem _ _ hi]
  funext k
  by_cases hk : k = keys[i]
  · subst hk
    rw [setData, Function.update_self, hkey, ledgerOf_key h, List.getD_eq_getElem _ _ (by simpa using hi),
      List.getElem_set_self]
  · have hne : i ≠ keys.idxOf k := by
      intro heq
      have hlt : keys.idxOf k < keys.length := heq ▸ h
      apply hk
      rw [← List.getElem_idxOf hlt]
      congr 1
      exact heq.symm
    rw [setData_of_ne hk, ledgerOf, ledgerOf, List.getD_eq_getElem?_getD, List.getD_eq_getElem?_getD,
      List.getElem?_set_ne hne]

theorem ledgerOf_of_forall {accounts : List Account} {P : Account → Prop} (h : ∀ account ∈ accounts, P account)
    (hempty : P ⟨systemProgram, 0, [], false⟩) (k : Pubkey) : P (ledgerOf accounts k) := by
  rw [ledgerOf, List.getD_eq_getElem?_getD]
  cases haccount : accounts[keys.idxOf k]? with
  | none => exact hempty
  | some account => exact h account (List.mem_of_getElem? haccount)

def accountsOf (poolData pageData vaultData sourceData : Bytes) : List Account :=
  [⟨programId, 1, poolData, false⟩, ⟨programId, 1, pageData, false⟩,
    ⟨LEGACY_SPL_TOKEN_PROGRAM_ID, 1, vaultData, false⟩, ⟨LEGACY_SPL_TOKEN_PROGRAM_ID, 1, sourceData, false⟩,
    ⟨LEGACY_SPL_TOKEN_PROGRAM_ID, 1, mintData, false⟩, ⟨bpfLoader, 1, [], true⟩, ⟨nativeLoader, 1, [], true⟩,
    ⟨systemProgram, 1000, [], false⟩, ⟨LEGACY_SPL_TOKEN_PROGRAM_ID, 1, tokenData depositor 0, false⟩,
    ⟨verifier, 1, zeros 720, false⟩]

/-- Before the pool is initialized: its accounts are there and zeroed. -/
def start : Ledger := ledgerOf (accountsOf (zeros 1000) (zeros 8256) (tokenData vaultAuthority 0) (tokenData depositor 1000))

theorem start_zeroed (k : Pubkey) (h : (start k).owner = programId) : allZero (start k).data = true := by
  have hzeroed : ∀ account ∈ accountsOf (zeros 1000) (zeros 8256) (tokenData vaultAuthority 0) (tokenData depositor 1000),
      account.owner = programId → allZero account.data = true := by
    intro account haccount howner
    simp only [accountsOf, List.mem_cons, List.not_mem_nil, or_false] at haccount
    rcases haccount with rfl | rfl | rfl | rfl | rfl | rfl | rfl | rfl | rfl | rfl
    · exact allZero_zeros 1000
    · exact allZero_zeros 8256
    all_goals exact absurd howner (by decide)
  exact ledgerOf_of_forall hzeroed (fun _ => rfl) k h

/-- After `n` deposits of one token each. -/
def ledger (n : ℕ) : Ledger :=
  ledgerOf (accountsOf ((log n).state environment).writeEncodingPrevalidated
    (pageImage pool 0 (List.replicate (n + 1) Digest.zero)) (tokenData vaultAuthority n) (tokenData depositor (1000 - n)))

section
variable {poolData pageData vaultData sourceData : Bytes}

theorem ledger_pool : ledgerOf (accountsOf poolData pageData vaultData sourceData) pool =
    ⟨programId, 1, poolData, false⟩ := ledgerOf_key (i := 0) (by decide)

theorem ledger_page : ledgerOf (accountsOf poolData pageData vaultData sourceData) (page 0) =
    ⟨programId, 1, pageData, false⟩ := ledgerOf_key (i := 1) (by decide)

theorem ledger_vault : ledgerOf (accountsOf poolData pageData vaultData sourceData) vault =
    ⟨LEGACY_SPL_TOKEN_PROGRAM_ID, 1, vaultData, false⟩ := ledgerOf_key (i := 2) (by decide)

theorem ledger_source : ledgerOf (accountsOf poolData pageData vaultData sourceData) source =
    ⟨LEGACY_SPL_TOKEN_PROGRAM_ID, 1, sourceData, false⟩ := ledgerOf_key (i := 3) (by decide)

theorem ledger_mint : ledgerOf (accountsOf poolData pageData vaultData sourceData) mint =
    ⟨LEGACY_SPL_TOKEN_PROGRAM_ID, 1, mintData, false⟩ := ledgerOf_key (i := 4) (by decide)

theorem ledger_token : ledgerOf (accountsOf poolData pageData vaultData sourceData) LEGACY_SPL_TOKEN_PROGRAM_ID =
    ⟨bpfLoader, 1, [], true⟩ := ledgerOf_key (i := 5) (by decide)

theorem ledger_depositor : ledgerOf (accountsOf poolData pageData vaultData sourceData) depositor =
    ⟨systemProgram, 0, [], false⟩ := by
  rw [ledgerOf, List.idxOf_eq_length addresses_distinct.2.1]
  rfl

theorem write_pool {data : Bytes} : setData pool data (ledgerOf (accountsOf poolData pageData vaultData sourceData)) =
    ledgerOf (accountsOf data pageData vaultData sourceData) := setData_ledgerOf (i := 0) (by decide) (by simp [accountsOf])

theorem write_page {data : Bytes} :
    setData (page 0) data (ledgerOf (accountsOf poolData pageData vaultData sourceData)) =
      ledgerOf (accountsOf poolData data vaultData sourceData) := setData_ledgerOf (i := 1) (by decide) (by simp [accountsOf])

theorem write_vault {data : Bytes} : setData vault data (ledgerOf (accountsOf poolData pageData vaultData sourceData)) =
    ledgerOf (accountsOf poolData pageData data sourceData) := setData_ledgerOf (i := 2) (by decide) (by simp [accountsOf])

theorem write_source {data : Bytes} :
    setData source data (ledgerOf (accountsOf poolData pageData vaultData sourceData)) =
      ledgerOf (accountsOf poolData pageData vaultData data) := setData_ledgerOf (i := 3) (by decide) (by simp [accountsOf])

end

/-! ### One deposit -/

def poolAccount : AccountInfo := ⟨pool, false, true⟩

def pageAccount : AccountInfo := ⟨page 0, false, true⟩

def tokenAccounts : List AccountInfo :=
  [⟨mint, false, false⟩, ⟨source, false, true⟩, ⟨depositor, true, false⟩, ⟨vault, false, true⟩,
    ⟨LEGACY_SPL_TOKEN_PROGRAM_ID, false, false⟩]

def depositAccounts : List AccountInfo := poolAccount :: pageAccount :: tokenAccounts

theorem depositAccounts_nodup : (depositAccounts.map (·.key)).Nodup := addresses_distinct.2.2.of_cons

theorem tokenAccounts_nodup : (tokenAccounts.map (·.key)).Nodup := depositAccounts_nodup.of_cons.of_cons

theorem pool_ne_page : pool ≠ page 0 := by
  intro h
  apply (List.nodup_cons.mp depositAccounts_nodup).1
  change pool ∈ page 0 :: tokenAccounts.map (·.key)
  rw [h]
  exact List.mem_cons_self

theorem source_ne_vault : source ≠ vault := by
  intro h
  apply (List.nodup_cons.mp tokenAccounts_nodup.of_cons).1
  change source ∈ [depositor, vault, LEGACY_SPL_TOKEN_PROGRAM_ID]
  rw [h]
  simp

def depositRequest : DepositRequestV1 := ⟨Digest.zero, 1, Digest.zero, []⟩

/-- The decoded pool after `n` deposits. -/
def canonical (n : ℕ) : CanonicalPoolStateV1 := ⟨pool, (log n).state environment, .reconstructed⟩

theorem log_wellFormed {n : ℕ} (h : n ≤ POOL_V1_LEAF_CAPACITY) : (log n).WellFormed where
  asset_canonical := show (⟨3⟩ : M31).Canonical by decide
  policy_valid := show validateVerifierPolicyV1 initialization.verifierPolicy = .ok () by decide
  leaves_canonical x hx := by
    rw [List.eq_of_mem_replicate hx]
    exact Environment.zero_canonical
  length_le := by simpa [log] using h

theorem root_eq (leaves : List Digest) : (environment.tree leaves).root = Digest.zero := rfl

theorem sequence_eq (n : ℕ) : ((log n).state environment).currentRootSequence = n := List.length_replicate

theorem requireProgramAccount_of {account : AccountInfo} {l : Ledger} (howner : (l account.key).owner = programId)
    (hexecutable : (l account.key).executable = false) :
    requireProgramAccount programId account l account.isWritable = .ok () := by
  unfold requireProgramAccount
  rw [if_neg (not_not.mpr howner), if_neg]
  simp [hexecutable]

theorem decode_ledger {n : ℕ} (h : n ≤ POOL_V1_LEAF_CAPACITY) :
    CanonicalPoolStateV1.decodeAccount environment poolAccount (ledger n) = .ok (canonical n) := by
  have hpool : ledger n poolAccount.key = _ := ledger_pool
  have hdecode : PoolStateV1.decodeWithValidatedTree environment (poolAccount.data (ledger n)) poolAccount.key =
      .ok ((log n).state environment) := by
    rw [AccountInfo.data, hpool]
    exact (log_wellFormed h).decode_strict
  have hprogram : requireProgramAccount environment.programId poolAccount (ledger n) true = .ok () :=
    requireProgramAccount_of (by rw [hpool]) (by rw [hpool])
  simp only [CanonicalPoolStateV1.decodeAccount, decodeAccountWith, except_bind_eq_ok, require_eq_ok, except_pure_eq_ok]
  exact ⟨(), hprogram, (), rfl, _, hdecode, (), rfl, rfl⟩

theorem same_ledger {n : ℕ} : (canonical n).requireSameWritableAccount environment poolAccount (ledger n) = .ok () := by
  have hpool : ledger n poolAccount.key = _ := ledger_pool
  simp only [CanonicalPoolStateV1.requireSameWritableAccount, except_bind_eq_ok, require_eq_ok]
  exact ⟨(), requireProgramAccount_of (by rw [hpool]) (by rw [hpool]), rfl, rfl, rfl⟩

theorem zero_leaf_valid : (AuthorizedAppendV1.one Digest.zero).validateLeaves = .ok () := by
  refine require_of _ fun leaf hleaf => ?_
  rw [List.mem_singleton.mp hleaf]
  exact Environment.zero_canonical

theorem slice_tokenData_balance (authority : Pubkey) (amount : ℕ) :
    slice 64 8 (tokenData authority amount) = leBytes 8 amount := by
  simp [tokenData, slice_append_right, slice_append_head]

theorem length_tokenData (authority : Pubkey) (amount : ℕ) : (tokenData authority amount).length = 165 := by
  simp [tokenData]

theorem withBalance_tokenData (authority : Pubkey) (amount amount' : ℕ) :
    withBalance (tokenData authority amount) amount' = tokenData authority amount' := by
  simp [withBalance, patch, tokenData, List.take_append, List.drop_append, List.take_of_length_le,
    List.drop_of_length_le]

theorem parse_tokenData (authority : Pubkey) {amount : ℕ} (h : amount < 2 ^ 64) :
    parseLegacyTokenAccountV1 (tokenData authority amount) =
      .ok ⟨mint, authority, amount, false, false, 0, false⟩ := by
  have hmint : Bytes32.read 0 (tokenData authority amount) = mint := Bytes32.read_eq (by
    simp [tokenData, slice_append_head])
  have hauthority : Bytes32.read 32 (tokenData authority amount) = authority := Bytes32.read_eq (by
    simp [tokenData, slice_append_right, slice_append_head])
  have hbalance : leNat (slice 64 8 (tokenData authority amount)) = amount := by
    rw [slice_tokenData_balance, leNat_leBytes_of_lt h]
  have htail : ∀ off len, 72 ≤ off → slice off len (tokenData authority amount) =
      slice (off - 72) len (zeros 36 ++ ([1] ++ zeros 56)) := by
    intro off len hoff
    have hsplit : tokenData authority amount = (mint.bytes ++ authority.bytes ++ leBytes 8 amount) ++
        (zeros 36 ++ ([1] ++ zeros 56)) := by
      simp [tokenData]
    rw [hsplit, slice_append_right (by simpa using hoff)]
    simp
  have hbyte : byteAt 108 (tokenData authority amount) = 1 := by
    simp [byteAt, tokenData]
  simp only [parseLegacyTokenAccountV1, except_bind_eq_ok, require_eq_ok, except_pure_eq_ok, hmint, hauthority, hbalance,
    htail 72 36 (by decide), htail 109 12 (by decide), htail 129 36 (by decide), htail 121 8 (by decide)]
  exact ⟨(), by simp [tokenData], false, by decide, (), hbyte, false, by decide, false, by decide, rfl⟩

/-- The transfer of the next deposit. -/
def transferPlan (n : ℕ) : LegacyDepositTransferPlanV1 :=
  ⟨source, mint, vault, depositor, 1, 1000 - n, 1000 - n - 1, n, n + 1, 6⟩

theorem plan_transfer {n : ℕ} (h : n < 255) : planLegacyDepositTransferFromIdentityV1 environment pool (log n).identity
    tokenAccounts 1 (ledger n) = .ok (transferPlan n) := by
  have hmint : ledger n mint = _ := ledger_mint
  have hsource : ledger n source = _ := ledger_source
  have hvault : ledger n vault = _ := ledger_vault
  have htoken : ledger n LEGACY_SPL_TOKEN_PROGRAM_ID = _ := ledger_token
  have hdepositor : ledger n depositor = _ := ledger_depositor
  have hfive : exactFiveAccounts tokenAccounts = .ok (⟨mint, false, false⟩, ⟨source, false, true⟩,
      ⟨depositor, true, false⟩, ⟨vault, false, true⟩, ⟨LEGACY_SPL_TOKEN_PROGRAM_ID, false, false⟩) := by
    simp only [exactFiveAccounts, tokenAccounts, except_bind_eq_ok, require_eq_ok]
    exact ⟨(), tokenAccounts_nodup, rfl⟩
  rw [planLegacyDepositTransferFromIdentityV1, hfive, except_ok_bind]
  simp only [requireTokenProgramIdentity, requireTokenOwnedAccount, except_bind_eq_ok, require_eq_ok, except_pure_eq_ok,
    AccountInfo.data, AccountInfo.owner, AccountInfo.executable, hmint, hsource, hvault, htoken, hdepositor, and_self]
  have hsupply : n + 1 < U64_LIMIT := by
    simp only [U64_LIMIT]
    omega
  have hfunds : 1 ≤ 1000 - n := by omega
  have hmintData : parseLegacyMintV1 mintData = .ok ⟨0, 6⟩ := by decide
  exact ⟨(), ⟨rfl, trivial⟩, (), rfl, (), trivial, ⟨0, 6⟩, hmintData, (), trivial, (), trivial, (), trivial, _,
    parse_tokenData depositor (by omega), _, parse_tokenData vaultAuthority (by omega), (), ⟨rfl, rfl, rfl⟩, (), rfl, (),
    rfl, (), ⟨rfl, rfl, rfl, rfl⟩, (), hfunds, (), hsupply, rfl⟩

theorem plan_deposit {n : ℕ} (h : n < 255) : planVaultBackedDeposit environment [poolAccount, pageAccount] tokenAccounts
    poolAccount (canonical n) depositRequest (ledger n) = .ok (transferPlan n, Digest.zero) := by
  have hkeys : ∀ a ∈ [poolAccount, pageAccount], ∀ b ∈ tokenAccounts, a.key ≠ b.key := by
    have hdisjoint := (List.nodup_append.mp (show (([poolAccount, pageAccount].map (·.key)) ++
      tokenAccounts.map (·.key)).Nodup from depositAccounts_nodup)).2.2
    intro a ha b hb
    exact hdisjoint _ (List.mem_map_of_mem ha) _ (List.mem_map_of_mem hb)
  have hrequest : validateRequest depositRequest = .ok () := by decide
  simp only [planVaultBackedDeposit, except_bind_eq_ok, require_eq_ok, except_pure_eq_ok]
  exact ⟨(), hrequest, (), hkeys, (), same_ledger, _, plan_transfer h, rfl⟩

theorem roots_canonical (n : ℕ) : ∀ root ∈ List.replicate n Digest.zero, DigestIsCanonical root := by
  intro root hroot
  rw [List.eq_of_mem_replicate hroot]
  exact Environment.zero_canonical

theorem history_ledger {n : ℕ} (h : n < 256) : validateCurrentHistory environment poolAccount pageAccount
    ((log n).state environment) (ledger n) = .ok ⟨pool, 0, 0, n + 1⟩ := by
  have hpage : ledger n pageAccount.key = _ := ledger_page
  have hlocation : rootHistoryLocation n = ⟨0, n⟩ := by
    simp only [rootHistoryLocation, POOL_V1_ROOT_HISTORY_CAPACITY, RootHistoryLocationV1.mk.injEq]
    omega
  have howned : requireProgramOwned environment.programId pageAccount (ledger n) = .ok () := by
    unfold requireProgramOwned
    simp only [AccountInfo.owner, AccountInfo.executable, hpage]
    rfl
  have hvalid := @validateRootPageBytes_pageImage pool 0 (List.replicate (n + 1) Digest.zero)
    (by simp only [List.length_replicate, POOL_V1_ROOT_HISTORY_CAPACITY]; omega) (by decide) (roots_canonical _)
  rw [List.length_replicate] at hvalid
  have hread := @readRetainedRoot_pageImage pool 0 n (List.replicate (n + 1) Digest.zero) ⟨pool, 0, 0, n + 1⟩ rfl
    (by simp) (by simp only [POOL_V1_ROOT_HISTORY_CAPACITY]; omega)
    (by simp only [POOL_V1_ROOT_HISTORY_CAPACITY, List.length_replicate]; omega) (roots_canonical _)
  rw [List.getElem_replicate] at hread
  have hnotFull : ¬ n = POOL_V1_LEAF_CAPACITY := by
    simp only [POOL_V1_LEAF_CAPACITY, POOL_V1_TREE_DEPTH]
    omega
  have hroot : requireCurrentRoot environment ((log n).state environment)
      (pageImage pool 0 (List.replicate (n + 1) Digest.zero)) ⟨pool, 0, 0, n + 1⟩ = .ok () := by
    rw [requireCurrentRoot, sequence_eq, hread, except_ok_bind, if_neg hnotFull]
    rfl
  simp only [validateCurrentHistory, sequence_eq, hlocation, AccountInfo.data, hpage, except_bind_eq_ok, require_eq_ok,
    except_pure_eq_ok]
  exact ⟨(), howned, (), require_of _ rfl, _, hvalid, (), rfl, (), hroot, rfl⟩

/-- The append of the next deposit. -/
def appendPlan (n : ℕ) : AppendPlanV1 :=
  ⟨⟨(log (n + 1)).state environment, ⟨⟨n, n + 1, Digest.zero, rootHistoryLocation (n + 1)⟩, none⟩⟩,
    ⟨pool, 0, 0, n + 1⟩, 1, none⟩

theorem prepare_append {n : ℕ} (h : n < 255) : (AuthorizedSourceStateV1.canonical (canonical n)).prepare environment
    (.one Digest.zero) = .ok (appendPlan n).prepared := by
  have hroom : (List.replicate n Digest.zero).length < 2 ^ POOL_V1_TREE_DEPTH := by
    simp only [List.length_replicate, POOL_V1_TREE_DEPTH]
    omega
  have happend := appendOneValidated_treeOf environment.treeParent Digest.zero Digest.zero hroom
  have hleaves : List.replicate n Digest.zero ++ [Digest.zero] = List.replicate (n + 1) Digest.zero :=
    List.replicate_succ'.symm
  rw [List.length_replicate, hleaves] at happend
  have hnext : prepareAppendFromCanonicalState environment (canonical n) (.one Digest.zero) =
      .ok (appendPlan n).prepared := by
    simp only [prepareAppendFromCanonicalState, canonical, except_bind_eq_ok, mapErr_eq_ok, except_pure_eq_ok]
    exact ⟨_, happend, rfl⟩
  have hlimit : n + 1 < U64_LIMIT := by
    simp only [U64_LIMIT]
    omega
  simp only [AuthorizedSourceStateV1.prepare, AuthorizedSourceStateV1.prepareNext, hnext, except_ok_bind,
    PreparedAuthorizedAppendV1.validateInheritedStateAndCursor, except_bind_eq_ok, require_eq_ok, except_pure_eq_ok]
  refine ⟨(), ⟨(), ?_, rfl, rfl, ?_, ?_⟩, trivial⟩
  · exact (congrArg (· + 1 < U64_LIMIT) (sequence_eq n)).mpr hlimit
  · exact (sequence_eq (n + 1)).trans (congrArg (· + 1) (sequence_eq n)).symm
  · have hsource : (AuthorizedSourceStateV1.canonical (canonical n)).asState.currentRootSequence = n := sequence_eq n
    simp only [receiptShapeIsExact, hsource]
    simp [appendPlan, PoolLog.state, root_eq]

theorem plan_append {n : ℕ} (h : n < 255) : planAuthorizedAppend environment poolAccount pageAccount none
    (.canonical (canonical n)) none (.one Digest.zero) (ledger n) = .ok (appendPlan n) := by
  have hpool : ledger n poolAccount.key = _ := ledger_pool
  have hsequence : (AuthorizedSourceStateV1.canonical (canonical n)).asState.currentRootSequence = n := sequence_eq n
  have hhistory : currentHistoryHeader environment poolAccount pageAccount
      (AuthorizedSourceStateV1.canonical (canonical n)).asState none (ledger n) = .ok ⟨pool, 0, 0, n + 1⟩ :=
    history_ledger (by omega)
  have hpage : (rootHistoryLocation (n + 1)).pageNumber = 0 := by
    simp only [rootHistoryLocation, POOL_V1_ROOT_HISTORY_CAPACITY]
    omega
  have hcurrent : rootsInCurrent n 1 0 = 1 := by
    rw [rootsInCurrent, if_pos hpage, if_pos hpage]
  simp only [planAuthorizedAppend, hhistory, except_ok_bind, except_bind_eq_ok, require_eq_ok, except_pure_eq_ok,
    hsequence, AuthorizedAppendV1.count, hpage, hcurrent, AccountInfo.data, hpool]
  refine ⟨(), ?_, (), ?_, (), ?_, (), by simp, (), rfl, none, rfl, (), pool_ne_page, _, prepare_append h, (), ?_, (), ?_, rfl⟩
  · simp only [POOL_V1_LEAF_CAPACITY, POOL_V1_TREE_DEPTH]
    omega
  · simp only [POOL_V1_LEAF_CAPACITY, POOL_V1_TREE_DEPTH]
    omega
  · simp only [POOL_V1_LEAF_CAPACITY, POOL_V1_TREE_DEPTH]
    omega
  · simp only [POOL_V1_ROOT_HISTORY_CAPACITY]
    omega
  · simp

/-- The tokens of the next deposit have moved; pool and page are still as they were. -/
def paid (n : ℕ) : Ledger :=
  ledgerOf (accountsOf ((log n).state environment).writeEncodingPrevalidated
    (pageImage pool 0 (List.replicate (n + 1) Digest.zero)) (tokenData vaultAuthority (n + 1))
    (tokenData depositor (1000 - n - 1)))

theorem transfer_ledger {n : ℕ} (h : n < 255) :
    environment.transferChecked (transferPlan n).instruction (ledger n) = .ok (paid n) := by
  have hsource : ledger n source = _ := ledger_source
  have hvault : ledger n vault = _ := ledger_vault
  have hsourceBalance : leNat (slice 64 8 (tokenData depositor (1000 - n))) = 1000 - n := by
    rw [slice_tokenData_balance, leNat_leBytes_of_lt (by omega)]
  have hvaultBalance : leNat (slice 64 8 (tokenData vaultAuthority n)) = n := by
    rw [slice_tokenData_balance, leNat_leBytes_of_lt (by omega)]
  have hcond : IsTokenAccount (ledger n source) ∧ IsTokenAccount (ledger n vault) ∧ source ≠ vault ∧
      1 ≤ leNat (slice 64 8 (ledger n source).data) := by
    rw [hsource, hvault]
    exact ⟨⟨rfl, length_tokenData _ _⟩, ⟨rfl, length_tokenData _ _⟩, source_ne_vault, by rw [hsourceBalance]; omega⟩
  have htransfer : transferTokens ⟨source, mint, vault, depositor, 1, 6⟩ (ledger n) = .ok (setData vault
      (withBalance (ledger n vault).data (leNat (slice 64 8 (ledger n vault).data) + 1)) (setData source
        (withBalance (ledger n source).data (leNat (slice 64 8 (ledger n source).data) - 1)) (ledger n))) := if_pos hcond
  have hmoved : setData vault (withBalance (ledger n vault).data (leNat (slice 64 8 (ledger n vault).data) + 1))
      (setData source (withBalance (ledger n source).data (leNat (slice 64 8 (ledger n source).data) - 1)) (ledger n)) =
      paid n := by
    rw [hsource, hvault, hsourceBalance, hvaultBalance, withBalance_tokenData, withBalance_tokenData, ledger,
      write_source, write_vault]
    rfl
  have hinstruction : (transferPlan n).instruction = ⟨source, mint, vault, depositor, 1, 6⟩ := rfl
  have hprogram : environment.transferChecked = transferTokens := rfl
  rw [hprogram, hinstruction, htransfer, hmoved]

theorem delta_ledger {n : ℕ} (h : n < 255) :
    validateExactDepositDeltaV1 tokenAccounts (transferPlan n) (paid n) = .ok () := by
  have hsource : paid n source = _ := ledger_source
  have hvault : paid n vault = _ := ledger_vault
  have hfive : exactFiveAccounts tokenAccounts = .ok (⟨mint, false, false⟩, ⟨source, false, true⟩,
      ⟨depositor, true, false⟩, ⟨vault, false, true⟩, ⟨LEGACY_SPL_TOKEN_PROGRAM_ID, false, false⟩) := by
    simp only [exactFiveAccounts, tokenAccounts, except_bind_eq_ok, require_eq_ok]
    exact ⟨(), tokenAccounts_nodup, rfl⟩
  rw [validateExactDepositDeltaV1, hfive, except_ok_bind]
  simp only [AccountInfo.data, hsource, hvault, parse_tokenData depositor (show 1000 - n - 1 < 2 ^ 64 by omega),
    parse_tokenData vaultAuthority (show n + 1 < 2 ^ 64 by omega), except_ok_bind, except_bind_eq_ok, require_eq_ok]
  exact ⟨(), ⟨rfl, rfl, rfl, rfl, trivial⟩, rfl, rfl, rfl, rfl, rfl⟩

theorem persist_paid {n : ℕ} (h : n < 255) : (appendPlan n).persist pool (page 0) (paid n) = ledger (n + 1) := by
  have hroots : List.replicate (n + 1) Digest.zero ++ [Digest.zero] = List.replicate (n + 2) Digest.zero :=
    List.replicate_succ'.symm
  have happend := @appendRootsUnchecked_pageImage pool 0 (List.replicate (n + 1) Digest.zero) [Digest.zero]
    ⟨pool, 0, 0, n + 1⟩ (by simp) (by
      simp only [List.length_replicate, List.length_singleton, POOL_V1_ROOT_HISTORY_CAPACITY]
      omega)
  have hbalance : 1000 - n - 1 = 1000 - (n + 1) := by omega
  have hwritten : setData pool ((log (n + 1)).state environment).writeEncodingPrevalidated (paid n) =
      ledgerOf (accountsOf ((log (n + 1)).state environment).writeEncodingPrevalidated
        (pageImage pool 0 (List.replicate (n + 1) Digest.zero)) (tokenData vaultAuthority (n + 1))
        (tokenData depositor (1000 - (n + 1)))) := by
    rw [paid, write_pool, hbalance]
  simp only [AppendPlanV1.persist, appendPlan, AuthorizedAppendReceiptV1.roots, Option.map_none, Option.toList_none,
    hwritten, ledger_page, ne_eq, one_ne_zero, not_false_eq_true, if_true, List.take_succ_cons, List.take_nil]
  rw [happend, hroots, write_page]
  rfl

/-- The receipt of the next deposit. -/
def depositReceipt (n : ℕ) : DepositReceiptV1 :=
  ⟨pool, mint, source, vault, 1, 0, Digest.zero, n, n + 1, Digest.zero⟩

theorem validate_depositReceipt (n : ℕ) : validateDepositReceiptV1 (depositReceipt n) = .ok () := by
  have hkeys : pool ≠ Bytes32.zero ∧ mint ≠ Bytes32.zero ∧ source ≠ Bytes32.zero ∧ vault ≠ Bytes32.zero ∧
      source ≠ vault := by
    have hzero := (List.nodup_cons.mp addresses_distinct.2.2).1
    simp only [List.mem_cons, not_or, List.not_mem_nil] at hzero
    exact ⟨Ne.symm hzero.1, Ne.symm hzero.2.2.1, Ne.symm hzero.2.2.2.1, Ne.symm hzero.2.2.2.2.2.1, source_ne_vault⟩
  have hamount : 1 ≠ 0 ∧ 1 < VALUE_LIMIT := by decide
  simp only [validateDepositReceiptV1, except_bind_eq_ok, require_eq_ok]
  exact ⟨(), hkeys, (), hamount, (), Nat.zero_le 512, (), ⟨Environment.zero_canonical, Environment.zero_canonical⟩, rfl⟩

/-- On the first page every next deposit succeeds. -/
theorem deposit_ledger {n : ℕ} (h : n < 255) :
    processDepositV1 environment depositAccounts depositRequest (ledger n) = .ok (depositReceipt n) (ledger (n + 1)) := by
  have hcapacity : n ≤ POOL_V1_LEAF_CAPACITY := by
    simp only [POOL_V1_LEAF_CAPACITY, POOL_V1_TREE_DEPTH]
    omega
  have hstays : depositRollsToNextPage (canonical n).state = false := by
    have hsequence : (canonical n).state.currentRootSequence = n := sequence_eq n
    simp only [depositRollsToNextPage, hsequence, rootHistoryLocation, POOL_V1_ROOT_HISTORY_CAPACITY, ne_eq,
      decide_eq_false_iff_not, not_not]
    omega
  have hpool : ledger n poolAccount.key = _ := ledger_pool
  have htoken : ledger n LEGACY_SPL_TOKEN_PROGRAM_ID = _ := ledger_token
  have hunique : requireUniqueAccounts depositAccounts = .ok () := require_of _ depositAccounts_nodup
  have hprogram : requireTokenProgramAccount ⟨LEGACY_SPL_TOKEN_PROGRAM_ID, false, false⟩ (ledger n) = .ok () := by
    refine require_of _ ?_
    simp [AccountInfo.executable, AccountInfo.owner, htoken]
  have hcurrent : depositInCurrentPage environment poolAccount (pageAccount :: tokenAccounts) (canonical n) depositRequest
      (ledger n) = .ok (depositReceipt n) (ledger (n + 1)) := by
    simp only [depositInCurrentPage, tokenAccounts, Exec.bind_ok, Exec.query_ok, except_bind_eq_ok]
    refine ⟨(), ledger n, ⟨⟨(), hunique, hprogram⟩, rfl⟩, ?_⟩
    simp only [applyPrevalidatedVaultBackedDepositV1, applyAuthorizedAppendAfterPrevalidatedV1,
      applyAuthorizedAppendAfterCheckedStateV1_ok, Exec.bind_ok, Exec.query_ok, Exec.call_ok, Exec.pure_ok]
    exact ⟨_, _, ⟨plan_deposit h, rfl⟩, _, _, ⟨(), _, ⟨same_ledger, rfl⟩, (), _, ⟨zero_leaf_valid, rfl⟩, appendPlan n, _, plan_append h,
      ⟨(), paid n, transfer_ledger h, delta_ledger h, rfl⟩, persist_paid h, rfl⟩, (), _, ⟨validate_depositReceipt n, rfl⟩,
      rfl, rfl⟩
  simp only [processDepositV1, depositAccounts, Exec.bind_ok, Exec.query_ok]
  refine ⟨canonical n, ledger n, ⟨decode_ledger hcapacity, rfl⟩, ?_⟩
  rw [if_pos hstays]
  exact hcurrent

/-! ### Reading a page in one pass

The page check of the program reads each slot from the start of the page. On a
full page that is slow to evaluate; the same check in one pass is not. -/

/-- The first `n` four-byte limbs are canonical. -/
def limbsCanonical : ℕ → Bytes → Bool
  | 0, _ => true
  | n + 1, a :: b :: c :: d :: rest => decide (leNat [a, b, c, d] < P) && limbsCanonical n rest
  | _ + 1, _ => false

theorem limbsCanonical_iff {n : ℕ} {data : Bytes} (h : 4 * n ≤ data.length) :
    limbsCanonical n data = true ↔ ∀ i < n, leNat (slice (4 * i) 4 data) < P := by
  induction n generalizing data with
  | zero => simp [limbsCanonical]
  | succ n ih =>
    match data, h with
    | a :: b :: c :: d :: rest, h =>
      have hrest : 4 * n ≤ rest.length := by
        simp only [List.length_cons] at h
        omega
      rw [limbsCanonical, Bool.and_eq_true, decide_eq_true_iff, ih hrest]
      constructor
      · rintro ⟨hfirst, hothers⟩ i hi
        cases i with
        | zero => exact hfirst
        | succ i => exact hothers i (by omega)
      · intro hall
        exact ⟨hall 0 (by omega), fun i hi => hall (i + 1) (by omega)⟩

/-- The page check in one pass. -/
def scanRootPageBytes (data : Bytes) (expectedPool : Pubkey) (expectedPageNumber : ℕ) :
    Except ProgramError RootPageHeaderV1 :=
  if data.length ≠ POOL_V1_ROOT_HISTORY_PAGE_ACCOUNT_BYTES ∨ slice 0 8 data ≠ pagePreamble ∨
      slice 58 6 data ≠ zeros 6 then
    .error PoolV1ProgramError.invalidAccountType
  else
    let pool := Bytes32.read 8 data
    let pageNumber := leNat (slice 40 8 data)
    let firstSequence := leNat (slice 48 8 data)
    let filled := leNat (slice 56 2 data)
    if pageNumber * POOL_V1_ROOT_HISTORY_CAPACITY ≥ U64_LIMIT then
      .error PoolV1ProgramError.arithmeticOverflow
    else if pool ≠ expectedPool ∨ pageNumber ≠ expectedPageNumber ∨
        firstSequence ≠ pageNumber * POOL_V1_ROOT_HISTORY_CAPACITY ∨
        filled > POOL_V1_ROOT_HISTORY_CAPACITY then
      .error PoolV1ProgramError.stateHistoryMismatch
    else if limbsCanonical (8 * filled) (data.drop 64) = false then .error .invalidAccountData
    else if ¬ allZero (data.drop (64 + 32 * filled)) then .error .invalidAccountData
    else .ok ⟨pool, pageNumber, firstSequence, filled⟩

theorem slots_canonical_iff {filled : ℕ} {data : Bytes} (h : 64 + 32 * filled ≤ data.length) :
    (∃ slot < filled, decodeDigestCanonical (slice (64 + 32 * slot) 32 data) = none) ↔
      limbsCanonical (8 * filled) (data.drop 64) = false := by
  rw [← Bool.not_eq_true, limbsCanonical_iff (by rw [List.length_drop]; omega)]
  have hlimb : ∀ slot, slot < filled → ∀ i : Fin 8, slice (4 * i) 4 (slice (64 + 32 * slot) 32 data) =
      slice (4 * (8 * slot + i)) 4 (data.drop 64) := by
    intro slot hslot i
    have hi := i.isLt
    simp only [slice, List.drop_drop, List.drop_take, List.take_take]
    congr 1
    · omega
    · congr 1
      omega
  constructor
  · rintro ⟨slot, hslot, hnone⟩ hall
    have hcanonical : ∀ i : Fin 8, leNat (slice (4 * i) 4 (slice (64 + 32 * slot) 32 data)) < P := by
      intro i
      rw [hlimb slot hslot i]
      exact hall _ (by have := i.isLt; omega)
    rw [decodeDigestCanonical, if_pos hcanonical] at hnone
    cases hnone
  · intro hall
    by_contra hslots
    apply hall
    intro j hj
    have hslot : j / 8 < filled := by omega
    have hsome : ∀ i : Fin 8, leNat (slice (4 * i) 4 (slice (64 + 32 * (j / 8)) 32 data)) < P := by
      by_contra hbad
      exact hslots ⟨j / 8, hslot, if_neg hbad⟩
    have hlast := hsome ⟨j % 8, Nat.mod_lt j (by decide)⟩
    rw [hlimb (j / 8) hslot, Nat.div_add_mod] at hlast
    exact hlast

theorem validateRootPageBytes_eq_scan : validateRootPageBytes = scanRootPageBytes := by
  funext data expectedPool expectedPageNumber
  unfold validateRootPageBytes scanRootPageBytes
  by_cases hhead : data.length ≠ POOL_V1_ROOT_HISTORY_PAGE_ACCOUNT_BYTES ∨ slice 0 8 data ≠ pagePreamble ∨
      slice 58 6 data ≠ zeros 6
  · rw [if_pos hhead, if_pos hhead]
  rw [if_neg hhead, if_neg hhead]
  dsimp only
  by_cases hmatch : Bytes32.read 8 data ≠ expectedPool ∨ leNat (slice 40 8 data) ≠ expectedPageNumber ∨
      leNat (slice 48 8 data) ≠ leNat (slice 40 8 data) * POOL_V1_ROOT_HISTORY_CAPACITY ∨
      leNat (slice 56 2 data) > POOL_V1_ROOT_HISTORY_CAPACITY
  · rw [if_pos hmatch, if_pos hmatch]
  · have hlength : 64 + 32 * leNat (slice 56 2 data) ≤ data.length := by
      simp only [not_or, not_not, not_lt, POOL_V1_ROOT_HISTORY_CAPACITY, POOL_V1_ROOT_HISTORY_PAGE_ACCOUNT_BYTES]
        at hhead hmatch
      omega
    rw [if_neg hmatch, if_neg hmatch]
    simp only [slots_canonical_iff hlength]

/-! ### Spending the first note when the first page is full -/

def core : Pubkey :=
  (poolV1PreparedSettlementPlanAddress environment programId pool (Bytes32.filled 43) 255 payer).1

def shard : Pubkey := (poolV1PreparedSettlementRolloverAddress environment programId core).1

def marker : Pubkey := (poolV1NullifierMarkerAddress environment pool nullifier).1

def payerAccount : AccountInfo := ⟨payer, true, true⟩

def systemAccount : AccountInfo := ⟨systemProgram, false, false⟩

def registryAccounts : List AccountInfo := [⟨Bytes32.filled 50, false, false⟩, ⟨Bytes32.filled 51, false, false⟩]

def payoutAccounts : List AccountInfo :=
  [⟨mint, false, false⟩, ⟨vault, false, true⟩, ⟨destination, false, true⟩, ⟨vaultAuthority, false, false⟩,
    ⟨LEGACY_SPL_TOKEN_PROGRAM_ID, false, false⟩]

def prepareAccounts : List AccountInfo :=
  [payerAccount, poolAccount, ⟨page 0, false, false⟩, ⟨page 1, false, true⟩, ⟨receiptKey, false, false⟩] ++
    registryAccounts ++ [⟨core, false, true⟩, ⟨shard, false, true⟩, systemAccount]

def prepareRequest : PrepareSettlementRequestV1 :=
  ⟨.withdrawal, .one Digest.zero, 0, pool, Bytes32.filled 33, ⟨3⟩, zeros 216, 5, 9⟩

def settleAccounts : List AccountInfo :=
  [payerAccount, poolAccount, ⟨page 0, false, false⟩, ⟨page 1, false, true⟩, ⟨marker, false, true⟩,
    ⟨receiptKey, false, false⟩] ++ registryAccounts ++
    [⟨core, false, true⟩, ⟨shard, false, true⟩, systemAccount] ++ payoutAccounts

def settleInstruction : SettlePreparedInstructionV1 := ⟨.withdrawal, zeros 216⟩

def directAccounts : List AccountInfo :=
  [poolAccount, ⟨page 0, false, false⟩, ⟨page 1, false, true⟩, ⟨marker, false, true⟩, payerAccount, systemAccount] ++
    registryAccounts ++ [⟨verifier, false, false⟩, ⟨Bytes32.filled 52, false, false⟩] ++ payoutAccounts

/-- The same withdrawal as a direct spend. -/
def directSpend : SpendInstructionV1 :=
  ⟨⟨.withdrawal, pool, Bytes32.filled 33, 0, Digest.zero, nullifier, Bytes32.filled 41, Bytes32.filled 42⟩, statement, 6⟩

def prepare : Handler Unit := processPrepareSettlementV1 environment services prepareAccounts prepareRequest 5

def settle : Handler TransitionReceiptV1 :=
  processSettlePreparedV1 environment services settleAccounts settleInstruction 6

def withdraw : Handler TransitionReceiptV1 :=
  processWithdrawalV1 environment deployment.verify directAccounts directSpend

/-- The first page is full and the withdrawal is prepared. -/
def prepared : Ledger := prepare.final (ledger 255)


theorem getD_idxOf_cons (account : Account) (accounts : List Account) (key : Pubkey) (rest : List Pubkey) (k : Pubkey)
    (d : Account) : (account :: accounts).getD ((key :: rest).idxOf k) d =
      if k = key then account else accounts.getD (rest.idxOf k) d := by
  by_cases hk : k = key
  · subst hk
    simp
  · rw [if_neg hk, List.idxOf_cons_ne _ (Ne.symm hk)]
    rfl

/-- The ledger with the full page, in a form that evaluates well. -/
def fullPage : Ledger := fun k =>
  if k = pool then ⟨programId, 1, PoolStateV1.writeEncodingPrevalidated
    ⟨(log 255).identity, initialization.verifierPolicy, ⟨255, Digest.zero, fun _ => Digest.zero⟩⟩, false⟩
  else if k = page 0 then ⟨programId, 1, pageHeaderBytes pool 0 0 256 ++ zeros 8192, false⟩
  else if k = vault then ⟨LEGACY_SPL_TOKEN_PROGRAM_ID, 1, tokenData vaultAuthority 255, false⟩
  else if k = source then ⟨LEGACY_SPL_TOKEN_PROGRAM_ID, 1, tokenData depositor 745, false⟩
  else if k = mint then ⟨LEGACY_SPL_TOKEN_PROGRAM_ID, 1, mintData, false⟩
  else if k = LEGACY_SPL_TOKEN_PROGRAM_ID then ⟨bpfLoader, 1, [], true⟩
  else if k = systemProgram then ⟨nativeLoader, 1, [], true⟩
  else if k = payer then ⟨systemProgram, 1000, [], false⟩
  else if k = destination then ⟨LEGACY_SPL_TOKEN_PROGRAM_ID, 1, tokenData depositor 0, false⟩
  else if k = receiptKey then ⟨verifier, 1, zeros 720, false⟩
  else ⟨systemProgram, 0, [], false⟩

theorem node_eq (n height i : ℕ) :
    MerkleTree.node environment.treeParent (MerkleTree.pad Digest.zero (List.replicate n Digest.zero)) height i =
      Digest.zero := by
  cases height with
  | zero =>
    rw [MerkleTree.node, MerkleTree.pad, List.getD_eq_getElem?_getD, List.getElem?_replicate]
    split <;> rfl
  | succ height => rfl

theorem tree_eq (n : ℕ) : environment.tree (List.replicate n Digest.zero) =
    ⟨n, Digest.zero, fun _ => Digest.zero⟩ := by
  have hfrontier : ∀ level, MerkleTree.frontier environment.treeParent Digest.zero (List.replicate n Digest.zero) level =
      Digest.zero := by
    intro level
    unfold MerkleTree.frontier
    split
    · exact node_eq n level _
    · cases level <;> rfl
  simp only [Environment.tree, treeOf, List.length_replicate, hfrontier]
  rfl

theorem rootsBytes_replicate (n : ℕ) : rootsBytes (List.replicate n Digest.zero) = zeros (32 * n) := by
  have hzero : encodeDigestCanonical Digest.zero = zeros 32 := by decide
  induction n with
  | zero => rfl
  | succ n ih =>
    have hsplit : 32 * (n + 1) = 32 + 32 * n := by ring
    rw [rootsBytes, List.replicate_succ, List.flatMap_cons, hzero, ← rootsBytes, ih, hsplit]
    exact List.replicate_append_replicate

theorem pageImage_full : pageImage pool 0 (List.replicate (255 + 1) Digest.zero) = pageHeaderBytes pool 0 0 256 ++ zeros 8192 := by
  rw [pageImage, rootsBytes_replicate, List.length_replicate, Nat.zero_mul]
  rw [show zeros (32 * (POOL_V1_ROOT_HISTORY_CAPACITY - (255 + 1))) = [] from rfl, List.append_nil]

theorem ledger_eq_fullPage : ledger 255 = fullPage := by
  have hstate : (log 255).state environment = ⟨(log 255).identity, initialization.verifierPolicy,
      ⟨255, Digest.zero, fun _ => Digest.zero⟩⟩ := congrArg (PoolStateV1.mk _ _) (tree_eq 255)
  funext k
  simp only [ledger, ledgerOf, keys, accountsOf, hstate, pageImage_full, getD_idxOf_cons, fullPage]
  rfl

/-- What preparing, settling and withdrawing do when the first page is full. -/
@[mk_iff]
structure FullPageRuns : Prop where
  core_new : core ∉ keys
  prepare_yields : prepare.yields fullPage (fun _ l => decide ((l core).owner = programId ∧
    slice 0 4 (l core).data = coreMagic ∧ (l pool).data = (fullPage pool).data)) = true
  settle_layout : (settleLayout environment settleAccounts .withdrawal (prepare.final fullPage)).toOption.map
    (·.core.key) = some core
  settle_yields : settle.yields (prepare.final fullPage) (fun r l => decide (r.pool = pool ∧ r.nullifier = nullifier ∧
    r.outputs.length = 1 ∧ leNat (slice 56 2 (l (page 1)).data) = 2)) = true
  withdraw_yields : withdraw.yields (prepare.final fullPage) (fun _ l => decide (
    leNat (slice 56 2 (l (page 1)).data) = 1)) = true

set_option maxRecDepth 100000 in
theorem fullPage_runs : FullPageRuns := by
  rw [fullPageRuns_iff]
  delta prepare settle withdraw processPrepareSettlementV1 buildPreparedSettlementPlanV1
    authenticateHistoricalAnchorV1 authenticateHistoricalAnchorAfterPrevalidatedStateV1
    authenticateHistoricalAnchorAgainstStateV1 validateCurrentHistoryAfterPrevalidatedAnchorV1 currentHeaderAfterAnchor
    reuseAnchorHeader validateCurrentHistory processSettlePreparedV1 planSettlePrepared applyPreparedSettlementPlanV1
    historyResultImagesMatch processWithdrawalV1 withdrawalFromPool planWithdrawal applyAuthorizedAppendAfterV1
    applyAuthorizedAppendAfterCheckedStateV1 planAuthorizedAppend currentHistoryHeader
  rw [validateRootPageBytes_eq_scan]
  decide +kernel

/-! ### Runs -/

def initializeAccounts : List AccountInfo :=
  [⟨payer, true, true⟩, poolAccount, pageAccount, ⟨mint, false, false⟩, ⟨vault, false, true⟩,
    ⟨LEGACY_SPL_TOKEN_PROGRAM_ID, false, false⟩, ⟨systemProgram, false, false⟩]

theorem genesis_eq : PoolStateV1.genesis environment pool initialization = .ok ((log 0).state environment) := by
  have hasset : initialization.assetId.Canonical := by decide
  have hpolicy : validateVerifierPolicyV1 initialization.verifierPolicy = .ok () := by decide
  have htree : environment.tree [] = ⟨0, environment.emptyRoots POOL_V1_TREE_DEPTH, fun level => environment.emptyRoots level⟩ := by
    ext
    · rfl
    · rfl
    · simp [Environment.tree, treeOf, MerkleTree.frontier, Environment.emptyRoots]
  simp only [PoolStateV1.genesis, except_bind_eq_ok, require_eq_ok, mapErr_eq_ok, except_pure_eq_ok, ← htree]
  exact ⟨(), hasset, (), rfl, (), hpolicy, rfl⟩

/-- What an initialization checks, at the start. -/
@[mk_iff]
structure StartChecks : Prop where
  unique : requireUniqueAccounts initializeAccounts = .ok ()
  payer_system : requirePayerAndSystemProgram ⟨payer, true, true⟩ ⟨systemProgram, false, false⟩ start = .ok ()
  token : requireTokenProgramAccount ⟨LEGACY_SPL_TOKEN_PROGRAM_ID, false, false⟩ start = .ok ()
  pool_fresh : planFreshProgramPda environment poolAccount (poolV1StateAddress environment mint).1
    POOL_V1_STATE_ACCOUNT_BYTES start = .ok .programOwnedZeroed
  page_fresh : planFreshProgramPda environment pageAccount (poolV1RootPageAddress environment pool 0).1
    POOL_V1_ROOT_HISTORY_PAGE_ACCOUNT_BYTES start = .ok .programOwnedZeroed
  vault_empty : planVaultInitialization environment pool mint ⟨vault, false, true⟩ start = .ok .initializedEmpty
  program : requireProgramAccount environment.programId poolAccount start true = .ok ()
  page_new : validateNewPageAccount environment pool 0 pageAccount start = .ok ()
  pool_zero : (start pool).data.length = POOL_V1_STATE_ACCOUNT_BYTES ∧ allZero (start pool).data = true
  encoding : ((log 0).state environment).validateEncoding environment = .ok ()

set_option maxRecDepth 100000 in
theorem start_checks : StartChecks := by
  rw [startChecks_iff]
  decide +kernel

theorem initializePoolAccounts_start :
    initializePoolAccountsV1 environment poolAccount pageAccount initialization start = .ok () (ledger 0) := by
  have hpage : writeNewPageUnchecked pool 0 0 [environment.emptyRoots POOL_V1_TREE_DEPTH] =
      pageImage pool 0 (List.replicate 1 Digest.zero) :=
    @writeNewPageUnchecked_eq pool 0 (List.replicate 1 Digest.zero) (by decide)
  simp only [initializePoolAccountsV1, Exec.bind_ok, Exec.query_ok, Exec.update_ok, except_bind_eq_ok, require_eq_ok,
    except_pure_eq_ok]
  refine ⟨_, _, ⟨⟨(), start_checks.program, (), rfl, (), start_checks.page_new, (), pool_ne_page, (),
    start_checks.pool_zero, _, genesis_eq, (), start_checks.encoding, rfl⟩, rfl⟩, (), _, rfl, ?_⟩
  have hpool : poolAccount.key = pool := rfl
  have hkey : pageAccount.key = page 0 := rfl
  rw [hpool, hkey, hpage, start, write_pool, write_page]
  rfl

theorem initialize_start :
    processInitializeV1 environment initializeAccounts initialization start = .ok () (ledger 0) := by
  have hmint : start mint = _ := ledger_mint
  have hmintData : parseLegacyMintV1 mintData = .ok ⟨0, 6⟩ := by decide
  have hchecks := start_checks
  simp only [processInitializeV1, initializeAccounts, Exec.bind_ok, Exec.query_ok, except_bind_eq_ok, require_eq_ok,
    except_pure_eq_ok, AccountInfo.data, AccountInfo.owner, AccountInfo.executable, hmint, and_self]
  exact ⟨_, _, ⟨⟨(), hchecks.unique, (), hchecks.payer_system, (), hchecks.token, (), ⟨rfl, trivial⟩, _, hmintData, _,
    hchecks.pool_fresh, _, hchecks.page_fresh, _, hchecks.vault_empty, _, genesis_eq, (), hchecks.encoding, rfl⟩, rfl⟩,
    (), start, rfl, (), start, rfl, (), start, rfl, initializePoolAccounts_start⟩

/-- The pool is initialized and `n` deposits follow. -/
def events (n : ℕ) : List Event :=
  .accepted (.initializePool initializeAccounts initialization) (.initialized pool initialization) ::
    (List.range n).map fun i => .accepted (.deposit depositAccounts depositRequest) (.deposited (depositReceipt i))

theorem runs_deposits {n : ℕ} (h : n ≤ 255) : deployment.Runs (ledger 0) ((List.range n).map fun i =>
    .accepted (.deposit depositAccounts depositRequest) (.deposited (depositReceipt i))) (ledger n) := by
  induction n with
  | zero => exact .nil _
  | succ n ih =>
    have hstep : deployment.Step (ledger n) (.accepted (.deposit depositAccounts depositRequest)
        (.deposited (depositReceipt n))) (ledger (n + 1)) := by
      have hdeposit := deposit_ledger (show n < 255 by omega)
      exact Exec.bind_ok.mpr ⟨_, _, hdeposit, Exec.pure_ok.mpr ⟨rfl, rfl⟩⟩
    rw [List.range_succ, List.map_append]
    exact (ih (by omega)).append (.cons hstep (.nil _))

theorem runs {n : ℕ} (h : n ≤ 255) : deployment.Runs start (events n) (ledger n) :=
  .cons (Exec.bind_ok.mpr ⟨(), _, initialize_start, Exec.pure_ok.mpr ⟨rfl, rfl⟩⟩) (runs_deposits h)

/-! ### The runs over the full page -/

def preparedEvent : Event := .accepted (.prepareSettlement prepareAccounts prepareRequest 5) .prepared

def settledEvent (receipt : TransitionReceiptV1) : Event :=
  .accepted (.settlePrepared settleAccounts settleInstruction 6) (.spent receipt)

theorem prepared_eq : prepared = prepare.final fullPage := by rw [prepared, ledger_eq_fullPage]

theorem prepare_ok : prepare (ledger 255) = .ok () prepared ∧ (prepared core).owner = programId ∧
    slice 0 4 (prepared core).data = coreMagic ∧ (prepared pool).data = (ledger 255 pool).data := by
  obtain ⟨_, l, hok, htest⟩ := Exec.ok_of_yields fullPage_runs.prepare_yields
  have hfinal : prepared = l := by rw [prepared_eq, Exec.final, hok]
  rw [hfinal, ledger_eq_fullPage]
  exact ⟨hok, of_decide_eq_true htest⟩

theorem ledger_core (n : ℕ) : ledger n core = ⟨systemProgram, 0, [], false⟩ := by
  rw [ledger, ledgerOf, List.idxOf_eq_length fullPage_runs.core_new]
  rfl

theorem settleLayout_ok :
    ∃ layout, settleLayout environment settleAccounts .withdrawal prepared = .ok layout ∧ layout.core.key = core := by
  have hcore := fullPage_runs.settle_layout
  rw [← prepared_eq] at hcore
  cases hlayout : settleLayout environment settleAccounts .withdrawal prepared with
  | error e =>
    rw [hlayout] at hcore
    cases hcore
  | ok layout =>
    rw [hlayout] at hcore
    exact ⟨layout, rfl, Option.some_inj.mp hcore⟩

theorem runs_prepared : deployment.Runs start (events 255 ++ [preparedEvent]) prepared :=
  (runs le_rfl).append (.cons (Exec.bind_ok.mpr ⟨(), _, prepare_ok.1, Exec.pure_ok.mpr ⟨rfl, rfl⟩⟩) (.nil _))

/-- The settlement succeeds; the new page counts two roots for one leaf. -/
theorem settle_ok : ∃ receipt settled, deployment.Step prepared (settledEvent receipt) settled ∧
    settle prepared = .ok receipt settled ∧ receipt.pool = pool ∧ receipt.nullifier = nullifier ∧
    receipt.outputs.length = 1 ∧ leNat (slice 56 2 (settled (page 1)).data) = 2 := by
  rw [prepared_eq]
  obtain ⟨receipt, settled, hok, htest⟩ := Exec.ok_of_yields fullPage_runs.settle_yields
  exact ⟨receipt, settled, Exec.bind_ok.mpr ⟨receipt, _, hok, Exec.pure_ok.mpr ⟨rfl, rfl⟩⟩, hok, of_decide_eq_true htest⟩

/-- The direct withdrawal of the same note succeeds too; the new page counts one root. -/
theorem withdraw_ok : ∃ receipt spent, withdraw prepared = .ok receipt spent ∧
    leNat (slice 56 2 (spent (page 1)).data) = 1 := by
  rw [prepared_eq]
  obtain ⟨receipt, spent, hok, htest⟩ := Exec.ok_of_yields fullPage_runs.withdraw_yields
  exact ⟨receipt, spent, hok, of_decide_eq_true htest⟩

/-- The whole run is made of accepted instructions. -/
theorem accepted_of_mem {receipt : TransitionReceiptV1} {e : Event}
    (h : e ∈ (events 255 ++ [preparedEvent]) ++ [settledEvent receipt]) : ∃ i o, e = .accepted i o := by
  simp only [events, List.mem_append, List.mem_cons, List.mem_map, List.not_mem_nil, or_false] at h
  rcases h with ((rfl | ⟨i, -, rfl⟩) | rfl) | rfl
  · exact ⟨_, _, rfl⟩
  · exact ⟨_, _, rfl⟩
  · exact ⟨_, _, rfl⟩
  · exact ⟨_, _, rfl⟩

end Aspis.Pool.Sample
