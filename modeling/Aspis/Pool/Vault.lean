import Aspis.Pool.Accounts

/-! The token vault: strict parsing of legacy token accounts, the deposit and
withdrawal transfer plans, and the exact balance checks after the transfer. -/

namespace Aspis.Pool

open Lib Chain Statement

structure LegacyMintV1 where
  supply : ℕ
  decimals : UInt8
  deriving DecidableEq

structure LegacyTokenAccountV1 where
  mint : Pubkey
  authority : Pubkey
  amount : ℕ
  hasDelegate : Bool
  isNative : Bool
  delegatedAmount : ℕ
  hasCloseAuthority : Bool
  deriving DecidableEq

/-- An optional field of a token account: a four-byte tag and its payload, which
is zero when the tag says none. The result says whether it is present. -/
def parseCoption (bytes : Bytes) : Except ProgramError Bool :=
  if leNat (slice 0 4 bytes) = 0 then
    if allZero (bytes.drop 4) then .ok false else .error (.custom .unsupportedTokenConfiguration)
  else if leNat (slice 0 4 bytes) = 1 then .ok true
  else .error (.custom .invalidTokenAccount)

def parseLegacyMintV1 (data : Bytes) : Except ProgramError LegacyMintV1 := do
  require (data.length = 82) (.custom .unsupportedTokenConfiguration)
  let _ ← parseCoption (slice 0 36 data)
  let _ ← parseCoption (slice 46 36 data)
  require (byteAt 45 data = 1) (.custom .invalidMint)
  return ⟨leNat (slice 36 8 data), byteAt 44 data⟩

def parseLegacyTokenAccountV1 (data : Bytes) : Except ProgramError LegacyTokenAccountV1 := do
  require (data.length = 165) (.custom .unsupportedTokenConfiguration)
  let hasDelegate ← parseCoption (slice 72 36 data)
  require (byteAt 108 data = 1) (.custom .invalidTokenAccount)
  let isNative ← parseCoption (slice 109 12 data)
  let hasCloseAuthority ← parseCoption (slice 129 36 data)
  return ⟨Bytes32.read 0 data, Bytes32.read 32 data, leNat (slice 64 8 data), hasDelegate, isNative,
    leNat (slice 121 8 data), hasCloseAuthority⟩

def requireTokenOwnedAccount (account : AccountInfo) (writable : Bool) (l : Ledger) : Except ProgramError Unit :=
  require (account.owner l = LEGACY_SPL_TOKEN_PROGRAM_ID ∧ account.executable l = false ∧ account.isSigner = false ∧
    account.isWritable = writable) (.custom .invalidTokenAccount)

/-- Exactly five accounts with five different keys. -/
def exactFiveAccounts (accounts : List AccountInfo) :
    Except ProgramError (AccountInfo × AccountInfo × AccountInfo × AccountInfo × AccountInfo) :=
  match accounts with
  | [a, b, c, d, e] => do
    require ([a.key, b.key, c.key, d.key, e.key].Nodup) (.custom .invalidTokenAccount)
    return (a, b, c, d, e)
  | _ => if accounts.length < 5 then .error .notEnoughAccountKeys else .error .invalidArgument

structure LegacyDepositTransferPlanV1 where
  source : Pubkey
  mint : Pubkey
  vault : Pubkey
  authority : Pubkey
  amount : ℕ
  sourceBefore : ℕ
  sourceAfter : ℕ
  vaultBefore : ℕ
  vaultAfter : ℕ
  decimals : UInt8
  deriving DecidableEq

structure LegacyWithdrawalTransferPlanV1 where
  mint : Pubkey
  vault : Pubkey
  destination : Pubkey
  authority : Pubkey
  amount : ℕ
  vaultBefore : ℕ
  vaultAfter : ℕ
  destinationBefore : ℕ
  destinationAfter : ℕ
  decimals : UInt8
  authorityBump : UInt8
  deriving DecidableEq

/-- The token instruction of a deposit plan. -/
def LegacyDepositTransferPlanV1.instruction (p : LegacyDepositTransferPlanV1) : TokenTransfer :=
  ⟨p.source, p.mint, p.vault, p.authority, p.amount, p.decimals⟩

def LegacyWithdrawalTransferPlanV1.instruction (p : LegacyWithdrawalTransferPlanV1) : TokenTransfer :=
  ⟨p.vault, p.mint, p.destination, p.authority, p.amount, p.decimals⟩

def requireTokenProgramIdentity (identity : PoolIdentityV1) (tokenProgram : AccountInfo) (l : Ledger) :
    Except ProgramError Unit :=
  require (identity.tokenProgram = LEGACY_SPL_TOKEN_PROGRAM_ID ∧ tokenProgram.key = LEGACY_SPL_TOKEN_PROGRAM_ID ∧
    tokenProgram.executable l = true ∧ tokenProgram.isSigner = false ∧ tokenProgram.isWritable = false)
    (.custom .invalidTokenProgram)

section
variable (env : Environment)

/-- Seed text `aspis-pool-vault-authority-v1` and the pool. -/
def poolV1VaultAuthorityAddress (pool : Pubkey) : Pubkey × UInt8 :=
  env.programAddress [[97, 115, 112, 105, 115, 45, 112, 111, 111, 108, 45, 118, 97, 117, 108, 116, 45, 97, 117,
    116, 104, 111, 114, 105, 116, 121, 45, 118, 49], pool.bytes]

/-- Seed text `aspis-pool-vault-token-v1` and the pool. -/
def poolV1VaultTokenAccountAddress (pool : Pubkey) : Pubkey × UInt8 :=
  env.programAddress [[97, 115, 112, 105, 115, 45, 112, 111, 111, 108, 45, 118, 97, 117, 108, 116, 45, 116, 111,
    107, 101, 110, 45, 118, 49], pool.bytes]

/-- Check `[mint, source, source_authority, vault, token_program]` and plan the
transfer of `amount` from the source into the vault. -/
def planLegacyDepositTransferFromIdentityV1 (pool : Pubkey) (identity : PoolIdentityV1)
    (accounts : List AccountInfo) (amount : ℕ) (l : Ledger) : Except ProgramError LegacyDepositTransferPlanV1 := do
  let (mintAccount, sourceAccount, sourceAuthority, vaultAccount, tokenProgram) ← exactFiveAccounts accounts
  requireTokenProgramIdentity identity tokenProgram l
  require (mintAccount.key = identity.assetMint) (.custom .invalidMint)
  requireTokenOwnedAccount mintAccount false l
  let mint ← parseLegacyMintV1 (mintAccount.data l)
  requireTokenOwnedAccount sourceAccount true l
  requireTokenOwnedAccount vaultAccount true l
  require (sourceAuthority.isSigner = true ∧ sourceAuthority.isWritable = false ∧
    sourceAuthority.executable l = false) (.custom .invalidSourceAuthority)
  let source ← parseLegacyTokenAccountV1 (sourceAccount.data l)
  let vault ← parseLegacyTokenAccountV1 (vaultAccount.data l)
  require (source.mint = identity.assetMint ∧ vault.mint = identity.assetMint ∧
    source.authority = sourceAuthority.key) (.custom .invalidTokenAccount)
  require (vaultAccount.key = (poolV1VaultTokenAccountAddress env pool).1) (.custom .invalidVaultTokenAddress)
  require (vault.authority = (poolV1VaultAuthorityAddress env pool).1) (.custom .invalidVaultAuthority)
  require (vault.hasDelegate = false ∧ vault.isNative = false ∧ vault.delegatedAmount = 0 ∧
    vault.hasCloseAuthority = false) (.custom .unsupportedTokenConfiguration)
  require (amount ≤ source.amount) (.custom .insufficientDepositFunds)
  require (vault.amount + amount < U64_LIMIT) (.custom .arithmeticOverflow)
  return {
    source := sourceAccount.key, mint := mintAccount.key, vault := vaultAccount.key
    authority := sourceAuthority.key, amount, sourceBefore := source.amount, sourceAfter := source.amount - amount
    vaultBefore := vault.amount, vaultAfter := vault.amount + amount, decimals := mint.decimals }

/-- Check `[mint, vault, destination, vault_authority, token_program]` and plan
the transfer of `amount` from the vault to the named destination. -/
def planLegacyWithdrawalTransferFromIdentityV1 (pool : Pubkey) (identity : PoolIdentityV1)
    (accounts : List AccountInfo) (destination : Pubkey) (amount : ℕ) (l : Ledger) :
    Except ProgramError LegacyWithdrawalTransferPlanV1 := do
  let (mintAccount, vaultAccount, destinationAccount, vaultAuthority, tokenProgram) ← exactFiveAccounts accounts
  require (amount ≠ 0) (.custom .invalidWithdrawalAmount)
  requireTokenProgramIdentity identity tokenProgram l
  require (mintAccount.key = identity.assetMint) (.custom .invalidMint)
  requireTokenOwnedAccount mintAccount false l
  let mint ← parseLegacyMintV1 (mintAccount.data l)
  requireTokenOwnedAccount vaultAccount true l
  requireTokenOwnedAccount destinationAccount true l
  let (expectedAuthority, authorityBump) := poolV1VaultAuthorityAddress env pool
  require (vaultAuthority.key = expectedAuthority ∧ vaultAuthority.owner l = systemProgram ∧
    vaultAuthority.executable l = false ∧ vaultAuthority.isSigner = false ∧ vaultAuthority.isWritable = false ∧
    vaultAuthority.data l = []) (.custom .invalidVaultAuthority)
  require (destinationAccount.key = destination) (.custom .invalidDestinationTokenAccount)
  let vault ← parseLegacyTokenAccountV1 (vaultAccount.data l)
  let destinationState ← parseLegacyTokenAccountV1 (destinationAccount.data l)
  require (vaultAccount.key = (poolV1VaultTokenAccountAddress env pool).1) (.custom .invalidVaultTokenAddress)
  require (vault.mint = identity.assetMint ∧ destinationState.mint = identity.assetMint ∧
    vault.authority = expectedAuthority) (.custom .invalidTokenAccount)
  require (vault.hasDelegate = false ∧ vault.isNative = false ∧ vault.delegatedAmount = 0 ∧
    vault.hasCloseAuthority = false ∧ destinationState.isNative = false) (.custom .unsupportedTokenConfiguration)
  require (amount ≤ vault.amount) (.custom .insufficientVaultFunds)
  require (destinationState.amount + amount < U64_LIMIT) (.custom .arithmeticOverflow)
  return {
    mint := mintAccount.key, vault := vaultAccount.key, destination := destinationAccount.key
    authority := vaultAuthority.key, amount, vaultBefore := vault.amount, vaultAfter := vault.amount - amount
    destinationBefore := destinationState.amount, destinationAfter := destinationState.amount + amount
    decimals := mint.decimals, authorityBump }

end

/-- Both balances must have moved by exactly the planned amount. -/
def validateExactDepositDeltaV1 (accounts : List AccountInfo) (plan : LegacyDepositTransferPlanV1) (l : Ledger) :
    Except ProgramError Unit := do
  let (mintAccount, sourceAccount, sourceAuthority, vaultAccount, tokenProgram) ← exactFiveAccounts accounts
  require (mintAccount.key = plan.mint ∧ sourceAccount.key = plan.source ∧ sourceAuthority.key = plan.authority ∧
    vaultAccount.key = plan.vault ∧ tokenProgram.key = LEGACY_SPL_TOKEN_PROGRAM_ID)
    (.custom .tokenBalanceDeltaMismatch)
  let source ← parseLegacyTokenAccountV1 (sourceAccount.data l)
  let vault ← parseLegacyTokenAccountV1 (vaultAccount.data l)
  require (source.mint = plan.mint ∧ vault.mint = plan.mint ∧ source.authority = plan.authority ∧
    source.amount = plan.sourceAfter ∧ vault.amount = plan.vaultAfter) (.custom .tokenBalanceDeltaMismatch)

def validateExactWithdrawalDeltaV1 (accounts : List AccountInfo) (plan : LegacyWithdrawalTransferPlanV1)
    (l : Ledger) : Except ProgramError Unit := do
  let (mintAccount, vaultAccount, destinationAccount, vaultAuthority, tokenProgram) ← exactFiveAccounts accounts
  require (mintAccount.key = plan.mint ∧ vaultAccount.key = plan.vault ∧ destinationAccount.key = plan.destination ∧
    vaultAuthority.key = plan.authority ∧ tokenProgram.key = LEGACY_SPL_TOKEN_PROGRAM_ID)
    (.custom .tokenBalanceDeltaMismatch)
  let vault ← parseLegacyTokenAccountV1 (vaultAccount.data l)
  let destination ← parseLegacyTokenAccountV1 (destinationAccount.data l)
  require (vault.mint = plan.mint ∧ destination.mint = plan.mint ∧ vault.authority = plan.authority ∧
    vault.amount = plan.vaultAfter ∧ destination.amount = plan.destinationAfter)
    (.custom .tokenBalanceDeltaMismatch)

end Aspis.Pool
