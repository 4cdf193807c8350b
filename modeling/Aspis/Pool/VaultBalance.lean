import Aspis.Pool.SpendOnce

/-! The balance of a pool's vault over runs. Every deposit credits the vault with
its declared amount and every withdrawal debits it by the authorized one, in
favour of the authorized destination alone; nothing else the program does moves
tokens. No address derivation is assumed injective: two pools of one mint are
one pool, so a transfer of another pool never reaches this vault. -/

namespace Aspis.Pool

open Lib Chain Statement

/-- The balance field of a token account. -/
def tokenBalance (l : Ledger) (k : Pubkey) : ℕ := leNat (slice 64 8 (l k).data)

/-- The mint field of a token account. -/
def tokenMint (l : Ledger) (k : Pubkey) : Pubkey := Bytes32.read 0 (l k).data

/-- What the token program promises: a transfer writes its two accounts only,
and of them neither owner nor mint; initializing writes one account. -/
structure TokenLaws (env : Environment) : Prop where
  program_ne : env.programId ≠ LEGACY_SPL_TOKEN_PROGRAM_ID
  transfer_frame : ∀ t l l', env.transferChecked t l = .ok l' → Touches [t.source, t.destination] l l'
  transfer_shape : ∀ t l l' k, env.transferChecked t l = .ok l' →
    (l' k).owner = (l k).owner ∧ tokenMint l' k = tokenMint l k
  initialize_frame : ∀ account mint owner l l', env.initializeAccount3 account mint owner l = .ok l' →
    Touches [account] l l'

/-- The vault of a pool is a token account of the pool's mint. -/
structure VaultOpen (env : Environment) (pool mint : Pubkey) (l : Ledger) : Prop where
  pool_eq : pool = (poolV1StateAddress env mint).1
  owner_eq : (l (poolV1VaultTokenAccountAddress env pool).1).owner = LEGACY_SPL_TOKEN_PROGRAM_ID
  mint_eq : tokenMint l (poolV1VaultTokenAccountAddress env pool).1 = mint

/-- Every token account keeps owner and data. -/
def TokenKept (l l' : Ledger) : Prop :=
  ∀ k, (l k).owner = LEGACY_SPL_TOKEN_PROGRAM_ID →
    (l' k).owner = LEGACY_SPL_TOKEN_PROGRAM_ID ∧ (l' k).data = (l k).data

namespace TokenKept

variable {l m n : Ledger} {k : Pubkey}

theorem refl (l : Ledger) : TokenKept l l := fun _ h => ⟨h, rfl⟩

theorem trans (h : TokenKept l m) (h' : TokenKept m n) : TokenKept l n := by
  intro k hk
  obtain ⟨howner, hdata⟩ := h k hk
  obtain ⟨howner', hdata'⟩ := h' k howner
  exact ⟨howner', hdata'.trans hdata⟩

theorem of_system (h : SystemCall l m) : TokenKept l m := by
  intro k hk
  have hne : (l k).owner ≠ systemProgram := by
    rw [hk]
    decide
  obtain ⟨howner, hdata⟩ := h.kept k hne
  exact ⟨howner.trans hk, hdata⟩

theorem balance (h : TokenKept l m) (hk : (l k).owner = LEGACY_SPL_TOKEN_PROGRAM_ID) :
    tokenBalance m k = tokenBalance l k := by
  rw [tokenBalance, (h k hk).2, tokenBalance]

theorem mint (h : TokenKept l m) (hk : (l k).owner = LEGACY_SPL_TOKEN_PROGRAM_ID) : tokenMint m k = tokenMint l k := by
  rw [tokenMint, (h k hk).2, tokenMint]

theorem open_vault {env : Environment} {pool mint : Pubkey} (h : TokenKept l m) (hopen : VaultOpen env pool mint l) :
    VaultOpen env pool mint m :=
  ⟨hopen.pool_eq, (h _ hopen.owner_eq).1, (h.mint hopen.owner_eq).trans hopen.mint_eq⟩

end TokenKept

section
variable {env : Environment} {l m l' : Ledger}

/-- Writes to the program's own accounts move no tokens. -/
theorem TokenLaws.kept_of_touches (laws : TokenLaws env) {keys : List Pubkey} (h : Touches keys l l')
    (hkeys : ∀ k ∈ keys, (l k).owner = env.programId) : TokenKept l l' := by
  intro k hk
  obtain ⟨howner, hdata⟩ := h k fun hmem => laws.program_ne ((hkeys k hmem).symm.trans hk)
  exact ⟨howner.trans hk, hdata⟩

theorem AppendTargets.owner {pool current : Pubkey} {next : Option Pubkey} (h : AppendTargets env pool current next l) :
    ∀ k ∈ pool :: current :: next.toList, (l k).owner = env.programId := by
  intro k hk
  simp only [List.mem_cons, Option.mem_toList] at hk
  rcases hk with rfl | rfl | hk
  · exact h.pool_kind.owner_eq
  · exact h.current_kind.owner_eq
  · exact (h.next_zeroed k hk).owner_eq

/-! ### Transfers -/

/-- A token transfer whose two balances were read back. -/
structure TokensMoved (env : Environment) (t : TokenTransfer) (mint : Pubkey) (l l' : Ledger) : Prop where
  called : env.transferChecked t l = .ok l'
  source_owner : (l t.source).owner = LEGACY_SPL_TOKEN_PROGRAM_ID
  destination_owner : (l t.destination).owner = LEGACY_SPL_TOKEN_PROGRAM_ID
  source_mint : tokenMint l t.source = mint
  destination_mint : tokenMint l t.destination = mint
  distinct : t.source ≠ t.destination
  debited : tokenBalance l' t.source + t.amount = tokenBalance l t.source
  credited : tokenBalance l' t.destination = tokenBalance l t.destination + t.amount

theorem exactFiveAccounts_ok {accounts : List AccountInfo} {a b c d e : AccountInfo}
    (h : exactFiveAccounts accounts = .ok (a, b, c, d, e)) :
    accounts = [a, b, c, d, e] ∧ [a.key, b.key, c.key, d.key, e.key].Nodup := by
  unfold exactFiveAccounts at h
  split at h
  · simp only [except_bind_eq_ok, require_eq_ok, except_pure_eq_ok, Prod.mk.injEq] at h
    obtain ⟨_, hnodup, rfl, rfl, rfl, rfl, rfl⟩ := h
    exact ⟨rfl, hnodup⟩
  · split_ifs at h

theorem parseLegacyTokenAccountV1_ok {data : Bytes} {parsed : LegacyTokenAccountV1}
    (h : parseLegacyTokenAccountV1 data = .ok parsed) :
    parsed.mint = Bytes32.read 0 data ∧ parsed.amount = leNat (slice 64 8 data) := by
  simp only [parseLegacyTokenAccountV1, except_bind_eq_ok, except_pure_eq_ok] at h
  obtain ⟨_, -, _, -, _, -, _, -, _, -, rfl⟩ := h
  exact ⟨rfl, rfl⟩

theorem deposit_moved {pool : Pubkey} {identity : PoolIdentityV1} {accounts : List AccountInfo} {amount : ℕ}
    {plan : LegacyDepositTransferPlanV1}
    (hplan : planLegacyDepositTransferFromIdentityV1 env pool identity accounts amount l = .ok plan)
    (hcall : env.transferChecked plan.instruction l = .ok l')
    (hdelta : validateExactDepositDeltaV1 accounts plan l' = .ok ()) :
    TokensMoved env plan.instruction identity.assetMint l l' ∧ plan.amount = amount ∧
      plan.vault = (poolV1VaultTokenAccountAddress env pool).1 := by
  simp only [planLegacyDepositTransferFromIdentityV1, requireTokenOwnedAccount, except_bind_eq_ok, require_eq_ok,
    except_pure_eq_ok] at hplan
  obtain ⟨⟨mint, source, authority, vault, token⟩, hfive, _, -, _, -, _, -, _, -, _, ⟨hsource, -⟩, _, ⟨hvault, -⟩, _, -,
    parsedSource, hparsedSource, parsedVault, hparsedVault, _, ⟨hsourceMint, hvaultMint, -⟩, _, haddress, _, -, _, -, _,
    hfunds, _, -, rfl⟩ := hplan
  obtain ⟨rfl, hnodup⟩ := exactFiveAccounts_ok hfive
  simp only [validateExactDepositDeltaV1, except_bind_eq_ok, require_eq_ok] at hdelta
  obtain ⟨⟨mint', source', authority', vault', token'⟩, hfive', _, -, afterSource, hafterSource, afterVault, hafterVault,
    -, -, -, hsourceAfter, hvaultAfter⟩ := hdelta
  obtain ⟨heq, -⟩ := exactFiveAccounts_ok hfive'
  cases heq
  obtain ⟨hmint, hamount⟩ := parseLegacyTokenAccountV1_ok hparsedSource
  obtain ⟨hmint', hamount'⟩ := parseLegacyTokenAccountV1_ok hparsedVault
  obtain ⟨-, hafter⟩ := parseLegacyTokenAccountV1_ok hafterSource
  obtain ⟨-, hafter'⟩ := parseLegacyTokenAccountV1_ok hafterVault
  have hne : source.key ≠ vault.key := by
    simp only [List.nodup_cons, List.mem_cons, not_or] at hnodup
    exact hnodup.2.1.2.1
  refine ⟨⟨hcall, hsource, hvault, hmint.symm.trans hsourceMint, hmint'.symm.trans hvaultMint, hne, ?_, ?_⟩, rfl,
    haddress⟩
  · simp only [LegacyDepositTransferPlanV1.instruction, tokenBalance]
    rw [← hafter, ← hamount, hsourceAfter]
    omega
  · simp only [LegacyDepositTransferPlanV1.instruction, tokenBalance]
    rw [← hafter', ← hamount', hvaultAfter]

theorem withdrawal_moved {pool destination : Pubkey} {identity : PoolIdentityV1} {accounts : List AccountInfo}
    {amount : ℕ} {plan : LegacyWithdrawalTransferPlanV1} (hkept : TokenKept l m)
    (hplan : planLegacyWithdrawalTransferFromIdentityV1 env pool identity accounts destination amount l = .ok plan)
    (hcall : env.transferChecked plan.instruction m = .ok l')
    (hdelta : validateExactWithdrawalDeltaV1 accounts plan l' = .ok ()) :
    TokensMoved env plan.instruction identity.assetMint m l' ∧ plan.amount = amount ∧
      plan.vault = (poolV1VaultTokenAccountAddress env pool).1 ∧ plan.destination = destination ∧
      (l plan.vault).owner = LEGACY_SPL_TOKEN_PROGRAM_ID ∧ (l destination).owner = LEGACY_SPL_TOKEN_PROGRAM_ID := by
  simp only [planLegacyWithdrawalTransferFromIdentityV1, requireTokenOwnedAccount, except_bind_eq_ok, require_eq_ok,
    except_pure_eq_ok] at hplan
  obtain ⟨⟨mint, vault, account, authority, token⟩, hfive, _, -, _, -, _, -, _, -, _, -, _, ⟨hvault, -⟩, _, ⟨haccount, -⟩,
    _, -, _, hdestination, parsedVault, hparsedVault, parsed, hparsed, _, haddress, _, ⟨hvaultMint, hmint, -⟩, _, -, _,
    hfunds, _, -, rfl⟩ := hplan
  obtain ⟨rfl, hnodup⟩ := exactFiveAccounts_ok hfive
  simp only [validateExactWithdrawalDeltaV1, except_bind_eq_ok, require_eq_ok] at hdelta
  obtain ⟨⟨mint', vault', account', authority', token'⟩, hfive', _, -, afterVault, hafterVault, after, hafter, -, -, -,
    hvaultAfter, hdestinationAfter⟩ := hdelta
  obtain ⟨heq, -⟩ := exactFiveAccounts_ok hfive'
  cases heq
  obtain ⟨hparsedMint, hamount⟩ := parseLegacyTokenAccountV1_ok hparsedVault
  obtain ⟨hparsedMint', hamount'⟩ := parseLegacyTokenAccountV1_ok hparsed
  obtain ⟨-, hread⟩ := parseLegacyTokenAccountV1_ok hafterVault
  obtain ⟨-, hread'⟩ := parseLegacyTokenAccountV1_ok hafter
  have hne : vault.key ≠ account.key := by
    simp only [List.nodup_cons, List.mem_cons, not_or] at hnodup
    exact hnodup.2.1.1
  subst hdestination
  refine ⟨⟨hcall, (hkept _ hvault).1, (hkept _ haccount).1, ?_, ?_, hne, ?_, ?_⟩, rfl, haddress, rfl, hvault, haccount⟩
  · exact (hkept.mint hvault).trans (hparsedMint.symm.trans hvaultMint)
  · exact (hkept.mint haccount).trans (hparsedMint'.symm.trans hmint)
  · simp only [LegacyWithdrawalTransferPlanV1.instruction]
    rw [hkept.balance hvault, tokenBalance, tokenBalance, ← hread, ← hamount, hvaultAfter]
    omega
  · simp only [LegacyWithdrawalTransferPlanV1.instruction]
    rw [hkept.balance haccount, tokenBalance, tokenBalance, ← hread', ← hamount', hdestinationAfter]

/-- What a step does to the vault of one pool. -/
structure VaultEffect (env : Environment) (pool mint : Pubkey) (deposited withdrawn : ℕ) (l l' : Ledger) : Prop where
  still_open : VaultOpen env pool mint l'
  balance_eq : tokenBalance l' (poolV1VaultTokenAccountAddress env pool).1 + withdrawn =
    tokenBalance l (poolV1VaultTokenAccountAddress env pool).1 + deposited

section Effect
variable {pool mint mint' : Pubkey} {t : TokenTransfer}

theorem VaultEffect.of_kept (h : TokenKept l l') (hopen : VaultOpen env pool mint l) :
    VaultEffect env pool mint 0 0 l l' :=
  ⟨h.open_vault hopen, by rw [h.balance hopen.owner_eq]⟩

/-- Steps that keep all token accounts may stand around a transfer. -/
theorem VaultEffect.frame {n : Ledger} {deposited withdrawn : ℕ} (hbefore : TokenKept l m)
    (h : VaultOpen env pool mint m → VaultEffect env pool mint deposited withdrawn m n) (hafter : TokenKept n l')
    (hopen : VaultOpen env pool mint l) : VaultEffect env pool mint deposited withdrawn l l' := by
  have hmoved := h (hbefore.open_vault hopen)
  refine ⟨hafter.open_vault hmoved.still_open, ?_⟩
  rw [hafter.balance hmoved.still_open.owner_eq, hmoved.balance_eq, hbefore.balance hopen.owner_eq]

theorem TokensMoved.open_vault (laws : TokenLaws env) (h : TokensMoved env t mint' l l')
    (hopen : VaultOpen env pool mint l) : VaultOpen env pool mint l' := by
  obtain ⟨howner, hmint⟩ := laws.transfer_shape t l l' (poolV1VaultTokenAccountAddress env pool).1 h.called
  exact ⟨hopen.pool_eq, howner.trans hopen.owner_eq, hmint.trans hopen.mint_eq⟩

/-- A transfer in another mint leaves the vault alone. -/
theorem TokensMoved.other (laws : TokenLaws env) (h : TokensMoved env t mint' l l') (hopen : VaultOpen env pool mint l)
    (hne : mint ≠ mint') : VaultEffect env pool mint 0 0 l l' := by
  refine ⟨h.open_vault laws hopen, ?_⟩
  have hnot : (poolV1VaultTokenAccountAddress env pool).1 ∉ [t.source, t.destination] := by
    simp only [List.mem_cons, List.not_mem_nil, or_false, not_or]
    constructor
    · intro heq
      exact hne (hopen.mint_eq.symm.trans (heq ▸ h.source_mint))
    · intro heq
      exact hne (hopen.mint_eq.symm.trans (heq ▸ h.destination_mint))
  rw [tokenBalance, (laws.transfer_frame t l l' h.called _ hnot).2, tokenBalance]

theorem TokensMoved.credits (laws : TokenLaws env) (h : TokensMoved env t mint' l l')
    (hopen : VaultOpen env pool mint l)
    (hvault : t.destination = (poolV1VaultTokenAccountAddress env (poolV1StateAddress env mint').1).1) :
    VaultEffect env pool mint (if (poolV1StateAddress env mint').1 = pool then t.amount else 0) 0 l l' := by
  split_ifs with hpool
  · refine ⟨h.open_vault laws hopen, ?_⟩
    rw [← hpool, ← hvault, h.credited, Nat.add_zero]
  · exact h.other laws hopen fun heq => hpool (heq ▸ hopen.pool_eq.symm)

theorem TokensMoved.debits (laws : TokenLaws env) (h : TokensMoved env t mint' l l')
    (hopen : VaultOpen env pool mint l)
    (hvault : t.source = (poolV1VaultTokenAccountAddress env (poolV1StateAddress env mint').1).1) :
    VaultEffect env pool mint 0 (if (poolV1StateAddress env mint').1 = pool then t.amount else 0) l l' := by
  split_ifs with hpool
  · refine ⟨h.open_vault laws hopen, ?_⟩
    rw [← hpool, ← hvault, h.debited, Nat.add_zero]
  · exact h.other laws hopen fun heq => hpool (heq ▸ hopen.pool_eq.symm)

end Effect

/-! ### Instructions -/

/-- What the outcome says was paid into the vault of the pool. -/
def Outcome.depositedTo (pool : Pubkey) : Outcome → ℕ
  | .deposited receipt => if receipt.pool = pool then receipt.amount else 0
  | _ => 0

/-- What the outcome says was paid out of the vault of the pool. -/
def Outcome.withdrawnFrom (pool : Pubkey) : Outcome → ℕ
  | .spent receipt => match receipt.transitionKind with
    | .withdrawal => if receipt.pool = pool then receipt.withdrawalAmount else 0
    | .privateTransfer => 0
  | _ => 0

/-- The amount and destination that the statement of a spend authorizes. -/
def Instruction.payout (services : AuthorizationServices) : Instruction → Option (ℕ × Pubkey)
  | .privateTransfer _ instruction => instruction.statement.withdrawalAmountAndDestination
  | .withdrawal _ instruction => instruction.statement.withdrawalAmountAndDestination
  | .settlePrepared _ instruction _ =>
    (services.decodeCanonicalStatement instruction.transitionKind instruction.statementPayload).bind
      (·.withdrawalAmountAndDestination)
  | _ => none

/-- The tokens a spend moves: none, or exactly the authorized amount from the
vault of its pool to the authorized destination. -/
def PaysOnly (env : Environment) (pool : Pubkey) (authorized : Option (ℕ × Pubkey)) (l l' : Ledger) : Prop :=
  match authorized with
  | none => TokenKept l l'
  | some (amount, destination) => destination ≠ (poolV1VaultTokenAccountAddress env pool).1 ∧
      tokenBalance l' (poolV1VaultTokenAccountAddress env pool).1 + amount =
        tokenBalance l (poolV1VaultTokenAccountAddress env pool).1 ∧
      tokenBalance l' destination = tokenBalance l destination + amount ∧
      ∀ k, (l k).owner = LEGACY_SPL_TOKEN_PROGRAM_ID → k ≠ (poolV1VaultTokenAccountAddress env pool).1 →
        k ≠ destination → (l' k).data = (l k).data

section Payout
variable {pool mint : Pubkey} {tokens : List AccountInfo} {withdrawal : Option LegacyWithdrawalTransferPlanV1}
  {statement : CanonicalSettlementStatementV1} {receipt : TransitionReceiptV1} {paid : Ledger}

/-- The vault over a payout with steps around it that keep all token accounts. -/
theorem PayoutPlanned.vault (laws : TokenLaws env) (hplan : PayoutPlanned env receipt.pool tokens withdrawal statement
      receipt l) (hbefore : TokenKept l m) (hpaid : Paid env tokens withdrawal m paid) (hafter : TokenKept paid l')
    (hopen : VaultOpen env pool mint l) :
    VaultEffect env pool mint 0 (Outcome.withdrawnFrom pool (.spent receipt)) l l' := by
  cases withdrawal with
  | none =>
    obtain rfl : paid = m := hpaid
    rw [Outcome.withdrawnFrom, hplan.1]
    exact VaultEffect.of_kept (hbefore.trans hafter) hopen
  | some t =>
    obtain ⟨hkind, identity, destination, hpool, -, htransfer⟩ := hplan
    obtain ⟨hmoved, hamount, hvault, -⟩ := withdrawal_moved hbefore htransfer hpaid.1 hpaid.2
    rw [Outcome.withdrawnFrom, hkind]
    refine VaultEffect.frame hbefore (fun hopen' => ?_) hafter hopen
    have heffect := hmoved.debits laws hopen' (by rw [← hpool]; exact hvault)
    rw [← hpool] at heffect
    rwa [← hamount]

theorem PayoutPlanned.paysOnly (laws : TokenLaws env) (hplan : PayoutPlanned env receipt.pool tokens withdrawal
      statement receipt l) (hbefore : TokenKept l m) (hpaid : Paid env tokens withdrawal m paid)
    (hafter : TokenKept paid l') :
    PaysOnly env receipt.pool statement.withdrawalAmountAndDestination l l' := by
  cases withdrawal with
  | none =>
    obtain rfl : paid = m := hpaid
    rw [hplan.2]
    exact hbefore.trans hafter
  | some t =>
    obtain ⟨-, identity, destination, -, hauthorized, htransfer⟩ := hplan
    obtain ⟨hmoved, hamount, hvault, hdestination, hvaultOwner, howner⟩ :=
      withdrawal_moved hbefore htransfer hpaid.1 hpaid.2
    have hshape := fun k => (laws.transfer_shape t.instruction m paid k hpaid.1).1
    have hpaidOwner : ∀ k, (l k).owner = LEGACY_SPL_TOKEN_PROGRAM_ID → (paid k).owner = LEGACY_SPL_TOKEN_PROGRAM_ID :=
      fun k hk => (hshape k).trans (hbefore k hk).1
    rw [hauthorized, ← hamount, ← hdestination]
    simp only [PaysOnly]
    rw [← hvault]
    rw [← hdestination] at howner
    refine ⟨fun heq => hmoved.distinct heq.symm, ?_, ?_, fun k hk hne hne' => ?_⟩
    · rw [hafter.balance (hpaidOwner _ hvaultOwner), ← hbefore.balance hvaultOwner]
      exact hmoved.debited
    · rw [hafter.balance (hpaidOwner _ howner), ← hbefore.balance howner]
      exact hmoved.credited
    · rw [(hafter k (hpaidOwner k hk)).2, (laws.transfer_frame t.instruction m paid hpaid.1 k (by
        simp only [List.mem_cons, List.not_mem_nil, or_false, not_or]
        exact ⟨hne, hne'⟩)).2, (hbefore k hk).2]

end Payout

theorem VaultInitialized.tokenKept (laws : TokenLaws env) (h : VaultInitialized env l l') : TokenKept l l' := by
  rcases h with hcall | ⟨vault, mint, authority, m, howner, hcall, hinit⟩
  · exact TokenKept.of_system hcall
  · intro k hk
    obtain ⟨hmOwner, hmData⟩ := TokenKept.of_system hcall k hk
    have hne : k ∉ [vault] := by
      rw [List.mem_singleton]
      rintro rfl
      rw [howner] at hk
      exact absurd hk (by decide)
    obtain ⟨howner', hdata'⟩ := laws.initialize_frame _ _ _ _ _ hinit k hne
    exact ⟨howner'.trans hmOwner, hdata'.trans hmData⟩

theorem InitializeRun.tokenKept {pool pageZero : AccountInfo} {init : PoolInitializationV1} {state : PoolStateV1}
    {prepared : Ledger} (laws : TokenLaws env) (h : InitializeRun env pool pageZero init state l prepared l') :
    TokenKept l l' := by
  refine (h.vault.tokenKept laws).trans ?_
  rw [h.written]
  refine laws.kept_of_touches ((Touches.setData pool.key _ prepared).trans (Touches.setData pageZero.key _ _)) ?_
  simp only [List.cons_append, List.nil_append, List.mem_cons, List.not_mem_nil, or_false, forall_eq_or_imp, forall_eq]
  exact ⟨h.pool_owner, h.page.owner_eq⟩

theorem PrepareRun.tokenKept {pool core : AccountInfo} {c : CanonicalPoolStateV1} {r : AuthorizedAppendV1}
    {images : PreparedSettlementPlanImagesV1} {f : PreparedSettlementPlanFieldsV1}
    {prepared : PreparedAuthorizedAppendImagesV1} {shard : Option PlannedShard} {created : Ledger} (laws : TokenLaws env)
    (h : PrepareRun env pool core c r images f prepared shard l created l') : TokenKept l l' := by
  refine (TokenKept.of_system h.created_call).trans ?_
  rw [h.written]
  cases hshard : shard with
  | none => exact laws.kept_of_touches (Touches.setData core.key _ created) (by simpa using h.core_zeroed.1)
  | some s =>
    refine laws.kept_of_touches ((Touches.setData core.key images.coreImage created).trans
      (Touches.setData s.1.key s.2.1.image _)) ?_
    simp only [List.cons_append, List.nil_append, List.mem_cons, List.not_mem_nil, or_false, forall_eq_or_imp, forall_eq]
    exact ⟨h.core_zeroed.1, (h.shard_zeroed s hshard).1⟩

theorem CancelRun.tokenKept {core : AccountInfo} {shard : Option AccountInfo} (laws : TokenLaws env)
    (h : CancelRun env core shard l l') : TokenKept l l' := by
  obtain ⟨v, hv, -⟩ := h.decoded
  refine laws.kept_of_touches h.closed.touches fun k hk => ?_
  rcases plan_kinds h.core_owner h.shard_owner hv k hk with hkind | hkind <;> exact hkind.owner_eq

section Deposit
variable {pool current : AccountInfo} {next : Option AccountInfo} {tokenAccounts : List AccountInfo}
  {c : CanonicalPoolStateV1} {r : DepositRequestV1} {transfer : LegacyDepositTransferPlanV1} {plan : AppendPlanV1}
  {created paid : Ledger} {receipt : DepositReceiptV1}

theorem DepositRun.vault {key mint : Pubkey} (laws : TokenLaws env)
    (h : DepositRun env pool current next tokenAccounts c r transfer plan l created paid l' receipt)
    (hopen : VaultOpen env key mint l) :
    VaultEffect env key mint (Outcome.depositedTo key (.deposited receipt)) 0 l l' := by
  have hplanned := h.planned
  simp only [planVaultBackedDeposit, except_bind_eq_ok, except_pure_eq_ok, Prod.mk.injEq] at hplanned
  obtain ⟨_, -, _, -, _, -, transfer', htransfer, rfl, -⟩ := hplanned
  obtain ⟨hmoved, hamount, hvault⟩ := deposit_moved htransfer h.transferred h.delta
  obtain ⟨-, hdecode, -, haddress⟩ := decodeAccountWith_ok h.decoded
  obtain ⟨-, -, hidentity⟩ := decodeStateWith_magic hdecode
  have hpool : receipt.pool = (poolV1StateAddress env c.state.identity.assetMint).1 := by
    rw [h.receipt_pool, hidentity, haddress]
  have hafter : TokenKept paid l' := by
    rw [← h.persisted]
    exact laws.kept_of_touches plan.persist_touches h.targets.owner
  refine VaultEffect.frame (TokenKept.of_system h.created_call) (fun hopen' => ?_) hafter hopen
  have heffect := hmoved.credits laws hopen' (by rw [← haddress, ← hidentity]; exact hvault)
  rw [Outcome.depositedTo, hpool, h.receipt_amount, ← hamount]
  exact heffect

end Deposit

section Spend
variable {i : SpendInstructionV1} {pool current marker : AccountInfo} {next : Option AccountInfo}
  {source : AuthorizedSourceStateV1} {prevalidated : Option PrevalidatedCurrentHistoryV1} {r : AuthorizedAppendV1}
  {plan : AppendPlanV1} {planned : PlannedNullifierMarkerV1} {tokens : List AccountInfo}
  {withdrawal : Option LegacyWithdrawalTransferPlanV1} {created marked paid : Ledger} {receipt : TransitionReceiptV1}

/-- Around its payout a direct spend keeps all token accounts. -/
theorem SpendRun.tokenKept (laws : TokenLaws env) (h : SpendRun env i pool current marker next source prevalidated r plan
    planned tokens withdrawal l created marked paid l' receipt) : TokenKept l marked ∧ TokenKept paid l' := by
  refine ⟨TokenKept.of_system (h.created_call.trans h.marked_call), ?_⟩
  rw [← h.persisted]
  refine laws.kept_of_touches ((Touches.setData marker.key _ paid).trans plan.persist_touches) fun k hk => ?_
  rw [List.singleton_append, List.mem_cons] at hk
  rcases hk with rfl | hk
  · exact h.marker_zeroed.owner_eq
  · exact h.targets.owner k hk

end Spend

section Settle
variable {services : AuthorizationServices} {accounts : List AccountInfo} {pool : AccountInfo}
  {kind : PoolV1TransitionKind} {s : PoolStateV1} {layout : SettlePreparedLayoutV1}
  {x : PreparedSettlementApplyContextV1} {v : PreparedSettlementPlanViewV1} {a : AuthenticatedSettlementStatementV1}
  {sourceNext : Option Bytes} {applied : PreparedSettlementApplyResultV1} {planned : PlannedNullifierMarkerV1}
  {withdrawal : Option LegacyWithdrawalTransferPlanV1} {marked paid closing : Ledger} {receipt : TransitionReceiptV1}

theorem SettleRun.tokenKept (laws : TokenLaws env) (h : SettleRun env services accounts pool kind s layout x v a
    sourceNext applied planned withdrawal l marked paid closing l' receipt) :
    TokenKept l marked ∧ TokenKept paid l' := by
  refine ⟨TokenKept.of_system h.marked_call, ?_⟩
  refine laws.kept_of_touches (h.closing_touches.trans h.closed.touches) fun k hk => ?_
  rw [List.mem_append, List.mem_append, List.mem_singleton] at hk
  rcases hk with (hk | rfl) | hk
  · exact (h.targets.outside h.outside).owner k hk
  · exact h.marker_zeroed.owner_eq
  · rcases h.plan_kinds k hk with hkind | hkind <;> exact hkind.owner_eq

end Settle

/-- What an accepted instruction does to the vault of any pool. -/
theorem Accepted.vault {services : AuthorizationServices} {i : Instruction} {o : Outcome} {pool mint : Pubkey}
    (laws : TokenLaws env) (h : Accepted env services l l' i o) (hopen : VaultOpen env pool mint l) :
    VaultEffect env pool mint (o.depositedTo pool) (o.withdrawnFrom pool) l l' := by
  cases h with
  | initializePool run => exact VaultEffect.of_kept (run.tokenKept laws) hopen
  | deposit run => exact run.vault laws hopen
  | spend _ run =>
    obtain ⟨hbefore, hafter⟩ := run.tokenKept laws
    exact PayoutPlanned.vault laws (run.receipt_pool ▸ run.payout) hbefore run.paid_step hafter hopen
  | prepare _ _ run => exact VaultEffect.of_kept (run.tokenKept laws) hopen
  | settle _ _ run =>
    obtain ⟨hbefore, hafter⟩ := run.tokenKept laws
    exact PayoutPlanned.vault laws (run.receipt_pool ▸ run.payout) hbefore run.paid_step hafter hopen
  | cancel _ run => exact VaultEffect.of_kept (run.tokenKept laws) hopen

theorem Accepted.paysOnly {services : AuthorizationServices} {i : Instruction} {receipt : TransitionReceiptV1}
    (laws : TokenLaws env) (h : Accepted env services l l' i (.spent receipt)) :
    PaysOnly env receipt.pool (i.payout services) l l' := by
  cases h with
  | @spend _ spend pool current marker next source prevalidated r plan planned tokens withdrawal created marked paid _
      direct run =>
    obtain ⟨hbefore, hafter⟩ := run.tokenKept laws
    have hpays := PayoutPlanned.paysOnly laws (run.receipt_pool ▸ run.payout) hbefore run.paid_step hafter
    cases i <;> simp only [Instruction.directSpend, reduceCtorEq, Option.some.injEq] at direct <;>
      subst direct <;> exact hpays
  | @settle accounts instruction slot pool s layout x v a sourceNext applied planned withdrawal marked paid closing _
      named payload run =>
    obtain ⟨hbefore, hafter⟩ := run.tokenKept laws
    have hpays := PayoutPlanned.paysOnly laws (run.receipt_pool ▸ run.payout) hbefore run.paid_step hafter
    have hstatement := run.applied_plan.statement_decoded
    rw [run.context_kind, payload] at hstatement
    rw [Instruction.payout, hstatement]
    exact hpays

end

/-! ### Runs -/

/-- What the event paid into and out of the vault of the pool. -/
def Event.depositedTo (pool : Pubkey) : Event → ℕ
  | .accepted _ outcome => outcome.depositedTo pool
  | _ => 0

def Event.withdrawnFrom (pool : Pubkey) : Event → ℕ
  | .accepted _ outcome => outcome.withdrawnFrom pool
  | _ => 0

/-- A step with what others credit to the vault meanwhile. Nobody but the
program debits or closes it. -/
def Deployment.VaultStep (d : Deployment) (pool mint : Pubkey) (l : Ledger) (e : Event × ℕ) (l' : Ledger) : Prop :=
  d.Step l e.1 l' ∧ match e.1 with
    | .outside => VaultOpen d.env pool mint l' ∧ tokenBalance l' (poolV1VaultTokenAccountAddress d.env pool).1 =
        tokenBalance l (poolV1VaultTokenAccountAddress d.env pool).1 + e.2
    | _ => e.2 = 0

section
variable {d : Deployment} {pool mint : Pubkey} {l l' : Ledger}

theorem Deployment.VaultStep.effect {e : Event × ℕ} (laws : TokenLaws d.env) (h : d.VaultStep pool mint l e l')
    (hopen : VaultOpen d.env pool mint l) :
    VaultEffect d.env pool mint (e.1.depositedTo pool + e.2) (e.1.withdrawnFrom pool) l l' := by
  obtain ⟨event, credit⟩ := e
  obtain ⟨hstep, hcredit⟩ := h
  cases event with
  | outside => exact ⟨hcredit.1, by rw [hcredit.2]; simp [Event.depositedTo, Event.withdrawnFrom]⟩
  | rejected i =>
    obtain ⟨-, rfl⟩ := hstep
    obtain rfl : credit = 0 := hcredit
    exact VaultEffect.of_kept (TokenKept.refl l') hopen
  | accepted i o =>
    obtain rfl : credit = 0 := hcredit
    exact (processInstruction_accepted hstep).vault laws hopen

theorem vault_run {events : List (Event × ℕ)} (laws : TokenLaws d.env) (hopen : VaultOpen d.env pool mint l)
    (h : Run (d.VaultStep pool mint) l events l') :
    VaultEffect d.env pool mint ((events.map fun e => e.1.depositedTo pool + e.2).sum)
      ((events.map fun e => e.1.withdrawnFrom pool).sum) l l' := by
  induction h with
  | nil s => exact VaultEffect.of_kept (TokenKept.refl s) hopen
  | cons hstep _ ih =>
    have hfirst := hstep.effect laws hopen
    have hrest := ih hfirst.still_open
    refine ⟨hrest.still_open, ?_⟩
    have h₁ := hfirst.balance_eq
    have h₂ := hrest.balance_eq
    simp only [List.map_cons, List.sum_cons]
    omega

/-- Over every run the vault of a pool ends with its initial balance plus what
was deposited, plus what strangers gave, minus what successful instructions
withdrew; each accepted deposit credits the vault with exactly the amount of
its request, and each accepted spend pays exactly what its statement authorizes
and nobody else. -/
theorem vault_balance_over_run {events : List (Event × ℕ)} (laws : TokenLaws d.env)
    (hopen : VaultOpen d.env pool mint l) (h : Run (d.VaultStep pool mint) l events l') :
    tokenBalance l' (poolV1VaultTokenAccountAddress d.env pool).1 +
        (events.map fun e => e.1.withdrawnFrom pool).sum =
      tokenBalance l (poolV1VaultTokenAccountAddress d.env pool).1 +
        (events.map fun e => e.1.depositedTo pool).sum + (events.map fun e => e.2).sum ∧
    ∀ before e after m m', events = before ++ e :: after → Run (d.VaultStep pool mint) l before m →
      d.VaultStep pool mint m e m' →
      (∀ accounts request receipt, e.1 = .accepted (.deposit accounts request) (.deposited receipt) →
        receipt.pool = pool → tokenBalance m' (poolV1VaultTokenAccountAddress d.env pool).1 =
          tokenBalance m (poolV1VaultTokenAccountAddress d.env pool).1 + request.amount) ∧
      (∀ i receipt, e.1 = .accepted i (.spent receipt) → PaysOnly d.env receipt.pool (i.payout d.services) m m') := by
  constructor
  · have hbalance := (vault_run laws hopen h).balance_eq
    rw [List.sum_map_add, ← Nat.add_assoc] at hbalance
    exact hbalance
  · rintro before ⟨e, credit⟩ after m m' - hbefore hstep
    have hopen' := (vault_run laws hopen hbefore).still_open
    refine ⟨?_, ?_⟩
    · rintro accounts request receipt rfl rfl
      have haccepted := Deployment.processInstruction_accepted hstep.1
      have hbalance := (haccepted.vault laws hopen').balance_eq
      cases haccepted with
      | deposit run =>
        simpa only [Outcome.withdrawnFrom, Outcome.depositedTo, if_pos, run.receipt_amount, Nat.add_zero] using hbalance
    · rintro i receipt rfl
      exact (Deployment.processInstruction_accepted hstep.1).paysOnly laws

end

theorem Sample.read_withBalance {data : Bytes} {amount : ℕ} (h : data.length = 165) :
    Bytes32.read 0 (Sample.withBalance data amount) = Bytes32.read 0 data := by
  have hslice : slice 0 32 (Sample.withBalance data amount) = slice 0 32 data :=
    slice_patch_before (by decide) (by omega)
  rw [Bytes32.read, Bytes32.read]
  simp only [hslice]

theorem Sample.tokenLaws : TokenLaws Sample.environment where
  program_ne := Sample.programId_ne_token.symm
  transfer_frame t l l' h := by
    obtain ⟨-, -, rfl⟩ := Sample.transferTokens_ok h
    exact (Touches.setData _ _ _).trans (Touches.setData _ _ _)
  transfer_shape t l l' k h := by
    obtain ⟨hsource, hdestination, rfl⟩ := Sample.transferTokens_ok h
    refine ⟨by rw [setData_owner, setData_owner], ?_⟩
    unfold tokenMint
    by_cases hk : k = t.destination
    · rw [hk, setData_self, Sample.read_withBalance hdestination.2]
    · rw [setData_of_ne hk]
      by_cases hk' : k = t.source
      · rw [hk', setData_self, Sample.read_withBalance hsource.2]
      · rw [setData_of_ne hk']
  initialize_frame _ _ _ _ _ h := nomatch h

theorem Sample.vaultOpen : VaultOpen Sample.environment Sample.pool Sample.mint Sample.start where
  pool_eq := rfl
  owner_eq := congrArg Account.owner (Sample.ledger_vault :)
  mint_eq := by
    have hvault : Sample.start Sample.vault = _ := Sample.ledger_vault
    refine Bytes32.read_eq ?_
    rw [show (poolV1VaultTokenAccountAddress Sample.environment Sample.pool).1 = Sample.vault from rfl, hvault]
    simp [Sample.tokenData, slice_append_head]

/-- Deposits that fill the first page and one settled withdrawal, counted at the vault. -/
theorem vault_balance_over_run_settlement : ∃ receipt settled,
    Sample.settle Sample.prepared = .ok receipt settled ∧
    tokenBalance settled Sample.vault + ((((Sample.events 255 ++ [Sample.preparedEvent]) ++
        [Sample.settledEvent receipt]).map (·, 0)).map fun e => e.1.withdrawnFrom Sample.pool).sum =
      tokenBalance Sample.start Sample.vault + ((((Sample.events 255 ++ [Sample.preparedEvent]) ++
        [Sample.settledEvent receipt]).map (·, 0)).map fun e => e.1.depositedTo Sample.pool).sum +
      ((((Sample.events 255 ++ [Sample.preparedEvent]) ++ [Sample.settledEvent receipt]).map (·, 0)).map (·.2)).sum := by
  obtain ⟨receipt, settled, hstep, hsettle, -⟩ := Sample.settle_ok
  have hrun : Run (Sample.deployment.VaultStep Sample.pool Sample.mint) Sample.start
      (((Sample.events 255 ++ [Sample.preparedEvent]) ++ [Sample.settledEvent receipt]).map (·, 0)) settled := by
    refine Run.map ?_ (Sample.runs_prepared.append (.cons hstep (.nil settled)))
    intro l l' e he hstep
    refine ⟨hstep, ?_⟩
    obtain ⟨i, o, rfl⟩ := Sample.accepted_of_mem he
    rfl
  exact ⟨receipt, settled, hsettle, (vault_balance_over_run Sample.tokenLaws Sample.vaultOpen hrun).1⟩

end Aspis.Pool
