import Aspis.Pool.SampleDeployment
import Aspis.Pool.Spend

/-! A failed append writes nothing. An append is a read-only check, one run of
the caller's action and writes that cannot fail, in this order, so an error
comes either before the action or out of it; and an action that fails has only
called the system and token programs, which do not write the program's
accounts. -/

namespace Aspis.Pool

open Lib Chain Statement

/-- The three ways into an append. -/
inductive AppendEntryV1
  | prevalidated (c : CanonicalPoolStateV1)
  | prevalidatedHistory (c : CanonicalPoolStateV1) (history : PrevalidatedCurrentHistoryV1)
  | standalone

/-- What the callers of an append do before its writes: a deposit transfers
tokens and reads the balances back, a transfer creates and writes its marker,
a withdrawal does both. -/
inductive BeforePersistV1
  | deposit (tokenAccounts : List AccountInfo) (plan : LegacyDepositTransferPlanV1)
  | privateTransfer (marker payer system : AccountInfo) (e : HistoricalAnchorEnvelopeV1)
      (planned : PlannedNullifierMarkerV1)
  | withdrawal (marker payer system : AccountInfo) (e : HistoricalAnchorEnvelopeV1)
      (planned : PlannedNullifierMarkerV1) (tokenAccounts : List AccountInfo) (transfer : LegacyWithdrawalTransferPlanV1)

section
variable (env : Environment)

def BeforePersistV1.run : BeforePersistV1 → Handler Unit
  | .deposit tokenAccounts plan => do
    Exec.call (env.transferChecked plan.instruction)
    Exec.query (validateExactDepositDeltaV1 tokenAccounts plan)
  | .privateTransfer marker payer system e planned => do
    Exec.query (requireUnchangedMarkerPlan env marker e planned)
    createAndWriteMarkerV1 env marker payer system planned
  | .withdrawal marker payer system e planned tokenAccounts transfer => do
    Exec.query (requireUnchangedMarkerPlan env marker e planned)
    createMarkerAccountIfNeeded env marker payer system planned
    payWithdrawal env tokenAccounts transfer
    let ready ← Exec.query (requireReadyMarker env marker planned)
    Exec.update (setData marker.key ready.encodedMarker)

namespace AppendEntryV1

def apply (entry : AppendEntryV1) (pool current : AccountInfo) (next : Option AccountInfo) (r : AuthorizedAppendV1)
    (beforePersist : Handler Unit) : Handler AuthorizedAppendReceiptV1 :=
  match entry with
  | .prevalidated c => applyAuthorizedAppendAfterPrevalidatedV1 env pool current next c r beforePersist
  | .prevalidatedHistory c history =>
    applyAuthorizedAppendAfterPrevalidatedHistoryV1 env pool current next c history r beforePersist
  | .standalone => applyAuthorizedAppendAfterV1 env pool current next r beforePersist

/-- The state the append starts from, with its evidence. -/
def source (entry : AppendEntryV1) (pool : AccountInfo) (r : AuthorizedAppendV1) (l : Ledger) :
    Except ProgramError (AuthorizedSourceStateV1 × Option PrevalidatedCurrentHistoryV1) :=
  match entry with
  | .prevalidated c => do
    c.requireSameWritableAccount env pool l
    r.validateLeaves
    return (.canonical c, none)
  | .prevalidatedHistory c history => do
    c.requireSameWritableAccount env pool l
    r.validateLeaves
    return (.canonical c, some history)
  | .standalone => do
    requireProgramAccount env.programId pool l true
    r.validateLeaves
    let state ← PoolStateV1.decodeWithValidatedTree env (pool.data l) pool.key
    require (pool.key = (poolV1StateAddress env state.identity.assetMint).1) (.custom .invalidPoolStateAddress)
    return (.standalone state, none)

/-- Every check on state, pages and leaves that an append makes. -/
def checks (entry : AppendEntryV1) (pool current : AccountInfo) (next : Option AccountInfo) (r : AuthorizedAppendV1)
    (l : Ledger) : Except ProgramError AppendPlanV1 := do
  let (start, history) ← entry.source env pool r l
  planAuthorizedAppend env pool current next start history r l

end AppendEntryV1

variable {env : Environment} {entry : AppendEntryV1} {pool current : AccountInfo} {next : Option AccountInfo}
  {r : AuthorizedAppendV1} {l l' : Ledger} {e : ProgramError}

/-! ### One action between the checks and the writes -/

theorem applyAuthorizedAppendAfterCheckedStateV1_eq {source : AuthorizedSourceStateV1}
    {prevalidated : Option PrevalidatedCurrentHistoryV1} (beforePersist : Handler Unit) :
    applyAuthorizedAppendAfterCheckedStateV1 env pool current next source prevalidated r beforePersist l =
      match planAuthorizedAppend env pool current next source prevalidated r l with
      | .error e => .error e l
      | .ok plan => match beforePersist l with
        | .error e m => .error e m
        | .ok _ m => .ok plan.prepared.receipt (plan.persist pool.key current.key m) := by
  simp only [applyAuthorizedAppendAfterCheckedStateV1, bind, EStateM.bind, Exec.query, Exec.update, pure, EStateM.pure]
  cases planAuthorizedAppend env pool current next source prevalidated r l with
  | error e => rfl
  | ok plan =>
    dsimp only
    cases beforePersist l <;> rfl

theorem AppendEntryV1.apply_eq (beforePersist : Handler Unit) :
    entry.apply env pool current next r beforePersist l =
      match entry.checks env pool current next r l with
      | .error e => .error e l
      | .ok plan => match beforePersist l with
        | .error e m => .error e m
        | .ok _ m => .ok plan.prepared.receipt (plan.persist pool.key current.key m) := by
  cases entry with
  | prevalidated c =>
    simp only [apply, checks, source, applyAuthorizedAppendAfterPrevalidatedV1, bind, EStateM.bind, Except.bind, Exec.query,
      pure, Except.pure]
    cases c.requireSameWritableAccount env pool l <;> cases r.validateLeaves <;> try rfl
    exact applyAuthorizedAppendAfterCheckedStateV1_eq beforePersist
  | prevalidatedHistory c history =>
    simp only [apply, checks, source, applyAuthorizedAppendAfterPrevalidatedHistoryV1, bind, EStateM.bind, Except.bind,
      Exec.query, pure, Except.pure]
    cases c.requireSameWritableAccount env pool l <;> cases r.validateLeaves <;> try rfl
    exact applyAuthorizedAppendAfterCheckedStateV1_eq beforePersist
  | standalone =>
    simp only [apply, checks, source, applyAuthorizedAppendAfterV1, bind, EStateM.bind, Except.bind, Exec.query, pure,
      Except.pure]
    cases requireProgramAccount env.programId pool l true <;> cases r.validateLeaves <;> try rfl
    cases PoolStateV1.decodeWithValidatedTree env (pool.data l) pool.key with
    | error e => rfl
    | ok state =>
      dsimp only
      cases require (pool.key = (poolV1StateAddress env state.identity.assetMint).1)
        (ProgramError.custom .invalidPoolStateAddress) with
      | error e => rfl
      | ok u => exact applyAuthorizedAppendAfterCheckedStateV1_eq beforePersist

/-! ### What a failed action has done -/

theorem systemAllocate_outside {key : Pubkey} {space : ℕ} (h : systemAllocate key space l = .ok l') :
    Outside env.programId l l' := by
  unfold systemAllocate at h
  split_ifs at h with hused
  cases h
  have howner : (l key).owner = systemProgram := not_not.mp (not_or.mp hused).1
  have hkept : ∀ k, k ≠ key → Function.update l key { l key with data := zeros space } k = l k :=
    fun k hk => Function.update_of_ne hk _ _
  refine ⟨fun k hk => ?_, fun k hk hk' => ?_⟩
  · have hne : k ≠ key := fun heq => env.programId_ne_system (by rw [← hk, heq, howner])
    rw [hkept k hne]
    exact ⟨hk, rfl⟩
  · by_cases hne : k = key
    · subst hne
      rw [Function.update_self] at hk'
      exact absurd hk' hk
    · rw [hkept k hne] at hk'
      exact absurd hk' hk

theorem topUp_error {payer account : AccountInfo} {deficit : ℕ} (h : topUp payer account deficit l = .error e l') :
    l' = l := by
  unfold topUp at h
  split_ifs at h
  · exact (Exec.call_error.mp h).2.symm
  · exact absurd h Exec.pure_ne_error

/-- A creation that fails halfway has only changed system accounts. -/
theorem createOrAllocatePda_error {payer account system : AccountInfo} {exactBytes : ℕ} {owner : Pubkey}
    (h : createOrAllocatePda env payer account system exactBytes owner l = .error e l') :
    Outside env.programId l l' := by
  have hne := env.programId_ne_system
  simp only [createOrAllocatePda, Exec.bind_error, Exec.query_ok, Exec.query_error] at h
  rcases h with ⟨-, rfl⟩ | ⟨_, _, ⟨-, rfl⟩, ⟨-, rfl⟩ | ⟨_, _, ⟨-, rfl⟩, ⟨-, rfl⟩ | ⟨lamports, _, ⟨-, rfl⟩, h⟩⟩⟩
  · exact Outside.refl _ _
  · exact Outside.refl _ _
  · exact Outside.refl _ _
  · split_ifs at h
    · obtain ⟨-, rfl⟩ := Exec.call_error.mp h
      exact Outside.refl _ _
    · simp only [Exec.bind_error, Exec.call_ok, Exec.call_error] at h
      rcases h with htop | ⟨_, m, htop, ⟨-, rfl⟩ | ⟨_, n, hallocate, -, rfl⟩⟩
      · rw [topUp_error htop]
        exact Outside.refl _ _
      · exact (topUp_call htop).outside hne
      · exact ((topUp_call htop).outside hne).trans (systemAllocate_outside hallocate)

theorem createMarkerAccountIfNeeded_error {marker payer system : AccountInfo} {planned : PlannedNullifierMarkerV1}
    (h : createMarkerAccountIfNeeded env marker payer system planned l = .error e l') : Outside env.programId l l' := by
  unfold createMarkerAccountIfNeeded at h
  split_ifs at h
  · exact createOrAllocatePda_error h
  · exact absurd h Exec.pure_ne_error

theorem payWithdrawal_error {tokenAccounts : List AccountInfo} {transfer : LegacyWithdrawalTransferPlanV1}
    (h : payWithdrawal env tokenAccounts transfer l = .error e l') : Outside env.programId l l' := by
  simp only [payWithdrawal, Exec.bind_error, Exec.call_ok, Exec.call_error, Exec.query_error] at h
  rcases h with ⟨-, rfl⟩ | ⟨_, m, hpaid, -, rfl⟩
  · exact Outside.refl _ _
  · exact env.transferChecked_outside _ _ _ hpaid

/-- A failed action leaves every account of the program as it was. -/
theorem BeforePersistV1.run_error {action : BeforePersistV1} (h : action.run env l = .error e l') :
    Outside env.programId l l' := by
  have hne := env.programId_ne_system
  cases action with
  | deposit tokenAccounts plan =>
    simp only [run, Exec.bind_error, Exec.call_ok, Exec.call_error, Exec.query_error] at h
    rcases h with ⟨-, rfl⟩ | ⟨_, m, hpaid, -, rfl⟩
    · exact Outside.refl _ _
    · exact env.transferChecked_outside _ _ _ hpaid
  | privateTransfer marker payer system envelope planned =>
    simp only [run, createAndWriteMarkerV1, Exec.bind_error, Exec.query_ok, Exec.query_error, Exec.update_ne_error] at h
    rcases h with ⟨-, rfl⟩ | ⟨_, _, ⟨-, rfl⟩, hcreate | ⟨_, m, hcreate, ⟨-, rfl⟩ | ⟨_, _, _, hfalse⟩⟩⟩
    · exact Outside.refl _ _
    · exact createMarkerAccountIfNeeded_error hcreate
    · exact (createMarkerAccountIfNeeded_call hcreate).outside hne
    · exact absurd hfalse not_false
  | withdrawal marker payer system envelope planned tokenAccounts transfer =>
    simp only [run, Exec.bind_error, Exec.query_ok, Exec.query_error, Exec.update_ne_error] at h
    rcases h with ⟨-, rfl⟩ | ⟨_, _, ⟨-, rfl⟩, hcreate | ⟨_, m, hcreate, hpay | ⟨_, n, hpay, ⟨-, rfl⟩ | ⟨_, _, _, hfalse⟩⟩⟩⟩
    · exact Outside.refl _ _
    · exact createMarkerAccountIfNeeded_error hcreate
    · exact ((createMarkerAccountIfNeeded_call hcreate).outside hne).trans (payWithdrawal_error hpay)
    · simp only [payWithdrawal, Exec.bind_ok, Exec.call_ok, Exec.query_ok] at hpay
      obtain ⟨_, _, hpaid, -, rfl⟩ := hpay
      exact ((createMarkerAccountIfNeeded_call hcreate).outside hne).trans (env.transferChecked_outside _ _ _ hpaid)
    · exact absurd hfalse not_false

/-- The accounts an append would write belong to the program once its checks have passed. -/
theorem AppendEntryV1.checks_owner {plan : AppendPlanV1} (h : entry.checks env pool current next r l = .ok plan) :
    (l pool.key).owner = env.programId ∧ (l current.key).owner = env.programId ∧
      ∀ account ∈ next, (l account.key).owner = env.programId := by
  simp only [checks, except_bind_eq_ok] at h
  obtain ⟨⟨start, history⟩, hsource, hplan⟩ := h
  have hpool : (l pool.key).owner = env.programId := by
    cases entry <;> simp only [source, CanonicalPoolStateV1.requireSameWritableAccount, except_bind_eq_ok] at hsource
    · obtain ⟨_, ⟨_, howner, -⟩, -⟩ := hsource
      exact requireProgramAccount_ok howner
    · obtain ⟨_, ⟨_, howner, -⟩, -⟩ := hsource
      exact requireProgramAccount_ok howner
    · obtain ⟨_, howner, -⟩ := hsource
      exact requireProgramAccount_ok howner
  have hspec := planAuthorizedAppend_spec hplan
  refine ⟨hpool, hspec.page.owner_eq, fun account haccount => ?_⟩
  obtain rfl := Option.mem_def.mp haccount
  cases hnext : plan.next with
  | none => exact absurd (hspec.supplied_none hnext) (by simp)
  | some n =>
    obtain ⟨key, number, first⟩ := n
    obtain ⟨-, -, hnew, -, -, -, hkey⟩ := hspec.next_some key number first hnext
    obtain rfl : account.key = key := by simpa using hkey
    exact hnew.owner_eq

/-- An append that returns an error has changed no byte of the pool state, of
the pages it was given or of any other account of the program. Either a check
failed, and then no action would have been run, or every check had passed and
the error is that of the one run of the action on the accounts as they were. -/
theorem failed_append_writes_nothing {action : BeforePersistV1}
    (h : entry.apply env pool current next r (action.run env) l = .error e l') :
    (∀ k, k ∈ pool.key :: current.key :: (next.map (·.key)).toList ∨ (l k).owner = env.programId →
      (l' k).data = (l k).data) ∧
    ((l' = l ∧ entry.checks env pool current next r l = .error e ∧
        ∀ other, entry.apply env pool current next r other l = .error e l) ∨
      (∃ plan, entry.checks env pool current next r l = .ok plan) ∧ action.run env l = .error e l') := by
  rw [AppendEntryV1.apply_eq] at h
  cases hchecks : entry.checks env pool current next r l with
  | error e' =>
    rw [hchecks] at h
    cases h
    refine ⟨fun _ _ => rfl, .inl ⟨rfl, rfl, fun other => ?_⟩⟩
    rw [AppendEntryV1.apply_eq, hchecks]
  | ok plan =>
    rw [hchecks] at h
    cases hrun : action.run env l with
    | ok u m =>
      rw [hrun] at h
      cases h
    | error e' m =>
      rw [hrun] at h
      cases h
      have hout := BeforePersistV1.run_error hrun
      obtain ⟨hpool, hcurrent, hnext⟩ := AppendEntryV1.checks_owner hchecks
      refine ⟨?_, .inr ⟨⟨plan, rfl⟩, rfl⟩⟩
      rintro k (hk | hk)
      · simp only [List.mem_cons, Option.mem_toList] at hk
        rcases hk with rfl | rfl | hk
        · exact (hout.kept _ hpool).2
        · exact (hout.kept _ hcurrent).2
        · obtain ⟨account, haccount, rfl⟩ := Option.map_eq_some_iff.mp hk
          exact (hout.kept _ (hnext account haccount)).2
      · exact (hout.kept k hk).2

end

/-- A deposit of more than the depositor has. -/
def Sample.overdraft : LegacyDepositTransferPlanV1 :=
  ⟨Sample.source, Sample.mint, Sample.vault, Sample.depositor, 1001, 1000, 0, 0, 1001, 6⟩

theorem Sample.overdraft_fails : (BeforePersistV1.deposit Sample.tokenAccounts Sample.overdraft).run Sample.environment
    (Sample.ledger 0) = .error .external (Sample.ledger 0) := by
  have hsource : Sample.ledger 0 Sample.source = _ := Sample.ledger_source
  have htransfer : Sample.transferTokens Sample.overdraft.instruction (Sample.ledger 0) = .error .external := by
    refine if_neg fun hcond => ?_
    have hfunds := hcond.2.2.2
    rw [show Sample.overdraft.instruction.source = Sample.source from rfl, hsource, Sample.slice_tokenData_balance,
      leNat_leBytes_of_lt (by decide)] at hfunds
    exact absurd hfunds (by decide)
  have hprogram : Sample.environment.transferChecked = Sample.transferTokens := rfl
  simp only [BeforePersistV1.run, bind, EStateM.bind, Exec.call, hprogram, htransfer]

/-- An append whose token transfer fails: every check had passed and the error is that of the transfer. -/
theorem failed_append_writes_nothing_overdraft :
    (AppendEntryV1.prevalidated (Sample.canonical 0)).apply Sample.environment Sample.poolAccount Sample.pageAccount none
        (.one Digest.zero) ((BeforePersistV1.deposit Sample.tokenAccounts Sample.overdraft).run Sample.environment)
        (Sample.ledger 0) = .error .external (Sample.ledger 0) ∧
      ∃ plan, (AppendEntryV1.prevalidated (Sample.canonical 0)).checks Sample.environment Sample.poolAccount
        Sample.pageAccount none (.one Digest.zero) (Sample.ledger 0) = .ok plan := by
  have hchecks : (AppendEntryV1.prevalidated (Sample.canonical 0)).checks Sample.environment Sample.poolAccount
      Sample.pageAccount none (.one Digest.zero) (Sample.ledger 0) = .ok (Sample.appendPlan 0) := by
    have hsource : (AppendEntryV1.prevalidated (Sample.canonical 0)).source Sample.environment Sample.poolAccount
        (.one Digest.zero) (Sample.ledger 0) = .ok (.canonical (Sample.canonical 0), none) := by
      rw [AppendEntryV1.source, Sample.same_ledger, except_ok_bind, Sample.zero_leaf_valid, except_ok_bind]
      rfl
    rw [AppendEntryV1.checks, hsource, except_ok_bind]
    dsimp only
    rw [Sample.plan_append (by decide)]
  have hfails : (AppendEntryV1.prevalidated (Sample.canonical 0)).apply Sample.environment Sample.poolAccount
      Sample.pageAccount none (.one Digest.zero) ((BeforePersistV1.deposit Sample.tokenAccounts Sample.overdraft).run
        Sample.environment) (Sample.ledger 0) = .error .external (Sample.ledger 0) := by
    rw [AppendEntryV1.apply_eq, hchecks, Sample.overdraft_fails]
  obtain ⟨-, ⟨-, hrefused, -⟩ | ⟨hpassed, -⟩⟩ := failed_append_writes_nothing hfails
  · rw [hchecks] at hrefused
    cases hrefused
  · exact ⟨hfails, hpassed⟩

end Aspis.Pool
