import Aspis.Lib.Run
import Aspis.Verifier.AtomicSpend

/-! Runs of atomic pool initializations and spends, over any number of pools
that share one space of nullifiers, each spend with a verifier of its own. A
pool is the replay of its accepted spends on the state it was initialized with,
and a nullifier is consumed once over all pools. -/

namespace Aspis.Verifier

open Lib Chain Statement

inductive AtomicInstruction
  | initializePool (accounts : List AccountInfo) (sequence : UInt64) (anchor : Bytes32) (domainTag : Bytes)
  | spend (accounts : List AccountInfo) (inputs : AtomicPaymentPublicInputs) (verifyCompleteProof : AtomicVerifier)
      (disposition : ProofAccountDisposition) (requiredNullifierBump : Option UInt8)

def AtomicInstruction.process (env : VerifierEnvironment) : AtomicInstruction → VerifierHandler Unit
  | .initializePool accounts sequence anchor domainTag => initializeAtomicPool env accounts sequence anchor domainTag
  | .spend accounts inputs verify disposition required =>
    verifyAndApplyAtomicPaymentState env accounts inputs verify disposition required

inductive AtomicEvent
  | outside
  | accepted (instruction : AtomicInstruction)
  | failed (instruction : AtomicInstruction)

/-- One step: others act, or an instruction is accepted, or one fails and the ledger is rolled back or left as the
failed instruction had it. -/
def AtomicStep (env : VerifierEnvironment) (l : Ledger) : AtomicEvent → Ledger → Prop
  | .outside, l' => Outside env.programId l l'
  | .accepted i, l' => i.process env l = .ok () l'
  | .failed i, l' => ∃ e m, i.process env l = .error e m ∧ (l' = l ∨ l' = m)

namespace AtomicEvent

/-- The inputs of an accepted spend on the pool. -/
def spendOn (pool : Pubkey) : AtomicEvent → Option AtomicPaymentPublicInputs
  | .accepted (.spend accounts inputs _ _ _) => if accounts[1]?.map (·.key) = some pool then some inputs else none
  | _ => none

/-- The nullifier an accepted spend consumed, on whatever pool. -/
def consumed : AtomicEvent → Option Bytes32
  | .accepted (.spend _ inputs _ _ _) => some inputs.nullifier
  | _ => none

/-- An accepted spend that refunded the account as its proof. -/
def refunds (key : Pubkey) : AtomicEvent → Prop
  | .accepted (.spend accounts _ _ disposition _) =>
    disposition = .refundToPayer ∧ accounts[0]?.map (·.key) = some key
  | _ => False

end AtomicEvent

/-- The accepted spends on a pool, in order. -/
def spendsOn (pool : Pubkey) (es : List AtomicEvent) : List AtomicPaymentPublicInputs :=
  es.filterMap (AtomicEvent.spendOn pool)

theorem spendsOn_concat (pool : Pubkey) (es : List AtomicEvent) (e : AtomicEvent) :
    spendsOn pool (es ++ [e]) = spendsOn pool es ++ (e.spendOn pool).toList := by
  rw [spendsOn, List.filterMap_append, spendsOn]
  cases h : e.spendOn pool <;> simp [h]

theorem ofList_ok {accounts : List AccountInfo} {a : AtomicAccounts} (h : AtomicAccounts.ofList accounts = .ok a) :
    accounts = [a.proof, a.pool, a.nullifier, a.payer, a.system] := by
  unfold AtomicAccounts.ofList at h
  split at h
  · cases h
    rfl
  · cases h

/-! ### Single steps -/

section Steps
variable {env : VerifierEnvironment} {l l' : Ledger}

theorem initializeAtomicPool_ok {accounts : List AccountInfo} {sequence : UInt64} {anchor : Bytes32} {domainTag : Bytes}
    {u : Unit} (h : initializeAtomicPool env accounts sequence anchor domainTag l = .ok u l') :
    ∃ pool rest, accounts = pool :: rest ∧ pool.isSigner = true ∧ pool.owner l = env.programId ∧
      (pool.data l).length = 80 ∧ allZero (pool.data l) = true ∧
      l' = setData pool.key (AtomicPoolStateV2.encode
        ⟨sequence, anchor, atomicDeploymentDomain env.hashv env.programId domainTag⟩) l := by
  simp only [initializeAtomicPool, Exec.bind_ok, Exec.query_ok, require_eq_ok, Exec.update_ok] at h
  obtain ⟨pool, _, ⟨hfirst, rfl⟩, _, _, ⟨howner, rfl⟩, _, _, ⟨hsigner, rfl⟩, _, _, ⟨-, rfl⟩, _, _, ⟨-, rfl⟩, _, _,
    ⟨-, rfl⟩, _, _, ⟨-, rfl⟩, _, _, ⟨⟨hlength, hzero⟩, rfl⟩, rfl⟩ := h
  cases accounts with
  | nil => cases hfirst
  | cons first rest =>
    cases hfirst
    exact ⟨pool, rest, rfl, hsigner, howner, hlength, hzero, rfl⟩

theorem initializeAtomicPool_clean (accounts : List AccountInfo) (sequence : UInt64) (anchor : Bytes32)
    (domainTag : Bytes) : Exec.Clean (initializeAtomicPool env accounts sequence anchor domainTag) := by
  refine Exec.clean_query_bind fun _ => Exec.clean_query_bind fun _ => Exec.clean_query_bind fun _ =>
    Exec.clean_query_bind fun _ => Exec.clean_query_bind fun _ => Exec.clean_query_bind fun _ =>
    Exec.clean_query_bind fun _ => Exec.clean_query_bind fun _ => Exec.clean_update _

/-- A failed instruction changes no account of the program. -/
theorem AtomicStep.failed_keeps {i : AtomicInstruction} (h : AtomicStep env l (.failed i) l') (k : Pubkey)
    (hk : (l k).owner = env.programId) : l' k = l k := by
  obtain ⟨e, m, herror, rfl | rfl⟩ := h
  · rfl
  · cases i with
    | initializePool accounts sequence anchor domainTag => rw [initializeAtomicPool_clean _ _ _ _ _ _ _ herror]
    | spend accounts inputs verify disposition required =>
      rcases verifyAndApplyAtomicPaymentState_error herror with rfl | ⟨a, -, -, -, hkeeps⟩
      · rfl
      · exact hkeeps k hk

namespace SpendRun

variable {a : AtomicAccounts} {inputs : AtomicPaymentPublicInputs} {verify : AtomicVerifier}
  {disposition : ProofAccountDisposition} {pool : AtomicPoolStateV2} {statement : AtomicPaymentStatementV4}
  {digest : Bytes32} {created disposed : Ledger}

theorem pool_data (h : SpendRun env a inputs verify disposition pool statement digest l created disposed l') :
    (l' a.pool.key).data = AtomicPoolStateV2.encode (pool.next inputs) := by
  rw [h.final_eq, setData_self]

theorem nullifier_data (h : SpendRun env a inputs verify disposition pool statement digest l created disposed l') :
    (l' a.nullifier.key).data = NullifierMarkerV1.encode ⟨a.pool.key, inputs.nullifier⟩ := by
  rw [h.final_eq, setData_of_ne h.accounts.pool_ne_nullifier.symm, setData_self]

theorem disposed_owner (h : SpendRun env a inputs verify disposition pool statement digest l created disposed l')
    (k : Pubkey) : (l' k).owner = (created k).owner := by
  rw [h.final_eq, setData_owner, setData_owner]
  cases h.disposes with
  | retained => rfl
  | refunded => rw [drainAccount_owner]

theorem nullifier_owner (h : SpendRun env a inputs verify disposition pool statement digest l created disposed l') :
    (l' a.nullifier.key).owner = env.programId := by
  rw [h.disposed_owner]
  exact h.marker_owner

/-- An account of the program other than the pool and the marker account is only ever marked closed, and only as the
refunded proof account. -/
theorem program_account (h : SpendRun env a inputs verify disposition pool statement digest l created disposed l')
    {k : Pubkey} (hk : (l k).owner = env.programId) :
    (l' k).owner = env.programId ∧ (k = a.pool.key ∨ k = a.nullifier.key ∨ (l' k).data = (l k).data ∨
      (disposition = .refundToPayer ∧ k = a.proof.key ∧ 4 ≤ (l k).data.length ∧
        (l' k).data = patch 0 PROOF_ACCOUNT_CLOSED_MAGIC (l k).data)) := by
  have hcreated := h.keeps k hk
  refine ⟨by rw [h.disposed_owner, hcreated, hk], ?_⟩
  by_cases hpool : k = a.pool.key
  · exact .inl hpool
  by_cases hnullifier : k = a.nullifier.key
  · exact .inr (.inl hnullifier)
  refine .inr (.inr ?_)
  have hlast : l' k = disposed k := by rw [h.final_eq, setData_of_ne hpool, setData_of_ne hnullifier]
  have hdisposes := h.disposes
  cases hdisposes with
  | retained => exact .inl (by rw [hlast, hcreated])
  | refunded _ hlength =>
    by_cases hproof : k = a.proof.key
    · subst hproof
      rw [AccountInfo.data, hcreated] at hlength
      refine .inr ⟨rfl, rfl, hlength, ?_⟩
      rw [hlast, drainAccount_src]
      exact congrArg (fun account : Account => patch 0 PROOF_ACCOUNT_CLOSED_MAGIC account.data) hcreated
    · exact .inl (by rw [hlast, drainAccount_data hproof, hcreated])

end SpendRun

end Steps

/-! ### Nullifiers -/

section Nullifiers
variable {env : VerifierEnvironment} {l l' : Ledger} {e : AtomicEvent}

/-- The account belongs to the program and carries something. -/
def Written (env : VerifierEnvironment) (k : Pubkey) (l : Ledger) : Prop :=
  (l k).owner = env.programId ∧ allZero (l k).data = false

theorem patch_closed_not_zero {data : Bytes} : allZero (patch 0 PROOF_ACCOUNT_CLOSED_MAGIC data) = false := by
  have hfront : slice 0 4 (patch 0 PROOF_ACCOUNT_CLOSED_MAGIC data) = PROOF_ACCOUNT_CLOSED_MAGIC :=
    slice_patch_self length_proofClosedMagic.symm (Nat.zero_le _)
  exact not_allZero_of_slice hfront (by decide)

theorem Written.spend {a : AtomicAccounts} {inputs : AtomicPaymentPublicInputs} {verify : AtomicVerifier}
    {disposition : ProofAccountDisposition} {pool : AtomicPoolStateV2} {statement : AtomicPaymentStatementV4}
    {digest : Bytes32} {created disposed : Ledger} {k : Pubkey} (h : Written env k l)
    (hrun : SpendRun env a inputs verify disposition pool statement digest l created disposed l') : Written env k l' := by
  obtain ⟨howner, hcases⟩ := hrun.program_account h.1
  refine ⟨howner, ?_⟩
  rcases hcases with rfl | rfl | hsame | ⟨-, -, -, hclosed⟩
  · rw [hrun.pool_data, AtomicPoolStateV2.encode_not_zero]
  · rw [hrun.nullifier_data, NullifierMarkerV1.encode_not_zero]
  · rw [hsame, h.2]
  · rw [hclosed, patch_closed_not_zero]

/-- What was written is never zeroed again. -/
theorem Written.step {k : Pubkey} (hstep : AtomicStep env l e l') (h : Written env k l) : Written env k l' := by
  cases e with
  | outside =>
    obtain ⟨howner, hdata⟩ := hstep.kept k h.1
    exact ⟨howner, by rw [hdata, h.2]⟩
  | failed i =>
    rw [Written, hstep.failed_keeps k h.1]
    exact h
  | accepted i =>
    cases i with
    | initializePool accounts sequence anchor domainTag =>
      obtain ⟨pool, rest, rfl, -, howner, -, hzero, rfl⟩ := initializeAtomicPool_ok hstep
      have hne : k ≠ pool.key := by
        rintro rfl
        rw [h.2] at hzero
        cases hzero
      rw [Written, setData_of_ne hne]
      exact h
    | spend accounts inputs verify disposition required =>
      obtain ⟨a, pool, statement, digest, created, disposed, -, hrun⟩ := verifyAndApplyAtomicPaymentState_ok hstep
      exact h.spend hrun

theorem consumed_eq_some {n : Bytes32} (h : e.consumed = some n) :
    ∃ accounts inputs verify disposition required,
      e = .accepted (.spend accounts inputs verify disposition required) ∧ inputs.nullifier = n := by
  unfold AtomicEvent.consumed at h
  split at h
  · exact ⟨_, _, _, _, _, rfl, Option.some.inj h⟩
  · cases h

theorem consumed_unwritten {n : Bytes32} (hstep : AtomicStep env l e l') (h : e.consumed = some n) :
    ¬ Written env (atomicNullifierAddress env n).1 l := by
  obtain ⟨accounts, inputs, verify, disposition, required, rfl, rfl⟩ := consumed_eq_some h
  obtain ⟨a, pool, statement, digest, created, disposed, -, hrun⟩ := verifyAndApplyAtomicPaymentState_ok hstep
  rintro ⟨howner, hwritten⟩
  rw [← hrun.nullifier_key] at howner hwritten
  rw [(hrun.unspent howner).2] at hwritten
  cases hwritten

theorem consumed_written {n : Bytes32} (hstep : AtomicStep env l e l') (h : e.consumed = some n) :
    Written env (atomicNullifierAddress env n).1 l' := by
  obtain ⟨accounts, inputs, verify, disposition, required, rfl, rfl⟩ := consumed_eq_some h
  obtain ⟨a, pool, statement, digest, created, disposed, -, hrun⟩ := verifyAndApplyAtomicPaymentState_ok hstep
  rw [← hrun.nullifier_key]
  exact ⟨hrun.nullifier_owner, by rw [hrun.nullifier_data, NullifierMarkerV1.encode_not_zero]⟩

/-- Over all pools together a nullifier is consumed at most once. -/
theorem countP_consumed_le_one {es : List AtomicEvent} (h : Run (AtomicStep env) l es l') (n : Bytes32) :
    es.countP (fun e => e.consumed = some n) ≤ 1 := by
  have hkeep : ∀ s e t, AtomicStep env s e t → Written env (atomicNullifierAddress env n).1 s →
      Written env (atomicNullifierAddress env n).1 t := fun _ _ _ hstep => Written.step hstep
  exact Run.countP_le_one hkeep (fun _ _ _ hstep hp => consumed_unwritten hstep (of_decide_eq_true hp))
    (fun _ _ _ hstep hp => consumed_written hstep (of_decide_eq_true hp)) h

end Nullifiers

/-! ### Pools -/

section Pools
variable {env : VerifierEnvironment} {l l' : Ledger} {pool : Pubkey} {initial : AtomicPoolStateV2}

/-- The sequence and anchor of a pool after the events since it was initialized. -/
structure AtomicPoolStateV2.Follows (initial : AtomicPoolStateV2) (pool : Pubkey) (es : List AtomicEvent)
    (s : AtomicPoolStateV2) : Prop where
  sequence : s.sequence.toNat = initial.sequence.toNat + (spendsOn pool es).length
  anchor : s.anchor = ((spendsOn pool es).getLast?.map (·.outputAnchor)).getD initial.anchor
  deploymentDomain : s.deploymentDomain = initial.deploymentDomain

/-- The pool account holds the state that its accepted spends lead to; a pool that was itself refunded as the proof
account of a spend keeps its fields behind the closed mark. -/
def PoolHolds (env : VerifierEnvironment) (pool : Pubkey) (initial : AtomicPoolStateV2) (es : List AtomicEvent)
    (l : Ledger) : Prop :=
  (l pool).owner = env.programId ∧ ∃ s : AtomicPoolStateV2, initial.Follows pool es s ∧ ((l pool).data = s.encode ∨
    ((∃ e ∈ es, e.refunds pool) ∧ (l pool).data = patch 0 PROOF_ACCOUNT_CLOSED_MAGIC s.encode))

theorem AtomicPoolStateV2.Follows.next {es : List AtomicEvent} {e : AtomicEvent} {s : AtomicPoolStateV2}
    {inputs : AtomicPaymentPublicInputs} (h : initial.Follows pool es s) (he : e.spendOn pool = some inputs)
    (hlt : s.sequence.toNat + 1 < 2 ^ 64) : initial.Follows pool (es ++ [e]) (s.next inputs) where
  sequence := by
    have hadd : (s.sequence + 1).toNat = s.sequence.toNat + 1 := by
      rw [UInt64.toNat_add, UInt64.toNat_one, Nat.mod_eq_of_lt hlt]
    rw [spendsOn_concat, he, AtomicPoolStateV2.next, hadd, h.sequence]
    simp
    omega
  anchor := by
    rw [spendsOn_concat, he, AtomicPoolStateV2.next]
    simp
  deploymentDomain := h.deploymentDomain

theorem AtomicPoolStateV2.Follows.skip {es : List AtomicEvent} {e : AtomicEvent} {s : AtomicPoolStateV2}
    (h : initial.Follows pool es s) (he : e.spendOn pool = none) : initial.Follows pool (es ++ [e]) s := by
  have hsame : spendsOn pool (es ++ [e]) = spendsOn pool es := by rw [spendsOn_concat, he]; simp
  exact ⟨by rw [hsame, h.sequence], by rw [hsame, h.anchor], h.deploymentDomain⟩

/-- An image that is neither zeroed nor of a marker's length, kept or marked closed by every other event. -/
theorem PoolHolds.kept {es : List AtomicEvent} {e : AtomicEvent} (h : PoolHolds env pool initial es l)
    (he : e.spendOn pool = none) (hsame : l' pool = l pool ∨ ((l' pool).owner = (l pool).owner ∧
      (l' pool).data = (l pool).data)) : PoolHolds env pool initial (es ++ [e]) l' := by
  obtain ⟨howner, s, hfollows, hdata⟩ := h
  have hfields : (l' pool).owner = (l pool).owner ∧ (l' pool).data = (l pool).data := by
    rcases hsame with heq | hfields
    · rw [heq]
      exact ⟨rfl, rfl⟩
    · exact hfields
  refine ⟨hfields.1.trans howner, s, hfollows.skip he, ?_⟩
  rw [hfields.2]
  rcases hdata with hopen | ⟨⟨e', hmem, hrefunds⟩, hclosed⟩
  · exact .inl hopen
  · exact .inr ⟨⟨e', List.mem_append_left _ hmem, hrefunds⟩, hclosed⟩

theorem PoolHolds.length {es : List AtomicEvent} (h : PoolHolds env pool initial es l) : (l pool).data.length = 80 := by
  obtain ⟨-, s, -, hdata⟩ := h
  rcases hdata with hopen | ⟨-, hclosed⟩
  · rw [hopen, s.length_encode]
  · rw [hclosed, length_patch_of_le (by simp), s.length_encode]

theorem PoolHolds.written {es : List AtomicEvent} (h : PoolHolds env pool initial es l) :
    allZero (l pool).data = false := by
  obtain ⟨-, s, -, hdata⟩ := h
  rcases hdata with hopen | ⟨-, hclosed⟩
  · rw [hopen, s.encode_not_zero]
  · rw [hclosed, patch_closed_not_zero]

/-- A pool that decodes is not marked closed. -/
theorem closed_not_pool {s s' : AtomicPoolStateV2} :
    AtomicPoolStateV2.decode (patch 0 PROOF_ACCOUNT_CLOSED_MAGIC s.encode) ≠ .ok s' := by
  intro h
  have hmagic := (AtomicPoolStateV2.decode_ok h).2
  rw [slice_patch_self length_proofClosedMagic.symm (Nat.zero_le _)] at hmagic
  revert hmagic
  decide

/-- Closing a closed account again changes nothing. -/
theorem patch_closed_twice (data : Bytes) :
    patch 0 PROOF_ACCOUNT_CLOSED_MAGIC (patch 0 PROOF_ACCOUNT_CLOSED_MAGIC data) =
      patch 0 PROOF_ACCOUNT_CLOSED_MAGIC data :=
  patch_patch_same rfl (Nat.zero_le _)

theorem PoolHolds.spend {es : List AtomicEvent} {accounts : List AccountInfo} {inputs : AtomicPaymentPublicInputs}
    {verify : AtomicVerifier} {disposition : ProofAccountDisposition} {required : Option UInt8} {a : AtomicAccounts}
    {state : AtomicPoolStateV2} {statement : AtomicPaymentStatementV4} {digest : Bytes32} {created disposed : Ledger}
    (h : PoolHolds env pool initial es l) (haccounts : AtomicAccounts.ofList accounts = .ok a)
    (hrun : SpendRun env a inputs verify disposition state statement digest l created disposed l') :
    PoolHolds env pool initial (es ++ [.accepted (.spend accounts inputs verify disposition required)]) l' := by
  have hlist := ofList_ok haccounts
  have hlength := h.length
  obtain ⟨howner', hcases⟩ := hrun.program_account h.1
  by_cases hpool : pool = a.pool.key
  · -- The spend is on this pool: its image is decoded, so it is not closed, and replaced by the next one.
    obtain ⟨-, s, hfollows, hdata⟩ := h
    have hdecode := hrun.pool_eq
    rw [AccountInfo.data, ← hpool] at hdecode
    rcases hdata with hopen | ⟨-, hclosed⟩
    · rw [hopen, s.decode_encode] at hdecode
      cases hdecode
      refine ⟨howner', state.next inputs, hfollows.next ?_ hrun.sequence_lt, .inl ?_⟩
      · simp [AtomicEvent.spendOn, hlist, hpool]
      · rw [hpool, hrun.pool_data]
    · rw [hclosed] at hdecode
      exact absurd hdecode closed_not_pool
  · have hspend : (AtomicEvent.accepted (.spend accounts inputs verify disposition required)).spendOn pool = none := by
      simp [AtomicEvent.spendOn, hlist, Ne.symm hpool]
    rcases hcases with heq | heq | hsame | ⟨hrefund, hproof, -, hclosed⟩
    · exact absurd heq hpool
    · -- The marker account of a spend has another length.
      have hmarker := (hrun.unspent (by rw [AccountInfo.owner, ← heq]; exact h.1)).1
      rw [AccountInfo.data, ← heq, hlength] at hmarker
      omega
    · exact h.kept hspend (.inr ⟨howner'.trans h.1.symm, hsame⟩)
    · obtain ⟨-, s, hfollows, hdata⟩ := h
      refine ⟨howner', s, hfollows.skip hspend, .inr ⟨⟨_, List.mem_append_right _ List.mem_cons_self, ?_⟩, ?_⟩⟩
      · simp [AtomicEvent.refunds, hrefund, hlist, hproof]
      · rcases hdata with hopen | ⟨-, hdata⟩
        · rw [hclosed, hopen]
        · rw [hclosed, hdata, patch_closed_twice]

theorem PoolHolds.step {es : List AtomicEvent} {e : AtomicEvent} (h : PoolHolds env pool initial es l)
    (hstep : AtomicStep env l e l') : PoolHolds env pool initial (es ++ [e]) l' := by
  cases e with
  | outside =>
    obtain ⟨howner, hdata⟩ := hstep.kept pool h.1
    exact h.kept rfl (.inr ⟨howner.trans h.1.symm, hdata⟩)
  | failed i => exact h.kept rfl (.inl (hstep.failed_keeps pool h.1))
  | accepted i =>
    cases i with
    | initializePool accounts sequence anchor domainTag =>
      obtain ⟨fresh, rest, rfl, -, howner, -, hzero, rfl⟩ := initializeAtomicPool_ok hstep
      have hne : pool ≠ fresh.key := by
        rintro rfl
        rw [h.written] at hzero
        cases hzero
      exact h.kept rfl (.inl (setData_of_ne hne))
    | spend accounts inputs verify disposition required =>
      obtain ⟨a, state, statement, digest, created, disposed, haccounts, hrun⟩ :=
        verifyAndApplyAtomicPaymentState_ok hstep
      exact h.spend haccounts hrun

/-- A pool that an accepted instruction initialized holds its state from then on. -/
theorem PoolHolds.of_initialize {accounts : List AccountInfo} {sequence : UInt64} {anchor : Bytes32} {domainTag : Bytes}
    (h : AtomicStep env l (.accepted (.initializePool accounts sequence anchor domainTag)) l')
    (hpool : accounts.head?.map (·.key) = some pool) :
    PoolHolds env pool ⟨sequence, anchor, atomicDeploymentDomain env.hashv env.programId domainTag⟩ [] l' := by
  obtain ⟨fresh, rest, rfl, -, howner, -, -, rfl⟩ := initializeAtomicPool_ok h
  cases hpool
  exact ⟨by rw [setData_owner]; exact howner, _, ⟨rfl, rfl, rfl⟩, .inl setData_self⟩

end Pools

/-! ### Statements -/

section Statements
variable {env : VerifierEnvironment} {l l' : Ledger}

theorem decodeDigest_ok {bytes : Bytes32} {d : Digest} (h : decodeDigest bytes = .ok d) :
    encodeDigestCanonical d = bytes.bytes :=
  encode_decodeDigestCanonical bytes.length_eq (okOr_eq_ok.mp h)

theorem checkedStatement_ok {poolKey : Pubkey} {sequence : UInt64} {inputs : AtomicPaymentPublicInputs}
    {statement : AtomicPaymentStatementV4} {digest : Bytes32}
    (h : checkedStatement env poolKey sequence inputs = .ok (statement, digest)) :
    statement.pool = poolKey ∧ statement.sequence = sequence ∧
      encodeDigestCanonical statement.spend.anchor = inputs.currentAnchor.bytes ∧
      encodeDigestCanonical statement.spend.nullifier = inputs.nullifier.bytes ∧
      encodeDigestCanonical statement.spend.outputCommitment = inputs.outputCommitment.bytes ∧
      encodeDigestCanonical statement.outputAnchor = inputs.outputAnchor.bytes ∧
      statement.spend.assetId.raw = inputs.assetId ∧ statement.spend.fee = inputs.fee ∧
      statement.deploymentDomain = inputs.deploymentDomain ∧
      atomicPaymentStatementDigestV4 env.hashv statement = .ok digest := by
  simp only [checkedStatement, except_bind_eq_ok, mapErr_eq_ok, except_pure_eq_ok] at h
  obtain ⟨anchor, hanchor, nullifier, hnullifier, commitment, hcommitment, output, houtput, asset, hasset, digest', hdigest,
    heq⟩ := h
  simp only [Prod.mk.injEq] at heq
  obtain ⟨rfl, rfl⟩ := heq
  simp only [decodeAssetIdCanonical, except_bind_eq_ok, require_eq_ok, except_pure_eq_ok] at hasset
  obtain ⟨_, -, rfl⟩ := hasset
  exact ⟨rfl, rfl, decodeDigest_ok hanchor, decodeDigest_ok hnullifier, decodeDigest_ok hcommitment,
    decodeDigest_ok houtput, rfl, rfl, rfl, hdigest⟩

/-- An accepted spend named the pool's anchor and domain of that moment, and what it wrote is what its verifier was
asked about. -/
structure SpendAgrees (env : VerifierEnvironment) (a : AtomicAccounts) (inputs : AtomicPaymentPublicInputs)
    (verify : AtomicVerifier) (pool : AtomicPoolStateV2) (statement : AtomicPaymentStatementV4) (digest : Bytes32)
    (l l' : Ledger) : Prop where
  pool_eq : AtomicPoolStateV2.decode (a.pool.data l) = .ok pool
  anchor_eq : inputs.currentAnchor = pool.anchor
  domain_eq : inputs.deploymentDomain = pool.deploymentDomain
  verified : verify a.proof statement digest l = .ok ()
  digest_eq : atomicPaymentStatementDigestV4 env.hashv statement = .ok digest
  statement_pool : statement.pool = a.pool.key
  statement_sequence : statement.sequence = pool.sequence
  statement_anchor : encodeDigestCanonical statement.spend.anchor = pool.anchor.bytes
  statement_domain : statement.deploymentDomain = pool.deploymentDomain
  statement_commitment : encodeDigestCanonical statement.spend.outputCommitment = inputs.outputCommitment.bytes
  statement_asset : statement.spend.assetId.raw = inputs.assetId
  statement_fee : statement.spend.fee = inputs.fee
  pool_written : ∃ next : AtomicPoolStateV2, AtomicPoolStateV2.decode (a.pool.data l') = .ok next ∧
    next.sequence.toNat = statement.sequence.toNat + 1 ∧
    next.anchor.bytes = encodeDigestCanonical statement.outputAnchor ∧
    next.deploymentDomain = statement.deploymentDomain
  marker_written : ∃ marker : NullifierMarkerV1, NullifierMarkerV1.decode (a.nullifier.data l') = .ok (some marker) ∧
    marker.pool = statement.pool ∧ marker.nullifier.bytes = encodeDigestCanonical statement.spend.nullifier ∧
    a.nullifier.key = (atomicNullifierAddress env marker.nullifier).1

theorem SpendRun.agrees {a : AtomicAccounts} {inputs : AtomicPaymentPublicInputs} {verify : AtomicVerifier}
    {disposition : ProofAccountDisposition} {pool : AtomicPoolStateV2} {statement : AtomicPaymentStatementV4}
    {digest : Bytes32} {created disposed : Ledger}
    (h : SpendRun env a inputs verify disposition pool statement digest l created disposed l') :
    SpendAgrees env a inputs verify pool statement digest l l' := by
  obtain ⟨hpool, hsequence, hanchor, hnullifier, hcommitment, houtput, hasset, hfee, hdomain, hdigest⟩ :=
    checkedStatement_ok h.statement_eq
  refine ⟨h.pool_eq, h.anchor_eq.symm, h.domain_eq.symm, h.verified, hdigest, hpool, hsequence,
    hanchor.trans (by rw [h.anchor_eq]), hdomain.trans h.domain_eq.symm, hcommitment, hasset, hfee,
    ⟨pool.next inputs, ?_, ?_, houtput.symm, h.domain_eq.trans hdomain.symm⟩,
    ⟨⟨a.pool.key, inputs.nullifier⟩, ?_, hpool.symm, hnullifier.symm, h.nullifier_key⟩⟩
  · rw [AccountInfo.data, h.pool_data, AtomicPoolStateV2.decode_encode]
  · rw [hsequence, AtomicPoolStateV2.next, UInt64.toNat_add, UInt64.toNat_one, Nat.mod_eq_of_lt h.sequence_lt]
  · rw [AccountInfo.data, h.nullifier_data, NullifierMarkerV1.decode_encode]

/-- What a failed spend leaves unchanged: every account of the program, written markers among them, and the proof and
pool accounts it named whoever they belong to. -/
structure FailureKeeps (env : VerifierEnvironment) (accounts : List AccountInfo) (l l' : Ledger) : Prop where
  program_accounts : ∀ k, (l k).owner = env.programId → l' k = l k
  proof_account : ∀ proof, accounts[0]? = some proof →
    (l' proof.key).data = (l proof.key).data ∧ (l' proof.key).lamports = (l proof.key).lamports
  pool_account : ∀ pool, accounts[1]? = some pool → (l' pool.key).data = (l pool.key).data

theorem AtomicStep.failed_spend {accounts : List AccountInfo} {inputs : AtomicPaymentPublicInputs}
    {verify : AtomicVerifier} {disposition : ProofAccountDisposition} {required : Option UInt8}
    (h : AtomicStep env l (.failed (.spend accounts inputs verify disposition required)) l') :
    FailureKeeps env accounts l l' := by
  have hkeeps := h.failed_keeps
  have hnamed : l' = l ∨ ∃ a, AtomicAccounts.ofList accounts = .ok a ∧ AtomicAccountsValid env a disposition l := by
    obtain ⟨e, m, herror, rfl | rfl⟩ := h
    · exact .inl rfl
    · rcases verifyAndApplyAtomicPaymentState_error herror with rfl | ⟨a, haccounts, hvalid, -, -⟩
      · exact .inl rfl
      · exact .inr ⟨a, haccounts, hvalid⟩
  rcases hnamed with rfl | ⟨a, haccounts, hvalid⟩
  · exact ⟨hkeeps, fun _ _ => ⟨rfl, rfl⟩, fun _ _ => rfl⟩
  · obtain rfl := ofList_ok haccounts
    refine ⟨hkeeps, fun proof hproof => ?_, fun pool hpool => ?_⟩
    · cases hproof
      rw [hkeeps _ hvalid.proof_owner]
      exact ⟨rfl, rfl⟩
    · cases hpool
      rw [hkeeps _ hvalid.pool_owner]

end Statements

/-! ### Whole runs -/

/-- Over any run of initializations and spends: each pool holds what its accepted spends lead to from its initial
state, each accepted spend named the pool's anchor and domain and wrote what its verifier accepted, each nullifier is
consumed at most once over all pools, and a spend that fails leaves pools, proofs and markers as they were. -/
theorem atomic_payment_history {env : VerifierEnvironment} {l l' : Ledger} {es : List AtomicEvent}
    (h : Run (AtomicStep env) l es l') :
    (∀ before accounts sequence anchor domainTag after pool,
      es = before ++ .accepted (.initializePool accounts sequence anchor domainTag) :: after →
      accounts.head?.map (·.key) = some pool →
      PoolHolds env pool ⟨sequence, anchor, atomicDeploymentDomain env.hashv env.programId domainTag⟩ after l') ∧
    (∀ before accounts inputs verify disposition required after m m',
      es = before ++ .accepted (.spend accounts inputs verify disposition required) :: after →
      Run (AtomicStep env) l before m →
      AtomicStep env m (.accepted (.spend accounts inputs verify disposition required)) m' →
      ∃ a pool statement digest, AtomicAccounts.ofList accounts = .ok a ∧
        SpendAgrees env a inputs verify pool statement digest m m') ∧
    (∀ n, es.countP (fun e => e.consumed = some n) ≤ 1) ∧
    (∀ before accounts inputs verify disposition required after m m',
      es = before ++ .failed (.spend accounts inputs verify disposition required) :: after →
      Run (AtomicStep env) l before m →
      AtomicStep env m (.failed (.spend accounts inputs verify disposition required)) m' →
      FailureKeeps env accounts m m') := by
  refine ⟨?_, ?_, countP_consumed_le_one h, ?_⟩
  · rintro before accounts sequence anchor domainTag after pool rfl hpool
    obtain ⟨m, -, hrest⟩ := h.split
    cases hrest with
    | cons hstep hafter =>
      have hholds := hafter.traced (fun es s e t => PoolHolds.step) (PoolHolds.of_initialize hstep hpool)
      exact hholds
  · rintro before accounts inputs verify disposition required after m m' - - hstep
    obtain ⟨a, pool, statement, digest, created, disposed, haccounts, hrun⟩ :=
      verifyAndApplyAtomicPaymentState_ok hstep
    exact ⟨a, pool, statement, digest, haccounts, hrun.agrees⟩
  · rintro before accounts inputs verify disposition required after m m' - - hstep
    exact hstep.failed_spend

namespace Sample

/-- A deployment whose derived addresses are sums of their seed bytes. -/
theorem program_ne_system : Bytes32.filled 9 ≠ systemProgram := by decide

def env : VerifierEnvironment where
  programId := Bytes32.filled 9
  findProgramAddress seeds _ :=
    (⟨leBytes 8 (seeds.flatten.foldl (fun n b => n + b.toNat) 1000) ++ zeros 24, by simp⟩, 255)
  hash data := ⟨leBytes 8 (data.foldl (fun n b => (n * 257 + b.toNat + 1) % 1000000007) 7) ++ zeros 24, by simp⟩
  minimumBalance n := n
  programId_ne_system := program_ne_system

def owned (data : Bytes) : Account := ⟨env.programId, 500, data, false⟩

def poolInfo : AccountInfo := ⟨Bytes32.filled 1, true, true⟩

def proofInfo : AccountInfo := ⟨Bytes32.filled 2, false, false⟩

def payerInfo : AccountInfo := ⟨Bytes32.filled 3, true, true⟩

def systemInfo : AccountInfo := ⟨systemProgram, false, false⟩

def inputs : AtomicPaymentPublicInputs :=
  { currentAnchor := Bytes32.filled 7
    nullifier := Bytes32.filled 8
    outputCommitment := Bytes32.filled 9
    outputAnchor := Bytes32.filled 10
    assetId := 3
    fee := 1
    deploymentDomain := atomicDeploymentDomain env.hashv env.programId [1] }

def nullifierInfo : AccountInfo := ⟨(atomicNullifierAddress env inputs.nullifier).1, false, true⟩

/-- A zeroed pool account, a proof account, a payer and the system program. -/
def atomicLedger : Ledger :=
  Function.update (Function.update (Function.update (Function.update (fun _ => ⟨systemProgram, 0, [], false⟩)
    poolInfo.key (owned (zeros 80))) proofInfo.key (owned (zeros 44))) payerInfo.key ⟨systemProgram, 5000, [], false⟩)
    systemInfo.key ⟨Bytes32.filled 77, 1, [], true⟩

def initializePool : AtomicInstruction := .initializePool [poolInfo] 5 (Bytes32.filled 7) [1]

def spend : AtomicInstruction :=
  .spend [proofInfo, poolInfo, nullifierInfo, payerInfo, systemInfo] inputs (fun _ _ _ _ => .ok ()) .retain none

def initializedLedger : Ledger := (initializePool.process env).final atomicLedger

def spentLedger : Ledger := (spend.process env).final initializedLedger

set_option maxRecDepth 100000 in
theorem atomic_instructions_succeed : (initializePool.process env).succeeds atomicLedger = true ∧
    (spend.process env).succeeds initializedLedger = true ∧ (spend.process env).succeeds spentLedger = false := by
  decide +kernel

theorem atomic_run : Run (AtomicStep env) atomicLedger
    [.accepted initializePool, .accepted spend, .failed spend] spentLedger := by
  obtain ⟨hopened, hspend, hagain⟩ := atomic_instructions_succeed
  refine .cons (Exec.ok_final hopened) (.cons (Exec.ok_final hspend) (.cons ?_ (.nil _)))
  cases hx : spend.process env spentLedger with
  | ok u m =>
    rw [Exec.succeeds, hx] at hagain
    cases hagain
  | error e m => exact ⟨e, m, hx, .inl rfl⟩

end Sample

/-- A pool initialized at sequence 5 and spent once: its sequence is 6, and the spend cannot be repeated. -/
theorem atomic_payment_history_sample :
    PoolHolds Sample.env Sample.poolInfo.key
      ⟨5, Bytes32.filled 7, atomicDeploymentDomain Sample.env.hashv Sample.env.programId [1]⟩
      [.accepted Sample.spend, .failed Sample.spend] Sample.spentLedger ∧
    ∀ n, [AtomicEvent.accepted Sample.initializePool, .accepted Sample.spend, .failed Sample.spend].countP
      (fun e => e.consumed = some n) ≤ 1 := by
  obtain ⟨hpools, -, hconsumed, -⟩ := atomic_payment_history Sample.atomic_run
  exact ⟨hpools [] _ _ _ _ _ _ rfl rfl, hconsumed⟩

end Aspis.Verifier
