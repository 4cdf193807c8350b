import Aspis.Verifier.AtomicPayment

/-! What an atomic spend does: the images read back, an accepted spend taken
apart into what it checked and what it wrote, and a failed one that has written
nothing but a fresh marker account. -/

namespace Aspis.Verifier

open Lib Chain Statement

/-! ### Images -/

@[simp] theorem length_poolMagic : ATOMIC_POOL_STATE_MAGIC.length = 4 := by simp [ATOMIC_POOL_STATE_MAGIC]

@[simp] theorem length_markerMagic : ATOMIC_NULLIFIER_MAGIC.length = 4 := by simp [ATOMIC_NULLIFIER_MAGIC]

namespace AtomicPoolStateV2

variable (s : AtomicPoolStateV2)

@[simp] theorem length_encode : s.encode.length = 80 := by
  simp [encode, s.anchor.length_eq, s.deploymentDomain.length_eq]

theorem slice_magic : slice 0 4 s.encode = ATOMIC_POOL_STATE_MAGIC := by
  rw [encode, slice_append_head length_poolMagic.symm]

theorem decode_encode : decode s.encode = .ok s := by
  have hversion : byteAt 4 s.encode = ATOMIC_POOL_STATE_VERSION :=
    byteAt_of_slice (by simp [encode, slice_append_right, slice_append_head])
  have hreserved : slice 5 3 s.encode = zeros 3 := by simp [encode, slice_append_right, slice_append_head]
  have hsequence : readU64 8 s.encode = s.sequence :=
    readU64_of_slice (by simp [encode, slice_append_right, slice_append_head])
  have hanchor : Bytes32.read 16 s.encode = s.anchor :=
    Bytes32.read_eq (by simp [encode, slice_append_right, slice_append_head, s.anchor.length_eq])
  have hdomain : Bytes32.read 48 s.encode = s.deploymentDomain := by
    refine Bytes32.read_eq ?_
    simp [encode, slice_append_right, s.anchor.length_eq, slice_all s.deploymentDomain.length_eq]
  rw [decode, require_of _ ⟨s.length_encode, s.slice_magic, hversion, hreserved⟩, except_ok_bind, hsequence, hanchor,
    hdomain]
  rfl

theorem decode_ok {data : Bytes} {s : AtomicPoolStateV2} (h : decode data = .ok s) :
    data.length = 80 ∧ slice 0 4 data = ATOMIC_POOL_STATE_MAGIC := by
  simp only [decode, except_bind_eq_ok, require_eq_ok] at h
  obtain ⟨_, ⟨hlength, hmagic, -⟩, -⟩ := h
  exact ⟨hlength, hmagic⟩

theorem encode_not_zero : allZero s.encode = false := not_allZero_of_slice s.slice_magic (by decide)

end AtomicPoolStateV2

namespace NullifierMarkerV1

variable (marker : NullifierMarkerV1)

@[simp] theorem length_encode : marker.encode.length = 72 := by
  simp [encode, marker.pool.length_eq, marker.nullifier.length_eq]

theorem slice_magic : slice 0 4 marker.encode = ATOMIC_NULLIFIER_MAGIC := by
  rw [encode, slice_append_head length_markerMagic.symm]

theorem encode_not_zero : allZero marker.encode = false := not_allZero_of_slice marker.slice_magic (by decide)

theorem decode_encode : decode marker.encode = .ok (some marker) := by
  have hversion : byteAt 4 marker.encode = ATOMIC_NULLIFIER_VERSION :=
    byteAt_of_slice (by simp [encode, slice_append_right, slice_append_head])
  have hreserved : slice 5 3 marker.encode = zeros 3 := by simp [encode, slice_append_right, slice_append_head]
  have hpool : Bytes32.read 8 marker.encode = marker.pool :=
    Bytes32.read_eq (by simp [encode, slice_append_right, slice_append_head, marker.pool.length_eq])
  have hnullifier : Bytes32.read 40 marker.encode = marker.nullifier := by
    refine Bytes32.read_eq ?_
    simp [encode, slice_append_right, marker.pool.length_eq, slice_all marker.nullifier.length_eq]
  have hlength : marker.encode.length = ATOMIC_NULLIFIER_MARKER_LEN := marker.length_encode
  rw [decode, require_of _ hlength, except_ok_bind, if_neg (by rw [marker.encode_not_zero]; decide),
    require_of _ ⟨marker.slice_magic, hversion, hreserved⟩, except_ok_bind, hpool, hnullifier]
  rfl

theorem decode_none {data : Bytes} (h : decode data = .ok none) : data.length = 72 ∧ allZero data = true := by
  simp only [decode, except_bind_eq_ok, require_eq_ok] at h
  obtain ⟨_, hlength, h⟩ := h
  split_ifs at h with hzero
  · exact ⟨hlength, hzero⟩
  · simp only [except_bind_eq_ok, require_eq_ok, except_pure_eq_ok] at h
    obtain ⟨_, -, hsome⟩ := h
    cases hsome

end NullifierMarkerV1

/-! ### Creating a marker account -/

section
variable {env : VerifierEnvironment} {l l' : Ledger}

theorem createOrAllocate_steps (payer account : Pubkey) (space : ℕ) :
    Exec.Steps (KeepsAssigned account) (createOrAllocate env payer account space) := by
  have hr := KeepsAssigned.refl account
  have ht : ∀ {s t u : Ledger}, KeepsAssigned account s t → KeepsAssigned account t u → KeepsAssigned account s u :=
    fun h h' => h.trans h'
  refine Exec.steps_bind (R := KeepsAssigned account) ht (Exec.steps_query hr _) fun lamports => ?_
  split_ifs
  · exact systemCpi_steps hr fun _ _ h => systemCreateAccount_keeps h
  · refine Exec.steps_bind (R := KeepsAssigned account) ht ?_ fun _ => Exec.steps_bind (R := KeepsAssigned account) ht (systemCpi_steps hr fun _ _ h => systemAllocate_keeps h)
      fun _ => systemCpi_steps hr fun _ _ h => systemAssign_keeps h
    unfold topUp
    split_ifs
    · exact systemCpi_steps hr fun _ _ h => systemTransfer_keeps h
    · exact Exec.steps_pure hr ()

theorem topUp_content {payer account : Pubkey} {deficit : ℕ} {u : Unit}
    (h : topUp payer account deficit l = .ok u l') (k : Pubkey) :
    (l' k).owner = (l k).owner ∧ (l' k).data = (l k).data := by
  unfold topUp at h
  split_ifs at h
  · exact systemTransfer_content (systemCpi_ok.mp h) k
  · obtain ⟨-, rfl⟩ := Exec.pure_ok.mp h
    exact ⟨rfl, rfl⟩

/-- An account that was allocated and assigned is a zeroed one of its new owner. -/
theorem systemAllocate_assign_account {account owner : Pubkey} {space : ℕ} {m n : Ledger}
    (hallocate : systemAllocate account space l = .ok m) (hassign : systemAssign account owner m = .ok n) :
    (n account).owner = owner ∧ (n account).data = zeros space := by
  unfold systemAllocate at hallocate
  split_ifs at hallocate
  cases hallocate
  unfold systemAssign at hassign
  split_ifs at hassign with howner
  · cases hassign
    rw [Function.update_self] at howner ⊢
    exact ⟨howner, rfl⟩
  · cases hassign
    rw [Function.update_self, Function.update_self]
    exact ⟨rfl, rfl⟩

/-- A created account is a zeroed one of the program, and other programs' accounts keep owner and data. -/
theorem createOrAllocate_ok {payer account : Pubkey} {space : ℕ} {u : Unit}
    (h : createOrAllocate env payer account space l = .ok u l') :
    SystemCall l l' ∧ (l' account).owner = env.programId ∧ (l' account).data = zeros space := by
  simp only [createOrAllocate, Exec.bind_ok, Exec.query_ok] at h
  obtain ⟨lamports, _, ⟨-, rfl⟩, h⟩ := h
  split_ifs at h
  · have hcreate := systemCpi_ok.mp h
    refine ⟨systemCreateAccount_call hcreate, ?_⟩
    unfold systemCreateAccount at hcreate
    split_ifs at hcreate
    simp only [except_bind_eq_ok] at hcreate
    obtain ⟨m, hallocate, n, hassign, htransfer⟩ := hcreate
    obtain ⟨howner, hdata⟩ := systemTransfer_content htransfer account
    rw [howner, hdata]
    exact systemAllocate_assign_account hallocate hassign
  · simp only [Exec.bind_ok, systemCpi_ok] at h
    obtain ⟨_, m, htop, _, n, hallocate, hassign⟩ := h
    exact ⟨(SystemCall.of_content (topUp_content htop)).trans (systemAllocate_assign_call hallocate hassign),
      systemAllocate_assign_account hallocate hassign⟩

/-- Creating an empty system account can fail only for want of funds, and then changes nothing. -/
theorem createOrAllocate_error {payer account : Pubkey} {space : ℕ} {e : VerifierError}
    (howner : (l account).owner = systemProgram) (hempty : (l account).data = [])
    (h : createOrAllocate env payer account space l = .error e l') : l' = l := by
  have hcpi : ∀ {f : Ledger → Except ProgramError Ledger} {m n : Ledger}, systemCpi f m = .error e n →
      n = m ∧ ∃ e', f m = .error e' := by
    intro f m n hf
    obtain ⟨herror, rfl⟩ := Exec.call_error.mp hf
    cases hfm : f m with
    | ok x => rw [hfm] at herror; cases herror
    | error e' => exact ⟨rfl, e', rfl⟩
  simp only [createOrAllocate, Exec.bind_error, Exec.query_error, Exec.query_ok] at h
  rcases h with ⟨-, rfl⟩ | ⟨lamports, _, ⟨-, rfl⟩, h⟩
  · rfl
  split_ifs at h
  · exact (hcpi h).1
  simp only [Exec.bind_error, systemCpi_ok] at h
  rcases h with htop | ⟨_, m, htop, h⟩
  · unfold topUp at htop
    split_ifs at htop
    · exact (hcpi htop).1
    · exact absurd htop Exec.pure_ne_error
  -- Once it is funded, the account can be allocated and assigned.
  obtain ⟨hm, hmdata⟩ := topUp_content htop account
  rcases h with hallocate | ⟨_, n, hallocate, hassign⟩
  · obtain ⟨-, e', hfail⟩ := hcpi hallocate
    rw [systemAllocate, if_neg (by rw [hm, hmdata]; simp [howner, hempty])] at hfail
    cases hfail
  · obtain ⟨-, e', hfail⟩ := hcpi hassign
    rw [systemAllocate, if_neg (by rw [hm, hmdata]; simp [howner, hempty])] at hallocate
    cases hallocate
    unfold systemAssign at hfail
    split_ifs at hfail with _ hother
    rw [Function.update_self, hm] at hother
    exact absurd howner hother

/-! ### An accepted spend -/

/-- A marker account may be used if it is a zeroed account of the program, or an empty system account. -/
theorem markerPreparation_ok {account : AccountInfo} {nullifier : Bytes32} {preparation : MarkerPreparation}
    (h : markerPreparation env account nullifier l = .ok preparation) :
    (preparation = .programOwnedZeroed ∧ account.owner l = env.programId ∧ (account.data l).length = 72 ∧
        allZero (account.data l) = true) ∨
      (preparation = .createSystemOwned ∧ account.owner l = systemProgram ∧ account.data l = []) := by
  unfold markerPreparation at h
  split_ifs at h with howner hsystem
  · simp only [except_bind_eq_ok] at h
    obtain ⟨marker, hmarker, h⟩ := h
    cases marker with
    | none =>
      cases h
      exact .inl ⟨rfl, howner, NullifierMarkerV1.decode_none hmarker⟩
    | some marker => cases h
  · cases h
    exact .inr ⟨rfl, hsystem⟩

/-- The account checks every spend passes. -/
structure AtomicAccountsValid (env : VerifierEnvironment) (a : AtomicAccounts) (disposition : ProofAccountDisposition)
    (l : Ledger) : Prop where
  proof_owner : a.proof.owner l = env.programId
  pool_owner : a.pool.owner l = env.programId
  payer_owner : a.payer.owner l = systemProgram
  payer_signs : a.payer.isSigner = true
  proof_ne_pool : a.proof.key ≠ a.pool.key
  proof_ne_nullifier : a.proof.key ≠ a.nullifier.key
  proof_ne_payer : a.proof.key ≠ a.payer.key
  pool_ne_nullifier : a.pool.key ≠ a.nullifier.key
  payer_ne_pool : a.payer.key ≠ a.pool.key
  payer_ne_nullifier : a.payer.key ≠ a.nullifier.key

theorem validateAtomicAccounts_ok {a : AtomicAccounts} {disposition : ProofAccountDisposition} {u : Unit}
    (h : validateAtomicAccounts env a disposition l = .ok u) : AtomicAccountsValid env a disposition l := by
  simp only [validateAtomicAccounts, except_bind_eq_ok, require_eq_ok] at h
  obtain ⟨_, ⟨hproof, hpool⟩, _, -, _, -, _, hsigner, _, ⟨hpayer, -⟩, hpp, hpn, hppay, hpln, hpaypool, hpayn⟩ := h
  exact ⟨hproof, hpool, hpayer, hsigner, hpp, hpn, hppay, hpln, hpaypool, hpayn⟩

/-- The proof account after a spend: left alone, or drained into the payer and marked closed. -/
inductive ProofDisposed (a : AtomicAccounts) : ProofAccountDisposition → Ledger → Ledger → Prop
  | retained (l : Ledger) : ProofDisposed a .retain l l
  | refunded {l : Ledger} (signed : a.proof.isSigner = true) (length : 4 ≤ (a.proof.data l).length) :
      ProofDisposed a .refundToPayer l (drainAccount a.proof.key a.payer.key
        (patch 0 PROOF_ACCOUNT_CLOSED_MAGIC (a.proof.data l)) l)

/-- What an accepted spend checked and wrote. -/
structure SpendRun (env : VerifierEnvironment) (a : AtomicAccounts) (inputs : AtomicPaymentPublicInputs)
    (verify : AtomicVerifier) (disposition : ProofAccountDisposition) (pool : AtomicPoolStateV2)
    (statement : AtomicPaymentStatementV4) (digest : Bytes32) (l created disposed l' : Ledger) : Prop where
  accounts : AtomicAccountsValid env a disposition l
  nullifier_key : a.nullifier.key = (atomicNullifierAddress env inputs.nullifier).1
  pool_eq : AtomicPoolStateV2.decode (a.pool.data l) = .ok pool
  domain_eq : pool.deploymentDomain = inputs.deploymentDomain
  anchor_eq : pool.anchor = inputs.currentAnchor
  sequence_lt : pool.sequence.toNat + 1 < 2 ^ 64
  unspent : a.nullifier.owner l = env.programId →
    (a.nullifier.data l).length = 72 ∧ allZero (a.nullifier.data l) = true
  statement_eq : checkedStatement env a.pool.key pool.sequence inputs = .ok (statement, digest)
  verified : verify a.proof statement digest l = .ok ()
  creates : SystemCall l created
  keeps : ∀ k, (l k).owner = env.programId → created k = l k
  marker_owner : a.nullifier.owner created = env.programId
  marker_zero : (a.nullifier.data created).length = 72 ∧ allZero (a.nullifier.data created) = true
  disposes : ProofDisposed a disposition created disposed
  final_eq : l' = setData a.pool.key (AtomicPoolStateV2.encode (pool.next inputs))
    (setData a.nullifier.key (NullifierMarkerV1.encode ⟨a.pool.key, inputs.nullifier⟩) disposed)

theorem prepareMarker_ok {a : AtomicAccounts} {nullifier : Bytes32} {preparation : MarkerPreparation} {u : Unit}
    (hplan : markerPreparation env a.nullifier nullifier l = .ok preparation)
    (h : prepareMarker env a preparation l = .ok u l') :
    SystemCall l l' ∧ (∀ k, (l k).owner = env.programId → l' k = l k) ∧ a.nullifier.owner l' = env.programId := by
  rcases markerPreparation_ok hplan with ⟨rfl, howner, -⟩ | ⟨rfl, hsystem, -⟩
  · rw [prepareMarker, if_neg (by decide)] at h
    obtain ⟨-, rfl⟩ := Exec.pure_ok.mp h
    exact ⟨SystemCall.refl l, fun _ _ => rfl, howner⟩
  · rw [prepareMarker, if_pos rfl, createNullifierMarker] at h
    obtain ⟨hcall, howner, -⟩ := createOrAllocate_ok h
    refine ⟨hcall, fun k hk => ?_, howner⟩
    have hne : k ≠ a.nullifier.key := fun heq => env.programId_ne_system (by rw [← hk, heq]; exact hsystem)
    exact (createOrAllocate_steps _ _ _).ok h k hne (by rw [hk]; exact env.programId_ne_system)

theorem refundProgramOwnedProofAccount_ok {proofAccount refundAccount : AccountInfo} {u : Unit}
    (h : refundProgramOwnedProofAccount env proofAccount refundAccount l = .ok u l') :
    requireRefundable env proofAccount refundAccount l = .ok () ∧ l' = drainAccount proofAccount.key refundAccount.key
      (patch 0 PROOF_ACCOUNT_CLOSED_MAGIC (proofAccount.data l)) l := by
  simp only [refundProgramOwnedProofAccount, Exec.bind_ok, Exec.query_ok, Exec.update_ok] at h
  obtain ⟨_, _, ⟨hrequire, rfl⟩, rfl⟩ := h
  exact ⟨hrequire, rfl⟩

theorem refundIfRequested_ok {a : AtomicAccounts} {disposition : ProofAccountDisposition} {u : Unit}
    (h : refundIfRequested env a disposition l = .ok u l') : ProofDisposed a disposition l l' := by
  unfold refundIfRequested at h
  cases disposition with
  | retain =>
    rw [if_neg (by decide)] at h
    obtain ⟨-, rfl⟩ := Exec.pure_ok.mp h
    exact .retained l
  | refundToPayer =>
    rw [if_pos rfl] at h
    obtain ⟨hrequire, rfl⟩ := refundProgramOwnedProofAccount_ok h
    simp only [requireRefundable, except_bind_eq_ok, require_eq_ok] at hrequire
    obtain ⟨_, -, _, ⟨hsigner, -⟩, _, -, _, -, _, -, _, -, _, -, hlength⟩ := hrequire
    exact .refunded hsigner hlength

theorem validateAccountsAndState_ok {a : AtomicAccounts} {inputs : AtomicPaymentPublicInputs}
    {disposition : ProofAccountDisposition} {required : Option UInt8} {pool : AtomicPoolStateV2} {bump : UInt8}
    {preparation : MarkerPreparation}
    (h : validateAccountsAndState env a inputs disposition required l = .ok (pool, bump, preparation)) :
    AtomicAccountsValid env a disposition l ∧
      a.nullifier.key = (atomicNullifierAddress env inputs.nullifier).1 ∧
      AtomicPoolStateV2.decode (a.pool.data l) = .ok pool ∧ pool.deploymentDomain = inputs.deploymentDomain ∧
      pool.anchor = inputs.currentAnchor ∧ pool.sequence.toNat + 1 < 2 ^ 64 ∧
      markerPreparation env a.nullifier inputs.nullifier l = .ok preparation := by
  simp only [validateAccountsAndState, except_bind_eq_ok, require_eq_ok, except_pure_eq_ok] at h
  obtain ⟨_, haccounts, _, hkey, _, -, state, hpool, _, hdomain, _, hanchor, _, hsequence, prep, hprep, heq⟩ := h
  simp only [Prod.mk.injEq] at heq
  obtain ⟨rfl, -, rfl⟩ := heq
  exact ⟨validateAtomicAccounts_ok haccounts, hkey, hpool, hdomain, hanchor, hsequence, hprep⟩

theorem verifyAndApplyAtomicPaymentState_ok {accounts : List AccountInfo} {inputs : AtomicPaymentPublicInputs}
    {verify : AtomicVerifier} {disposition : ProofAccountDisposition} {required : Option UInt8} {u : Unit}
    (h : verifyAndApplyAtomicPaymentState env accounts inputs verify disposition required l = .ok u l') :
    ∃ a pool statement digest created disposed, AtomicAccounts.ofList accounts = .ok a ∧
      SpendRun env a inputs verify disposition pool statement digest l created disposed l' := by
  simp only [verifyAndApplyAtomicPaymentState, Exec.bind_ok, Exec.query_ok, Exec.update_ok] at h
  obtain ⟨a, _, ⟨haccounts, rfl⟩, ⟨pool, bump, preparation⟩, _, ⟨hvalid, rfl⟩, ⟨statement, digest⟩, _,
    ⟨hstatement, rfl⟩, _, _, ⟨hverify, rfl⟩, _, created, hprepare, _, _, ⟨hrecheck, rfl⟩, _, disposed, hrefund, _, _, rfl,
    rfl⟩ := h
  obtain ⟨hok, hkey, hpool, hdomain, hanchor, hsequence, hmarker⟩ := validateAccountsAndState_ok hvalid
  obtain ⟨hcall, hkeeps, howner⟩ := prepareMarker_ok hmarker hprepare
  simp only [recheckMutableState, except_bind_eq_ok, require_eq_ok] at hrecheck
  obtain ⟨_, -, _, -, marker, hdecode, rfl⟩ := hrecheck
  refine ⟨a, pool, statement, digest, created, disposed, haccounts, hok, hkey, hpool, hdomain, hanchor, hsequence, ?_,
    hstatement, hverify, hcall, hkeeps, howner, NullifierMarkerV1.decode_none hdecode, refundIfRequested_ok hrefund, rfl⟩
  intro howned
  rcases markerPreparation_ok hmarker with ⟨-, -, hzero⟩ | ⟨-, hsystem, -⟩
  · exact hzero
  · exact absurd (howned.symm.trans hsystem) env.programId_ne_system

/-! ### A failed spend -/

theorem refundIfRequested_error {a : AtomicAccounts} {disposition : ProofAccountDisposition} {e : VerifierError}
    (h : refundIfRequested env a disposition l = .error e l') : l' = l := by
  unfold refundIfRequested at h
  split_ifs at h
  · simp only [refundProgramOwnedProofAccount, Exec.bind_error, Exec.query_error, Exec.query_ok] at h
    rcases h with ⟨-, rfl⟩ | ⟨_, _, ⟨-, rfl⟩, h⟩
    · rfl
    · exact absurd h Exec.update_ne_error
  · exact absurd h Exec.pure_ne_error

theorem prepareMarker_error {a : AtomicAccounts} {nullifier : Bytes32} {preparation : MarkerPreparation}
    {e : VerifierError} (hplan : markerPreparation env a.nullifier nullifier l = .ok preparation)
    (h : prepareMarker env a preparation l = .error e l') : l' = l := by
  unfold prepareMarker at h
  rcases markerPreparation_ok hplan with ⟨rfl, -, -⟩ | ⟨rfl, hsystem, hempty⟩
  · rw [if_neg (by decide)] at h
    exact absurd h Exec.pure_ne_error
  · rw [if_pos rfl, createNullifierMarker] at h
    exact createOrAllocate_error hsystem hempty h

/-- A spend that fails has changed nothing, or else passed its checks on the accounts and done no more than create the
marker account. -/
theorem verifyAndApplyAtomicPaymentState_error {accounts : List AccountInfo} {inputs : AtomicPaymentPublicInputs}
    {verify : AtomicVerifier} {disposition : ProofAccountDisposition} {required : Option UInt8} {e : VerifierError}
    (h : verifyAndApplyAtomicPaymentState env accounts inputs verify disposition required l = .error e l') :
    l' = l ∨ ∃ a, AtomicAccounts.ofList accounts = .ok a ∧ AtomicAccountsValid env a disposition l ∧ SystemCall l l' ∧
      ∀ k, (l k).owner = env.programId → l' k = l k := by
  simp only [verifyAndApplyAtomicPaymentState, Exec.bind_error, Exec.query_error, Exec.query_ok] at h
  rcases h with ⟨-, rfl⟩ | ⟨a, _, ⟨haccounts, rfl⟩, h⟩
  · exact .inl rfl
  rcases h with ⟨-, rfl⟩ | ⟨⟨pool, bump, preparation⟩, _, ⟨hvalid, rfl⟩, h⟩
  · exact .inl rfl
  rcases h with ⟨-, rfl⟩ | ⟨⟨statement, digest⟩, _, ⟨-, rfl⟩, h⟩
  · exact .inl rfl
  rcases h with ⟨-, rfl⟩ | ⟨_, _, ⟨-, rfl⟩, h⟩
  · exact .inl rfl
  obtain ⟨hok, -, -, -, -, -, hmarker⟩ := validateAccountsAndState_ok hvalid
  rcases h with h | ⟨_, created, hprepare, h⟩
  · exact .inl (prepareMarker_error hmarker h)
  -- Whatever failed later, the ledger is the one with the marker account created.
  have hlast : l' = created := by
    rcases h with ⟨-, rfl⟩ | ⟨_, _, ⟨-, rfl⟩, h⟩
    · rfl
    rcases h with h | ⟨_, _, -, h⟩
    · exact refundIfRequested_error h
    rcases h with h | ⟨_, _, -, h⟩
    · exact absurd h Exec.update_ne_error
    · exact absurd h Exec.update_ne_error
  obtain ⟨hcall, hkeeps, -⟩ := prepareMarker_ok hmarker hprepare
  rw [hlast]
  exact .inr ⟨a, haccounts, hok, hcall, hkeeps⟩

end

end Aspis.Verifier
