import Aspis.Verifier.AtomicHistory
import Aspis.Verifier.Receipt

/-! The verifier program as a whole: one dispatcher over its instructions, and
what a step of a run can do to an account of the program. Everything later is
derived from the two statements about single accounts, `VerifierStep.owned` and
`VerifierStep.arrived`. -/

namespace Aspis.Verifier

open Lib Chain Statement

/-- A check of uploaded proof bytes against a statement and its digest. -/
abbrev UploadedProofCheck := Pubkey → Bytes → AtomicPaymentStatementV4 → Bytes32 → Except VerifierError Unit

/-- Every spend instruction requires a sealed, complete upload before it checks the proof. -/
def uploadedProofVerifier (check : UploadedProofCheck) : AtomicVerifier := fun proofAccount statement digest l => do
  require (proofAccountFinalized (proofAccount.data l) = true) .invalidAccountData
  let (proofStart, proofEnd) ← uploadedProofBounds (proofAccount.data l)
  check proofAccount.key (slice proofStart (proofEnd - proofStart) (proofAccount.data l)) statement digest

/-- A decoded instruction with the accounts it names. -/
inductive VerifierInstruction
  | initProof (accounts : List AccountInfo) (totalLen : UInt32)
  | uploadChunk (accounts : List AccountInfo) (offset : UInt32) (chunk : Bytes)
  | finalizeProof (accounts : List AccountInfo)
  | closeProof (accounts : List AccountInfo)
  | initializeAtomicPool (accounts : List AccountInfo) (sequence : UInt64) (anchor : Bytes32) (domainTag : Bytes)
  | atomicPayment (accounts : List AccountInfo) (inputs : AtomicPaymentPublicInputs) (check : UploadedProofCheck)
      (disposition : ProofAccountDisposition) (requiredNullifierBump : Option UInt8)
  | initializeReceipt (accounts : List AccountInfo) (instructionData : Bytes)
  | finalizeReceipt (accounts : List AccountInfo) (instructionData : Bytes) (currentSlot : UInt64)
  | closeReceipt (accounts : List AccountInfo) (instructionData : Bytes)
  | verifyOnly (accounts : List AccountInfo) (verify : Ledger → Except VerifierError Unit)

namespace VerifierInstruction

def accounts : VerifierInstruction → List AccountInfo
  | initProof accounts _ => accounts
  | uploadChunk accounts _ _ => accounts
  | finalizeProof accounts => accounts
  | closeProof accounts => accounts
  | initializeAtomicPool accounts _ _ _ => accounts
  | atomicPayment accounts _ _ _ _ => accounts
  | initializeReceipt accounts _ => accounts
  | finalizeReceipt accounts _ _ => accounts
  | closeReceipt accounts _ => accounts
  | verifyOnly accounts _ => accounts

def process (env : VerifierEnvironment) (v : Tag73Verifiers) : VerifierInstruction → VerifierHandler Unit
  | initProof accounts totalLen => Verifier.initProof env accounts totalLen
  | uploadChunk accounts offset chunk => Verifier.uploadChunk env accounts offset chunk
  | finalizeProof accounts => Verifier.finalizeProof env accounts
  | closeProof accounts => Verifier.closeProof env accounts
  | initializeAtomicPool accounts sequence anchor domainTag =>
    Verifier.initializeAtomicPool env accounts sequence anchor domainTag
  | atomicPayment accounts inputs check disposition required =>
    verifyAndApplyAtomicPaymentState env accounts inputs (uploadedProofVerifier check) disposition required
  | initializeReceipt accounts data => processV7PoolReceiptInitialize env accounts data
  | finalizeReceipt accounts data slot => processV7PoolReceiptFinalize env v accounts data slot
  | closeReceipt accounts data => processV7PoolReceiptClose env accounts data
  | verifyOnly _ verify => Exec.query verify

end VerifierInstruction

inductive VerifierEvent
  | outside
  | accepted (instruction : VerifierInstruction)
  | failed (instruction : VerifierInstruction)

/-- One step: others act, or an instruction is accepted, or one fails and the ledger is rolled back or left as the
failed instruction had it. -/
def VerifierStep (env : VerifierEnvironment) (v : Tag73Verifiers) (l : Ledger) : VerifierEvent → Ledger → Prop
  | .outside, l' => Outside env.programId l l'
  | .accepted i, l' => i.process env v l = .ok () l'
  | .failed i, l' => ∃ e m, i.process env v l = .error e m ∧ (l' = l ∨ l' = m)

/-! ### Accepted proof instructions -/

section Accepted
variable {env : VerifierEnvironment} {v : Tag73Verifiers} {l l' : Ledger}

theorem nextTwoAccounts_ok {accounts : List AccountInfo} {a b : AccountInfo}
    (h : nextTwoAccounts accounts = .ok (a, b)) : ∃ rest, accounts = a :: b :: rest := by
  unfold nextTwoAccounts at h
  split at h
  · cases h
    exact ⟨_, rfl⟩
  · cases h

/-- The account is initialized under an authority that signs. -/
structure AuthoritySigned (authority : AccountInfo) (data : Bytes) : Prop where
  initialized : proofAccountInitialized data = true
  signed : authority.isSigner = true
  recorded : slice 8 32 data = authority.key.bytes

theorem requireUploadAuthority_ok {data : Bytes} {authority : AccountInfo} {u : Unit}
    (h : requireUploadAuthority data authority = .ok u) : AuthoritySigned authority data := by
  simp only [requireUploadAuthority, except_bind_eq_ok, require_eq_ok] at h
  obtain ⟨_, hsigned, _, hinitialized, hrecorded⟩ := h
  exact ⟨hinitialized, hsigned, hrecorded⟩

theorem initProof_ok {accounts : List AccountInfo} {totalLen : UInt32} {u : Unit}
    (h : initProof env accounts totalLen l = .ok u l') :
    ∃ proof authority rest, accounts = proof :: authority :: rest ∧ proof.owner l = env.programId ∧
      authority.isSigner = true ∧ 40 + totalLen.toNat ≤ (proof.data l).length ∧
      (AuthoritySigned authority (proof.data l) ∨
        (allZero (proof.data l) = true ∧ proofAccountInitialized (proof.data l) = false)) ∧
      l' = setData proof.key (patch 0 (proofHeader totalLen authority.key) (proof.data l)) l := by
  simp only [initProof, Exec.bind_ok, Exec.query_ok, require_eq_ok, Exec.update_ok] at h
  obtain ⟨⟨proof, authority⟩, _, ⟨haccounts, rfl⟩, _, _, ⟨howner, rfl⟩, _, _, ⟨hsigned, rfl⟩, _, _, ⟨-, rfl⟩, _, _,
    ⟨hlength, rfl⟩, _, _, ⟨hinit, rfl⟩, rfl⟩ := h
  obtain ⟨rest, rfl⟩ := nextTwoAccounts_ok haccounts
  refine ⟨proof, authority, rest, rfl, howner, hsigned, hlength, ?_, rfl⟩
  unfold requireInitializable at hinit
  split_ifs at hinit with hinitialized
  · exact .inl ⟨hinitialized, hsigned, require_eq_ok.mp hinit⟩
  · simp only [except_bind_eq_ok, require_eq_ok] at hinit
    obtain ⟨_, -, hzero⟩ := hinit
    exact .inr ⟨hzero, Bool.eq_false_of_not_eq_true hinitialized⟩

theorem proofLen_ok {data : Bytes} {n : ℕ} (h : proofLen data = .ok n) :
    proofAccountInitialized data = true ∧ n = leNat (slice 4 4 data) := by
  simp only [proofLen, except_bind_eq_ok, require_eq_ok, except_pure_eq_ok] at h
  obtain ⟨_, hinitialized, rfl⟩ := h
  exact ⟨hinitialized, rfl⟩

theorem uploadChunk_ok {accounts : List AccountInfo} {offset : UInt32} {chunk : Bytes} {u : Unit}
    (h : uploadChunk env accounts offset chunk l = .ok u l') :
    ∃ proof authority rest, accounts = proof :: authority :: rest ∧ proof.owner l = env.programId ∧
      AuthoritySigned authority (proof.data l) ∧ offset.toNat + chunk.length ≤ leNat (slice 4 4 (proof.data l)) ∧
      40 + offset.toNat + chunk.length ≤ (proof.data l).length ∧
      l' = setData proof.key (patch (40 + offset.toNat) chunk (proof.data l)) l := by
  simp only [uploadChunk, Exec.bind_ok, Exec.query_ok, require_eq_ok, Exec.update_ok] at h
  obtain ⟨⟨proof, authority⟩, _, ⟨haccounts, rfl⟩, _, _, ⟨howner, rfl⟩, _, _, ⟨-, rfl⟩, _, _, ⟨hauthority, rfl⟩, totalLen,
    _, ⟨hlen, rfl⟩, _, _, ⟨⟨hbody, hdata⟩, rfl⟩, rfl⟩ := h
  obtain ⟨rest, rfl⟩ := nextTwoAccounts_ok haccounts
  obtain ⟨-, rfl⟩ := proofLen_ok hlen
  exact ⟨proof, authority, rest, rfl, howner, requireUploadAuthority_ok hauthority, hbody, hdata, rfl⟩

theorem finalizeProof_ok {accounts : List AccountInfo} {u : Unit} (h : finalizeProof env accounts l = .ok u l') :
    ∃ proof authority rest, accounts = proof :: authority :: rest ∧ proof.owner l = env.programId ∧
      AuthoritySigned authority (proof.data l) ∧ l' = setData proof.key (patch 8 (zeros 32) (proof.data l)) l := by
  simp only [finalizeProof, Exec.bind_ok, Exec.query_ok, require_eq_ok, Exec.update_ok] at h
  obtain ⟨⟨proof, authority⟩, _, ⟨haccounts, rfl⟩, _, _, ⟨howner, rfl⟩, _, _, ⟨-, rfl⟩, _, _, ⟨hauthority, rfl⟩, rfl⟩ := h
  obtain ⟨rest, rfl⟩ := nextTwoAccounts_ok haccounts
  exact ⟨proof, authority, rest, rfl, howner, requireUploadAuthority_ok hauthority, rfl⟩

/-- A whole balance goes from one account to another that signs, and nothing else changes hands. -/
structure DrainedInto (src dst : AccountInfo) (l l' : Ledger) : Prop where
  signed : dst.isSigner = true
  ne : src.key ≠ dst.key
  emptied : (l' src.key).lamports = 0
  paid : (l' dst.key).lamports = (l dst.key).lamports + (l src.key).lamports
  others : ∀ k, k ≠ src.key → k ≠ dst.key → (l' k).lamports = (l k).lamports

theorem drainAccount_drains {src dst : AccountInfo} {data : Bytes} (hsigned : dst.isSigner = true)
    (hne : src.key ≠ dst.key) : DrainedInto src dst l (drainAccount src.key dst.key data l) where
  signed := hsigned
  ne := hne
  emptied := by rw [drainAccount_src]
  paid := by rw [drainAccount_dst hne.symm]
  others k hsrc hdst := by rw [drainAccount_of_ne hsrc hdst]

theorem requireRefundable_ok {proof refund : AccountInfo} {u : Unit} (h : requireRefundable env proof refund l = .ok u) :
    proof.owner l = env.programId ∧ refund.isSigner = true ∧ proof.key ≠ refund.key ∧
      refund.owner l = systemProgram := by
  simp only [requireRefundable, except_bind_eq_ok, require_eq_ok] at h
  obtain ⟨_, howner, _, ⟨-, hsigned⟩, _, -, _, hne, _, hsystem, -⟩ := h
  exact ⟨howner, hsigned, hne, hsystem⟩

theorem requireSealedProof_ok {data : Bytes} {u : Unit} (h : requireSealedProof data = .ok u) :
    proofAccountFinalized data = true := by
  simp only [requireSealedProof, except_bind_eq_ok, require_eq_ok] at h
  obtain ⟨_, -, hfinalized⟩ := h
  exact hfinalized

theorem closeProof_ok {accounts : List AccountInfo} {u : Unit} (h : closeProof env accounts l = .ok u l') :
    ∃ proof refund rest, accounts = proof :: refund :: rest ∧ proof.owner l = env.programId ∧
      refund.owner l = systemProgram ∧ refund.isSigner = true ∧ proof.key ≠ refund.key ∧
      proofAccountFinalized (proof.data l) = true ∧
      l' = drainAccount proof.key refund.key (patch 0 PROOF_ACCOUNT_CLOSED_MAGIC (proof.data l)) l := by
  simp only [closeProof, Exec.bind_ok, Exec.query_ok] at h
  obtain ⟨⟨proof, refund⟩, _, ⟨haccounts, rfl⟩, _, _, ⟨hsealed, rfl⟩, hrefund⟩ := h
  obtain ⟨rest, rfl⟩ := nextTwoAccounts_ok haccounts
  obtain ⟨hrequire, rfl⟩ := refundProgramOwnedProofAccount_ok hrefund
  obtain ⟨howner, hsigned, hne, hsystem⟩ := requireRefundable_ok hrequire
  exact ⟨proof, refund, rest, rfl, howner, hsystem, hsigned, hne, requireSealedProof_ok hsealed, rfl⟩

/-! ### Accepted receipt instructions -/

theorem exactTwoAccounts_ok {accounts : List AccountInfo} {a b : AccountInfo}
    (h : exactTwoAccounts accounts = .ok (a, b)) : accounts = [a, b] := by
  unfold exactTwoAccounts at h
  split at h
  · cases h
  · cases h
  · cases h
    rfl
  · cases h

theorem ReceiptAccounts.ofList_ok {accounts : List AccountInfo} {a : ReceiptAccounts}
    (h : ReceiptAccounts.ofList accounts = .ok a) : accounts = [a.proof, a.receipt, a.uploadAuthority, a.system] := by
  unfold ReceiptAccounts.ofList at h
  split at h
  · cases h
  · cases h
  · cases h
  · cases h
  · cases h
    rfl
  · cases h

/-- The checks on the accounts of a receipt initialization. -/
structure ReceiptAccountsValid (env : VerifierEnvironment) (a : ReceiptAccounts) (l : Ledger) : Prop where
  proof_owner : a.proof.owner l = env.programId
  receipt_owner : a.receipt.owner l = systemProgram
  receipt_empty : a.receipt.data l = []
  authority_owner : a.uploadAuthority.owner l = systemProgram
  authority_empty : a.uploadAuthority.data l = []
  authority_signs : a.uploadAuthority.isSigner = true
  receipt_ne_authority : a.receipt.key ≠ a.uploadAuthority.key

theorem validateReceiptAccounts_ok {a : ReceiptAccounts} {u : Unit} (h : validateReceiptAccounts env a l = .ok u) :
    ReceiptAccountsValid env a l := by
  simp only [validateReceiptAccounts, except_bind_eq_ok, require_eq_ok] at h
  obtain ⟨_, hproof, _, -, _, hreceipt, _, ⟨-, -, -, hempty⟩, _, hsigned, _, ⟨-, -, hauthorityEmpty⟩, _,
    ⟨hauthority, -⟩, _, -, -, -, hne, -⟩ := h
  exact ⟨hproof, hreceipt, hempty, hauthority, hauthorityEmpty, hsigned, hne⟩

theorem processV7PoolReceiptInitialize_ok {accounts : List AccountInfo} {data : Bytes} {u : Unit}
    (h : processV7PoolReceiptInitialize env accounts data l = .ok u l') :
    ∃ a image created, ReceiptAccounts.ofList accounts = .ok a ∧ ReceiptAccountsValid env a l ∧
      plannedReceipt env a data l = .ok image ∧ SystemCall l created ∧ KeepsAssigned a.receipt.key l created ∧
      a.receipt.owner created = env.programId ∧ l' = setData a.receipt.key image created := by
  simp only [processV7PoolReceiptInitialize, createOrAllocateReceiptAccount, Exec.bind_ok, Exec.query_ok,
    require_eq_ok, Exec.update_ok] at h
  obtain ⟨a, _, ⟨haccounts, rfl⟩, _, _, ⟨hvalid, rfl⟩, image, _, ⟨hplanned, rfl⟩, _, created, hcreate, _, _, ⟨-, rfl⟩, _,
    _, ⟨-, rfl⟩, rfl⟩ := h
  obtain ⟨hcall, howner, -⟩ := createOrAllocate_ok hcreate
  exact ⟨a, image, created, haccounts, validateReceiptAccounts_ok hvalid, hplanned, hcall,
    (createOrAllocate_steps _ _ _).ok hcreate, howner, rfl⟩

/-- What an accepted finalization checked: the account was pending for the request, and the verifier accepted it. -/
structure FinalizeRun (env : VerifierEnvironment) (v : Tag73Verifiers) (proof receipt : AccountInfo) (data : Bytes)
    (slot : UInt64) (request : VerifierDispatchRequestV1) (pending : PoolV1AuthorizationReceiptAccountV1)
    (image : Bytes) (l l' : Ledger) : Prop where
  receipt_owner : receipt.owner l = env.programId
  request_eq : decodeVerifierDispatchRequestV1 env.hashv data = .ok request
  pending_eq : validatePendingReceiptForRequest env receipt.key (receipt.data l) request = .ok pending
  verified : verifySelectedTag73 env v proof data l = .ok request.binding
  image_eq : finalizePoolV1AuthorizationReceiptAccountV1 env.hashv (receipt.data l) request
    ⟨pending.pdaBump, slot, request.binding⟩ = .ok image
  final_eq : l' = setData receipt.key image l

theorem validateReceiptAccount_ok {account : AccountInfo} {u : Unit} (h : validateReceiptAccount env account l = .ok u) :
    account.owner l = env.programId := by
  simp only [validateReceiptAccount, except_bind_eq_ok, require_eq_ok] at h
  obtain ⟨_, howner, -⟩ := h
  exact howner

theorem processV7PoolReceiptFinalize_ok {accounts : List AccountInfo} {data : Bytes} {slot : UInt64} {u : Unit}
    (h : processV7PoolReceiptFinalize env v accounts data slot l = .ok u l') :
    ∃ proof receipt request pending image, accounts = [proof, receipt] ∧
      FinalizeRun env v proof receipt data slot request pending image l l' := by
  simp only [processV7PoolReceiptFinalize, Exec.bind_ok, Exec.query_ok, require_eq_ok, mapErr_eq_ok,
    Exec.update_ok] at h
  obtain ⟨⟨proof, receipt⟩, _, ⟨haccounts, rfl⟩, _, _, ⟨hvalid, rfl⟩, _, _, ⟨-, rfl⟩, request, _, ⟨hrequest, rfl⟩, _, _,
    ⟨-, rfl⟩, binding, _, ⟨hverified, rfl⟩, _, _, ⟨rfl, rfl⟩, pending, _, ⟨hpending, rfl⟩, image, _, ⟨himage, rfl⟩, rfl⟩ := h
  exact ⟨proof, receipt, request, pending, image, exactTwoAccounts_ok haccounts, validateReceiptAccount_ok hvalid,
    hrequest, hpending, hverified, himage, rfl⟩

/-- What an accepted closing checked: the account is a receipt, and its recorded authority signed. -/
theorem processV7PoolReceiptClose_ok {accounts : List AccountInfo} {data : Bytes} {u : Unit}
    (h : processV7PoolReceiptClose env accounts data l = .ok u l') :
    ∃ receipt refund record, accounts = [receipt, refund] ∧ receipt.owner l = env.programId ∧
      refund.owner l = systemProgram ∧ refund.isSigner = true ∧ receipt.key ≠ refund.key ∧
      decodePoolV1AuthorizationReceiptAccountV1 env.hashv (receipt.data l) = .ok record ∧
      refund.key = record.closeRefundAuthority ∧
      l' = drainAccount receipt.key refund.key receiptTombstone l := by
  simp only [processV7PoolReceiptClose, Exec.bind_ok, Exec.query_ok, require_eq_ok, Exec.update_ok] at h
  obtain ⟨_, _, ⟨-, rfl⟩, ⟨receipt, refund⟩, _, ⟨haccounts, rfl⟩, _, _, ⟨hclosable, rfl⟩, rfl⟩ := h
  simp only [requireReceiptClosable, except_bind_eq_ok, require_eq_ok, mapErr_eq_ok,
    authorizeClosePoolV1AuthorizationReceiptAccountV1, okOr_eq_ok] at hclosable
  obtain ⟨_, hvalid, _, hsigned, _, -, _, hsystem, _, hne, record, hrecord, _, -, _, ⟨record', hrecord', _, -, _, -, hkey⟩,
    -⟩ := hclosable
  rw [hrecord] at hrecord'
  cases hrecord'
  exact ⟨receipt, refund, record, exactTwoAccounts_ok haccounts, validateReceiptAccount_ok hvalid, hsystem, hsigned,
    hne, hrecord, hkey, rfl⟩

end Accepted

/-! ### Failed instructions -/

section Failed
variable {env : VerifierEnvironment} {v : Tag73Verifiers} {l l' : Ledger}

theorem initProof_clean (accounts : List AccountInfo) (totalLen : UInt32) :
    Exec.Clean (initProof env accounts totalLen) := by
  refine Exec.clean_query_bind fun ⟨_, _⟩ => Exec.clean_query_bind fun _ => Exec.clean_query_bind fun _ =>
    Exec.clean_query_bind fun _ => Exec.clean_query_bind fun _ => Exec.clean_query_bind fun _ => Exec.clean_update _

theorem uploadChunk_clean (accounts : List AccountInfo) (offset : UInt32) (chunk : Bytes) :
    Exec.Clean (uploadChunk env accounts offset chunk) := by
  refine Exec.clean_query_bind fun ⟨_, _⟩ => Exec.clean_query_bind fun _ => Exec.clean_query_bind fun _ =>
    Exec.clean_query_bind fun _ => Exec.clean_query_bind fun _ => Exec.clean_query_bind fun _ => Exec.clean_update _

theorem finalizeProof_clean (accounts : List AccountInfo) : Exec.Clean (finalizeProof env accounts) := by
  refine Exec.clean_query_bind fun ⟨_, _⟩ => Exec.clean_query_bind fun _ => Exec.clean_query_bind fun _ =>
    Exec.clean_query_bind fun _ => Exec.clean_update _

theorem closeProof_clean (accounts : List AccountInfo) : Exec.Clean (closeProof env accounts) := by
  refine Exec.clean_query_bind fun ⟨_, _⟩ => Exec.clean_query_bind fun _ => Exec.clean_query_bind fun _ =>
    Exec.clean_update _

theorem processV7PoolReceiptFinalize_clean (accounts : List AccountInfo) (data : Bytes) (slot : UInt64) :
    Exec.Clean (processV7PoolReceiptFinalize env v accounts data slot) := by
  refine Exec.clean_query_bind fun ⟨_, _⟩ => Exec.clean_query_bind fun _ => Exec.clean_query_bind fun _ =>
    Exec.clean_query_bind fun _ => Exec.clean_query_bind fun _ => Exec.clean_query_bind fun _ =>
    Exec.clean_query_bind fun _ => Exec.clean_query_bind fun _ => Exec.clean_query_bind fun _ => Exec.clean_update _

theorem processV7PoolReceiptClose_clean (accounts : List AccountInfo) (data : Bytes) :
    Exec.Clean (processV7PoolReceiptClose env accounts data) := by
  refine Exec.clean_query_bind fun _ => Exec.clean_query_bind fun ⟨_, _⟩ => Exec.clean_query_bind fun _ =>
    Exec.clean_update _

/-- Nothing can fail once the receipt account is created. -/
theorem processV7PoolReceiptInitialize_clean (accounts : List AccountInfo) (data : Bytes) :
    Exec.Clean (processV7PoolReceiptInitialize env accounts data) := by
  intro l e l' h
  simp only [processV7PoolReceiptInitialize, createOrAllocateReceiptAccount, Exec.bind_error, Exec.query_error,
    Exec.query_ok] at h
  rcases h with ⟨-, rfl⟩ | ⟨a, _, ⟨-, rfl⟩, h⟩
  · rfl
  rcases h with ⟨-, rfl⟩ | ⟨_, _, ⟨hvalid, rfl⟩, h⟩
  · rfl
  rcases h with ⟨-, rfl⟩ | ⟨image, _, ⟨-, rfl⟩, h⟩
  · rfl
  have hok := validateReceiptAccounts_ok hvalid
  rcases h with h | ⟨_, created, hcreate, h⟩
  · exact createOrAllocate_error hok.receipt_owner hok.receipt_empty h
  obtain ⟨-, howner, hzero⟩ := createOrAllocate_ok hcreate
  rcases h with ⟨herror, -⟩ | ⟨_, _, ⟨-, rfl⟩, h⟩
  · rw [require_of _ howner] at herror
    cases herror
  rcases h with ⟨herror, -⟩ | ⟨_, _, -, h⟩
  · rw [require_of] at herror
    · cases herror
    · rw [AccountInfo.data, hzero]
      exact ⟨length_zeros _, allZero_zeros _⟩
  · exact absurd h Exec.update_ne_error

/-- The instruction is not a spend; only a spend calls the system program before its last check. -/
def VerifierInstruction.IsSpend : VerifierInstruction → Prop
  | .atomicPayment _ _ _ _ _ => True
  | _ => False

/-- An instruction other than a spend that fails has changed nothing. -/
theorem VerifierInstruction.process_clean {i : VerifierInstruction} (h : ¬ i.IsSpend) : Exec.Clean (i.process env v) := by
  cases i with
  | initProof accounts totalLen => exact initProof_clean accounts totalLen
  | uploadChunk accounts offset chunk => exact uploadChunk_clean accounts offset chunk
  | finalizeProof accounts => exact finalizeProof_clean accounts
  | closeProof accounts => exact closeProof_clean accounts
  | initializeAtomicPool accounts sequence anchor domainTag =>
    exact initializeAtomicPool_clean accounts sequence anchor domainTag
  | atomicPayment => exact absurd trivial h
  | initializeReceipt accounts data => exact processV7PoolReceiptInitialize_clean accounts data
  | finalizeReceipt accounts data slot => exact processV7PoolReceiptFinalize_clean accounts data slot
  | closeReceipt accounts data => exact processV7PoolReceiptClose_clean accounts data
  | verifyOnly accounts verify => exact Exec.clean_query verify

/-- A failed instruction changes no account of the program, and does nothing that others could not do. -/
theorem VerifierStep.failed_outside {i : VerifierInstruction} (h : VerifierStep env v l (.failed i) l') :
    (∀ k, (l k).owner = env.programId → l' k = l k) ∧ Outside env.programId l l' := by
  obtain ⟨e, m, herror, rfl | rfl⟩ := h
  · exact ⟨fun _ _ => rfl, Outside.refl _ _⟩
  by_cases hspend : i.IsSpend
  · cases i with
    | atomicPayment accounts inputs check disposition required =>
      rcases verifyAndApplyAtomicPaymentState_error herror with rfl | ⟨a, -, -, hcall, hkeeps⟩
      · exact ⟨fun _ _ => rfl, Outside.refl _ _⟩
      · exact ⟨hkeeps, hcall.outside env.programId_ne_system⟩
    | _ => exact absurd hspend (by simp [VerifierInstruction.IsSpend])
  · rw [VerifierInstruction.process_clean hspend _ _ _ herror]
    exact ⟨fun _ _ => rfl, Outside.refl _ _⟩

end Failed

/-! ### What a step can write -/

section Writes
variable (env : VerifierEnvironment)

/-- An accepted instruction that rewrote an account of the program, with the data before and after. -/
inductive Rewrites : VerifierInstruction → Pubkey → Bytes → Bytes → Prop
  | initProof {proof authority : AccountInfo} {rest : List AccountInfo} {totalLen : UInt32} {d : Bytes}
      (signed : authority.isSigner = true) (length : 40 + totalLen.toNat ≤ d.length)
      (free : AuthoritySigned authority d ∨ (allZero d = true ∧ proofAccountInitialized d = false)) :
      Rewrites (.initProof (proof :: authority :: rest) totalLen) proof.key d
        (patch 0 (proofHeader totalLen authority.key) d)
  | uploadChunk {proof authority : AccountInfo} {rest : List AccountInfo} {offset : UInt32} {chunk d : Bytes}
      (authorized : AuthoritySigned authority d) (inside : offset.toNat + chunk.length ≤ leNat (slice 4 4 d))
      (length : 40 + offset.toNat + chunk.length ≤ d.length) :
      Rewrites (.uploadChunk (proof :: authority :: rest) offset chunk) proof.key d (patch (40 + offset.toNat) chunk d)
  | finalizeProof {proof authority : AccountInfo} {rest : List AccountInfo} {d : Bytes}
      (authorized : AuthoritySigned authority d) :
      Rewrites (.finalizeProof (proof :: authority :: rest)) proof.key d (patch 8 (zeros 32) d)
  | closeProof {proof refund : AccountInfo} {rest : List AccountInfo} {d : Bytes}
      (isSealed : proofAccountFinalized d = true) :
      Rewrites (.closeProof (proof :: refund :: rest)) proof.key d (patch 0 PROOF_ACCOUNT_CLOSED_MAGIC d)
  | initializeAtomicPool {pool : AccountInfo} {rest : List AccountInfo} {sequence : UInt64} {anchor : Bytes32}
      {domainTag d : Bytes} (zero : allZero d = true) :
      Rewrites (.initializeAtomicPool (pool :: rest) sequence anchor domainTag) pool.key d
        (AtomicPoolStateV2.encode ⟨sequence, anchor, atomicDeploymentDomain env.hashv env.programId domainTag⟩)
  | spendPool {accounts : List AccountInfo} {a : AtomicAccounts} {inputs : AtomicPaymentPublicInputs}
      {check : UploadedProofCheck} {disposition : ProofAccountDisposition} {required : Option UInt8}
      {pool : AtomicPoolStateV2} {d : Bytes} (named : AtomicAccounts.ofList accounts = .ok a)
      (decoded : AtomicPoolStateV2.decode d = .ok pool) :
      Rewrites (.atomicPayment accounts inputs check disposition required) a.pool.key d
        (AtomicPoolStateV2.encode (pool.next inputs))
  | spendMarker {accounts : List AccountInfo} {a : AtomicAccounts} {inputs : AtomicPaymentPublicInputs}
      {check : UploadedProofCheck} {disposition : ProofAccountDisposition} {required : Option UInt8} {d : Bytes}
      (named : AtomicAccounts.ofList accounts = .ok a) (zero : allZero d = true) :
      Rewrites (.atomicPayment accounts inputs check disposition required) a.nullifier.key d
        (NullifierMarkerV1.encode ⟨a.pool.key, inputs.nullifier⟩)
  | spendProof {accounts : List AccountInfo} {a : AtomicAccounts} {inputs : AtomicPaymentPublicInputs}
      {check : UploadedProofCheck} {required : Option UInt8} {d : Bytes} (named : AtomicAccounts.ofList accounts = .ok a)
      (isSealed : proofAccountFinalized d = true) :
      Rewrites (.atomicPayment accounts inputs check .refundToPayer required) a.proof.key d
        (patch 0 PROOF_ACCOUNT_CLOSED_MAGIC d)
  | finalizeReceipt {proof receipt : AccountInfo} {data d image : Bytes} {slot : UInt64}
      {request : VerifierDispatchRequestV1} {pending : PoolV1AuthorizationReceiptAccountV1}
      (decoded : decodePoolV1AuthorizationReceiptAccountV1 env.hashv d = .ok pending)
      (isPending : pending.status = .pending)
      (finalized : finalizePoolV1AuthorizationReceiptAccountV1 env.hashv d request
        ⟨pending.pdaBump, slot, request.binding⟩ = .ok image) :
      Rewrites (.finalizeReceipt [proof, receipt] data slot) receipt.key d image
  | closeReceipt {receipt refund : AccountInfo} {data d : Bytes} {record : PoolV1AuthorizationReceiptAccountV1}
      (decoded : decodePoolV1AuthorizationReceiptAccountV1 env.hashv d = .ok record) :
      Rewrites (.closeReceipt [receipt, refund] data) receipt.key d receiptTombstone

variable {env} {v : Tag73Verifiers} {l l' : Ledger} {e : VerifierEvent} {k : Pubkey}

theorem uploadedProofVerifier_ok {check : UploadedProofCheck} {proof : AccountInfo}
    {statement : AtomicPaymentStatementV4} {digest : Bytes32} {u : Unit}
    (h : uploadedProofVerifier check proof statement digest l = .ok u) : proofAccountFinalized (proof.data l) = true := by
  simp only [uploadedProofVerifier, except_bind_eq_ok, require_eq_ok] at h
  obtain ⟨_, hfinalized, -⟩ := h
  exact hfinalized

/-- Writing one account of the program leaves the others. -/
theorem owned_of_setData {i : VerifierInstruction} {key : Pubkey} {data : Bytes} (hk : (l k).owner = env.programId)
    (h : Rewrites env i key (l key).data data) :
    (setData key data l k).owner = env.programId ∧ ((setData key data l k).data = (l k).data ∨
      ∃ j, VerifierEvent.accepted i = .accepted j ∧ Rewrites env j k (l k).data (setData key data l k).data) := by
  refine ⟨by rw [setData_owner, hk], ?_⟩
  by_cases heq : k = key
  · subst heq
    rw [setData_self]
    exact .inr ⟨i, rfl, h⟩
  · rw [setData_of_ne heq]
    exact .inl rfl

theorem owned_of_drain {i : VerifierInstruction} {src dst : Pubkey} {data : Bytes} (hk : (l k).owner = env.programId)
    (h : Rewrites env i src (l src).data data) :
    (drainAccount src dst data l k).owner = env.programId ∧ ((drainAccount src dst data l k).data = (l k).data ∨
      ∃ j, VerifierEvent.accepted i = .accepted j ∧ Rewrites env j k (l k).data (drainAccount src dst data l k).data) := by
  refine ⟨by rw [drainAccount_owner, hk], ?_⟩
  by_cases heq : k = src
  · subst heq
    rw [drainAccount_src]
    exact .inr ⟨i, rfl, h⟩
  · exact .inl (drainAccount_data heq)

/-- An account of the program stays one, and keeps its data unless an accepted instruction rewrites it. -/
theorem VerifierStep.owned (h : VerifierStep env v l e l') (hk : (l k).owner = env.programId) :
    (l' k).owner = env.programId ∧ ((l' k).data = (l k).data ∨
      ∃ i, e = .accepted i ∧ Rewrites env i k (l k).data (l' k).data) := by
  cases e with
  | outside =>
    obtain ⟨howner, hdata⟩ := h.kept k hk
    exact ⟨howner, .inl hdata⟩
  | failed i =>
    rw [h.failed_outside.1 k hk]
    exact ⟨hk, .inl rfl⟩
  | accepted i =>
    cases i with
    | initProof accounts totalLen =>
      obtain ⟨proof, authority, rest, rfl, -, hsigned, hlength, hfree, rfl⟩ := initProof_ok h
      exact owned_of_setData hk (.initProof hsigned hlength hfree)
    | uploadChunk accounts offset chunk =>
      obtain ⟨proof, authority, rest, rfl, -, hauthorized, hinside, hlength, rfl⟩ := uploadChunk_ok h
      exact owned_of_setData hk (.uploadChunk hauthorized hinside hlength)
    | finalizeProof accounts =>
      obtain ⟨proof, authority, rest, rfl, -, hauthorized, rfl⟩ := finalizeProof_ok h
      exact owned_of_setData hk (.finalizeProof hauthorized)
    | closeProof accounts =>
      obtain ⟨proof, refund, rest, rfl, -, -, -, -, hsealed, rfl⟩ := closeProof_ok h
      exact owned_of_drain hk (.closeProof hsealed)
    | initializeAtomicPool accounts sequence anchor domainTag =>
      obtain ⟨pool, rest, rfl, -, -, -, hzero, rfl⟩ := initializeAtomicPool_ok h
      exact owned_of_setData hk (.initializeAtomicPool hzero)
    | atomicPayment accounts inputs check disposition required =>
      obtain ⟨a, pool, statement, digest, created, disposed, haccounts, hrun⟩ := verifyAndApplyAtomicPaymentState_ok h
      obtain ⟨howner, hcases⟩ := hrun.program_account hk
      refine ⟨howner, ?_⟩
      rcases hcases with rfl | rfl | hsame | ⟨rfl, rfl, -, hclosed⟩
      · rw [hrun.pool_data]
        exact .inr ⟨_, rfl, .spendPool haccounts hrun.pool_eq⟩
      · rw [hrun.nullifier_data]
        exact .inr ⟨_, rfl, .spendMarker haccounts (hrun.unspent hk).2⟩
      · exact .inl hsame
      · rw [hclosed]
        exact .inr ⟨_, rfl, .spendProof haccounts (uploadedProofVerifier_ok hrun.verified)⟩
    | initializeReceipt accounts data =>
      obtain ⟨a, image, created, -, hvalid, -, hcall, -, -, rfl⟩ := processV7PoolReceiptInitialize_ok h
      obtain ⟨howner, hdata⟩ := (hcall.outside env.programId_ne_system).kept k hk
      have hne : k ≠ a.receipt.key := by
        rintro rfl
        exact env.programId_ne_system (hk.symm.trans hvalid.receipt_owner)
      rw [setData_of_ne hne]
      exact ⟨howner, .inl hdata⟩
    | finalizeReceipt accounts data slot =>
      obtain ⟨proof, receipt, request, pending, image, rfl, hrun⟩ := processV7PoolReceiptFinalize_ok h
      obtain ⟨decoded, hdecode, hpending⟩ : ∃ r, decodePoolV1AuthorizationReceiptAccountV1 env.hashv
          (receipt.data l) = .ok r ∧ r = pending ∧ r.status = .pending := by
        have hpend := hrun.pending_eq
        simp only [validatePendingReceiptForRequest, except_bind_eq_ok, mapErr_eq_ok, require_eq_ok,
          except_pure_eq_ok] at hpend
        obtain ⟨r, hr, _, hstatus, _, -, _, -, _, -, _, -, heq⟩ := hpend
        exact ⟨r, hr, heq, hstatus⟩
      obtain ⟨rfl, hstatus⟩ := hpending
      rw [hrun.final_eq]
      exact owned_of_setData hk (.finalizeReceipt hdecode hstatus hrun.image_eq)
    | closeReceipt accounts data =>
      obtain ⟨receipt, refund, record, rfl, -, -, -, -, hrecord, -, rfl⟩ := processV7PoolReceiptClose_ok h
      exact owned_of_drain hk (.closeReceipt hrecord)
    | verifyOnly accounts verify =>
      obtain ⟨-, rfl⟩ := Exec.query_ok.mp h
      exact ⟨hk, .inl rfl⟩

end Writes

end Aspis.Verifier
