import Aspis.Chain.Ledger
import Aspis.Statement.AtomicPayment

/-! The verifier program's runtime and its proof accounts. A proof account is
created empty, keyed to an upload authority, filled chunk by chunk, sealed by
zeroing the authority, and at last refunded and marked closed. -/

namespace Aspis.Verifier

open Lib Chain Statement

inductive VerifierError
  | invalidArgument
  | invalidInstructionData
  | invalidAccountData
  | accountDataTooSmall
  | incorrectProgramId
  | missingRequiredSignature
  | notEnoughAccountKeys
  | invalidSeeds
  | arithmeticOverflow
  | custom (code : UInt32)
  | system (error : ProgramError)
  deriving DecidableEq, Repr

/-- What the program takes from the runtime. -/
structure VerifierEnvironment where
  programId : Pubkey
  findProgramAddress : List Bytes → Pubkey → Pubkey × UInt8
  hash : Bytes → Bytes32
  minimumBalance : ℕ → ℕ
  programId_ne_system : programId ≠ systemProgram

abbrev VerifierHandler (α : Type) := Exec VerifierError Ledger α

def VerifierEnvironment.hashv (env : VerifierEnvironment) (inputs : List Bytes) : Bytes32 := env.hash inputs.flatten

/-- A call into the system program. -/
def systemCpi (f : Ledger → Except ProgramError Ledger) : VerifierHandler Unit :=
  Exec.call fun l => mapErr VerifierError.system (f l)

def U64_LIMIT : ℕ := 2 ^ 64

/-! ### Proof accounts

Magic, declared length, upload authority, then the proof bytes. -/

def PROOF_ACCOUNT_MAGIC : Bytes := [65, 83, 80, 85]

def PROOF_ACCOUNT_CLOSED_MAGIC : Bytes := [65, 83, 80, 67]

def PROOF_ACCOUNT_HEADER_LEN : ℕ := 40

def AUTHORITY_OFFSET : ℕ := 8

def proofAccountInitialized (data : Bytes) : Bool :=
  decide (PROOF_ACCOUNT_HEADER_LEN ≤ data.length) && decide (slice 0 4 data = PROOF_ACCOUNT_MAGIC)

def proofAccountFinalized (data : Bytes) : Bool :=
  proofAccountInitialized data && allZero (slice AUTHORITY_OFFSET 32 data)

def proofLen (data : Bytes) : Except VerifierError ℕ := do
  require (proofAccountInitialized data = true) .invalidAccountData
  return leNat (slice 4 4 data)

def uploadedProofBounds (data : Bytes) : Except VerifierError (ℕ × ℕ) := do
  let totalLen ← proofLen data
  require (PROOF_ACCOUNT_HEADER_LEN + totalLen ≤ data.length) .invalidAccountData
  return (PROOF_ACCOUNT_HEADER_LEN, PROOF_ACCOUNT_HEADER_LEN + totalLen)

def requireUploadAuthority (data : Bytes) (authority : AccountInfo) : Except VerifierError Unit := do
  require (authority.isSigner = true) .missingRequiredSignature
  require (proofAccountInitialized data = true) .invalidAccountData
  require (slice AUTHORITY_OFFSET 32 data = authority.key.bytes) .invalidAccountData

/-- The account and the authority an instruction starts with; more accounts may follow. -/
def nextTwoAccounts : List AccountInfo → Except VerifierError (AccountInfo × AccountInfo)
  | first :: second :: _ => .ok (first, second)
  | _ => .error .notEnoughAccountKeys

section Handlers
variable (env : VerifierEnvironment)

/-- The header an initialization writes. -/
def proofHeader (totalLen : UInt32) (authority : Pubkey) : Bytes :=
  PROOF_ACCOUNT_MAGIC ++ (u32Bytes totalLen ++ authority.bytes)

/-- A proof account is taken over by nobody but its authority; any other must be fresh and sign. -/
def requireInitializable (proofAccount authority : AccountInfo) (data : Bytes) : Except VerifierError Unit :=
  if proofAccountInitialized data = true then
    require (slice AUTHORITY_OFFSET 32 data = authority.key.bytes) .invalidAccountData
  else do
    require (proofAccount.isSigner = true) .missingRequiredSignature
    require (allZero data = true) .invalidAccountData

def initProof (accounts : List AccountInfo) (totalLen : UInt32) : VerifierHandler Unit := do
  let (proofAccount, authority) ← Exec.query fun _ => nextTwoAccounts accounts
  Exec.query fun l => require (proofAccount.owner l = env.programId) .incorrectProgramId
  Exec.query fun _ => require (authority.isSigner = true) .missingRequiredSignature
  Exec.query fun _ => require (proofAccount.isWritable = true) .invalidAccountData
  Exec.query fun l => require (PROOF_ACCOUNT_HEADER_LEN + totalLen.toNat ≤ (proofAccount.data l).length)
    .accountDataTooSmall
  Exec.query fun l => requireInitializable proofAccount authority (proofAccount.data l)
  Exec.update fun l => setData proofAccount.key (patch 0 (proofHeader totalLen authority.key) (proofAccount.data l)) l

def uploadChunk (accounts : List AccountInfo) (offset : UInt32) (chunk : Bytes) : VerifierHandler Unit := do
  let (proofAccount, authority) ← Exec.query fun _ => nextTwoAccounts accounts
  Exec.query fun l => require (proofAccount.owner l = env.programId) .incorrectProgramId
  Exec.query fun _ => require (proofAccount.isWritable = true) .invalidAccountData
  Exec.query fun l => requireUploadAuthority (proofAccount.data l) authority
  let totalLen ← Exec.query fun l => proofLen (proofAccount.data l)
  Exec.query fun l => require (offset.toNat + chunk.length ≤ totalLen ∧
    PROOF_ACCOUNT_HEADER_LEN + offset.toNat + chunk.length ≤ (proofAccount.data l).length) .invalidInstructionData
  Exec.update fun l => setData proofAccount.key
    (patch (PROOF_ACCOUNT_HEADER_LEN + offset.toNat) chunk (proofAccount.data l)) l

def finalizeProof (accounts : List AccountInfo) : VerifierHandler Unit := do
  let (proofAccount, authority) ← Exec.query fun _ => nextTwoAccounts accounts
  Exec.query fun l => require (proofAccount.owner l = env.programId) .incorrectProgramId
  Exec.query fun _ => require (proofAccount.isWritable = true) .invalidAccountData
  Exec.query fun l => requireUploadAuthority (proofAccount.data l) authority
  Exec.update fun l => setData proofAccount.key (patch AUTHORITY_OFFSET (zeros 32) (proofAccount.data l)) l

/-- Move the whole balance of one account to another, after overwriting its data. -/
def drainAccount (src dst : Pubkey) (data : Bytes) (l : Ledger) : Ledger :=
  Function.update (Function.update l dst { l dst with lamports := (l dst).lamports + (l src).lamports })
    src { l src with lamports := 0, data := data }

def requireRefundable (proofAccount refundAccount : AccountInfo) (l : Ledger) : Except VerifierError Unit := do
  require (proofAccount.owner l = env.programId) .incorrectProgramId
  require (proofAccount.isSigner = true ∧ refundAccount.isSigner = true) .missingRequiredSignature
  require (proofAccount.isWritable = true ∧ refundAccount.isWritable = true) .invalidAccountData
  require (proofAccount.key ≠ refundAccount.key) .invalidArgument
  require (refundAccount.owner l = systemProgram) .incorrectProgramId
  require (proofAccount.lamports l ≠ 0) .invalidAccountData
  require (refundAccount.lamports l + proofAccount.lamports l < U64_LIMIT) .arithmeticOverflow
  require (4 ≤ (proofAccount.data l).length) .invalidAccountData

/-- Mark the account closed before it is drained, so that crediting it again does not revive the proof. -/
def refundProgramOwnedProofAccount (proofAccount refundAccount : AccountInfo) : VerifierHandler Unit := do
  Exec.query (requireRefundable env proofAccount refundAccount)
  Exec.update fun l => drainAccount proofAccount.key refundAccount.key
    (patch 0 PROOF_ACCOUNT_CLOSED_MAGIC (proofAccount.data l)) l

/-- The proof is complete and sealed. -/
def requireSealedProof (data : Bytes) : Except VerifierError Unit := do
  let _ ← uploadedProofBounds data
  require (proofAccountFinalized data = true) .invalidAccountData

def closeProof (accounts : List AccountInfo) : VerifierHandler Unit := do
  let (proofAccount, refundAccount) ← Exec.query fun _ => nextTwoAccounts accounts
  Exec.query fun l => requireSealedProof (proofAccount.data l)
  refundProgramOwnedProofAccount env proofAccount refundAccount

end Handlers

/-! ### Bytes of a proof account -/

@[simp] theorem length_proofMagic : PROOF_ACCOUNT_MAGIC.length = 4 := by simp [PROOF_ACCOUNT_MAGIC]

@[simp] theorem length_proofClosedMagic : PROOF_ACCOUNT_CLOSED_MAGIC.length = 4 := by simp [PROOF_ACCOUNT_CLOSED_MAGIC]

@[simp] theorem length_proofHeader (totalLen : UInt32) (authority : Pubkey) :
    (proofHeader totalLen authority).length = 40 := by
  simp [proofHeader, authority.length_eq]

theorem proofAccountInitialized_iff {data : Bytes} :
    proofAccountInitialized data = true ↔ 40 ≤ data.length ∧ slice 0 4 data = PROOF_ACCOUNT_MAGIC := by
  rw [proofAccountInitialized, Bool.and_eq_true, decide_eq_true_iff, decide_eq_true_iff]
  rfl

theorem proofAccountFinalized_iff {data : Bytes} :
    proofAccountFinalized data = true ↔ proofAccountInitialized data = true ∧ allZero (slice 8 32 data) = true := by
  simp [proofAccountFinalized, AUTHORITY_OFFSET]

/-- A front that is not all zero makes the whole not all zero. -/
theorem not_allZero_of_slice {off len : ℕ} {data front : Bytes} (h : slice off len data = front)
    (hfront : allZero front = false) : allZero data = false := by
  cases hz : allZero data with
  | false => rfl
  | true => rw [← h, allZero_slice off len hz] at hfront; cases hfront

/-! ### Accounts a change leaves alone -/

/-- Apart from the given account, every account that does not belong to the system program is as it was. -/
def KeepsAssigned (except : Pubkey) (l l' : Ledger) : Prop :=
  ∀ k, k ≠ except → (l k).owner ≠ systemProgram → l' k = l k

namespace KeepsAssigned

variable {except : Pubkey} {l m n : Ledger}

theorem refl (except : Pubkey) (l : Ledger) : KeepsAssigned except l l := fun _ _ _ => rfl

theorem trans (h : KeepsAssigned except l m) (h' : KeepsAssigned except m n) : KeepsAssigned except l n := by
  intro k hk howner
  have hm := h k hk howner
  exact (h' k hk (by rw [hm]; exact howner)).trans hm

end KeepsAssigned

theorem systemTransfer_keeps {src dst : Pubkey} {amount : ℕ} {l l' : Ledger}
    (h : systemTransfer src dst amount l = .ok l') : KeepsAssigned dst l l' := by
  unfold systemTransfer at h
  split_ifs at h with hsrc
  cases h
  obtain ⟨howner, -⟩ := not_or.mp hsrc
  intro k hk hkowner
  have hksrc : k ≠ src := fun heq => hkowner (heq ▸ not_not.mp howner)
  rw [Function.update_of_ne hk, Function.update_of_ne hksrc]

theorem systemAllocate_keeps {key : Pubkey} {space : ℕ} {l l' : Ledger} (h : systemAllocate key space l = .ok l') :
    KeepsAssigned key l l' := by
  unfold systemAllocate at h
  split_ifs at h
  cases h
  intro k hk _
  rw [Function.update_of_ne hk]

theorem systemAssign_keeps {key owner : Pubkey} {l l' : Ledger} (h : systemAssign key owner l = .ok l') :
    KeepsAssigned key l l' := by
  unfold systemAssign at h
  split_ifs at h
  · cases h
    exact KeepsAssigned.refl key l
  · cases h
    intro k hk _
    rw [Function.update_of_ne hk]

theorem systemCreateAccount_keeps {payer key owner : Pubkey} {lamports space : ℕ} {l l' : Ledger}
    (h : systemCreateAccount payer key lamports space owner l = .ok l') : KeepsAssigned key l l' := by
  unfold systemCreateAccount at h
  split_ifs at h
  simp only [except_bind_eq_ok] at h
  obtain ⟨m, hallocate, n, hassign, htransfer⟩ := h
  exact ((systemAllocate_keeps hallocate).trans (systemAssign_keeps hassign)).trans (systemTransfer_keeps htransfer)

theorem systemCpi_ok {f : Ledger → Except ProgramError Ledger} {l l' : Ledger} {u : Unit} :
    systemCpi f l = .ok u l' ↔ f l = .ok l' := by
  rw [systemCpi, Exec.call_ok, mapErr_eq_ok]

theorem systemCpi_steps {R : Ledger → Ledger → Prop} (hr : ∀ l, R l l) {f : Ledger → Except ProgramError Ledger}
    (h : ∀ l l', f l = .ok l' → R l l') : Exec.Steps R (systemCpi f) :=
  Exec.steps_call hr fun l l' hf => h l l' (mapErr_eq_ok.mp hf)

section Drain
variable {src dst k : Pubkey} {data : Bytes} {l : Ledger}

theorem drainAccount_src : drainAccount src dst data l src = { l src with lamports := 0, data := data } := by
  rw [drainAccount, Function.update_self]

theorem drainAccount_dst (hne : dst ≠ src) :
    drainAccount src dst data l dst = { l dst with lamports := (l dst).lamports + (l src).lamports } := by
  rw [drainAccount, Function.update_of_ne hne, Function.update_self]

theorem drainAccount_of_ne (hsrc : k ≠ src) (hdst : k ≠ dst) : drainAccount src dst data l k = l k := by
  rw [drainAccount, Function.update_of_ne hsrc, Function.update_of_ne hdst]

theorem drainAccount_owner : (drainAccount src dst data l k).owner = (l k).owner := by
  by_cases hsrc : k = src
  · rw [hsrc, drainAccount_src]
  · by_cases hdst : k = dst
    · rw [hdst, drainAccount_dst (hdst ▸ hsrc)]
    · rw [drainAccount_of_ne hsrc hdst]

/-- Only the drained account's data changes. -/
theorem drainAccount_data (hsrc : k ≠ src) : (drainAccount src dst data l k).data = (l k).data := by
  by_cases hdst : k = dst
  · rw [hdst, drainAccount_dst (hdst ▸ hsrc)]
  · rw [drainAccount_of_ne hsrc hdst]

end Drain

end Aspis.Verifier
