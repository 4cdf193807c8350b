import Aspis.Pool.Nullifier

/-! Account preparation shared by the instruction handlers: uniqueness and
payer checks, fresh program addresses, their creation through the system
program, and the closing of plan accounts. -/

namespace Aspis.Pool

open Lib Chain Statement

def nativeLoader : Pubkey :=
  ⟨[5, 135, 132, 191, 20, 139, 164, 40, 47, 176, 18, 87, 72, 136, 169, 241, 83, 160, 125, 173, 247, 101, 192, 69, 92,
    154, 151, 3, 128, 0, 0, 0], rfl⟩

def bpfLoader : Pubkey :=
  ⟨[2, 168, 246, 145, 78, 136, 161, 110, 57, 90, 225, 40, 148, 143, 250, 105, 86, 147, 55, 104, 24, 221, 71, 67, 82,
    33, 243, 198, 0, 0, 0, 0], rfl⟩

def bpfLoaderUpgradeable : Pubkey :=
  ⟨[2, 168, 246, 145, 78, 136, 161, 176, 226, 16, 21, 62, 247, 99, 174, 43, 0, 194, 185, 61, 22, 193, 36, 210, 192,
    83, 122, 16, 4, 128, 0, 0], rfl⟩

def loaderV4 : Pubkey :=
  ⟨[5, 18, 180, 17, 81, 81, 227, 122, 173, 10, 139, 197, 211, 136, 46, 123, 127, 218, 76, 243, 210, 192, 40, 200,
    207, 131, 54, 24, 0, 0, 0, 0], rfl⟩

/-! ### Checks on the account list -/

def requireUniqueAccounts (accounts : List AccountInfo) : Except ProgramError Unit :=
  require (accounts.map (·.key)).Nodup .invalidArgument

def requirePayerAndSystemProgram (payer system : AccountInfo) (l : Ledger) : Except ProgramError Unit := do
  require (payer.isSigner = true ∧ payer.isWritable = true ∧ payer.executable l = false ∧
    payer.owner l = systemProgram) (.custom .invalidPayer)
  require (system.key = systemProgram ∧ system.owner l = nativeLoader ∧ system.executable l = true ∧
    system.isSigner = false ∧ system.isWritable = false) (.custom .invalidSystemProgram)

def requireTokenProgramAccount (account : AccountInfo) (l : Ledger) : Except ProgramError Unit :=
  require (account.key = LEGACY_SPL_TOKEN_PROGRAM_ID ∧ account.executable l = true ∧ account.isSigner = false ∧
    account.isWritable = false ∧
    (account.owner l = bpfLoader ∨ account.owner l = bpfLoaderUpgradeable ∨ account.owner l = loaderV4))
    (.custom .invalidTokenProgram)

/-! ### Fresh program accounts -/

inductive FreshPdaPreparationV1
  | createOrAllocateSystemOwned
  | programOwnedZeroed
  deriving DecidableEq, Repr

section
variable (env : Environment)

def planFreshProgramPda (account : AccountInfo) (expected : Pubkey) (exactBytes : ℕ) (l : Ledger) :
    Except ProgramError FreshPdaPreparationV1 := do
  require (account.key = expected ∧ account.executable l = false ∧ account.isSigner = false ∧
    account.isWritable = true) (.custom .invalidFreshAccount)
  if account.owner l = env.programId then
    require ((account.data l).length = exactBytes ∧ allZero (account.data l) = true) (.custom .invalidFreshAccount)
    return .programOwnedZeroed
  else
    require (account.owner l = systemProgram ∧ account.data l = []) (.custom .invalidFreshAccount)
    return .createOrAllocateSystemOwned

/-- Pay what is missing to the required balance. -/
def topUp (payer account : AccountInfo) (deficit : ℕ) : Handler Unit :=
  if deficit ≠ 0 then Exec.call (systemTransfer payer.key account.key deficit) else pure ()

/-- Create the account, or top up and allocate one that holds lamports already. -/
def createOrAllocatePda (payer account system : AccountInfo) (exactBytes : ℕ) (owner : Pubkey) : Handler Unit := do
  Exec.query (requirePayerAndSystemProgram payer system)
  Exec.query fun l => require (account.owner l = systemProgram ∧ account.data l = []) (.custom .invalidFreshAccount)
  let required := max (env.minimumBalance exactBytes) 1
  let lamports ← Exec.query fun l => .ok (account.lamports l)
  if lamports = 0 then
    Exec.call (systemCreateAccount payer.key account.key required exactBytes owner)
  else
    topUp payer account (required - lamports)
    Exec.call (systemAllocate account.key exactBytes)
    Exec.call (systemAssign account.key owner)

def createProgramPdaIfNeeded (payer account system : AccountInfo) (exactBytes : ℕ)
    (preparation : FreshPdaPreparationV1) : Handler Unit :=
  if preparation = .createOrAllocateSystemOwned then
    createOrAllocatePda env payer account system exactBytes env.programId
  else pure ()

/-- An account planned as zeroed keeps its shape; a created one is planned again. -/
def isFreshProgramPda (account : AccountInfo) (expected : Pubkey) (exactBytes : ℕ)
    (preparation : FreshPdaPreparationV1) (l : Ledger) : Except ProgramError Bool :=
  match preparation with
  | .programOwnedZeroed => .ok (decide (account.key = expected ∧ account.owner l = env.programId ∧
      account.executable l = false ∧ account.isSigner = false ∧ account.isWritable = true ∧
      (account.data l).length = exactBytes))
  | .createOrAllocateSystemOwned => do
    let now ← planFreshProgramPda env account expected exactBytes l
    return decide (now = .programOwnedZeroed)

/-- The account is ready and holds the rent for its size. -/
def requireFreshRentExemptProgramPda (account : AccountInfo) (expected : Pubkey) (exactBytes : ℕ)
    (preparation : FreshPdaPreparationV1) (l : Ledger) : Except ProgramError Unit := do
  let isFresh ← isFreshProgramPda env account expected exactBytes preparation l
  require (isFresh = true ∧ account.lamports l ≥ env.minimumBalance exactBytes) (.custom .invalidFreshAccount)

/-- Refund and deallocate a plan account; its owner becomes the system program. -/
def closeProgramAccount (account refund : AccountInfo) (exactBytes : ℕ) : Handler Unit := do
  Exec.query fun l => require (account.owner l = env.programId ∧ account.executable l = false ∧
    account.isSigner = false ∧ account.isWritable = true ∧ refund.key ≠ account.key ∧ refund.isWritable = true ∧
    (account.data l).length = exactBytes) .invalidAccountData
  Exec.update (setData account.key (List.replicate exactBytes 255))
  Exec.query fun l => require (refund.lamports l + account.lamports l < U64_LIMIT) (.custom .arithmeticOverflow)
  Exec.update fun l => Function.update (Function.update l refund.key
    { l refund.key with lamports := refund.lamports l + account.lamports l })
    account.key { l account.key with lamports := 0, owner := systemProgram, data := [] }

/-! ### What the account steps do to a ledger -/

variable {env : Environment}

theorem topUp_call {payer account : AccountInfo} {deficit : ℕ} {l l' : Ledger} {u : Unit}
    (h : topUp payer account deficit l = .ok u l') : SystemCall l l' := by
  unfold topUp at h
  split_ifs at h
  · exact systemTransfer_call (Exec.call_ok.mp h)
  · obtain ⟨-, rfl⟩ := Exec.pure_ok.mp h
    exact SystemCall.refl l

theorem createOrAllocatePda_call {payer account system : AccountInfo} {exactBytes : ℕ} {owner : Pubkey}
    {l l' : Ledger} {u : Unit} (h : createOrAllocatePda env payer account system exactBytes owner l = .ok u l') :
    SystemCall l l' := by
  simp only [createOrAllocatePda, Exec.bind_ok, Exec.query_ok] at h
  obtain ⟨_, _, ⟨-, rfl⟩, _, _, ⟨-, rfl⟩, lamports, _, ⟨-, rfl⟩, h⟩ := h
  split_ifs at h
  · exact systemCreateAccount_call (Exec.call_ok.mp h)
  · simp only [Exec.bind_ok, Exec.call_ok] at h
    obtain ⟨_, m, htop, _, n, hallocate, hassign⟩ := h
    exact (topUp_call htop).trans (systemAllocate_assign_call hallocate hassign)

/-- Creating an account pays from system accounts into a system account. -/
theorem createOrAllocatePda_lamports {payer account system : AccountInfo} {exactBytes : ℕ} {owner : Pubkey}
    {l l' : Ledger} {u : Unit} (h : createOrAllocatePda env payer account system exactBytes owner l = .ok u l') :
    LamportsKept l l' := by
  simp only [createOrAllocatePda, Exec.bind_ok, Exec.query_ok, require_eq_ok] at h
  obtain ⟨_, _, ⟨-, rfl⟩, _, _, ⟨⟨hsystem, -⟩, rfl⟩, lamports, _, ⟨-, rfl⟩, h⟩ := h
  split_ifs at h
  · exact systemCreateAccount_lamports (Exec.call_ok.mp h)
  · simp only [Exec.bind_ok, Exec.call_ok] at h
    obtain ⟨_, m, htop, _, n, hallocate, hassign⟩ := h
    obtain ⟨-, hframe⟩ := systemAllocate_assign_frame hallocate hassign
    intro k hk
    have hne : k ≠ account.key := fun heq => hk (heq ▸ hsystem)
    rw [hframe k hne]
    unfold topUp at htop
    split_ifs at htop
    · exact systemTransfer_lamports (Exec.call_ok.mp htop) hk hne
    · obtain ⟨-, rfl⟩ := Exec.pure_ok.mp htop
      rfl

theorem createProgramPdaIfNeeded_call {payer account system : AccountInfo} {exactBytes : ℕ}
    {preparation : FreshPdaPreparationV1} {l l' : Ledger} {u : Unit}
    (h : createProgramPdaIfNeeded env payer account system exactBytes preparation l = .ok u l') :
    SystemCall l l' := by
  unfold createProgramPdaIfNeeded at h
  split_ifs at h
  · exact createOrAllocatePda_call h
  · obtain ⟨-, rfl⟩ := Exec.pure_ok.mp h
    exact SystemCall.refl l

theorem planFreshProgramPda_ok {account : AccountInfo} {expected : Pubkey} {exactBytes : ℕ} {l : Ledger}
    {preparation : FreshPdaPreparationV1} (h : planFreshProgramPda env account expected exactBytes l = .ok preparation)
    (hzeroed : preparation = .programOwnedZeroed) :
    (l account.key).owner = env.programId ∧ allZero (l account.key).data = true := by
  simp only [planFreshProgramPda, except_bind_eq_ok, require_eq_ok] at h
  obtain ⟨_, -, h⟩ := h
  split_ifs at h with howner
  · simp only [except_bind_eq_ok, require_eq_ok] at h
    obtain ⟨_, ⟨-, hzero⟩, -⟩ := h
    exact ⟨howner, hzero⟩
  · simp only [except_bind_eq_ok, except_pure_eq_ok] at h
    obtain ⟨_, -, rfl⟩ := h
    cases hzeroed

/-- An account planned fresh, created when needed and found ready is zeroed. -/
theorem requireFreshRentExemptProgramPda_zeroed {account : AccountInfo} {expected : Pubkey} {exactBytes : ℕ}
    {preparation : FreshPdaPreparationV1} {l l' : Ledger} {u : Unit}
    (hplan : planFreshProgramPda env account expected exactBytes l = .ok preparation) (hcall : SystemCall l l')
    (h : requireFreshRentExemptProgramPda env account expected exactBytes preparation l' = .ok u) :
    (l' account.key).owner = env.programId ∧ allZero (l' account.key).data = true := by
  simp only [requireFreshRentExemptProgramPda, except_bind_eq_ok, require_eq_ok] at h
  obtain ⟨fresh, hfresh, htrue, -⟩ := h
  cases preparation with
  | programOwnedZeroed =>
    obtain ⟨howner, hzero⟩ := planFreshProgramPda_ok hplan rfl
    obtain ⟨howner', hdata⟩ := (hcall.outside env.programId_ne_system).kept _ howner
    exact ⟨howner', by rw [hdata]; exact hzero⟩
  | createOrAllocateSystemOwned =>
    simp only [isFreshProgramPda, except_bind_eq_ok, except_pure_eq_ok] at hfresh
    obtain ⟨now, hnow, rfl⟩ := hfresh
    exact planFreshProgramPda_ok hnow (by simpa using htrue)

/-- A closed account is empty and belongs to the system program; nothing else
changes but lamports. -/
structure Closed (programId key : Pubkey) (l l' : Ledger) : Prop where
  owned : (l key).owner = programId
  owner_eq : (l' key).owner = systemProgram
  data_eq : (l' key).data = []
  touches : Touches [key] l l'

theorem closeProgramAccount_closed {account refund : AccountInfo} {exactBytes : ℕ} {l l' : Ledger} {u : Unit}
    (h : closeProgramAccount env account refund exactBytes l = .ok u l') :
    Closed env.programId account.key l l' := by
  simp only [closeProgramAccount, Exec.bind_ok, Exec.query_ok, Exec.update_ok, require_eq_ok] at h
  obtain ⟨_, _, ⟨⟨howner, -, -, -, -⟩, rfl⟩, _, _, rfl, _, _, ⟨-, rfl⟩, rfl⟩ := h
  refine ⟨howner, by simp, by simp, fun k hk => ?_⟩
  have hk := List.ne_of_not_mem_cons hk
  rw [Function.update_of_ne hk]
  by_cases hkr : k = refund.key
  · subst hkr
    simp [setData_of_ne hk]
  · rw [Function.update_of_ne hkr, setData_of_ne hk]
    exact ⟨rfl, rfl⟩

/-- Accounts emptied into one: what they held is added there, nobody else's
balance moves and the total over all accounts stays. -/
structure Refunds (keys : List Pubkey) (refund : Pubkey) (l l' : Ledger) : Prop where
  fresh : refund ∉ keys
  emptied : ∀ k ∈ keys, (l' k).lamports = 0
  refunded : (l' refund).lamports = (l refund).lamports + (keys.map fun k => (l k).lamports).sum
  others : ∀ k, k ∉ keys → k ≠ refund → (l' k).lamports = (l k).lamports
  total : totalLamports l' = totalLamports l

theorem closeProgramAccount_refunds {account refund : AccountInfo} {exactBytes : ℕ} {l l' : Ledger} {u : Unit}
    (h : closeProgramAccount env account refund exactBytes l = .ok u l') : Refunds [account.key] refund.key l l' := by
  simp only [closeProgramAccount, Exec.bind_ok, Exec.query_ok, Exec.update_ok, require_eq_ok] at h
  obtain ⟨_, _, ⟨⟨-, -, -, -, hne, -⟩, rfl⟩, _, _, rfl, _, _, ⟨-, rfl⟩, rfl⟩ := h
  refine ⟨by simpa using hne, by simp, by simp [Function.update_of_ne hne], fun k hk hk' => ?_, ?_⟩
  · rw [Function.update_of_ne (by simpa using hk), Function.update_of_ne hk', setData_lamports]
  · refine totalLamports_move hne (by simp) (by simp [Function.update_of_ne hne]) fun k hk hk' => ?_
    rw [Function.update_of_ne hk, Function.update_of_ne hk', setData_lamports]

end

end Aspis.Pool
