import Aspis.Lib.Bytes
import Aspis.Lib.Exec
import Mathlib.Logic.Function.Basic
import Mathlib.Algebra.BigOperators.Finprod

/-! The runtime the pool program runs in: accounts, program errors, the system
program's instructions, and what code outside the program can do between two
instructions. Instruction handlers are `Exec` programs over the ledger. -/

namespace Aspis.Chain

open Lib

abbrev Pubkey := Bytes32

inductive PoolV1ProgramError
  | invalidAccountType
  | invalidRootPageAddress
  | stateHistoryMismatch
  | treeFull
  | insufficientTreeCapacity
  | unexpectedRootPage
  | nonCanonicalLeaf
  | arithmeticOverflow
  | invalidPoolStateAddress
  | invalidVerifierRegistryAddress
  | invalidVerifierEntryAddress
  | invalidVerifierRegistry
  | invalidVerifierEntry
  | verifierRegistryPaused
  | verifierEntryInactive
  | verifierEntryNotActiveYet
  | verifierEntryRetired
  | verifierSelectionMismatch
  | invalidTokenProgram
  | invalidMint
  | invalidTokenAccount
  | invalidVaultAuthority
  | invalidVaultTokenAddress
  | invalidDepositAmount
  | insufficientDepositFunds
  | unsupportedTokenConfiguration
  | invalidEncryptedNotePayload
  | tokenBalanceDeltaMismatch
  | invalidSourceAuthority
  | invalidHistoricalAnchorEnvelope
  | historicalAnchorIdentityMismatch
  | historicalAnchorSelectionMismatch
  | historicalAnchorInFuture
  | invalidHistoricalAnchorPage
  | historicalAnchorRootMismatch
  | invalidNullifierMarkerAddress
  | invalidNullifierMarkerAccount
  | nullifierAlreadyConsumed
  | invalidVerifierProgramAccount
  | invalidVerifierProofAccount
  | verifierProofBindingMismatch
  | invalidVerifierDispatchEnvelope
  | verifierDispatchIdentityMismatch
  | invalidVerifierReturnProgram
  | invalidVerifierReturnData
  | verifierResultBindingMismatch
  | missingVerifierReturnData
  | invalidWithdrawalAmount
  | insufficientVaultFunds
  | invalidDestinationTokenAccount
  | invalidSystemProgram
  | invalidPayer
  | invalidFreshAccount
  | cpiInvocationForbidden
  deriving DecidableEq, Repr

inductive ProgramError
  | custom (error : PoolV1ProgramError)
  | invalidArgument
  | invalidInstructionData
  | invalidAccountData
  | incorrectProgramId
  | missingRequiredSignature
  | notEnoughAccountKeys
  | insufficientFunds
  | accountAlreadyInUse
  | external
  deriving DecidableEq, Repr

instance : Coe PoolV1ProgramError ProgramError := ⟨.custom⟩

structure Account where
  owner : Pubkey
  lamports : ℕ
  data : Bytes
  executable : Bool
  deriving DecidableEq

abbrev Ledger := Pubkey → Account

/-- An account as an instruction names it; its contents are read in the ledger. -/
structure AccountInfo where
  key : Pubkey
  isSigner : Bool
  isWritable : Bool
  deriving DecidableEq

namespace AccountInfo

abbrev owner (a : AccountInfo) (l : Ledger) : Pubkey := (l a.key).owner

abbrev lamports (a : AccountInfo) (l : Ledger) : ℕ := (l a.key).lamports

abbrev data (a : AccountInfo) (l : Ledger) : Bytes := (l a.key).data

abbrev executable (a : AccountInfo) (l : Ledger) : Bool := (l a.key).executable

end AccountInfo

abbrev Handler (α : Type) := Exec ProgramError Ledger α

/-! ### Ledger updates -/

def setData (key : Pubkey) (data : Bytes) (l : Ledger) : Ledger :=
  Function.update l key { l key with data := data }

section SetData
variable {l : Ledger} {key k : Pubkey} {data : Bytes}

@[simp] theorem setData_self : (setData key data l key).data = data := by simp [setData]

@[simp] theorem setData_owner : (setData key data l k).owner = (l k).owner := by
  by_cases h : k = key
  · subst h
    simp [setData]
  · simp [setData, Function.update_of_ne h]

theorem setData_of_ne (h : k ≠ key) : setData key data l k = l k := by
  rw [setData, Function.update_of_ne h]

@[simp] theorem setData_lamports : (setData key data l k).lamports = (l k).lamports := by
  by_cases h : k = key
  · subst h
    simp [setData]
  · simp [setData, Function.update_of_ne h]

end SetData

/-- Outside the listed keys every account keeps owner and data. -/
def Touches (keys : List Pubkey) (l l' : Ledger) : Prop :=
  ∀ k, k ∉ keys → (l' k).owner = (l k).owner ∧ (l' k).data = (l k).data

namespace Touches

variable {keys keys' : List Pubkey} {l m n : Ledger}

theorem refl (l : Ledger) : Touches [] l l := fun _ _ => ⟨rfl, rfl⟩

theorem trans (h : Touches keys l m) (h' : Touches keys' m n) : Touches (keys ++ keys') l n := by
  intro k hk
  rw [List.mem_append, not_or] at hk
  obtain ⟨ho, hd⟩ := h k hk.1
  obtain ⟨ho', hd'⟩ := h' k hk.2
  exact ⟨ho'.trans ho, hd'.trans hd⟩

theorem setData (key : Pubkey) (data : Bytes) (l : Ledger) : Touches [key] l (setData key data l) := by
  intro k hk
  rw [setData_of_ne (List.ne_of_not_mem_cons hk)]
  exact ⟨rfl, rfl⟩

end Touches

/-- All lamports there are. -/
noncomputable def totalLamports (l : Ledger) : ℕ := ∑ᶠ k, (l k).lamports

/-- Emptying one account into another keeps the total. -/
theorem totalLamports_move {l l' : Ledger} {src dst : Pubkey} (hne : dst ≠ src) (hsrc : (l' src).lamports = 0)
    (hdst : (l' dst).lamports = (l dst).lamports + (l src).lamports)
    (hothers : ∀ k, k ≠ src → k ≠ dst → (l' k).lamports = (l k).lamports) : totalLamports l' = totalLamports l := by
  classical
  have := Fintype.ofFinite Pubkey
  have hsplit : ∀ m : Ledger, totalLamports m = (m src).lamports + ((m dst).lamports +
      ∑ k ∈ (Finset.univ.erase src).erase dst, (m k).lamports) := by
    intro m
    rw [totalLamports, finsum_eq_sum_of_fintype, Finset.add_sum_erase _ (fun k => (m k).lamports)
      (Finset.mem_erase.mpr ⟨hne, Finset.mem_univ dst⟩), Finset.add_sum_erase _ (fun k => (m k).lamports)
      (Finset.mem_univ src)]
  have hrest : ∑ k ∈ (Finset.univ.erase src).erase dst, (l' k).lamports =
      ∑ k ∈ (Finset.univ.erase src).erase dst, (l k).lamports := by
    refine Finset.sum_congr rfl fun k hk => ?_
    obtain ⟨hkdst, hk⟩ := Finset.mem_erase.mp hk
    exact hothers k (Finset.ne_of_mem_erase hk) hkdst
  rw [hsplit l', hsplit l, hsrc, hdst, hrest]
  omega

/-! ### The system program -/

def systemProgram : Pubkey := Bytes32.zero

/-- Move lamports out of a data-free system account. -/
def systemTransfer (src dst : Pubkey) (amount : ℕ) (l : Ledger) : Except ProgramError Ledger :=
  if (l src).owner ≠ systemProgram ∨ (l src).data ≠ [] then .error .invalidArgument
  else if (l src).lamports < amount then .error .insufficientFunds
  else
    let debited := Function.update l src { l src with lamports := (l src).lamports - amount }
    .ok (Function.update debited dst { debited dst with lamports := (debited dst).lamports + amount })

/-- Give a data-free system account its zeroed data. -/
def systemAllocate (key : Pubkey) (space : ℕ) (l : Ledger) : Except ProgramError Ledger :=
  if (l key).owner ≠ systemProgram ∨ (l key).data ≠ [] then .error .accountAlreadyInUse
  else .ok (Function.update l key { l key with data := zeros space })

def systemAssign (key owner : Pubkey) (l : Ledger) : Except ProgramError Ledger :=
  if (l key).owner = owner then .ok l
  else if (l key).owner ≠ systemProgram then .error .accountAlreadyInUse
  else .ok (Function.update l key { l key with owner := owner })

/-- Allocate, assign and fund a fresh account in one instruction. -/
def systemCreateAccount (payer key : Pubkey) (lamports space : ℕ) (owner : Pubkey) (l : Ledger) :
    Except ProgramError Ledger :=
  if (l key).lamports > 0 then .error .accountAlreadyInUse
  else do
    let allocated ← systemAllocate key space l
    let assigned ← systemAssign key owner allocated
    systemTransfer payer key lamports assigned

/-- A ledger change made by the system program: accounts of other owners keep
owner and data, and an account it hands over is zeroed. -/
structure SystemCall (l l' : Ledger) : Prop where
  kept : ∀ k, (l k).owner ≠ systemProgram → (l' k).owner = (l k).owner ∧ (l' k).data = (l k).data
  fresh : ∀ k, (l k).owner = systemProgram → (l' k).owner ≠ systemProgram → allZero (l' k).data = true

namespace SystemCall

variable {l m n : Ledger}

theorem refl (l : Ledger) : SystemCall l l := ⟨fun _ _ => ⟨rfl, rfl⟩, fun _ h h' => absurd h h'⟩

theorem trans (h : SystemCall l m) (h' : SystemCall m n) : SystemCall l n where
  kept k hk := by
    obtain ⟨ho, hd⟩ := h.kept k hk
    obtain ⟨ho', hd'⟩ := h'.kept k (ho ▸ hk)
    exact ⟨ho'.trans ho, hd'.trans hd⟩
  fresh k hk hk' := by
    by_cases hm : (m k).owner = systemProgram
    · exact h'.fresh k hm hk'
    · obtain ⟨-, hd⟩ := h'.kept k hm
      rw [hd]
      exact h.fresh k hk hm

/-- A change that leaves every owner and every data field alone. -/
theorem of_content (h : ∀ k, (m k).owner = (l k).owner ∧ (m k).data = (l k).data) : SystemCall l m :=
  ⟨fun k _ => h k, fun k hk hk' => absurd ((h k).1 ▸ hk) hk'⟩

end SystemCall

/-- A transfer leaves every owner and every data field alone. -/
theorem systemTransfer_content {src dst : Pubkey} {amount : ℕ} {l l' : Ledger}
    (h : systemTransfer src dst amount l = .ok l') (k : Pubkey) :
    (l' k).owner = (l k).owner ∧ (l' k).data = (l k).data := by
  unfold systemTransfer at h
  split_ifs at h
  cases h
  have hupdate : ∀ (m : Ledger) (key : Pubkey) (lamports : ℕ),
      (Function.update m key { m key with lamports := lamports } k).owner = (m k).owner ∧
        (Function.update m key { m key with lamports := lamports } k).data = (m k).data := by
    intro m key lamports
    by_cases hk : k = key
    · subst hk
      simp
    · simp [Function.update_of_ne hk]
  obtain ⟨ho, hd⟩ := hupdate l src ((l src).lamports - amount)
  obtain ⟨ho', hd'⟩ := hupdate (Function.update l src { l src with lamports := (l src).lamports - amount }) dst _
  exact ⟨ho'.trans ho, hd'.trans hd⟩

theorem systemTransfer_call {src dst : Pubkey} {amount : ℕ} {l l' : Ledger}
    (h : systemTransfer src dst amount l = .ok l') : SystemCall l l' :=
  SystemCall.of_content (systemTransfer_content h)

/-- Allocating and then assigning one account is a system call as a whole. -/
theorem systemAllocate_assign_call {key owner : Pubkey} {space : ℕ} {l m l' : Ledger}
    (hallocate : systemAllocate key space l = .ok m) (hassign : systemAssign key owner m = .ok l') :
    SystemCall l l' := by
  unfold systemAllocate at hallocate
  split_ifs at hallocate with hused
  cases hallocate
  obtain ⟨howner, -⟩ := not_or.mp hused
  rw [not_not] at howner
  have hzeroed : ∀ k, k ≠ key → l' k = l k := by
    intro k hk
    unfold systemAssign at hassign
    split_ifs at hassign <;> cases hassign <;> simp [Function.update_of_ne hk]
  have hkey : (l' key).data = zeros space := by
    unfold systemAssign at hassign
    split_ifs at hassign <;> cases hassign <;> simp
  refine ⟨fun k hk => ?_, fun k hk hk' => ?_⟩
  · have hne : k ≠ key := fun heq => hk (heq ▸ howner)
    rw [hzeroed k hne]
    exact ⟨rfl, rfl⟩
  · by_cases hne : k = key
    · rw [hne, hkey, allZero_zeros]
    · rw [hzeroed k hne] at hk'
      exact absurd hk hk'

theorem systemCreateAccount_call {payer key owner : Pubkey} {lamports space : ℕ} {l l' : Ledger}
    (h : systemCreateAccount payer key lamports space owner l = .ok l') : SystemCall l l' := by
  unfold systemCreateAccount at h
  split_ifs at h
  simp only [except_bind_eq_ok] at h
  obtain ⟨m, hallocate, n, hassign, htransfer⟩ := h
  exact (systemAllocate_assign_call hallocate hassign).trans (systemTransfer_call htransfer)

/-! ### Balances of accounts the system program does not own -/

/-- Accounts of other programs keep their balance. -/
def LamportsKept (l l' : Ledger) : Prop := ∀ k, (l k).owner ≠ systemProgram → (l' k).lamports = (l k).lamports

theorem systemTransfer_lamports {src dst k : Pubkey} {amount : ℕ} {l l' : Ledger}
    (h : systemTransfer src dst amount l = .ok l') (hk : (l k).owner ≠ systemProgram) (hne : k ≠ dst) :
    (l' k).lamports = (l k).lamports := by
  unfold systemTransfer at h
  split_ifs at h with hsrc
  cases h
  obtain ⟨howner, -⟩ := not_or.mp hsrc
  have hksrc : k ≠ src := fun heq => hk (heq ▸ not_not.mp howner)
  rw [Function.update_of_ne hne, Function.update_of_ne hksrc]

/-- Only the named account is allocated and assigned, and it belonged to the system program. -/
theorem systemAllocate_assign_frame {key owner : Pubkey} {space : ℕ} {l m l' : Ledger}
    (hallocate : systemAllocate key space l = .ok m) (hassign : systemAssign key owner m = .ok l') :
    (l key).owner = systemProgram ∧ ∀ k, k ≠ key → l' k = l k := by
  unfold systemAllocate at hallocate
  split_ifs at hallocate with hused
  cases hallocate
  refine ⟨not_not.mp (not_or.mp hused).1, fun k hk => ?_⟩
  unfold systemAssign at hassign
  split_ifs at hassign <;> cases hassign <;> simp [Function.update_of_ne hk]

theorem systemCreateAccount_lamports {payer key owner : Pubkey} {lamports space : ℕ} {l l' : Ledger}
    (h : systemCreateAccount payer key lamports space owner l = .ok l') : LamportsKept l l' := by
  unfold systemCreateAccount at h
  split_ifs at h
  simp only [except_bind_eq_ok] at h
  obtain ⟨m, hallocate, n, hassign, htransfer⟩ := h
  obtain ⟨howner, hframe⟩ := systemAllocate_assign_frame hallocate hassign
  intro k hk
  have hne : k ≠ key := fun heq => hk (heq ▸ howner)
  rw [systemTransfer_lamports htransfer (by rw [hframe k hne]; exact hk) hne, hframe k hne]

/-! ### What others may do

Only the owner of an account writes its data, and an account handed to a new
owner is zeroed. -/

/-- A ledger change made without the program: its own accounts keep owner and
data, and an account that newly becomes its own carries no bytes but zeros. -/
structure Outside (programId : Pubkey) (l l' : Ledger) : Prop where
  kept : ∀ k, (l k).owner = programId → (l' k).owner = programId ∧ (l' k).data = (l k).data
  fresh : ∀ k, (l k).owner ≠ programId → (l' k).owner = programId → allZero (l' k).data = true

theorem Outside.refl (programId : Pubkey) (l : Ledger) : Outside programId l l :=
  ⟨fun _ h => ⟨h, rfl⟩, fun _ h h' => absurd h' h⟩

theorem Outside.trans {programId : Pubkey} {l m n : Ledger} (h : Outside programId l m)
    (h' : Outside programId m n) : Outside programId l n where
  kept k hk := by
    obtain ⟨hm, hdm⟩ := h.kept k hk
    obtain ⟨hn, hdn⟩ := h'.kept k hm
    exact ⟨hn, hdn.trans hdm⟩
  fresh k hk hk' := by
    by_cases hm : (m k).owner = programId
    · obtain ⟨-, hd⟩ := h'.kept k hm
      rw [hd]
      exact h.fresh k hk hm
    · exact h'.fresh k hm hk'

/-- The system program does nothing to a program that others could not do. -/
theorem SystemCall.outside {programId : Pubkey} {l l' : Ledger} (h : SystemCall l l')
    (hne : programId ≠ systemProgram) : Outside programId l l' where
  kept k hk := by
    obtain ⟨ho, hd⟩ := h.kept k (hk ▸ hne)
    exact ⟨ho.trans hk, hd⟩
  fresh k hk hk' := by
    by_cases hs : (l k).owner = systemProgram
    · exact h.fresh k hs (hk' ▸ hne)
    · exact absurd ((h.kept k hs).1 ▸ hk') hk

end Aspis.Chain
