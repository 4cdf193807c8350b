import Aspis.Verifier.Program

/-! The life of an account of the program. The four kinds of accounts share one
owner and are told apart by their first four bytes, the front: a front other
than zero only ever changes into a closed one, and a closed front never changes.
An emptied account that the runtime removes is no account any more; the removal
is not part of a run. -/

namespace Aspis.Verifier

open Lib Chain Statement

inductive AccountKind
  | proof
  | atomicPool
  | nullifierMarker
  | receipt
  deriving DecidableEq, Repr

namespace AccountKind

def magic : AccountKind → Bytes
  | proof => PROOF_ACCOUNT_MAGIC
  | atomicPool => ATOMIC_POOL_STATE_MAGIC
  | nullifierMarker => ATOMIC_NULLIFIER_MAGIC
  | receipt => POOL_V1_AUTHORIZATION_RECEIPT_ACCOUNT_MAGIC

theorem magic_injective : Function.Injective magic := by
  intro κ κ'
  cases κ <;> cases κ' <;> decide

end AccountKind

/-- The data is of a kind if the program's own decoder for that kind accepts it. -/
def HasKind (env : VerifierEnvironment) : AccountKind → Bytes → Prop
  | .proof, d => proofAccountInitialized d = true
  | .atomicPool, d => ∃ s, AtomicPoolStateV2.decode d = .ok s
  | .nullifierMarker, d => ∃ m, NullifierMarkerV1.decode d = .ok (some m)
  | .receipt, d => ∃ r, decodePoolV1AuthorizationReceiptAccountV1 env.hashv d = .ok r

def ClosedFront (d : Bytes) : Prop :=
  slice 0 4 d = PROOF_ACCOUNT_CLOSED_MAGIC ∨ slice 0 4 d = V7_POOL_RECEIPT_CLOSED_MAGIC

/-! ### Fronts -/

section Fronts
variable {env : VerifierEnvironment} {κ : AccountKind} {i : VerifierInstruction} {k : Pubkey} {d d' : Bytes}

theorem decodeReceiptAccount_front {r : PoolV1AuthorizationReceiptAccountV1} {hashv : List Bytes → Bytes32}
    (h : decodePoolV1AuthorizationReceiptAccountV1 hashv d = .ok r) :
    d.length = 720 ∧ slice 0 4 d = POOL_V1_AUTHORIZATION_RECEIPT_ACCOUNT_MAGIC := by
  simp only [decodePoolV1AuthorizationReceiptAccountV1, except_bind_eq_ok, require_eq_ok] at h
  obtain ⟨_, hlength, _, hmagic, -⟩ := h
  exact ⟨hlength, hmagic⟩

theorem finalizeReceiptAccount_decodes {request : VerifierDispatchRequestV1} {receipt : PoolV1AuthorizationReceiptV1}
    {hashv : List Bytes → Bytes32}
    (h : finalizePoolV1AuthorizationReceiptAccountV1 hashv d request receipt = .ok d') :
    ∃ r, decodePoolV1AuthorizationReceiptAccountV1 hashv d' = .ok r := by
  simp only [finalizePoolV1AuthorizationReceiptAccountV1, except_bind_eq_ok, except_pure_eq_ok] at h
  obtain ⟨_, -, _, -, _, -, _, -, _, -, _, -, r, hr, _, -, rfl⟩ := h
  exact ⟨r, hr⟩

theorem NullifierMarkerV1.decode_some {m : NullifierMarkerV1} (h : NullifierMarkerV1.decode d = .ok (some m)) :
    slice 0 4 d = ATOMIC_NULLIFIER_MAGIC := by
  simp only [NullifierMarkerV1.decode, except_bind_eq_ok] at h
  obtain ⟨_, -, h⟩ := h
  split_ifs at h
  · cases h
  · simp only [except_bind_eq_ok, require_eq_ok] at h
    obtain ⟨_, ⟨hmagic, -⟩, -⟩ := h
    exact hmagic

theorem HasKind.front (h : HasKind env κ d) : slice 0 4 d = κ.magic := by
  cases κ with
  | proof => exact (proofAccountInitialized_iff.mp h).2
  | atomicPool =>
    obtain ⟨s, hs⟩ := h
    exact (AtomicPoolStateV2.decode_ok hs).2
  | nullifierMarker =>
    obtain ⟨m, hm⟩ := h
    exact NullifierMarkerV1.decode_some hm
  | receipt =>
    obtain ⟨r, hr⟩ := h
    exact (decodeReceiptAccount_front hr).2

theorem HasKind.not_closed (h : HasKind env κ d) : ¬ ClosedFront d := by
  rw [ClosedFront, h.front]
  cases κ <;> decide

/-- Data of two kinds is of one. -/
theorem HasKind.unique {κ' : AccountKind} (h : HasKind env κ d) (h' : HasKind env κ' d) : κ = κ' :=
  AccountKind.magic_injective (h.front.symm.trans h'.front)

theorem HasKind.not_allZero (h : HasKind env κ d) : allZero d = false :=
  not_allZero_of_slice h.front (by cases κ <;> decide)

theorem ClosedFront.not_allZero (h : ClosedFront d) : allZero d = false := by
  rcases h with h | h
  · exact not_allZero_of_slice h (by decide)
  · exact not_allZero_of_slice h (by decide)

theorem front_of_finalized (h : proofAccountFinalized d = true) : HasKind env .proof d :=
  (proofAccountFinalized_iff.mp h).1

/-- What a rewrite does to data that is not all zero: it was of a kind, and it keeps that front or gets a closed one. -/
inductive FrontStep (env : VerifierEnvironment) (d d' : Bytes) : Prop
  | same (κ : AccountKind) (before : HasKind env κ d) (after : slice 0 4 d' = κ.magic)
  | closed (κ : AccountKind) (before : HasKind env κ d) (after : ClosedFront d')

theorem slice_proofHeader (totalLen : UInt32) (authority : Pubkey) :
    slice 0 4 (patch 0 (proofHeader totalLen authority) d) = PROOF_ACCOUNT_MAGIC := by
  rw [slice_patch_inside le_rfl (by simp) (Nat.zero_le _), proofHeader, slice_append_head (by simp)]

theorem closedFront_patch : ClosedFront (patch 0 PROOF_ACCOUNT_CLOSED_MAGIC d) :=
  .inl (slice_patch_self (by simp) (Nat.zero_le _))

theorem closedFront_receiptTombstone : ClosedFront receiptTombstone := by
  refine .inr ?_
  rw [receiptTombstone, slice_append_head (by simp [V7_POOL_RECEIPT_CLOSED_MAGIC])]

theorem Rewrites.front (h : Rewrites env i k d d') : allZero d = true ∨ FrontStep env d d' := by
  cases h with
  | @initProof _ _ _ _ _ signed length free =>
    rcases free with hauthority | ⟨hzero, -⟩
    · exact .inr (.same .proof hauthority.initialized (slice_proofHeader _ _))
    · exact .inl hzero
  | uploadChunk authorized inside length =>
    have hmagic := (proofAccountInitialized_iff.mp authorized.initialized).2
    refine .inr (.same .proof authorized.initialized ?_)
    rw [slice_patch_before (by omega) (by omega), hmagic]
    rfl
  | finalizeProof authorized =>
    obtain ⟨hlength, hmagic⟩ := proofAccountInitialized_iff.mp authorized.initialized
    refine .inr (.same .proof authorized.initialized ?_)
    rw [slice_patch_before (by omega) (by omega), hmagic]
    rfl
  | closeProof isSealed => exact .inr (.closed .proof (front_of_finalized isSealed) closedFront_patch)
  | initializeAtomicPool zero => exact .inl zero
  | spendPool named decoded => exact .inr (.same .atomicPool ⟨_, decoded⟩ (AtomicPoolStateV2.slice_magic _))
  | spendMarker named zero => exact .inl zero
  | spendProof named isSealed => exact .inr (.closed .proof (front_of_finalized isSealed) closedFront_patch)
  | finalizeReceipt decoded isPending finalized =>
    refine .inr (.same .receipt ⟨_, decoded⟩ ?_)
    obtain ⟨r, hr⟩ := finalizeReceiptAccount_decodes finalized
    exact (decodeReceiptAccount_front hr).2
  | closeReceipt decoded => exact .inr (.closed .receipt ⟨_, decoded⟩ closedFront_receiptTombstone)

/-- Only data that is all zero or of a kind is ever rewritten. -/
theorem Rewrites.not_closed (h : Rewrites env i k d d') : ¬ ClosedFront d := by
  intro hclosed
  rcases h.front with hzero | ⟨κ, hbefore, -⟩ | ⟨κ, hbefore, -⟩
  · rw [hclosed.not_allZero] at hzero
    cases hzero
  · exact hbefore.not_closed hclosed
  · exact hbefore.not_closed hclosed

end Fronts

/-! ### Kinds over a run -/

section Kinds
variable {env : VerifierEnvironment} {v : Tag73Verifiers} {l l' : Ledger} {es : List VerifierEvent} {κ : AccountKind}
  {k : Pubkey}

/-- The account has the front of the kind, or once had it and is closed. -/
structure KeepsFront (env : VerifierEnvironment) (κ : AccountKind) (k : Pubkey) (l : Ledger) : Prop where
  owned : (l k).owner = env.programId
  front : slice 0 4 (l k).data = κ.magic ∨ ClosedFront (l k).data

theorem KeepsFront.step {e : VerifierEvent} (hstep : VerifierStep env v l e l') (h : KeepsFront env κ k l) :
    KeepsFront env κ k l' := by
  obtain ⟨howner, hsame | ⟨i, -, hwrite⟩⟩ := hstep.owned h.owned
  · refine ⟨howner, ?_⟩
    rw [hsame]
    exact h.front
  refine ⟨howner, ?_⟩
  rcases h.front with hfront | hclosed
  · rcases hwrite.front with hzero | ⟨κ', hbefore, hafter⟩ | ⟨κ', -, hafter⟩
    · rw [not_allZero_of_slice hfront (by cases κ <;> decide)] at hzero
      cases hzero
    · rw [hafter, ← hbefore.front, hfront]
      exact .inl rfl
    · exact .inr hafter
  · exact absurd hclosed hwrite.not_closed

end Kinds

/-! ### Closings -/

/-- The instruction closes the account if it is accepted. -/
def VerifierInstruction.closes (k : Pubkey) : VerifierInstruction → Bool
  | .closeProof (proof :: _) => decide (proof.key = k)
  | .atomicPayment [proof, _, _, _, _] _ _ .refundToPayer _ => decide (proof.key = k)
  | .closeReceipt (receipt :: _) _ => decide (receipt.key = k)
  | _ => false

def VerifierEvent.closes (k : Pubkey) : VerifierEvent → Bool
  | .accepted i => i.closes k
  | _ => false

section Closings
variable {env : VerifierEnvironment} {v : Tag73Verifiers} {l l' : Ledger} {i : VerifierInstruction} {k : Pubkey}

/-- Writing data moves no balance. -/
theorem DrainedInto.setData {src dst : AccountInfo} {key : Pubkey} {data : Bytes} (h : DrainedInto src dst l l') :
    DrainedInto src dst l (setData key data l') where
  signed := h.signed
  ne := h.ne
  emptied := by rw [setData_lamports, h.emptied]
  paid := by rw [setData_lamports, h.paid]
  others k hsrc hdst := by rw [setData_lamports, h.others k hsrc hdst]

/-- A spend that refunds the proof account drains it into the payer and marks it closed. -/
theorem SpendRun.refunds {a : AtomicAccounts} {inputs : AtomicPaymentPublicInputs} {verify : AtomicVerifier}
    {pool : AtomicPoolStateV2} {statement : AtomicPaymentStatementV4} {digest : Bytes32} {created disposed : Ledger}
    (h : SpendRun env a inputs verify .refundToPayer pool statement digest l created disposed l') :
    DrainedInto a.proof a.payer created l' ∧ ClosedFront (l' a.proof.key).data := by
  have hvalid := h.accounts
  have hdisposes := h.disposes
  rw [h.final_eq]
  cases hdisposes with
  | refunded =>
    refine ⟨(drainAccount_drains hvalid.payer_signs hvalid.proof_ne_payer).setData.setData, ?_⟩
    rw [setData_of_ne hvalid.proof_ne_pool, setData_of_ne hvalid.proof_ne_nullifier, drainAccount_src]
    exact closedFront_patch

/-- The account is the program's and closed. -/
def Closed (env : VerifierEnvironment) (k : Pubkey) (l : Ledger) : Prop :=
  (l k).owner = env.programId ∧ ClosedFront (l k).data

theorem Closed.step {e : VerifierEvent} (hstep : VerifierStep env v l e l') (h : Closed env k l) : Closed env k l' := by
  obtain ⟨howner, hsame | ⟨i, -, hwrite⟩⟩ := hstep.owned h.1
  · refine ⟨howner, ?_⟩
    rw [hsame]
    exact h.2
  · exact absurd h.2 hwrite.not_closed

end Closings

/-! ### Proof accounts before and after sealing -/

def declaredLength (d : Bytes) : ℕ := leNat (slice 4 4 d)

/-- The upload authority recorded in the data signed the instruction, and nothing beyond the declared body changed. -/
structure UploadedBy (i : VerifierInstruction) (d d' : Bytes) : Prop where
  signed : ∃ authority ∈ i.accounts, authority.isSigner = true ∧ slice 8 32 d = authority.key.bytes
  length : d'.length = d.length
  beyond : d'.drop (40 + declaredLength d) = d.drop (40 + declaredLength d)

section Proofs
variable {env : VerifierEnvironment} {v : Tag73Verifiers} {l l' : Ledger} {es : List VerifierEvent}
  {i : VerifierInstruction} {k : Pubkey} {d d' : Bytes}

theorem drop_patch_after {off n : ℕ} {src : Bytes} (h : off + src.length ≤ n) (hd : off ≤ d.length) :
    (patch off src d).drop n = d.drop n := by
  have hlen : (d.take off ++ src).length = off + src.length := by simp; omega
  rw [patch, List.drop_append, hlen, List.drop_eq_nil_of_le (by omega), List.nil_append, List.drop_drop]
  congr 1
  omega

/-- A rewrite of an initialized proof account is an upload by its authority, or closes a sealed one. -/
theorem Rewrites.proof (h : Rewrites env i k d d') (hproof : HasKind env .proof d) :
    UploadedBy i d d' ∨ (proofAccountFinalized d = true ∧ i.closes k = true) := by
  have hlength := (proofAccountInitialized_iff.mp hproof).1
  have hnonzero := hproof.not_allZero
  cases h with
  | @initProof proof authority rest totalLen _ signed length free =>
    obtain hauthority | ⟨hzero, -⟩ := free
    · refine .inl ⟨⟨authority, by simp [VerifierInstruction.accounts], signed, hauthority.recorded⟩, ?_, ?_⟩
      · exact length_patch_of_le (by simpa using hlength)
      · exact drop_patch_after (by simp) (Nat.zero_le _)
    · rw [hnonzero] at hzero
      cases hzero
  | @uploadChunk proof authority rest offset chunk _ authorized inside length =>
    refine .inl ⟨⟨authority, by simp [VerifierInstruction.accounts], authorized.signed, authorized.recorded⟩, ?_, ?_⟩
    · exact length_patch_of_le length
    · exact drop_patch_after (by rw [declaredLength]; omega) (by omega)
  | @finalizeProof proof authority rest _ authorized =>
    refine .inl ⟨⟨authority, by simp [VerifierInstruction.accounts], authorized.signed, authorized.recorded⟩, ?_, ?_⟩
    · exact length_patch_of_le (by simpa using hlength)
    · exact drop_patch_after (by simp) (by omega)
  | closeProof isSealed => exact .inr ⟨isSealed, decide_eq_true rfl⟩
  | initializeAtomicPool zero =>
    rw [hnonzero] at zero
    cases zero
  | spendPool named decoded =>
    have hpool : HasKind env .atomicPool d := ⟨_, decoded⟩
    cases hpool.unique hproof
  | spendMarker named zero =>
    rw [hnonzero] at zero
    cases zero
  | spendProof named isSealed =>
    obtain rfl := ofList_ok named
    exact .inr ⟨isSealed, decide_eq_true rfl⟩
  | finalizeReceipt decoded isPending finalized =>
    have hreceipt : HasKind env .receipt d := ⟨_, decoded⟩
    cases hreceipt.unique hproof
  | closeReceipt decoded =>
    have hreceipt : HasKind env .receipt d := ⟨_, decoded⟩
    cases hreceipt.unique hproof

end Proofs

/-! ### Whole runs -/

namespace VerifierInstruction

variable (env : VerifierEnvironment) (v : Tag73Verifiers)

/-- The ledger after a list of instructions, each applied to what the one before left. -/
def runAll : List VerifierInstruction → Ledger → Ledger
  | [], l => l
  | i :: is, l => runAll is ((i.process env v).final l)

variable {env v}

end VerifierInstruction

namespace Sample

/-- A proof account that signs for itself, and its authority. -/
def uploadInfo : AccountInfo := ⟨Bytes32.filled 2, true, true⟩

def uploadAccounts : List AccountInfo := [uploadInfo, payerInfo]

def close : VerifierInstruction := .closeProof uploadAccounts

end Sample

end Aspis.Verifier
