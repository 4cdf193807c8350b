import Aspis.Pool.State

/-! Consumed-nullifier markers: the 208-byte image written once per spent
nullifier, and the plan that accepts only a fresh marker account. -/

namespace Aspis.Pool

open Lib Chain Statement

/-- Spend shapes that consume a nullifier. -/
inductive PoolV1TransitionKind
  | privateTransfer
  | withdrawal
  deriving DecidableEq, Repr

def PoolV1TransitionKind.code : PoolV1TransitionKind → UInt8
  | .privateTransfer => 1
  | .withdrawal => 2

structure HistoricalAnchorEnvelopeV1 where
  transitionKind : PoolV1TransitionKind
  pool : Pubkey
  deploymentDomain : Bytes32
  anchorSequence : ℕ
  anchorRoot : Digest
  nullifier : Digest
  verifierProfile : Bytes32
  verifierRelease : Bytes32
  deriving DecidableEq

inductive PoolV1NullifierMarkerFormatError
  | wrongLength
  | wrongMagic
  | wrongVersion
  | wrongDigestEncoding
  | nonZeroReserved
  | invalidTransitionKind
  | zeroRequiredBinding
  | invalidAnchorSequence
  | nonCanonicalDigest
  deriving DecidableEq, Repr

structure PoolV1NullifierMarkerV1 where
  transitionKind : PoolV1TransitionKind
  pool : Pubkey
  deploymentDomain : Bytes32
  nullifier : Digest
  retainedAnchorSequence : ℕ
  retainedAnchorRoot : Digest
  verifierProfile : Bytes32
  verifierRelease : Bytes32
  deriving DecidableEq

def POOL_V1_NULLIFIER_MARKER_ACCOUNT_BYTES : ℕ := 208

def PoolV1NullifierMarkerV1.fromHistoricalAnchor (e : HistoricalAnchorEnvelopeV1) : PoolV1NullifierMarkerV1 where
  transitionKind := e.transitionKind
  pool := e.pool
  deploymentDomain := e.deploymentDomain
  nullifier := e.nullifier
  retainedAnchorSequence := e.anchorSequence
  retainedAnchorRoot := e.anchorRoot
  verifierProfile := e.verifierProfile
  verifierRelease := e.verifierRelease

def validatePoolV1NullifierMarker (m : PoolV1NullifierMarkerV1) :
    Except PoolV1NullifierMarkerFormatError Unit := do
  require (m.pool ≠ Bytes32.zero ∧ m.deploymentDomain ≠ Bytes32.zero ∧ m.verifierProfile ≠ Bytes32.zero ∧
    m.verifierRelease ≠ Bytes32.zero) .zeroRequiredBinding
  require (m.retainedAnchorSequence ≤ POOL_V1_LEAF_CAPACITY) .invalidAnchorSequence
  require (DigestIsCanonical m.nullifier ∧ DigestIsCanonical m.retainedAnchorRoot) .nonCanonicalDigest

def markerMagic : Bytes := [65, 83, 78, 77]

def markerBytes (m : PoolV1NullifierMarkerV1) : Bytes :=
  markerMagic ++ ([1, m.transitionKind.code, 1, 0] ++ (m.pool.bytes ++ (m.deploymentDomain.bytes ++
    (encodeDigestCanonical m.nullifier ++ (leBytes 8 m.retainedAnchorSequence ++
      (encodeDigestCanonical m.retainedAnchorRoot ++ (m.verifierProfile.bytes ++ m.verifierRelease.bytes)))))))

def encodePoolV1NullifierMarker (m : PoolV1NullifierMarkerV1) :
    Except PoolV1NullifierMarkerFormatError Bytes := do
  validatePoolV1NullifierMarker m
  return markerBytes m

def decodeTransitionKind (b : Bytes) : Option PoolV1TransitionKind :=
  if b = [1] then some .privateTransfer else if b = [2] then some .withdrawal else none

def decodePoolV1NullifierMarker (bytes : Bytes) :
    Except PoolV1NullifierMarkerFormatError PoolV1NullifierMarkerV1 := do
  require (bytes.length = POOL_V1_NULLIFIER_MARKER_ACCOUNT_BYTES) .wrongLength
  require (slice 0 4 bytes = markerMagic) .wrongMagic
  require (slice 4 1 bytes = [1]) .wrongVersion
  let kind ← okOr (decodeTransitionKind (slice 5 1 bytes)) .invalidTransitionKind
  require (slice 6 1 bytes = [1]) .wrongDigestEncoding
  require (slice 7 1 bytes = [0]) .nonZeroReserved
  let nullifier ← okOr (decodeDigestCanonical (slice 72 32 bytes)) .nonCanonicalDigest
  let root ← okOr (decodeDigestCanonical (slice 112 32 bytes)) .nonCanonicalDigest
  let m : PoolV1NullifierMarkerV1 :=
    ⟨kind, Bytes32.read 8 bytes, Bytes32.read 40 bytes, nullifier, leNat (slice 104 8 bytes), root,
      Bytes32.read 144 bytes, Bytes32.read 176 bytes⟩
  validatePoolV1NullifierMarker m
  return m

inductive NullifierMarkerPreparationV1
  | createOrAllocateSystemOwned
  | populateProgramOwnedZeroed
  deriving DecidableEq, Repr

structure PlannedNullifierMarkerV1 where
  preparation : NullifierMarkerPreparationV1
  addressBump : UInt8
  marker : PoolV1NullifierMarkerV1
  encodedMarker : Bytes
  deriving DecidableEq

section
variable (env : Environment)

/-- Seed text `aspis-pool-nullifier-v1`, the pool and the nullifier's bytes. -/
def poolV1NullifierMarkerAddress (pool : Pubkey) (nullifier : Digest) : Pubkey × UInt8 :=
  env.programAddress [[97, 115, 112, 105, 115, 45, 112, 111, 111, 108, 45, 110, 117, 108, 108, 105, 102, 105,
    101, 114, 45, 118, 49], pool.bytes, encodeDigestCanonical nullifier]

/-- Which of the two admissible fresh forms a marker account has. -/
def markerPreparation (account : AccountInfo) (l : Ledger) :
    Except ProgramError NullifierMarkerPreparationV1 :=
  if account.owner l = env.programId then
    if (account.data l).length ≠ POOL_V1_NULLIFIER_MARKER_ACCOUNT_BYTES then
      .error PoolV1ProgramError.invalidNullifierMarkerAccount
    else if allZero (account.data l) then .ok .populateProgramOwnedZeroed
    else match decodePoolV1NullifierMarker (account.data l) with
      | .ok _ => .error PoolV1ProgramError.nullifierAlreadyConsumed
      | .error _ => .error PoolV1ProgramError.invalidNullifierMarkerAccount
  else if account.owner l = systemProgram ∧ account.data l = [] then .ok .createOrAllocateSystemOwned
  else .error PoolV1ProgramError.invalidNullifierMarkerAccount

/-- Plan the consumption of one nullifier; nothing is written. -/
def planNullifierMarkerConsumptionV1 (account : AccountInfo) (m : PoolV1NullifierMarkerV1) (l : Ledger) :
    Except ProgramError PlannedNullifierMarkerV1 := do
  let encoded ← mapErr (fun _ => .custom .invalidNullifierMarkerAccount) (encodePoolV1NullifierMarker m)
  require (DigestIsCanonical m.nullifier) (.custom .invalidNullifierMarkerAccount)
  let (address, bump) := poolV1NullifierMarkerAddress env m.pool m.nullifier
  require (account.key = address ∧ account.key ≠ m.pool) (.custom .invalidNullifierMarkerAddress)
  require (account.executable l = false ∧ account.isSigner = false ∧ account.isWritable = true)
    (.custom .invalidNullifierMarkerAccount)
  let preparation ← markerPreparation env account l
  return ⟨preparation, bump, m, encoded⟩

/-! ### Facts about markers -/

@[simp] theorem length_markerMagic : markerMagic.length = 4 := by simp [markerMagic]

@[simp] theorem length_markerBytes (m : PoolV1NullifierMarkerV1) :
    (markerBytes m).length = POOL_V1_NULLIFIER_MARKER_ACCOUNT_BYTES := by
  simp [markerBytes, POOL_V1_NULLIFIER_MARKER_ACCOUNT_BYTES]

theorem slice_markerBytes_magic (m : PoolV1NullifierMarkerV1) : slice 0 4 (markerBytes m) = markerMagic := by
  rw [markerBytes, slice_append_head (by simp)]

/-- A planned marker account is still fresh: zeroed and owned by the program,
or empty and owned by the system program. -/
structure FreshMarkerAccount (account : AccountInfo) (l : Ledger) (preparation : NullifierMarkerPreparationV1) :
    Prop where
  zeroed : preparation = .populateProgramOwnedZeroed → account.owner l = env.programId ∧
    (account.data l).length = POOL_V1_NULLIFIER_MARKER_ACCOUNT_BYTES ∧ allZero (account.data l) = true
  systemOwned : preparation = .createOrAllocateSystemOwned →
    account.owner l = systemProgram ∧ account.data l = []

theorem markerPreparation_fresh {account : AccountInfo} {l : Ledger} {p : NullifierMarkerPreparationV1}
    (h : markerPreparation env account l = .ok p) : FreshMarkerAccount env account l p := by
  unfold markerPreparation at h
  split at h
  · rename_i howner
    split at h
    · cases h
    · rename_i hlen
      split at h
      · rename_i hzero
        cases h
        exact ⟨fun _ => ⟨howner, not_not.mp hlen, hzero⟩, by simp⟩
      · split at h <;> cases h
  · split at h
    · rename_i hsystem
      cases h
      exact ⟨by simp, fun _ => hsystem⟩
    · cases h

/-- Everything a successful plan has checked. -/
structure PlannedMarkerSpec (account : AccountInfo) (m : PoolV1NullifierMarkerV1) (l : Ledger)
    (plan : PlannedNullifierMarkerV1) : Prop where
  key_eq : account.key = (poolV1NullifierMarkerAddress env m.pool m.nullifier).1
  key_ne_pool : account.key ≠ m.pool
  marker_eq : plan.marker = m
  encoded_eq : plan.encodedMarker = markerBytes m
  canonical : DigestIsCanonical m.nullifier
  fresh : FreshMarkerAccount env account l plan.preparation

theorem planNullifierMarkerConsumptionV1_spec {account : AccountInfo} {m : PoolV1NullifierMarkerV1} {l : Ledger}
    {plan : PlannedNullifierMarkerV1} (h : planNullifierMarkerConsumptionV1 env account m l = .ok plan) :
    PlannedMarkerSpec env account m l plan := by
  simp only [planNullifierMarkerConsumptionV1, encodePoolV1NullifierMarker, except_bind_eq_ok, mapErr_eq_ok,
    require_eq_ok, except_pure_eq_ok] at h
  obtain ⟨_, ⟨_, -, rfl⟩, _, hcanon, _, ⟨hkey, hne⟩, _, -, preparation, hprep, rfl⟩ := h
  exact ⟨hkey, hne, rfl, rfl, hcanon, markerPreparation_fresh env hprep⟩

end

end Aspis.Pool
