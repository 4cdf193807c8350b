import Aspis.Pool.Spend

/-! Byte formats of a prepared settlement. The core account carries the
identity of the transition, digests of its source accounts and the exact next
pool and current-page images; a transition that crosses a page boundary keeps
the image of the new page in a second account, the rollover shard. Each of the
two ends in a digest over all bytes before it. -/

namespace Aspis.Pool

open Lib Chain Statement

def POOL_V1_PREPARED_SETTLEMENT_CORE_ACCOUNT_BYTES : ℕ := 10000

def POOL_V1_PREPARED_SETTLEMENT_ROLLOVER_ACCOUNT_BYTES : ℕ := 8504

def coreMagic : Bytes := [65, 83, 80, 83]

def rolloverMagic : Bytes := [65, 83, 82, 83]

/-- The text `aspis/pool-v1/prepared-settlement/`. -/
def digestDomainStem : Bytes :=
  [97, 115, 112, 105, 115, 47, 112, 111, 111, 108, 45, 118, 49, 47, 112, 114, 101, 112, 97, 114, 101, 100, 45, 115,
    101, 116, 116, 108, 101, 109, 101, 110, 116, 47]

/-- The stem followed by `core/v1`. -/
def POOL_V1_PREPARED_SETTLEMENT_DIGEST_DOMAIN : Bytes := digestDomainStem ++ [99, 111, 114, 101, 47, 118, 49]

/-- The stem followed by `rollover/v1`. -/
def POOL_V1_PREPARED_SETTLEMENT_ROLLOVER_DIGEST_DOMAIN : Bytes :=
  digestDomainStem ++ [114, 111, 108, 108, 111, 118, 101, 114, 47, 118, 49]

inductive PreparedSettlementFormatErrorV1
  | wrongLength
  | wrongMagic
  | wrongVersion
  | wrongHashAlgorithm
  | wrongTransitionKind
  | wrongOutputCount
  | wrongPageCount
  | wrongShard
  | invalidPda
  | zeroPlanAuthority
  | nonZeroReserved
  | nonCanonicalDigest
  | invalidReceipt
  | invalidTimeRange
  | digestMismatch
  deriving DecidableEq, Repr

/-- What a plan is encoded from, next to the page images. -/
structure PreparedSettlementPlanFieldsV1 where
  pdaBump : UInt8
  transitionKind : PoolV1TransitionKind
  programId : Pubkey
  pool : Pubkey
  planAuthority : Pubkey
  sourceSequence : ℕ
  sourceRoot : Digest
  sourcePoolImageDigest : Bytes32
  currentPageAddress : Pubkey
  sourceCurrentPageImageDigest : Bytes32
  nextPageAddress : Option Pubkey
  sourceNextPageImageDigest : Option Bytes32
  statementDigest : Bytes32
  nullifier : Digest
  authorizationReceiptAddress : Pubkey
  authorizationReceiptImageDigest : Bytes32
  notBeforeSlot : ℕ
  expiresAtSlot : ℕ
  firstCommitment : Digest
  secondCommitment : Option Digest
  firstReceipt : AppendOneV1 Digest
  secondReceipt : Option (AppendOneV1 Digest)
  nextPoolImage : Bytes
  deriving DecidableEq

structure PreparedSettlementRolloverShardImageV1 where
  address : Pubkey
  pdaBump : UInt8
  image : Bytes
  deriving DecidableEq

structure PreparedSettlementPlanImagesV1 where
  coreAddress : Pubkey
  corePdaBump : UInt8
  sourceSequence : ℕ
  statementDigest : Bytes32
  coreImage : Bytes
  rolloverShard : Option PreparedSettlementRolloverShardImageV1
  deriving DecidableEq

structure PreparedSettlementRolloverShardAccountV1 where
  address : Pubkey
  owner : Pubkey
  image : Bytes
  deriving DecidableEq

/-- A decoded plan: the encoded fields, the shard address and the images. -/
structure PreparedSettlementPlanViewV1 where
  fields : PreparedSettlementPlanFieldsV1
  rolloverShardAddress : Option Pubkey
  nextCurrentPageImage : Bytes
  nextRolloverPageImage : Option Bytes
  deriving DecidableEq

/-! ### Receipts -/

def receiptIsExact (r : AppendOneV1 Digest) : Bool :=
  r.rootSequence = (if r.leafIndex + 1 < U64_LIMIT then r.leafIndex + 1 else U64_LIMIT - 1) &&
    r.history = rootHistoryLocation r.rootSequence

def encodeReceipt (r : AppendOneV1 Digest) : Bytes :=
  leBytes 8 r.leafIndex ++ (leBytes 8 r.rootSequence ++ (encodeDigestCanonical r.root ++
    (leBytes 8 r.history.pageNumber ++ (leBytes 2 r.history.slot ++ zeros 6))))

def decodeReceipt (bytes : Bytes) : Except PreparedSettlementFormatErrorV1 (AppendOneV1 Digest) := do
  require (bytes.length = 64 ∧ slice 58 6 bytes = zeros 6) .invalidReceipt
  let root ← okOr (decodeDigestCanonical (slice 16 32 bytes)) .nonCanonicalDigest
  let r : AppendOneV1 Digest :=
    ⟨leNat (slice 0 8 bytes), leNat (slice 8 8 bytes), root, ⟨leNat (slice 48 8 bytes), leNat (slice 56 2 bytes)⟩⟩
  require (receiptIsExact r = true) .invalidReceipt
  return r

/-! ### The images -/

/-- Magic, version, hash algorithm, kind, counts and bump of a core. -/
def corePreamble (kind : PoolV1TransitionKind) (outputCount pageCount bump : UInt8) : Bytes :=
  coreMagic ++ ([1, 1, kind.code, outputCount, pageCount, bump] ++ zeros 6)

def shardPreamble (bump : UInt8) : Bytes := rolloverMagic ++ ([1, 1, bump] ++ zeros 9)

/-- The core up to its digest. -/
def coreBody (f : PreparedSettlementPlanFieldsV1) (outputCount pageCount : UInt8)
    (nextPageAddress nextPageDigest : Bytes32) (currentPageImage : Bytes) (shardAddress shardDigest : Bytes32) : Bytes :=
  corePreamble f.transitionKind outputCount pageCount f.pdaBump ++
    (f.programId.bytes ++ (f.pool.bytes ++ (f.planAuthority.bytes ++ (leBytes 8 f.sourceSequence ++
    (encodeDigestCanonical f.sourceRoot ++ (f.sourcePoolImageDigest.bytes ++ (f.currentPageAddress.bytes ++
    (f.sourceCurrentPageImageDigest.bytes ++ (nextPageAddress.bytes ++ (nextPageDigest.bytes ++
    (f.statementDigest.bytes ++ (encodeDigestCanonical f.nullifier ++ (f.authorizationReceiptAddress.bytes ++
    (f.authorizationReceiptImageDigest.bytes ++ (leBytes 8 f.notBeforeSlot ++ (leBytes 8 f.expiresAtSlot ++
    (encodeDigestCanonical f.firstCommitment ++
    ((f.secondCommitment.map encodeDigestCanonical).getD (zeros 32) ++ (encodeReceipt f.firstReceipt ++
    ((f.secondReceipt.map encodeReceipt).getD (zeros 64) ++ (f.nextPoolImage ++ (currentPageImage ++
    (shardAddress.bytes ++ shardDigest.bytes)))))))))))))))))))))))

/-- The shard up to its digest. -/
def shardBody (f : PreparedSettlementPlanFieldsV1) (coreAddress nextPageAddress : Pubkey) (bump : UInt8)
    (rolloverPageImage : Bytes) : Bytes :=
  shardPreamble bump ++ (coreAddress.bytes ++ (f.programId.bytes ++ (f.pool.bytes ++
    (f.statementDigest.bytes ++ (leBytes 8 f.sourceSequence ++ (f.planAuthority.bytes ++
      (nextPageAddress.bytes ++ rolloverPageImage)))))))

section
variable (env : Environment)

/-- Seed text `aspis-settle-plan-v1`, the pool, the statement digest, the source
sequence and the authority. -/
def poolV1PreparedSettlementPlanAddress (program pool : Pubkey) (statementDigest : Bytes32) (sourceSequence : ℕ)
    (planAuthority : Pubkey) : Pubkey × UInt8 :=
  env.findProgramAddress [[97, 115, 112, 105, 115, 45, 115, 101, 116, 116, 108, 101, 45, 112, 108, 97, 110, 45, 118,
    49], pool.bytes, statementDigest.bytes, leBytes 8 sourceSequence, planAuthority.bytes] program

/-- Seed text `aspis-settle-roll-v1` and the core address. -/
def poolV1PreparedSettlementRolloverAddress (program coreAddress : Pubkey) : Pubkey × UInt8 :=
  env.findProgramAddress [[97, 115, 112, 105, 115, 45, 115, 101, 116, 116, 108, 101, 45, 114, 111, 108, 108, 45, 118,
    49], coreAddress.bytes] program

def exactImageDigestV1 (bytes : Bytes) : Bytes32 := env.hashv [bytes]

def coreDigest (body : Bytes) : Bytes32 := env.hashv [POOL_V1_PREPARED_SETTLEMENT_DIGEST_DOMAIN, body]

def rolloverDigest (body : Bytes) : Bytes32 := env.hashv [POOL_V1_PREPARED_SETTLEMENT_ROLLOVER_DIGEST_DOMAIN, body]

def encodeRolloverShardV1 (f : PreparedSettlementPlanFieldsV1) (coreAddress nextPageAddress : Pubkey)
    (rolloverPageImage : Bytes) : PreparedSettlementRolloverShardImageV1 :=
  let (address, bump) := poolV1PreparedSettlementRolloverAddress env f.programId coreAddress
  let body := shardBody f coreAddress nextPageAddress bump rolloverPageImage
  ⟨address, bump, body ++ (rolloverDigest env body).bytes⟩

/-- The number of outputs must fit the transition kind. -/
def planOutputCount (f : PreparedSettlementPlanFieldsV1) : Except PreparedSettlementFormatErrorV1 UInt8 :=
  match f.transitionKind, f.secondCommitment, f.secondReceipt with
  | .privateTransfer, some _, some _ => .ok 2
  | .withdrawal, none, none => .ok 1
  | _, _, _ => .error .wrongOutputCount

/-- Page count, next page address and digest; zero bytes when there is no next page. -/
def planPageCount (f : PreparedSettlementPlanFieldsV1) :
    Except PreparedSettlementFormatErrorV1 (UInt8 × Pubkey × Bytes32) :=
  match f.nextPageAddress, f.sourceNextPageImageDigest with
  | none, none => .ok (1, Bytes32.zero, Bytes32.zero)
  | some address, some digest => .ok (2, address, digest)
  | _, _ => .error .wrongPageCount

def encodePreparedSettlementPlanV1 (f : PreparedSettlementPlanFieldsV1) (currentPageImage rolloverPageImage : Bytes) :
    Except PreparedSettlementFormatErrorV1 PreparedSettlementPlanImagesV1 := do
  let outputCount ← planOutputCount f
  let (pageCount, nextPageAddress, nextPageDigest) ← planPageCount f
  require (f.planAuthority ≠ Bytes32.zero) .zeroPlanAuthority
  require (f.notBeforeSlot ≤ f.expiresAtSlot) .invalidTimeRange
  require (receiptIsExact f.firstReceipt = true ∧ ∀ r ∈ f.secondReceipt, receiptIsExact r = true) .invalidReceipt
  let (coreAddress, coreBump) := poolV1PreparedSettlementPlanAddress env f.programId f.pool f.statementDigest
    f.sourceSequence f.planAuthority
  require (f.pdaBump = coreBump) .invalidPda
  let shard := if pageCount = 2 then some (encodeRolloverShardV1 env f coreAddress nextPageAddress rolloverPageImage)
    else none
  let shardAddress := (shard.map (·.address)).getD Bytes32.zero
  let shardDigest := (shard.map fun s => Bytes32.read 8472 s.image).getD Bytes32.zero
  let body := coreBody f outputCount pageCount nextPageAddress nextPageDigest currentPageImage shardAddress shardDigest
  return ⟨coreAddress, coreBump, f.sourceSequence, f.statementDigest, body ++ (coreDigest env body).bytes, shard⟩

/-! ### Decoding -/

/-- What a shard must repeat of its core. -/
structure ExpectedShardV1 where
  program : Pubkey
  pool : Pubkey
  statementDigest : Bytes32
  sourceSequence : ℕ
  planAuthority : Pubkey
  nextPageAddress : Pubkey
  shardAddress : Pubkey
  shardDigest : Bytes32
  deriving DecidableEq

def decodeRolloverShardV1 (coreAddress : Pubkey) (e : ExpectedShardV1)
    (account : PreparedSettlementRolloverShardAccountV1) : Except PreparedSettlementFormatErrorV1 Bytes := do
  let bytes := account.image
  require (bytes.length = POOL_V1_PREPARED_SETTLEMENT_ROLLOVER_ACCOUNT_BYTES) .wrongLength
  require (slice 0 4 bytes = rolloverMagic) .wrongMagic
  require (slice 4 1 bytes = [1]) .wrongVersion
  require (slice 5 1 bytes = [1]) .wrongHashAlgorithm
  require (slice 7 9 bytes = zeros 9) .nonZeroReserved
  let digest := rolloverDigest env (slice 0 8472 bytes)
  require (Bytes32.read 8472 bytes = digest ∧ digest = e.shardDigest) .digestMismatch
  let (expectedAddress, expectedBump) := poolV1PreparedSettlementRolloverAddress env e.program coreAddress
  require (account.owner = e.program ∧ account.address = expectedAddress ∧ account.address = e.shardAddress ∧
    byteAt 6 bytes = expectedBump ∧ Bytes32.read 16 bytes = coreAddress ∧ Bytes32.read 48 bytes = e.program ∧
    Bytes32.read 80 bytes = e.pool ∧ Bytes32.read 112 bytes = e.statementDigest ∧
    slice 144 8 bytes = leBytes 8 e.sourceSequence ∧ Bytes32.read 152 bytes = e.planAuthority ∧
    Bytes32.read 184 bytes = e.nextPageAddress) .wrongShard
  return slice 216 8256 bytes

def decodeSecondCommitment (kind : PoolV1TransitionKind) (bytes : Bytes) :
    Except PreparedSettlementFormatErrorV1 (Option Digest) :=
  match kind with
  | .privateTransfer => do
    require (byteAt 7 bytes = 2) .wrongOutputCount
    let commitment ← okOr (decodeDigestCanonical (slice 488 32 bytes)) .nonCanonicalDigest
    return some commitment
  | .withdrawal => do
    require (byteAt 7 bytes = 1 ∧ slice 488 32 bytes = zeros 32) .wrongOutputCount
    return none

def decodeSecondReceipt (kind : PoolV1TransitionKind) (bytes : Bytes) :
    Except PreparedSettlementFormatErrorV1 (Option (AppendOneV1 Digest)) :=
  match kind with
  | .privateTransfer => do
    let receipt ← decodeReceipt (slice 584 64 bytes)
    return some receipt
  | .withdrawal => do
    require (slice 584 64 bytes = zeros 64) .invalidReceipt
    return none

/-- The next-page part of a core: all absent, or all present with a valid shard. -/
def decodeNextPage (coreAddress : Pubkey) (bytes : Bytes) (e : ExpectedShardV1) (nextPageDigest : Bytes32)
    (shard : Option PreparedSettlementRolloverShardAccountV1) :
    Except PreparedSettlementFormatErrorV1 (Option (Pubkey × Bytes32 × Pubkey × Bytes)) :=
  if byteAt 8 bytes = 1 ∧ e.nextPageAddress = Bytes32.zero ∧ nextPageDigest = Bytes32.zero ∧
      e.shardAddress = Bytes32.zero ∧ e.shardDigest = Bytes32.zero ∧ shard = none then .ok none
  else if byteAt 8 bytes = 2 ∧ e.nextPageAddress ≠ Bytes32.zero ∧ nextPageDigest ≠ Bytes32.zero ∧
      e.shardAddress ≠ Bytes32.zero ∧ e.shardDigest ≠ Bytes32.zero then do
    let account ← okOr shard .wrongShard
    let image ← decodeRolloverShardV1 env coreAddress e account
    return some (e.nextPageAddress, nextPageDigest, e.shardAddress, image)
  else .error .wrongPageCount

def decodePreparedSettlementPlanV1 (coreAddress : Pubkey) (bytes : Bytes)
    (shard : Option PreparedSettlementRolloverShardAccountV1) :
    Except PreparedSettlementFormatErrorV1 PreparedSettlementPlanViewV1 := do
  require (bytes.length = POOL_V1_PREPARED_SETTLEMENT_CORE_ACCOUNT_BYTES) .wrongLength
  require (slice 0 4 bytes = coreMagic) .wrongMagic
  require (slice 4 1 bytes = [1]) .wrongVersion
  require (slice 5 1 bytes = [1]) .wrongHashAlgorithm
  require (slice 10 6 bytes = zeros 6) .nonZeroReserved
  require (Bytes32.read 9968 bytes = coreDigest env (slice 0 9968 bytes)) .digestMismatch
  let kind ← okOr (decodeTransitionKind (slice 6 1 bytes)) .wrongTransitionKind
  let secondCommitment ← decodeSecondCommitment kind bytes
  let firstReceipt ← decodeReceipt (slice 520 64 bytes)
  let secondReceipt ← decodeSecondReceipt kind bytes
  let e : ExpectedShardV1 :=
    ⟨Bytes32.read 16 bytes, Bytes32.read 48 bytes, Bytes32.read 312 bytes, leNat (slice 112 8 bytes),
      Bytes32.read 80 bytes, Bytes32.read 248 bytes, Bytes32.read 9904 bytes, Bytes32.read 9936 bytes⟩
  require (e.planAuthority ≠ Bytes32.zero) .zeroPlanAuthority
  let (expectedAddress, expectedBump) := poolV1PreparedSettlementPlanAddress env e.program e.pool e.statementDigest
    e.sourceSequence e.planAuthority
  require (coreAddress = expectedAddress ∧ byteAt 9 bytes = expectedBump) .invalidPda
  let next ← decodeNextPage env coreAddress bytes e (Bytes32.read 280 bytes) shard
  require (leNat (slice 440 8 bytes) ≤ leNat (slice 448 8 bytes)) .invalidTimeRange
  let sourceRoot ← okOr (decodeDigestCanonical (slice 120 32 bytes)) .nonCanonicalDigest
  let nullifier ← okOr (decodeDigestCanonical (slice 344 32 bytes)) .nonCanonicalDigest
  let firstCommitment ← okOr (decodeDigestCanonical (slice 456 32 bytes)) .nonCanonicalDigest
  return {
    fields := {
      pdaBump := byteAt 9 bytes, transitionKind := kind, programId := e.program, pool := e.pool
      planAuthority := e.planAuthority, sourceSequence := e.sourceSequence, sourceRoot
      sourcePoolImageDigest := Bytes32.read 152 bytes, currentPageAddress := Bytes32.read 184 bytes
      sourceCurrentPageImageDigest := Bytes32.read 216 bytes, nextPageAddress := next.map (·.1)
      sourceNextPageImageDigest := next.map (·.2.1), statementDigest := e.statementDigest, nullifier
      authorizationReceiptAddress := Bytes32.read 376 bytes
      authorizationReceiptImageDigest := Bytes32.read 408 bytes, notBeforeSlot := leNat (slice 440 8 bytes)
      expiresAtSlot := leNat (slice 448 8 bytes), firstCommitment, secondCommitment, firstReceipt, secondReceipt
      nextPoolImage := slice 648 1000 bytes }
    rolloverShardAddress := next.map (·.2.2.1)
    nextCurrentPageImage := slice 1648 8256 bytes
    nextRolloverPageImage := next.map (·.2.2.2) }

end

/-! ### Reading an encoded plan back -/

@[simp] theorem length_coreMagic : coreMagic.length = 4 := by simp [coreMagic]

@[simp] theorem length_rolloverMagic : rolloverMagic.length = 4 := by simp [rolloverMagic]

@[simp] theorem length_corePreamble (kind : PoolV1TransitionKind) (outputCount pageCount bump : UInt8) :
    (corePreamble kind outputCount pageCount bump).length = 16 := by
  simp [corePreamble]

@[simp] theorem length_shardPreamble (bump : UInt8) : (shardPreamble bump).length = 16 := by
  simp [shardPreamble]

@[simp] theorem length_encodeReceipt (r : AppendOneV1 Digest) : (encodeReceipt r).length = 64 := by
  simp [encodeReceipt]

@[simp] theorem length_secondCommitment (c : Option Digest) :
    ((c.map encodeDigestCanonical).getD (zeros 32)).length = 32 := by
  cases c <;> simp

@[simp] theorem length_secondReceipt (r : Option (AppendOneV1 Digest)) :
    ((r.map encodeReceipt).getD (zeros 64)).length = 64 := by
  cases r <;> simp

/-- A receipt whose numbers fit their fields. -/
structure EncodableReceipt (r : AppendOneV1 Digest) : Prop where
  leaf_lt : r.leafIndex + 1 < U64_LIMIT
  sequence_eq : r.rootSequence = r.leafIndex + 1
  history_eq : r.history = rootHistoryLocation r.rootSequence
  root_canonical : DigestIsCanonical r.root

theorem receiptIsExact_iff {r : AppendOneV1 Digest} : receiptIsExact r = true ↔
    r.rootSequence = (if r.leafIndex + 1 < U64_LIMIT then r.leafIndex + 1 else U64_LIMIT - 1) ∧
      r.history = rootHistoryLocation r.rootSequence := by
  simp [receiptIsExact]

theorem decodeReceipt_of_exact {r : AppendOneV1 Digest} (hexact : receiptIsExact r = true)
    (hlt : r.leafIndex < U64_LIMIT) (hcanonical : DigestIsCanonical r.root) : decodeReceipt (encodeReceipt r) = .ok r := by
  obtain ⟨hsequence, hhistory⟩ := receiptIsExact_iff.mp hexact
  have hsequence_lt : r.rootSequence < U64_LIMIT := by
    rw [hsequence]
    split_ifs <;> simp only [U64_LIMIT] at * <;> omega
  simp only [U64_LIMIT] at hlt hsequence_lt
  have hroot : slice 16 32 (encodeReceipt r) = encodeDigestCanonical r.root := by
    simp [encodeReceipt, slice_append_right, slice_append_head]
  have hleaf : leNat (slice 0 8 (encodeReceipt r)) = r.leafIndex := by
    rw [encodeReceipt, slice_append_head (by simp), leNat_leBytes_of_lt (by omega)]
  have hseq : leNat (slice 8 8 (encodeReceipt r)) = r.rootSequence := by
    have hs : slice 8 8 (encodeReceipt r) = leBytes 8 r.rootSequence := by
      simp [encodeReceipt, slice_append_right, slice_append_head]
    rw [hs, leNat_leBytes_of_lt (by omega)]
  have hpage : leNat (slice 48 8 (encodeReceipt r)) = r.history.pageNumber := by
    have hs : slice 48 8 (encodeReceipt r) = leBytes 8 r.history.pageNumber := by
      simp [encodeReceipt, slice_append_right, slice_append_head]
    rw [hs, leNat_leBytes_of_lt]
    rw [hhistory]
    simp only [rootHistoryLocation, POOL_V1_ROOT_HISTORY_CAPACITY]
    omega
  have hslot : leNat (slice 56 2 (encodeReceipt r)) = r.history.slot := by
    have hs : slice 56 2 (encodeReceipt r) = leBytes 2 r.history.slot := by
      simp [encodeReceipt, slice_append_right, slice_append_head]
    rw [hs, leNat_leBytes_of_lt]
    rw [hhistory]
    simp only [rootHistoryLocation, POOL_V1_ROOT_HISTORY_CAPACITY]
    omega
  have hreserved : slice 58 6 (encodeReceipt r) = zeros 6 := by
    simp [encodeReceipt, slice_append_right, slice_all]
  simp only [decodeReceipt, except_bind_eq_ok, require_eq_ok, okOr_eq_ok, except_pure_eq_ok, hroot, hleaf, hseq,
    hpage, hslot, hreserved, decode_encodeDigestCanonical hcanonical]
  exact ⟨(), ⟨by simp, trivial⟩, r.root, rfl, (), hexact, rfl⟩

theorem EncodableReceipt.exact {r : AppendOneV1 Digest} (h : EncodableReceipt r) : receiptIsExact r = true :=
  receiptIsExact_iff.mpr ⟨by rw [if_pos h.leaf_lt, h.sequence_eq], h.history_eq⟩

theorem decodeReceipt_encodeReceipt {r : AppendOneV1 Digest} (h : EncodableReceipt r) :
    decodeReceipt (encodeReceipt r) = .ok r :=
  decodeReceipt_of_exact h.exact ((Nat.lt_succ_self r.leafIndex).trans h.leaf_lt) h.root_canonical

section CoreFields
variable (f : PreparedSettlementPlanFieldsV1) (outputCount pageCount : UInt8)
  (nextPageAddress nextPageDigest : Bytes32) (currentPageImage : Bytes) (shardAddress shardDigest : Bytes32)
  (tail : Bytes)

theorem slice_coreBody_preamble : slice 0 16 (coreBody f outputCount pageCount nextPageAddress nextPageDigest
    currentPageImage shardAddress shardDigest ++ tail) =
      corePreamble f.transitionKind outputCount pageCount f.pdaBump := by
  simp [coreBody, slice_append_head]

theorem slice_coreBody_kind : slice 6 1 (coreBody f outputCount pageCount nextPageAddress nextPageDigest
    currentPageImage shardAddress shardDigest ++ tail) = [f.transitionKind.code] := by
  have hinner : ∀ d : Bytes, slice 6 1 d = slice 6 1 (slice 0 16 d) := by
    intro d
    rw [slice_slice d (by omega)]
  rw [hinner, slice_coreBody_preamble]
  simp [corePreamble, coreMagic, slice]

theorem slice_coreBody_pool : slice 48 32 (coreBody f outputCount pageCount nextPageAddress nextPageDigest
    currentPageImage shardAddress shardDigest ++ tail) = f.pool.bytes := by
  simp [coreBody, slice_append_right, slice_append_head]

theorem slice_coreBody_authority : slice 80 32 (coreBody f outputCount pageCount nextPageAddress nextPageDigest
    currentPageImage shardAddress shardDigest ++ tail) = f.planAuthority.bytes := by
  simp [coreBody, slice_append_right, slice_append_head]

theorem slice_coreBody_sequence : slice 112 8 (coreBody f outputCount pageCount nextPageAddress nextPageDigest
    currentPageImage shardAddress shardDigest ++ tail) = leBytes 8 f.sourceSequence := by
  simp [coreBody, slice_append_right, slice_append_head]

theorem slice_coreBody_firstCommitment : slice 456 32 (coreBody f outputCount pageCount nextPageAddress
    nextPageDigest currentPageImage shardAddress shardDigest ++ tail) = encodeDigestCanonical f.firstCommitment := by
  simp [coreBody, slice_append_right, slice_append_head]

theorem slice_coreBody_secondCommitment : slice 488 32 (coreBody f outputCount pageCount nextPageAddress
    nextPageDigest currentPageImage shardAddress shardDigest ++ tail) =
      (f.secondCommitment.map encodeDigestCanonical).getD (zeros 32) := by
  simp [coreBody, slice_append_right, slice_append_head]

theorem slice_coreBody_firstReceipt : slice 520 64 (coreBody f outputCount pageCount nextPageAddress nextPageDigest
    currentPageImage shardAddress shardDigest ++ tail) = encodeReceipt f.firstReceipt := by
  simp [coreBody, slice_append_right, slice_append_head]

theorem slice_coreBody_secondReceipt : slice 584 64 (coreBody f outputCount pageCount nextPageAddress nextPageDigest
    currentPageImage shardAddress shardDigest ++ tail) = (f.secondReceipt.map encodeReceipt).getD (zeros 64) := by
  simp [coreBody, slice_append_right, slice_append_head]

theorem slice_coreBody_poolImage (h : f.nextPoolImage.length = 1000) :
    slice 648 1000 (coreBody f outputCount pageCount nextPageAddress nextPageDigest currentPageImage shardAddress
      shardDigest ++ tail) = f.nextPoolImage := by
  simp [coreBody, slice_append_right, slice_append_head, h]

end CoreFields

/-- Fields that survive encoding: every number fits its slot and every digest is canonical. -/
structure EncodablePlan (f : PreparedSettlementPlanFieldsV1) : Prop where
  sequence_lt : f.sourceSequence < U64_LIMIT
  first : EncodableReceipt f.firstReceipt
  second : ∀ r ∈ f.secondReceipt, EncodableReceipt r
  first_canonical : DigestIsCanonical f.firstCommitment
  second_canonical : ∀ c ∈ f.secondCommitment, DigestIsCanonical c
  image_length : f.nextPoolImage.length = POOL_V1_STATE_ACCOUNT_BYTES

@[simp] theorem decodeTransitionKind_code (kind : PoolV1TransitionKind) :
    decodeTransitionKind [kind.code] = some kind := by
  cases kind <;> simp [decodeTransitionKind, PoolV1TransitionKind.code]

theorem decodeSecondReceipt_core {f : PreparedSettlementPlanFieldsV1} {outputCount : UInt8} {bytes : Bytes}
    (h : ∀ r ∈ f.secondReceipt, decodeReceipt (encodeReceipt r) = .ok r) (hcount : planOutputCount f = .ok outputCount)
    (hbytes : slice 584 64 bytes = (f.secondReceipt.map encodeReceipt).getD (zeros 64)) :
    decodeSecondReceipt f.transitionKind bytes = .ok f.secondReceipt := by
  cases hkind : f.transitionKind <;> cases hreceipt : f.secondReceipt <;>
    simp only [planOutputCount, hkind, hreceipt] at hcount
  case privateTransfer.none => cases hc : f.secondCommitment <;> simp [hc] at hcount
  case withdrawal.some r => cases hc : f.secondCommitment <;> simp [hc] at hcount
  case privateTransfer.some r =>
    rw [hreceipt] at hbytes
    simp only [Option.map_some, Option.getD_some] at hbytes
    simp only [decodeSecondReceipt, hbytes, h r hreceipt]
    rfl
  case withdrawal.none =>
    rw [hreceipt] at hbytes
    simp only [Option.map_none, Option.getD_none] at hbytes
    simp only [decodeSecondReceipt, except_bind_eq_ok, require_eq_ok, except_pure_eq_ok]
    exact ⟨(), hbytes, trivial⟩

theorem decodeSecondCommitment_core {f : PreparedSettlementPlanFieldsV1} {outputCount : UInt8} {bytes : Bytes}
    {second : Option Digest} (h : EncodablePlan f) (hcount : planOutputCount f = .ok outputCount)
    (hbytes : slice 488 32 bytes = (f.secondCommitment.map encodeDigestCanonical).getD (zeros 32))
    (hdecode : decodeSecondCommitment f.transitionKind bytes = .ok second) : second = f.secondCommitment := by
  cases hkind : f.transitionKind <;> cases hcommitment : f.secondCommitment <;>
    simp only [planOutputCount, hkind, hcommitment, reduceCtorEq] at hcount
  case privateTransfer.some c =>
    rw [hkind, decodeSecondCommitment] at hdecode
    rw [hcommitment] at hbytes
    simp only [hbytes, Option.map_some, Option.getD_some, except_bind_eq_ok, okOr_eq_ok, except_pure_eq_ok,
      decode_encodeDigestCanonical (h.second_canonical c hcommitment)] at hdecode
    obtain ⟨_, -, a, ha, rfl⟩ := hdecode
    exact ha.symm
  case withdrawal.none =>
    rw [hkind, decodeSecondCommitment] at hdecode
    simp only [except_bind_eq_ok, except_pure_eq_ok] at hdecode
    obtain ⟨_, -, rfl⟩ := hdecode
    rfl

/-- What the settlement reads of a plan. -/
structure SamePlan (v f : PreparedSettlementPlanFieldsV1) : Prop where
  kind_eq : v.transitionKind = f.transitionKind
  pool_eq : v.pool = f.pool
  sequence_eq : v.sourceSequence = f.sourceSequence
  firstCommitment_eq : v.firstCommitment = f.firstCommitment
  secondCommitment_eq : v.secondCommitment = f.secondCommitment
  first_eq : v.firstReceipt = f.firstReceipt
  second_eq : v.secondReceipt = f.secondReceipt
  image_eq : v.nextPoolImage = f.nextPoolImage

section
variable (env : Environment)

/-- The core image an encoding produces. -/
theorem encodePreparedSettlementPlanV1_core {f : PreparedSettlementPlanFieldsV1} {current rollover : Bytes}
    {images : PreparedSettlementPlanImagesV1}
    (h : encodePreparedSettlementPlanV1 env f current rollover = .ok images) :
    ∃ outputCount pageCount nextPageAddress nextPageDigest shardAddress shardDigest tail,
      planOutputCount f = .ok outputCount ∧ images.coreImage = coreBody f outputCount pageCount nextPageAddress
        nextPageDigest current shardAddress shardDigest ++ tail := by
  simp only [encodePreparedSettlementPlanV1, except_bind_eq_ok, require_eq_ok, except_pure_eq_ok] at h
  obtain ⟨outputCount, hcount, ⟨pageCount, address, digest⟩, -, -, -, -, -, -, -, -, -, rfl⟩ := h
  exact ⟨_, _, _, _, _, _, _, hcount, rfl⟩

/-- A decoded plan agrees with the fields its core was encoded from. -/
theorem decode_encodePreparedSettlementPlanV1 {f : PreparedSettlementPlanFieldsV1} {current rollover : Bytes}
    {images : PreparedSettlementPlanImagesV1} {coreAddress : Pubkey}
    {shard : Option PreparedSettlementRolloverShardAccountV1} {v : PreparedSettlementPlanViewV1}
    (hf : EncodablePlan f) (h : encodePreparedSettlementPlanV1 env f current rollover = .ok images)
    (hv : decodePreparedSettlementPlanV1 env coreAddress images.coreImage shard = .ok v) :
    SamePlan v.fields f := by
  obtain ⟨outputCount, pages, address, digest, shardAddress, shardDigest, tail, hcount, himage⟩ :=
    encodePreparedSettlementPlanV1_core env h
  rw [himage] at hv
  have hsecond := decodeSecondReceipt_core (fun r hr => decodeReceipt_encodeReceipt (hf.second r hr)) hcount
    (slice_coreBody_secondReceipt f outputCount pages address digest current shardAddress shardDigest tail)
  simp only [decodePreparedSettlementPlanV1, except_bind_eq_ok, require_eq_ok, okOr_eq_ok, except_pure_eq_ok,
    slice_coreBody_kind, decodeTransitionKind_code, slice_coreBody_firstReceipt,
    decodeReceipt_encodeReceipt hf.first, slice_coreBody_sequence] at hv
  obtain ⟨-, -, -, -, -, -, -, -, -, -, -, -, kind, hkind, _, hcommitment, first, hfirst, second, hsecond', -, -, -, -,
    _, -, -, -, _, -, _, -, c, hc, rfl⟩ := hv
  obtain rfl : f.transitionKind = kind := by simpa using hkind
  rw [hsecond] at hsecond'
  refine ⟨rfl, ?_, ?_, ?_, ?_, ?_, ?_, ?_⟩
  · exact Bytes32.read_eq (slice_coreBody_pool ..)
  · exact leNat_leBytes_of_lt hf.sequence_lt
  · rw [slice_coreBody_firstCommitment, decode_encodeDigestCanonical hf.first_canonical] at hc
    exact (Option.some_inj.mp hc).symm
  · exact decodeSecondCommitment_core hf hcount (slice_coreBody_secondCommitment ..) hcommitment
  · simpa using hfirst.symm
  · simpa using hsecond'.symm
  · exact slice_coreBody_poolImage f outputCount pages address digest current shardAddress shardDigest tail
      hf.image_length

/-- Accepted core bytes start with the plan magic and have the exact length. -/
theorem decodePreparedSettlementPlanV1_magic {coreAddress : Pubkey} {bytes : Bytes}
    {shard : Option PreparedSettlementRolloverShardAccountV1} {v : PreparedSettlementPlanViewV1}
    (hv : decodePreparedSettlementPlanV1 env coreAddress bytes shard = .ok v) : slice 0 4 bytes = coreMagic := by
  simp only [decodePreparedSettlementPlanV1, except_bind_eq_ok, require_eq_ok] at hv
  obtain ⟨-, -, -, hmagic, -⟩ := hv
  exact hmagic

theorem decodeNextPage_shardMagic {coreAddress : Pubkey} {bytes : Bytes} {e : ExpectedShardV1} {digest : Bytes32}
    {shard : PreparedSettlementRolloverShardAccountV1} {next : Option (Pubkey × Bytes32 × Pubkey × Bytes)}
    (h : decodeNextPage env coreAddress bytes e digest (some shard) = .ok next) :
    slice 0 4 shard.image = rolloverMagic := by
  unfold decodeNextPage at h
  rw [if_neg (by simp)] at h
  split at h
  · simp only [except_bind_eq_ok, okOr_eq_ok, decodeRolloverShardV1, require_eq_ok] at h
    obtain ⟨_, heq, _, ⟨_, -, _, hmagic, -⟩, -⟩ := h
    obtain rfl := Option.some_inj.mp heq
    exact hmagic
  · cases h

/-- The same for an accepted shard. -/
theorem decodePreparedSettlementPlanV1_shardMagic {coreAddress : Pubkey} {bytes : Bytes}
    {shard : PreparedSettlementRolloverShardAccountV1} {v : PreparedSettlementPlanViewV1}
    (hv : decodePreparedSettlementPlanV1 env coreAddress bytes (some shard) = .ok v) :
    slice 0 4 shard.image = rolloverMagic := by
  simp only [decodePreparedSettlementPlanV1, except_bind_eq_ok] at hv
  obtain ⟨-, -, -, -, -, -, -, -, -, -, -, -, _, -, _, -, _, -, _, -, -, -, -, -, next, hnext, -⟩ := hv
  exact decodeNextPage_shardMagic env hnext

/-- The shard address a core names, if it has a next page. -/
def planShardOf (bytes : Bytes) : Option Pubkey :=
  if byteAt 8 bytes = 2 then some (Bytes32.read 9904 bytes) else none

theorem decodeNextPage_shard {coreAddress : Pubkey} {bytes : Bytes} {e : ExpectedShardV1} {digest : Bytes32}
    {shard : Option PreparedSettlementRolloverShardAccountV1} {next : Option (Pubkey × Bytes32 × Pubkey × Bytes)}
    (haddress : e.shardAddress = Bytes32.read 9904 bytes)
    (h : decodeNextPage env coreAddress bytes e digest shard = .ok next) :
    shard.map (·.address) = planShardOf bytes := by
  unfold decodeNextPage at h
  split_ifs at h with hnone hsome
  · rw [planShardOf, hnone.1, hnone.2.2.2.2.2, if_neg (by decide)]
    rfl
  · simp only [except_bind_eq_ok, okOr_eq_ok, decodeRolloverShardV1, require_eq_ok] at h
    obtain ⟨account, rfl, _, ⟨_, -, _, -, _, -, _, -, _, -, _, -, _, ⟨-, -, hnamed, -⟩, -⟩, -⟩ := h
    rw [planShardOf, hsome.1, if_pos rfl, Option.map_some, hnamed, haddress]

/-- A decoded plan has the recorded authority, and the shard it was given is the one it names. -/
theorem decodePreparedSettlementPlanV1_recorded {coreAddress : Pubkey} {bytes : Bytes}
    {shard : Option PreparedSettlementRolloverShardAccountV1} {v : PreparedSettlementPlanViewV1}
    (hv : decodePreparedSettlementPlanV1 env coreAddress bytes shard = .ok v) :
    v.fields.planAuthority = Bytes32.read 80 bytes ∧ shard.map (·.address) = planShardOf bytes := by
  simp only [decodePreparedSettlementPlanV1, except_bind_eq_ok, except_pure_eq_ok] at hv
  obtain ⟨-, -, -, -, -, -, -, -, -, -, -, -, _, -, _, -, _, -, _, -, -, -, -, -, next, hnext, -, -, _, -, _, -, _, -,
    rfl⟩ := hv
  exact ⟨rfl, decodeNextPage_shard env rfl hnext⟩

/-- An encoded core records its authority. -/
theorem encodePreparedSettlementPlanV1_authority {f : PreparedSettlementPlanFieldsV1} {current rollover : Bytes}
    {images : PreparedSettlementPlanImagesV1}
    (h : encodePreparedSettlementPlanV1 env f current rollover = .ok images) :
    Bytes32.read 80 images.coreImage = f.planAuthority := by
  obtain ⟨outputCount, pages, address, digest, shardAddress, shardDigest, tail, -, himage⟩ :=
    encodePreparedSettlementPlanV1_core env h
  rw [himage]
  exact Bytes32.read_eq (slice_coreBody_authority ..)

theorem encodePreparedSettlementPlanV1_magic {f : PreparedSettlementPlanFieldsV1} {current rollover : Bytes}
    {images : PreparedSettlementPlanImagesV1}
    (h : encodePreparedSettlementPlanV1 env f current rollover = .ok images) :
    slice 0 4 images.coreImage = coreMagic := by
  obtain ⟨outputCount, pages, address, digest, shardAddress, shardDigest, tail, -, himage⟩ :=
    encodePreparedSettlementPlanV1_core env h
  rw [himage, coreBody, corePreamble]
  simp [slice_append_head]

theorem encodePreparedSettlementPlanV1_shardMagic {f : PreparedSettlementPlanFieldsV1} {current rollover : Bytes}
    {images : PreparedSettlementPlanImagesV1}
    (h : encodePreparedSettlementPlanV1 env f current rollover = .ok images) :
    ∀ shard ∈ images.rolloverShard, slice 0 4 shard.image = rolloverMagic := by
  simp only [encodePreparedSettlementPlanV1, except_bind_eq_ok, except_pure_eq_ok] at h
  obtain ⟨outputCount, hcount, ⟨pageCount, address, digest⟩, -, -, -, -, -, -, -, -, -, rfl⟩ := h
  intro shard hshard
  dsimp only at hshard
  split_ifs at hshard
  · obtain rfl := Option.some_inj.mp (Option.mem_def.mp hshard)
    simp [encodeRolloverShardV1, shardBody, shardPreamble, slice_append_head]
  · simp at hshard

end

end Aspis.Pool
