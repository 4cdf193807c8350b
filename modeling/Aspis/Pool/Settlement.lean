import Aspis.Pool.Prepared

/-! The instructions of the prepared path: prepare, settle and cancel. -/

namespace Aspis.Pool

open Lib Chain Statement

section
variable (env : Environment) (services : AuthorizationServices)

/-! ### Preparation -/

/-- A decoded preparation request; the statement fields come from the nested spend. -/
structure PrepareSettlementRequestV1 where
  transitionKind : PoolV1TransitionKind
  request : AuthorizedAppendV1
  anchorSequence : ℕ
  statementPool : Pubkey
  statementDomain : Bytes32
  statementAssetId : M31
  statementPayload : Bytes
  notBeforeSlot : ℕ
  expiresAtSlot : ℕ
  deriving DecidableEq

def takeReadonlyCurrentPage (anchor : AccountInfo) (anchorKey currentKey : Pubkey) (rest : List AccountInfo)
    (l : Ledger) : Except ProgramError (AccountInfo × List AccountInfo) :=
  if anchorKey = currentKey then .ok (anchor, rest) else do
    let (current, rest) ← takeAccount rest
    require (current.key = currentKey) (.custom .invalidRootPageAddress)
    requireProgramAccount env.programId current l false
    require (current.isSigner = false) .invalidAccountData
    return (current, rest)

/-- The page layout of a preparation: existing pages are read-only. -/
def planPrepareSettlementPageLayoutV1 (accounts : List AccountInfo) (s : PoolStateV1) (anchorSequence count : ℕ)
    (l : Ledger) : Except ProgramError SpendPageLayoutV1 := do
  requireSpendCapacity s count
  let (pool, rest) ← takeAccount (accounts.drop 1)
  let anchorNumber := (rootHistoryLocation anchorSequence).pageNumber
  let currentNumber := (rootHistoryLocation s.currentRootSequence).pageNumber
  let lastNumber := (rootHistoryLocation (s.currentRootSequence + count)).pageNumber
  require (anchorNumber ≤ currentNumber ∧ lastNumber ≤ currentNumber + 1) (.custom .stateHistoryMismatch)
  let anchorKey := (poolV1RootPageAddress env pool.key anchorNumber).1
  let currentKey := (poolV1RootPageAddress env pool.key currentNumber).1
  let (anchor, rest) ← takeAccount rest
  require (anchor.key = anchorKey) (.custom .invalidRootPageAddress)
  requireProgramAccount env.programId anchor l false
  require (anchor.isSigner = false) .invalidAccountData
  let (current, rest) ← takeReadonlyCurrentPage env anchor anchorKey currentKey rest l
  let (next, suffix) ← takeNextPage env pool.key currentNumber lastNumber rest
  return ⟨anchor, current, next, suffix⟩

/-- The accounts of a preparation after its history pages. -/
structure PrepareSuffixV1 where
  receipt : AccountInfo
  registry : List AccountInfo
  core : AccountInfo
  shard : Option AccountInfo
  system : AccountInfo
  deriving DecidableEq

def prepareSuffix (hasRollover : Bool) (suffix : List AccountInfo) : Except ProgramError PrepareSuffixV1 :=
  match hasRollover, suffix with
  | true, [receipt, registry, entry, core, shard, system] => .ok ⟨receipt, [registry, entry], core, some shard, system⟩
  | false, [receipt, registry, entry, core, system] => .ok ⟨receipt, [registry, entry], core, none, system⟩
  | _, _ => .error (if suffix.length < (if hasRollover then 6 else 5) then .notEnoughAccountKeys else .invalidArgument)

def createPrepareRolloverPageIfNeeded (pool payer system : AccountInfo) (next : Option (AccountInfo × ℕ)) :
    Handler (Option PrevalidatedNewHistoryPageV1) :=
  match next with
  | none => pure none
  | some (account, number) => do
    let expected := (poolV1RootPageAddress env pool.key number).1
    let preparation ← Exec.query (planFreshProgramPda env account expected POOL_V1_ROOT_HISTORY_PAGE_ACCOUNT_BYTES)
    createProgramPdaIfNeeded env payer account system POOL_V1_ROOT_HISTORY_PAGE_ACCOUNT_BYTES preparation
    Exec.query (requireFreshRentExemptProgramPda env account expected POOL_V1_ROOT_HISTORY_PAGE_ACCOUNT_BYTES
      preparation)
    Exec.query (validateNewPageAccount env pool.key number account)
    return some ⟨pool.key, account.key, number⟩

/-- A shard account with the image it will hold. -/
abbrev PlannedShard := AccountInfo × PreparedSettlementRolloverShardImageV1 × FreshPdaPreparationV1

/-- The shard account, its image and its preparation, when the plan has one. -/
def planShardAccount (shard : Option AccountInfo) (image : Option PreparedSettlementRolloverShardImageV1) (l : Ledger) :
    Except ProgramError (Option PlannedShard) :=
  match shard, image with
  | none, none => .ok none
  | some account, some shard => do
    require (account.key = shard.address) (.custom .invalidFreshAccount)
    let preparation ← planFreshProgramPda env account shard.address POOL_V1_PREPARED_SETTLEMENT_ROLLOVER_ACCOUNT_BYTES l
    return some (account, shard, preparation)
  | _, _ => .error (.custom .invalidFreshAccount)

def createShardIfNeeded (payer system : AccountInfo) (shard : Option PlannedShard) : Handler Unit :=
  match shard with
  | none => pure ()
  | some (account, _, preparation) =>
    createProgramPdaIfNeeded env payer account system POOL_V1_PREPARED_SETTLEMENT_ROLLOVER_ACCOUNT_BYTES preparation

def requireFreshShard (shard : Option PlannedShard) (l : Ledger) : Except ProgramError Unit :=
  match shard with
  | none => .ok ()
  | some (account, image, preparation) => requireFreshRentExemptProgramPda env account image.address
      POOL_V1_PREPARED_SETTLEMENT_ROLLOVER_ACCOUNT_BYTES preparation l

def writeShard (shard : Option PlannedShard) (l : Ledger) : Ledger :=
  match shard with
  | none => l
  | some (account, image, _) => setData account.key image.image l

def processPrepareSettlementV1 (accounts : List AccountInfo) (r : PrepareSettlementRequestV1) (currentSlot : ℕ) :
    Handler Unit :=
  match accounts with
  | payer :: pool :: _ => do
    let (c, layout, suffix) ← Exec.query fun l => do
      let c ← CanonicalPoolStateV1.decodeAccountFromProgramInvariant env pool l
      require (r.statementPool = pool.key ∧ r.statementDomain = c.state.identity.deploymentDomain ∧
        r.statementAssetId = c.state.identity.assetId) (.custom .verifierDispatchIdentityMismatch)
      let layout ← planPrepareSettlementPageLayoutV1 env accounts c.state r.anchorSequence r.request.count l
      let suffix ← prepareSuffix layout.next.isSome layout.suffix
      requireUniqueAccounts accounts
      requirePayerAndSystemProgram payer suffix.system l
      return (c, layout, suffix)
    let prevalidated ← createPrepareRolloverPageIfNeeded env pool payer suffix.system layout.next
    let (images, corePreparation, shard) ← Exec.query fun l => do
      let images ← buildPreparedSettlementPlanV1 env services pool layout.anchor layout.current
        (layout.next.map (·.1)) prevalidated c r.request r.statementPayload suffix.receipt suffix.registry
        ⟨payer.key, currentSlot, r.notBeforeSlot, r.expiresAtSlot⟩ l
      require (suffix.core.key = images.coreAddress ∧ images.rolloverShard.isSome = layout.next.isSome)
        (.custom .invalidFreshAccount)
      let corePreparation ← planFreshProgramPda env suffix.core images.coreAddress
        POOL_V1_PREPARED_SETTLEMENT_CORE_ACCOUNT_BYTES l
      let shard ← planShardAccount env suffix.shard images.rolloverShard l
      return (images, corePreparation, shard)
    createProgramPdaIfNeeded env payer suffix.core suffix.system POOL_V1_PREPARED_SETTLEMENT_CORE_ACCOUNT_BYTES
      corePreparation
    createShardIfNeeded env payer suffix.system shard
    Exec.query (requireFreshRentExemptProgramPda env suffix.core images.coreAddress
      POOL_V1_PREPARED_SETTLEMENT_CORE_ACCOUNT_BYTES corePreparation)
    Exec.query (requireFreshShard env shard)
    Exec.update (setData suffix.core.key images.coreImage)
    Exec.update (writeShard shard)
  | _ => Exec.query fun _ => .error .notEnoughAccountKeys

/-! ### Settlement -/

structure SettlePreparedInstructionV1 where
  transitionKind : PoolV1TransitionKind
  statementPayload : Bytes
  deriving DecidableEq

structure SettlePreparedLayoutV1 where
  current : AccountInfo
  currentWritable : Bool
  next : Option AccountInfo
  marker : AccountInfo
  receipt : AccountInfo
  registry : List AccountInfo
  core : AccountInfo
  shard : Option AccountInfo
  system : AccountInfo
  token : List AccountInfo
  deriving DecidableEq

def takeShard (hasRollover : Bool) (rest : List AccountInfo) :
    Except ProgramError (Option AccountInfo × List AccountInfo) :=
  if hasRollover then do
    let (shard, rest) ← takeAccount rest
    return (some shard, rest)
  else .ok (none, rest)

/-- The next page of a settlement exists already and is writable. -/
def takePreparedNextPage (pool : Pubkey) (currentNumber finalNumber : ℕ) (rest : List AccountInfo) (l : Ledger) :
    Except ProgramError (Option AccountInfo × List AccountInfo) :=
  if finalNumber > currentNumber then do
    let (next, rest) ← takeAccount rest
    require (next.key = (poolV1RootPageAddress env pool finalNumber).1) (.custom .invalidRootPageAddress)
    requireProgramAccount env.programId next l true
    require (next.isSigner = false) .invalidAccountData
    return (some next, rest)
  else .ok (none, rest)

/-- The accounts of a settlement after its history pages. -/
def settleSuffix (current : AccountInfo) (currentWritable : Bool) (next : Option AccountInfo)
    (kind : PoolV1TransitionKind) (suffix : List AccountInfo) : Except ProgramError SettlePreparedLayoutV1 :=
  match suffix with
  | marker :: receipt :: registry :: entry :: core :: rest => do
    let (shard, rest) ← takeShard next.isSome rest
    let (system, token) ← takeAccount rest
    let expected := match kind with
      | .privateTransfer => 0
      | .withdrawal => 5
    require (expected ≤ token.length) .notEnoughAccountKeys
    require (token.length = expected) .invalidArgument
    return ⟨current, currentWritable, next, marker, receipt, [registry, entry], core, shard, system, token⟩
  | _ => .error .notEnoughAccountKeys

def planSettlePreparedLayoutV1 (accounts : List AccountInfo) (s : PoolStateV1) (kind : PoolV1TransitionKind)
    (l : Ledger) : Except ProgramError SettlePreparedLayoutV1 := do
  let (pool, rest) ← takeAccount (accounts.drop 1)
  requireSpendCapacity s kind.appendCount
  let currentNumber := (rootHistoryLocation s.currentRootSequence).pageNumber
  let firstNumber := (rootHistoryLocation (s.currentRootSequence + 1)).pageNumber
  let finalNumber := (rootHistoryLocation (s.currentRootSequence + kind.appendCount)).pageNumber
  require (currentNumber ≤ firstNumber ∧ finalNumber ≤ currentNumber + 1) (.custom .stateHistoryMismatch)
  let (current, rest) ← takeAccount rest
  require (current.key = (poolV1RootPageAddress env pool.key currentNumber).1) (.custom .invalidRootPageAddress)
  let currentWritable := decide (firstNumber = currentNumber)
  requireProgramAccount env.programId current l currentWritable
  require (current.isSigner = false) .invalidAccountData
  let (next, rest) ← takePreparedNextPage env pool.key currentNumber finalNumber rest l
  settleSuffix current currentWritable next kind rest

def requirePreparedPlanAccountV1 (account : AccountInfo) (exactBytes : ℕ) (l : Ledger) : Except ProgramError Unit :=
  require (account.owner l = env.programId ∧ account.executable l = false ∧ account.isSigner = false ∧
    account.isWritable = true ∧ (account.data l).length = exactBytes) .invalidAccountData

def requirePreparedShardAccountV1 (shard : Option AccountInfo) (l : Ledger) : Except ProgramError Unit :=
  match shard with
  | none => .ok ()
  | some account => requirePreparedPlanAccountV1 env account POOL_V1_PREPARED_SETTLEMENT_ROLLOVER_ACCOUNT_BYTES l

def shardAccountView (shard : Option AccountInfo) (l : Ledger) : Option PreparedSettlementRolloverShardAccountV1 :=
  shard.map fun account => ⟨account.key, account.owner l, account.data l⟩

/-- Everything a settlement has checked before its first effect. -/
structure SettlePlanV1 where
  layout : SettlePreparedLayoutV1
  marker : PlannedNullifierMarkerV1
  applied : PreparedSettlementApplyResultV1
  withdrawal : Option LegacyWithdrawalTransferPlanV1
  receipt : TransitionReceiptV1
  deriving DecidableEq

/-- The transition receipt of a settlement. -/
def settleReceipt (kind : PoolV1TransitionKind) (pool : Pubkey) (nullifier : Digest)
    (applied : PreparedSettlementApplyResultV1) : Except ProgramError TransitionReceiptV1 :=
  match kind, applied.statement.action, applied.receipt.second with
  | .privateTransfer, .privateTransfer first second, some last => .ok
      ⟨kind, pool, nullifier, first, encodeDigestCanonical second, 0, applied.receipt.first.leafIndex, last.leafIndex,
        last.rootSequence, last.root⟩
  | .withdrawal, .withdrawal amount destination change, none => .ok
      ⟨kind, pool, nullifier, change, destination.bytes, amount, applied.receipt.first.leafIndex, 0,
        applied.receipt.first.rootSequence, applied.receipt.first.root⟩
  | _, _, _ => .error .invalidAccountData

/-- The payout of a settled withdrawal. -/
def planSettleWithdrawal (pool : Pubkey) (identity : PoolIdentityV1) (token : List AccountInfo)
    (s : CanonicalSettlementStatementV1) (l : Ledger) : Except ProgramError (Option LegacyWithdrawalTransferPlanV1) :=
  match s.withdrawalAmountAndDestination with
  | none => .ok none
  | some (amount, destination) => do
    let plan ← planLegacyWithdrawalTransferFromIdentityV1 env pool identity token destination amount l
    return some plan

/-- The live accounts of a settlement, as its plan is applied to them. -/
def settleContext (authority pool : AccountInfo) (layout : SettlePreparedLayoutV1) (i : SettlePreparedInstructionV1)
    (claim : PreparedSettlementReceiptClaimV1) (selection : AuthenticatedVerifierSelectionV1)
    (planned : PlannedNullifierMarkerV1) (slot : ℕ) (l : Ledger) : PreparedSettlementApplyContextV1 where
  planAddress := layout.core.key
  planOwner := layout.core.owner l
  planAuthority := authority.key
  planImage := layout.core.data l
  rolloverShard := shardAccountView layout.shard l
  pool := pool.key
  sourcePoolImage := pool.data l
  currentPage := layout.current.key
  sourceCurrentPageImage := layout.current.data l
  nextPage := layout.next.map fun a => (a.key, a.data l)
  payload := i.statementPayload
  expectedKind := i.transitionKind
  expectedStatementDigest := claim.statementDigest
  expectedNullifier := claim.nullifier
  receiptAddress := layout.receipt.key
  receiptOwner := layout.receipt.owner l
  receiptImage := layout.receipt.data l
  receiptIsSigner := layout.receipt.isSigner
  receiptIsWritable := layout.receipt.isWritable
  receiptExecutable := layout.receipt.executable l
  selection := selection
  markerAddress := layout.marker.key
  markerPlan := planned
  settlementSlot := slot

def planSettlePrepared (accounts : List AccountInfo) (authority pool : AccountInfo) (i : SettlePreparedInstructionV1)
    (slot : ℕ) (l : Ledger) : Except ProgramError SettlePlanV1 := do
  let c ← CanonicalPoolStateV1.decodeAccount env pool l
  let layout ← planSettlePreparedLayoutV1 env accounts c.state i.transitionKind l
  requireUniqueAccounts accounts
  requirePayerAndSystemProgram authority layout.system l
  requirePreparedPlanAccountV1 env layout.core POOL_V1_PREPARED_SETTLEMENT_CORE_ACCOUNT_BYTES l
  requirePreparedShardAccountV1 env layout.shard l
  let claim ← authenticatePreparedSettlementReceiptClaimV1 env services i.transitionKind i.statementPayload
    layout.receipt slot l
  let selection ← services.authenticateVerifierSelection pool.key c.state.verifierPolicy layout.registry
    claim.verifierSelection slot l
  let planned ← planNullifierMarkerConsumptionV1 env layout.marker claim.marker l
  let applied ← applyPreparedSettlementPlanV1 env services
    (settleContext authority pool layout i claim selection planned slot l)
  let withdrawal ← planSettleWithdrawal env pool.key c.state.identity layout.token applied.statement l
  let receipt ← settleReceipt i.transitionKind pool.key claim.nullifier applied
  validateTransitionReceiptV1 receipt
  return ⟨layout, planned, applied, withdrawal, receipt⟩

/-- The marker is ready and holds its rent. -/
def createNullifierMarkerIfNeededV1 (marker payer system : AccountInfo) (planned : PlannedNullifierMarkerV1) :
    Handler PlannedNullifierMarkerV1 := do
  createMarkerAccountIfNeeded env marker payer system planned
  Exec.query fun l => do
    let ready ← planNullifierMarkerConsumptionV1 env marker planned.marker l
    require (ready.preparation = .populateProgramOwnedZeroed ∧ ready.encodedMarker = planned.encodedMarker ∧
      env.minimumBalance POOL_V1_NULLIFIER_MARKER_ACCOUNT_BYTES ≤ marker.lamports l)
      (.custom .invalidNullifierMarkerAccount)
    return ready

/-- Pay a settled withdrawal. -/
def paySettlement (token : List AccountInfo) (withdrawal : Option LegacyWithdrawalTransferPlanV1) : Handler Unit :=
  match withdrawal with
  | none => pure ()
  | some transfer => payWithdrawal env token transfer

def writeNextPage (next : Option AccountInfo) (image : Option Bytes) : Handler Unit :=
  match next, image with
  | some next, some image => Exec.update (setData next.key image)
  | none, none => pure ()
  | _, _ => Exec.query fun _ => .error .invalidAccountData

/-- Write the prepared images of pool and pages. -/
def writePreparedImages (pool : Pubkey) (layout : SettlePreparedLayoutV1) (applied : PreparedSettlementApplyResultV1) :
    Handler Unit := do
  Exec.update (setData pool applied.nextPoolImage)
  Exec.update fun l => if layout.currentWritable then
    setData layout.current.key applied.nextCurrentPageImage l else l
  writeNextPage layout.next applied.nextRolloverPageImage

def closeShard (shard : Option AccountInfo) (refund : AccountInfo) : Handler Unit :=
  match shard with
  | none => pure ()
  | some account => closeProgramAccount env account refund POOL_V1_PREPARED_SETTLEMENT_ROLLOVER_ACCOUNT_BYTES

/-- Close the shard first, then the core that authenticated it. -/
def closePlanAccounts (core : AccountInfo) (shard : Option AccountInfo) (refund : AccountInfo) : Handler Unit := do
  closeShard env shard refund
  closeProgramAccount env core refund POOL_V1_PREPARED_SETTLEMENT_CORE_ACCOUNT_BYTES

def processSettlePreparedV1 (accounts : List AccountInfo) (i : SettlePreparedInstructionV1) (slot : ℕ) :
    Handler TransitionReceiptV1 :=
  match accounts with
  | authority :: pool :: _ => do
    let plan ← Exec.query (planSettlePrepared env services accounts authority pool i slot)
    let ready ← createNullifierMarkerIfNeededV1 env plan.layout.marker authority plan.layout.system plan.marker
    paySettlement env plan.layout.token plan.withdrawal
    writePreparedImages pool.key plan.layout plan.applied
    Exec.update (setData plan.layout.marker.key ready.encodedMarker)
    closePlanAccounts env plan.layout.core plan.layout.shard authority
    return plan.receipt
  | _ => Exec.query fun _ => .error .notEnoughAccountKeys

/-! ### Cancellation -/

def cancelChecks (authority core : AccountInfo) (shard : Option AccountInfo) (accounts : List AccountInfo) (l : Ledger) :
    Except ProgramError Unit := do
  requireUniqueAccounts accounts
  require (authority.isSigner = true ∧ authority.isWritable = true ∧ authority.executable l = false ∧
    authority.owner l = systemProgram) (.custom .invalidPayer)
  requirePreparedPlanAccountV1 env core POOL_V1_PREPARED_SETTLEMENT_CORE_ACCOUNT_BYTES l
  requirePreparedShardAccountV1 env shard l
  authorizePreparedSettlementPlanCloseV1 env core.key (core.owner l) (core.data l) (shardAccountView shard l)
    authority.key authority.isSigner

def processCancelPreparedSettlementV1 (accounts : List AccountInfo) (hasShard : Bool) : Handler Unit :=
  match hasShard, accounts with
  | false, [authority, core] => do
    Exec.query (cancelChecks env authority core none accounts)
    closePlanAccounts env core none authority
  | true, [authority, core, shard] => do
    Exec.query (cancelChecks env authority core (some shard) accounts)
    closePlanAccounts env core (some shard) authority
  | _, _ => Exec.query fun _ => .error
      (if accounts.length < (if hasShard then 3 else 2) then .notEnoughAccountKeys else .invalidArgument)

/-! ### What a successful instruction did -/

variable {env : Environment} {services : AuthorizationServices}

/-- The steps of a successful preparation. -/
structure PrepareRun (env : Environment) (pool core : AccountInfo) (c : CanonicalPoolStateV1) (r : AuthorizedAppendV1)
    (images : PreparedSettlementPlanImagesV1) (f : PreparedSettlementPlanFieldsV1)
    (prepared : PreparedAuthorizedAppendImagesV1) (shard : Option PlannedShard) (l created l' : Ledger) : Prop where
  pool_owner : (l pool.key).owner = env.programId
  decoded : PoolStateV1.decodeFromProgramInvariant env (l pool.key).data pool.key = .ok c.state
  built : BuiltPlan env pool.key c r images f prepared
  created_call : SystemCall l created
  core_zeroed : (created core.key).owner = env.programId ∧ allZero (created core.key).data = true
  shard_zeroed : ∀ s ∈ shard, (created s.1.key).owner = env.programId ∧ allZero (created s.1.key).data = true ∧
    slice 0 4 s.2.1.image = rolloverMagic
  written : l' = writeShard shard (setData core.key images.coreImage created)

theorem createPrepareRolloverPageIfNeeded_call {pool payer system : AccountInfo} {next : Option (AccountInfo × ℕ)}
    {l l' : Ledger} {prevalidated : Option PrevalidatedNewHistoryPageV1}
    (h : createPrepareRolloverPageIfNeeded env pool payer system next l = .ok prevalidated l') : SystemCall l l' := by
  cases next with
  | none =>
    obtain ⟨-, rfl⟩ := Exec.pure_ok.mp h
    exact SystemCall.refl l
  | some next =>
    simp only [createPrepareRolloverPageIfNeeded, Exec.bind_ok, Exec.query_ok, Exec.pure_ok] at h
    obtain ⟨preparation, _, ⟨-, rfl⟩, _, m, hcreate, _, _, ⟨-, rfl⟩, _, _, ⟨-, rfl⟩, -, rfl⟩ := h
    exact createProgramPdaIfNeeded_call hcreate

theorem createShardIfNeeded_call {payer system : AccountInfo} {shard : Option PlannedShard} {l l' : Ledger} {u : Unit}
    (h : createShardIfNeeded env payer system shard l = .ok u l') : SystemCall l l' := by
  cases shard with
  | none =>
    obtain ⟨-, rfl⟩ := Exec.pure_ok.mp h
    exact SystemCall.refl l
  | some shard => exact createProgramPdaIfNeeded_call h

theorem planShardAccount_ok {account : Option AccountInfo} {image : Option PreparedSettlementRolloverShardImageV1}
    {l : Ledger} {s : PlannedShard} (h : planShardAccount env account image l = .ok (some s)) :
    image = some s.2.1 ∧ planFreshProgramPda env s.1 s.2.1.address
      POOL_V1_PREPARED_SETTLEMENT_ROLLOVER_ACCOUNT_BYTES l = .ok s.2.2 := by
  cases account <;> cases image <;> simp only [planShardAccount, except_bind_eq_ok, except_pure_eq_ok, reduceCtorEq,
    Except.ok.injEq] at h
  obtain ⟨_, -, preparation, hplan, heq⟩ := h
  cases heq
  exact ⟨rfl, hplan⟩

theorem processPrepareSettlementV1_run {accounts : List AccountInfo} {r : PrepareSettlementRequestV1} {slot : ℕ}
    {l l' : Ledger} {u : Unit} (h : processPrepareSettlementV1 env services accounts r slot l = .ok u l') :
    ∃ pool core c images f prepared shard created, accounts[1]? = some pool ∧
      accounts.head?.map (·.key) = some f.planAuthority ∧
      PrepareRun env pool core c r.request images f prepared shard l created l' := by
  unfold processPrepareSettlementV1 at h
  split at h
  · rename_i payer pool rest
    simp only [Exec.bind_ok, Exec.query_ok, Exec.update_ok, except_bind_eq_ok, require_eq_ok, except_pure_eq_ok] at h
    obtain ⟨⟨c, layout, suffix⟩, _, ⟨⟨c', hdecoded, _, -, layout', -, suffix', -, _, -, _, -, heq⟩, rfl⟩,
      prevalidated, built, hbuilt, ⟨images, preparation, shard⟩, _,
      ⟨⟨images', himages, _, -, preparation', hcorePlan, shard', hshardPlan, heq'⟩, rfl⟩, _, m, hcore, _, created,
      hshard, _, _, ⟨hcoreReady, rfl⟩, _, _, ⟨hshardReady, rfl⟩, _, _, rfl, rfl⟩ := h
    cases heq
    cases heq'
    obtain ⟨f, prepared, hplan, hauthority⟩ := buildPreparedSettlementPlanV1_built himages
    obtain ⟨howner, hdecode, -, -⟩ := decodeAccountWith_ok hdecoded
    have hcall := (createProgramPdaIfNeeded_call hcore).trans (createShardIfNeeded_call hshard)
    refine ⟨pool, suffix.core, c, images, f, prepared, shard, created, rfl, by simp [hauthority], howner, hdecode, hplan,
      (createPrepareRolloverPageIfNeeded_call hbuilt).trans hcall,
      requireFreshRentExemptProgramPda_zeroed hcorePlan hcall hcoreReady, ?_, rfl⟩
    rintro s hs
    obtain rfl := Option.mem_def.mp hs
    obtain ⟨himage, hfresh⟩ := planShardAccount_ok hshardPlan
    obtain ⟨_, _, hencoded⟩ := hplan.encoded
    obtain ⟨hown, hzero⟩ := requireFreshRentExemptProgramPda_zeroed hfresh hcall hshardReady
    exact ⟨hown, hzero, encodePreparedSettlementPlanV1_shardMagic env hencoded _ himage⟩
  · simp [Exec.query_ok] at h

/-- The page accounts a settlement was given. -/
structure SettleLayout (env : Environment) (pool : Pubkey) (s : PoolStateV1) (kind : PoolV1TransitionKind)
    (layout : SettlePreparedLayoutV1) (l : Ledger) : Prop where
  current_owner : (l layout.current.key).owner = env.programId
  current_key : layout.current.key =
    (poolV1RootPageAddress env pool (rootHistoryLocation s.currentRootSequence).pageNumber).1
  writable_eq : layout.currentWritable = decide ((rootHistoryLocation (s.currentRootSequence + 1)).pageNumber =
    (rootHistoryLocation s.currentRootSequence).pageNumber)
  next_owner : ∀ next ∈ layout.next, (l next.key).owner = env.programId

theorem takePreparedNextPage_ok {pool : Pubkey} {currentNumber finalNumber : ℕ} {accounts rest : List AccountInfo}
    {l : Ledger} {next : Option AccountInfo}
    (h : takePreparedNextPage env pool currentNumber finalNumber accounts l = .ok (next, rest)) :
    accounts = next.toList ++ rest ∧ ∀ n ∈ next, (l n.key).owner = env.programId := by
  unfold takePreparedNextPage at h
  split_ifs at h
  · simp only [except_bind_eq_ok, except_pure_eq_ok, Prod.mk.injEq, Prod.exists, takeAccount_eq_ok] at h
    obtain ⟨a, rest', rfl, _, -, _, howner, _, -, rfl, rfl⟩ := h
    refine ⟨rfl, fun n hn => ?_⟩
    obtain rfl := Option.some_inj.mp (Option.mem_def.mp hn)
    exact requireProgramAccount_ok howner
  · cases h
    exact ⟨rfl, by simp⟩

theorem settleSuffix_ok {current : AccountInfo} {currentWritable : Bool} {next : Option AccountInfo}
    {kind : PoolV1TransitionKind} {suffix : List AccountInfo} {layout : SettlePreparedLayoutV1}
    (h : settleSuffix current currentWritable next kind suffix = .ok layout) :
    layout.current = current ∧ layout.currentWritable = currentWritable ∧ layout.next = next ∧
      layout.marker ∈ suffix := by
  unfold settleSuffix at h
  split at h
  · simp only [except_bind_eq_ok, except_pure_eq_ok] at h
    obtain ⟨⟨shard, rest⟩, -, ⟨system, token⟩, -, _, -, _, -, rfl⟩ := h
    exact ⟨rfl, rfl, rfl, by simp⟩
  · cases h

theorem planSettlePreparedLayoutV1_ok {accounts : List AccountInfo} {s : PoolStateV1} {kind : PoolV1TransitionKind}
    {l : Ledger} {layout : SettlePreparedLayoutV1}
    (h : planSettlePreparedLayoutV1 env accounts s kind l = .ok layout) :
    ∃ pool skipped suffix, accounts[1]? = some pool ∧ SettleLayout env pool.key s kind layout l ∧
      accounts = skipped ++ layout.next.toList ++ suffix ∧ layout.marker ∈ suffix := by
  simp only [planSettlePreparedLayoutV1, except_bind_eq_ok, require_eq_ok, Prod.exists, takeAccount_eq_ok] at h
  obtain ⟨pool, rest, hdrop, _, -, _, -, current, rest', rfl, _, hkey, _, howner, _, -, next, suffix, hnext,
    hsuffix⟩ := h
  obtain ⟨rfl, hnextOwner⟩ := takePreparedNextPage_ok hnext
  obtain ⟨rfl, hwritable, rfl, hmem⟩ := settleSuffix_ok hsuffix
  have haccounts : accounts = accounts.take 1 ++ pool :: layout.current :: (layout.next.toList ++ suffix) := by
    rw [← hdrop, List.take_append_drop]
  have hpool : accounts[1]? = some pool := by
    rw [← List.head?_drop, hdrop, List.head?_cons]
  refine ⟨pool, accounts.take 1 ++ [pool, layout.current], suffix, hpool,
    ⟨requireProgramAccount_ok howner, hkey, hwritable, hnextOwner⟩, ?_, hmem⟩
  conv_lhs => rw [haccounts]
  simp

/-- The writes of pool and pages. -/
def imagesWritten (pool : Pubkey) (layout : SettlePreparedLayoutV1) (applied : PreparedSettlementApplyResultV1)
    (l : Ledger) : Ledger :=
  let written := setData pool applied.nextPoolImage l
  let written := if layout.currentWritable then setData layout.current.key applied.nextCurrentPageImage written
    else written
  match layout.next, applied.nextRolloverPageImage with
  | some next, some image => setData next.key image written
  | _, _ => written

theorem writePreparedImages_ok {pool : Pubkey} {layout : SettlePreparedLayoutV1}
    {applied : PreparedSettlementApplyResultV1} {l l' : Ledger} {u : Unit}
    (h : writePreparedImages pool layout applied l = .ok u l') : l' = imagesWritten pool layout applied l := by
  simp only [writePreparedImages, Exec.bind_ok, Exec.update_ok] at h
  obtain ⟨_, _, rfl, _, _, rfl, h⟩ := h
  cases hnext : layout.next <;> cases himage : applied.nextRolloverPageImage <;>
    simp only [writeNextPage, hnext, himage, Exec.pure_ok, Exec.query_ok, Exec.update_ok, reduceCtorEq,
      false_and] at h
  · simp [imagesWritten, hnext, ← h.2]
  · simp [imagesWritten, hnext, himage, ← h]

section ImagesWritten
variable (layout : SettlePreparedLayoutV1) (applied : PreparedSettlementApplyResultV1) {pool : Pubkey} {l : Ledger}

theorem imagesWritten_touches :
    Touches (pool :: layout.current.key :: (layout.next.map (·.key)).toList) l
      (imagesWritten pool layout applied l) := by
  intro k hk
  simp only [List.mem_cons, not_or] at hk
  obtain ⟨hpool, hcurrent, hnext⟩ := hk
  unfold imagesWritten
  cases hlayout : layout.next with
  | none => dsimp only; split_ifs <;> simp [setData_of_ne hpool, setData_of_ne hcurrent]
  | some next =>
    have hne : k ≠ next.key := by simpa [hlayout] using hnext
    cases applied.nextRolloverPageImage <;> dsimp only <;> split_ifs <;>
      simp [setData_of_ne hpool, setData_of_ne hcurrent, setData_of_ne hne]

theorem imagesWritten_owner (k : Pubkey) : (imagesWritten pool layout applied l k).owner = (l k).owner := by
  unfold imagesWritten
  cases layout.next <;> cases applied.nextRolloverPageImage <;> dsimp only <;> split_ifs <;> simp

theorem imagesWritten_lamports (k : Pubkey) : (imagesWritten pool layout applied l k).lamports = (l k).lamports := by
  unfold imagesWritten
  cases layout.next <;> cases applied.nextRolloverPageImage <;> dsimp only <;> split_ifs <;> simp

theorem imagesWritten_pool (hcurrent : pool ≠ layout.current.key) (hnext : ∀ n ∈ layout.next, n.key ≠ pool) :
    (imagesWritten pool layout applied l pool).data = applied.nextPoolImage := by
  unfold imagesWritten
  cases hlayout : layout.next with
  | none => dsimp only; split_ifs <;> simp [setData_of_ne hcurrent]
  | some next =>
    have hne := (hnext next hlayout).symm
    cases applied.nextRolloverPageImage <;> dsimp only <;> split_ifs <;>
      simp [setData_of_ne hcurrent, setData_of_ne hne]

theorem imagesWritten_current (hcurrent : layout.current.key ≠ pool)
    (hnext : ∀ n ∈ layout.next, n.key ≠ layout.current.key) :
    (imagesWritten pool layout applied l layout.current.key).data =
      if layout.currentWritable then applied.nextCurrentPageImage else (l layout.current.key).data := by
  unfold imagesWritten
  cases hlayout : layout.next with
  | none => dsimp only; split_ifs <;> simp [setData_of_ne hcurrent]
  | some next =>
    have hne := (hnext next hlayout).symm
    cases applied.nextRolloverPageImage <;> dsimp only <;> split_ifs <;>
      simp [setData_of_ne hcurrent, setData_of_ne hne]

theorem imagesWritten_next {next : AccountInfo} {image : Bytes} (hlayout : layout.next = some next)
    (himage : applied.nextRolloverPageImage = some image) :
    (imagesWritten pool layout applied l next.key).data = image := by
  unfold imagesWritten
  rw [hlayout, himage]
  dsimp only
  rw [setData_self]

end ImagesWritten

/-- The shard, when there is one, and then the core have been closed. -/
def PlanClosed (env : Environment) (core : AccountInfo) (shard : Option AccountInfo) (l l' : Ledger) : Prop :=
  match shard with
  | none => Closed env.programId core.key l l'
  | some shard => ∃ m, Closed env.programId shard.key l m ∧ Closed env.programId core.key m l'

theorem PlanClosed.touches {core : AccountInfo} {shard : Option AccountInfo} {l l' : Ledger}
    (h : PlanClosed env core shard l l') : Touches ((shard.map (·.key)).toList ++ [core.key]) l l' := by
  cases shard with
  | none => exact Closed.touches h
  | some shard =>
    obtain ⟨m, hshard, hcore⟩ := h
    exact hshard.touches.trans hcore.touches

/-- A closed plan leaves no account of the program behind. -/
theorem PlanClosed.disowned {core : AccountInfo} {shard : Option AccountInfo} {l l' : Ledger}
    (h : PlanClosed env core shard l l') :
    ∀ k ∈ (shard.map (·.key)).toList ++ [core.key], (l' k).owner = systemProgram := by
  cases shard with
  | none => simpa using Closed.owner_eq h
  | some shard =>
    obtain ⟨m, hshard, hcore⟩ := h
    have hkept : (l' shard.key).owner = systemProgram := by
      by_cases heq : shard.key = core.key
      · rw [heq]
        exact hcore.owner_eq
      · rw [(hcore.touches shard.key (by simpa using heq)).1]
        exact hshard.owner_eq
    simp [hkept, hcore.owner_eq]

/-- The accounts a settlement reads off its account list. -/
def settleLayout (env : Environment) (accounts : List AccountInfo) (kind : PoolV1TransitionKind) (l : Ledger) :
    Except ProgramError SettlePreparedLayoutV1 :=
  match accounts with
  | _ :: pool :: _ => do
    let c ← CanonicalPoolStateV1.decodeAccount env pool l
    planSettlePreparedLayoutV1 env accounts c.state kind l
  | _ => .error .notEnoughAccountKeys

/-- The steps of a successful settlement. -/
structure SettleRun (env : Environment) (services : AuthorizationServices) (accounts : List AccountInfo)
    (pool : AccountInfo) (kind : PoolV1TransitionKind) (s : PoolStateV1)
    (layout : SettlePreparedLayoutV1) (x : PreparedSettlementApplyContextV1) (v : PreparedSettlementPlanViewV1)
    (a : AuthenticatedSettlementStatementV1) (sourceNext : Option Bytes) (applied : PreparedSettlementApplyResultV1)
    (planned : PlannedNullifierMarkerV1) (withdrawal : Option LegacyWithdrawalTransferPlanV1)
    (l marked paid closing l' : Ledger) (receipt : TransitionReceiptV1) : Prop where
  pool_owner : (l pool.key).owner = env.programId
  decoded : PoolStateV1.decodeWithValidatedTree env (l pool.key).data pool.key = .ok s
  pages : SettleLayout env pool.key s kind layout l
  context_pool : x.pool = pool.key
  context_kind : x.expectedKind = kind
  context_core : x.planAddress = layout.core.key ∧ x.planImage = (l layout.core.key).data
  context_source : x.sourcePoolImage = (l pool.key).data
  context_current : x.sourceCurrentPageImage = (l layout.current.key).data
  context_next : x.nextPage = layout.next.map fun next => (next.key, (l next.key).data)
  context_shard : x.rolloverShard = shardAccountView layout.shard l
  context_receipt : x.receiptImage = (l layout.receipt.key).data
  context_marker : x.markerPlan = planned
  layout_eq : settleLayout env accounts kind l = .ok layout
  core_owner : (l layout.core.key).owner = env.programId
  shard_owner : ∀ shard ∈ layout.shard, (l shard.key).owner = env.programId
  applied_plan : AppliedPlan env services x v a sourceNext applied
  marked_call : SystemCall l marked
  marked_lamports : LamportsKept l marked
  paid_step : Paid env layout.token withdrawal marked paid
  payout : PayoutPlanned env pool.key layout.token withdrawal a.statement receipt l
  marker_planned : PlannedMarkerSpec env layout.marker planned.marker l planned
  marker_ne_next : ∀ account ∈ layout.next, account.key ≠ layout.marker.key
  marker_ready : FreshMarkerAccount env layout.marker marked .populateProgramOwnedZeroed
  written : closing = setData layout.marker.key planned.encodedMarker (imagesWritten pool.key layout applied paid)
  closed : PlanClosed env layout.core layout.shard closing l'
  refunded : Refunds ((layout.shard.map (·.key)).toList ++ [layout.core.key]) v.fields.planAuthority closing l'
  marker_pool : planned.marker.pool = pool.key
  marker_nullifier : planned.marker.nullifier = receipt.nullifier
  receipt_pool : receipt.pool = pool.key
  receipt_outputs : receipt.outputs = v.fields.firstCommitment :: v.fields.secondCommitment.toList

theorem closePlanAccounts_closed {core refund : AccountInfo} {shard : Option AccountInfo} {l l' : Ledger} {u : Unit}
    (h : closePlanAccounts env core shard refund l = .ok u l') : PlanClosed env core shard l l' := by
  simp only [closePlanAccounts, Exec.bind_ok] at h
  obtain ⟨_, m, hshard, hcore⟩ := h
  cases shard with
  | none =>
    obtain ⟨-, rfl⟩ := Exec.pure_ok.mp hshard
    exact closeProgramAccount_closed hcore
  | some shard => exact ⟨m, closeProgramAccount_closed hshard, closeProgramAccount_closed hcore⟩

/-- Both plan accounts are refunded to one authority. -/
theorem closePlanAccounts_refunds {core refund : AccountInfo} {shard : Option AccountInfo} {l l' : Ledger} {u : Unit}
    (h : closePlanAccounts env core shard refund l = .ok u l') :
    Refunds ((shard.map (·.key)).toList ++ [core.key]) refund.key l l' := by
  simp only [closePlanAccounts, Exec.bind_ok] at h
  obtain ⟨_, m, hshard, hcore⟩ := h
  have hcoreRefunds := closeProgramAccount_refunds hcore
  cases shard with
  | none =>
    obtain ⟨-, rfl⟩ := Exec.pure_ok.mp hshard
    exact hcoreRefunds
  | some shard =>
    have hshardRefunds := closeProgramAccount_refunds hshard
    -- the shard is no longer the program's when the core is closed
    have hne : core.key ≠ shard.key := by
      intro heq
      have howned := (closeProgramAccount_closed hcore).owned
      rw [heq, (closeProgramAccount_closed hshard).owner_eq] at howned
      exact env.programId_ne_system howned.symm
    have hrefundShard : refund.key ≠ shard.key := by simpa using hshardRefunds.fresh
    have hrefundCore : refund.key ≠ core.key := by simpa using hcoreRefunds.fresh
    have hcoreKept := hshardRefunds.others core.key (by simpa using hne) hrefundCore.symm
    have hshardKept := hcoreRefunds.others shard.key (by simpa using hne.symm) hrefundShard.symm
    refine ⟨by simp [hrefundShard, hrefundCore], ?_, ?_, fun k hk hk' => ?_, hcoreRefunds.total.trans hshardRefunds.total⟩
    · simp [hshardKept, hshardRefunds.emptied, hcoreRefunds.emptied]
    · have hfirst := hshardRefunds.refunded
      have hsecond := hcoreRefunds.refunded
      simp only [List.map_cons, List.map_nil, List.sum_cons, List.sum_nil, Option.map_some, Option.toList_some,
        List.cons_append, List.nil_append] at hfirst hsecond ⊢
      omega
    · simp only [Option.map_some, Option.toList_some, List.cons_append, List.nil_append, List.mem_cons, List.not_mem_nil,
        or_false, not_or] at hk
      rw [hcoreRefunds.others k (by simpa using hk.2) hk', hshardRefunds.others k (by simpa using hk.1) hk']

theorem settleReceipt_ok {kind : PoolV1TransitionKind} {pool : Pubkey} {nullifier : Digest}
    {applied : PreparedSettlementApplyResultV1} {receipt : TransitionReceiptV1} {u : Unit}
    (h : settleReceipt kind pool nullifier applied = .ok receipt) (hvalid : validateTransitionReceiptV1 receipt = .ok u) :
    receipt.pool = pool ∧ receipt.nullifier = nullifier ∧ receipt.outputs =
      applied.statement.orderedCommitments.1 :: applied.statement.orderedCommitments.2.toList := by
  cases kind <;> cases haction : applied.statement.action <;> cases hsecond : applied.receipt.second <;>
    simp only [settleReceipt, haction, hsecond, reduceCtorEq, Except.ok.injEq] at h
  · subst h
    simp only [validateTransitionReceiptV1, except_bind_eq_ok, require_eq_ok, Option.isSome_iff_exists] at hvalid
    obtain ⟨_, -, ⟨d, hd⟩, -⟩ := hvalid
    have heq := encodeDigestCanonical_inj (encode_decodeDigestCanonical (by simp) hd)
    subst heq
    simp [TransitionReceiptV1.outputs, CanonicalSettlementStatementV1.orderedCommitments, haction, hd]
  · subst h
    simp [TransitionReceiptV1.outputs, CanonicalSettlementStatementV1.orderedCommitments, haction]

theorem planSettleWithdrawal_ok {pool : Pubkey} {identity : PoolIdentityV1} {token : List AccountInfo}
    {kind : PoolV1TransitionKind} {nullifier : Digest} {applied : PreparedSettlementApplyResultV1} {l : Ledger}
    {withdrawal : Option LegacyWithdrawalTransferPlanV1} {receipt : TransitionReceiptV1}
    (hpool : pool = (poolV1StateAddress env identity.assetMint).1)
    (h : planSettleWithdrawal env pool identity token applied.statement l = .ok withdrawal)
    (hreceipt : settleReceipt kind pool nullifier applied = .ok receipt) :
    PayoutPlanned env pool token withdrawal applied.statement receipt l := by
  cases kind <;> cases haction : applied.statement.action <;> cases hsecond : applied.receipt.second <;>
    simp only [settleReceipt, haction, hsecond, reduceCtorEq, Except.ok.injEq] at hreceipt
  · subst hreceipt
    simp only [planSettleWithdrawal, CanonicalSettlementStatementV1.withdrawalAmountAndDestination, haction] at h
    cases h
    exact ⟨rfl, by simp [CanonicalSettlementStatementV1.withdrawalAmountAndDestination, haction]⟩
  · subst hreceipt
    simp only [planSettleWithdrawal, CanonicalSettlementStatementV1.withdrawalAmountAndDestination, haction,
      except_bind_eq_ok, except_pure_eq_ok] at h
    obtain ⟨plan, hplan, rfl⟩ := h
    exact ⟨rfl, identity, _, hpool, by simp [CanonicalSettlementStatementV1.withdrawalAmountAndDestination, haction],
      hplan⟩

theorem createNullifierMarkerIfNeededV1_ok {marker payer system : AccountInfo}
    {planned ready : PlannedNullifierMarkerV1} {l l' : Ledger}
    (h : createNullifierMarkerIfNeededV1 env marker payer system planned l = .ok ready l') :
    (SystemCall l l' ∧ LamportsKept l l') ∧ FreshMarkerAccount env marker l' .populateProgramOwnedZeroed ∧
      ready.encodedMarker = planned.encodedMarker := by
  simp only [createNullifierMarkerIfNeededV1, Exec.bind_ok, Exec.query_ok, except_bind_eq_ok, require_eq_ok,
    except_pure_eq_ok] at h
  obtain ⟨_, m, hcreate, ⟨ready', hplan, _, ⟨hprep, hencoded, -⟩, rfl⟩, rfl⟩ := h
  exact ⟨⟨createMarkerAccountIfNeeded_call hcreate, createMarkerAccountIfNeeded_lamports hcreate⟩, hprep ▸ (planNullifierMarkerConsumptionV1_spec env hplan).fresh,
    hencoded⟩

theorem paySettlement_paid {token : List AccountInfo} {withdrawal : Option LegacyWithdrawalTransferPlanV1}
    {l l' : Ledger} {u : Unit} (h : paySettlement env token withdrawal l = .ok u l') :
    Paid env token withdrawal l l' := by
  cases withdrawal with
  | none => exact (Exec.pure_ok.mp h).2.symm
  | some transfer =>
    simp only [paySettlement, payWithdrawal, Exec.bind_ok, Exec.call_ok, Exec.query_ok] at h
    obtain ⟨_, m, htransfer, hdelta, rfl⟩ := h
    exact ⟨htransfer, hdelta⟩

theorem requirePreparedShardAccountV1_ok {shard : Option AccountInfo} {l : Ledger} {u : Unit}
    (h : requirePreparedShardAccountV1 env shard l = .ok u) :
    ∀ account ∈ shard, (l account.key).owner = env.programId := by
  intro account hmem
  obtain rfl := Option.mem_def.mp hmem
  simp only [requirePreparedShardAccountV1, requirePreparedPlanAccountV1, require_eq_ok] at h
  exact h.1

/-- A settlement that gets past its checks has applied the plan in its core account. -/
theorem planSettlePrepared_applied {authority pool : AccountInfo} {rest : List AccountInfo}
    {i : SettlePreparedInstructionV1} {slot : ℕ} {l : Ledger} {plan : SettlePlanV1}
    (h : planSettlePrepared env services (authority :: pool :: rest) authority pool i slot l = .ok plan) :
    settleLayout env (authority :: pool :: rest) i.transitionKind l = .ok plan.layout ∧ ∃ x v a sourceNext,
      AppliedPlan env services x v a sourceNext plan.applied ∧ x.planAddress = plan.layout.core.key ∧
      x.planImage = (l plan.layout.core.key).data ∧ x.pool = pool.key ∧ x.sourcePoolImage = (l pool.key).data := by
  simp only [planSettlePrepared, except_bind_eq_ok, except_pure_eq_ok] at h
  obtain ⟨c, hc, layout, hlayout, _, -, _, -, _, -, _, -, claim, -, selection, -, planned, -, applied, happlied, _, -,
    _, -, _, -, rfl⟩ := h
  obtain ⟨v, a, sourceNext, hplan⟩ := applyPreparedSettlementPlanV1_applied happlied
  refine ⟨?_, _, v, a, sourceNext, hplan, rfl, rfl, rfl, rfl⟩
  simp only [settleLayout, except_bind_eq_ok]
  exact ⟨c, hc, hlayout⟩

/-- A settlement whose checks fail writes nothing. -/
theorem processSettlePreparedV1_refused {authority pool : AccountInfo} {rest : List AccountInfo}
    {i : SettlePreparedInstructionV1} {slot : ℕ} {l : Ledger}
    (h : ∀ plan, planSettlePrepared env services (authority :: pool :: rest) authority pool i slot l ≠ .ok plan) :
    ∃ e, processSettlePreparedV1 env services (authority :: pool :: rest) i slot l = .error e l := by
  cases hplan : planSettlePrepared env services (authority :: pool :: rest) authority pool i slot l with
  | ok plan => exact absurd hplan (h plan)
  | error e => exact ⟨e, Exec.bind_error.mpr (.inl (Exec.query_error.mpr ⟨hplan, rfl⟩))⟩

theorem processSettlePreparedV1_run {accounts : List AccountInfo} {i : SettlePreparedInstructionV1} {slot : ℕ}
    {l l' : Ledger} {receipt : TransitionReceiptV1}
    (h : processSettlePreparedV1 env services accounts i slot l = .ok receipt l') :
    ∃ pool s layout x v a sourceNext applied planned withdrawal marked paid closing, accounts[1]? = some pool ∧
      x.payload = i.statementPayload ∧ SettleRun env services accounts pool i.transitionKind s layout x v a sourceNext
        applied planned withdrawal l marked paid closing l' receipt := by
  unfold processSettlePreparedV1 at h
  split at h
  · rename_i authority pool rest
    simp only [Exec.bind_ok, Exec.query_ok, Exec.update_ok, Exec.pure_ok, planSettlePrepared, except_bind_eq_ok,
      except_pure_eq_ok] at h
    obtain ⟨plan, _, ⟨⟨c, hdecoded, layout, hlayout, _, hunique, _, -, _, hcore, _, hshard, claim, -, selection, -,
      planned, hplanned, applied, happlied, withdrawal, hwithdrawal, receipt, hreceipt, _, hvalid, rfl⟩, rfl⟩, ready,
      marked, hready, _, paid, hpaid, _, written, hwritten, _, _, rfl, _, _, hclosed, rfl, rfl⟩ := h
    obtain ⟨howner, hdecode, -, haddress⟩ := decodeAccountWith_ok hdecoded
    obtain ⟨pool', skipped, suffix, hpool, hpages, hsplit, hmem⟩ := planSettlePreparedLayoutV1_ok hlayout
    obtain rfl : pool = pool' := by simpa using hpool
    obtain ⟨v, a, sourceNext, hplan⟩ := applyPreparedSettlementPlanV1_applied happlied
    obtain ⟨⟨hcall, hlamports⟩, hfresh, hencoded⟩ := createNullifierMarkerIfNeededV1_ok hready
    obtain ⟨hreceiptPool, hreceiptNullifier, houtputs⟩ := settleReceipt_ok hreceipt hvalid
    obtain ⟨hmarkerPool, hmarkerNullifier⟩ := hplan.marker_eq
    have hmarker := planNullifierMarkerConsumptionV1_spec env hplanned
    rw [requirePreparedPlanAccountV1, require_eq_ok] at hcore
    refine ⟨pool, c.state, layout, settleContext authority pool layout i claim selection planned slot l, v, a,
      sourceNext, applied, planned, withdrawal, marked, paid, setData layout.marker.key ready.encodedMarker written,
      rfl, rfl, ?_⟩
    exact {
      pool_owner := howner
      decoded := hdecode
      pages := hpages
      context_pool := rfl
      context_kind := rfl
      context_core := ⟨rfl, rfl⟩
      context_source := rfl
      context_current := rfl
      context_next := rfl
      context_shard := rfl
      context_receipt := rfl
      context_marker := rfl
      layout_eq := by
        simp only [settleLayout, except_bind_eq_ok]
        exact ⟨c, hdecoded, hlayout⟩
      core_owner := hcore.1
      shard_owner := requirePreparedShardAccountV1_ok hshard
      applied_plan := hplan
      marked_call := hcall
      marked_lamports := hlamports
      paid_step := paySettlement_paid hpaid
      payout := hplan.statement_eq ▸ planSettleWithdrawal_ok haddress hwithdrawal hreceipt
      marker_planned := hmarker.marker_eq.symm ▸ hmarker
      marker_ne_next := ne_next_of_unique hunique hsplit hmem
      marker_ready := hfresh
      written := by rw [← writePreparedImages_ok hwritten, hencoded]
      closed := closePlanAccounts_closed hclosed
      refunded := hplan.authority_eq ▸ closePlanAccounts_refunds hclosed
      marker_pool := hmarkerPool
      marker_nullifier := hmarkerNullifier.trans hreceiptNullifier.symm
      receipt_pool := hreceiptPool
      receipt_outputs := by rw [houtputs, hplan.statement_eq, hplan.commitments_eq] }
  · simp [Exec.query_ok] at h

/-- The steps of a successful cancellation. -/
structure CancelRun (env : Environment) (core : AccountInfo) (shard : Option AccountInfo) (l l' : Ledger) : Prop where
  core_owner : (l core.key).owner = env.programId
  shard_owner : ∀ account ∈ shard, (l account.key).owner = env.programId
  decoded : ∃ v, decodePreparedSettlementPlanV1 env core.key (l core.key).data (shardAccountView shard l) = .ok v ∧
    Refunds ((shard.map (·.key)).toList ++ [core.key]) v.fields.planAuthority l l'
  closed : PlanClosed env core shard l l'

theorem cancelChecks_run {authority core : AccountInfo} {shard : Option AccountInfo} {accounts : List AccountInfo}
    {l l' : Ledger} {u : Unit} (h : cancelChecks env authority core shard accounts l = .ok u)
    (hclosed : PlanClosed env core shard l l')
    (hrefunds : Refunds ((shard.map (·.key)).toList ++ [core.key]) authority.key l l') :
    CancelRun env core shard l l' := by
  simp only [cancelChecks, authorizePreparedSettlementPlanCloseV1, except_bind_eq_ok, mapErr_eq_ok,
    requirePreparedPlanAccountV1, require_eq_ok] at h
  obtain ⟨_, -, _, -, _, ⟨howner, -⟩, _, hshard, _, -, v, hv, hauthority, -⟩ := h
  exact ⟨howner, requirePreparedShardAccountV1_ok hshard, ⟨v, hv, hauthority ▸ hrefunds⟩, hclosed⟩

theorem processCancelPreparedSettlementV1_run {accounts : List AccountInfo} {hasShard : Bool} {l l' : Ledger} {u : Unit}
    (h : processCancelPreparedSettlementV1 env accounts hasShard l = .ok u l') :
    ∃ core shard, accounts[1]? = some core ∧ CancelRun env core shard l l' := by
  unfold processCancelPreparedSettlementV1 at h
  split at h
  · simp only [Exec.bind_ok, Exec.query_ok] at h
    obtain ⟨_, _, ⟨hchecks, rfl⟩, hclosed⟩ := h
    exact ⟨_, _, rfl, cancelChecks_run hchecks (closePlanAccounts_closed hclosed) (closePlanAccounts_refunds hclosed)⟩
  · simp only [Exec.bind_ok, Exec.query_ok] at h
    obtain ⟨_, _, ⟨hchecks, rfl⟩, hclosed⟩ := h
    exact ⟨_, _, rfl, cancelChecks_run hchecks (closePlanAccounts_closed hclosed) (closePlanAccounts_refunds hclosed)⟩
  · simp [Exec.query_ok] at h

end

end Aspis.Pool
