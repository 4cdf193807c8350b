import Aspis.Forest.Spend

/-! Initialization and checkpoints of the pair forest. An initialization makes
the master and all eight lanes at once; a checkpoint reads the eight lanes,
binds their sequences to one global root in an account of its own and moves the
master on. -/

namespace Aspis.Forest

open Lib Chain Statement Pool

section
variable (env : Environment)

/-! ### Initialization -/

def requireForestMintAccount (init : PoolInitializationV1) (mint : AccountInfo) (l : Ledger) :
    Except ProgramError Unit := do
  require (mint.key = init.assetMint ∧ init.tokenProgram = LEGACY_SPL_TOKEN_PROGRAM_ID ∧
    mint.owner l = LEGACY_SPL_TOKEN_PROGRAM_ID ∧ mint.executable l = false ∧ mint.isSigner = false ∧
    mint.isWritable = false ∧ (mint.data l).length = 82) (.custom .invalidMint)
  let _ ← parseLegacyMintV1 (mint.data l)

def genesisLaneState (master : Pubkey) (lane : LaneIdV2) : PoolV1PairForestLaneStateV1 :=
  ⟨master, laneByte lane, ⟨0, pairEmptyRoots env POOL_V1_TREE_DEPTH, fun level => pairEmptyRoots env level⟩⟩

def genesisMaster (master : Pubkey) (init : PoolInitializationV1) : PoolV1PairForestMasterV1 where
  identity := ⟨master, init.assetMint, init.tokenProgram, init.assetId, init.deploymentDomain⟩
  verifierPolicy := init.verifierPolicy
  initializedLaneMask := POOL_V1_PAIR_FOREST_ALL_LANES_MASK
  hasCheckpoint := false
  nextCheckpointSequence := 0
  lastCheckpointLaneSequences := fun _ => 0

def forestMasterImageBoxV1 (master : Pubkey) (init : PoolInitializationV1) : Except ProgramError Bytes :=
  mapErr (fun _ => .custom .stateHistoryMismatch) (encodePoolV1PairForestMasterV1 (genesisMaster master init))

def genesisLaneImageBoxV1 (master : Pubkey) (lane : LaneIdV2) : Except ProgramError Bytes :=
  mapErr (fun _ => .custom .stateHistoryMismatch)
    (encodePoolV1PairForestLaneStateV1 env (genesisLaneState env master lane))

structure PlannedForestInitializationV1 where
  master : AccountInfo
  lanes : LaneIdV2 → AccountInfo
  mint : AccountInfo
  vault : AccountInfo
  payer : AccountInfo
  system : AccountInfo
  init : PoolInitializationV1
  masterPreparation : FreshPdaPreparationV1
  vaultPreparation : VaultPreparationV1
  lanePreparations : LaneIdV2 → FreshPdaPreparationV1
  masterImage : Bytes
  laneImages : LaneIdV2 → Bytes

/-- The eight lane accounts after the master. -/
def laneAccounts (accounts : List AccountInfo) : Except ProgramError (LaneIdV2 → AccountInfo) :=
  collect fun lane => okOr accounts[1 + (lane : ℕ)]? .notEnoughAccountKeys

/-- Every check of an initialization, and the images it will write. -/
def planForestInitialization (accounts : List AccountInfo) (data : Bytes) (l : Ledger) :
    Except ProgramError PlannedForestInitializationV1 := do
  requireExactAccountCount accounts 14
  requireUniqueAccounts accounts
  let init ← mapErr (fun _ => .invalidInstructionData) (decodePairForestInitializeInstructionV1 data)
  let master ← okOr accounts[0]? .notEnoughAccountKeys
  let lanes ← laneAccounts accounts
  let mint ← okOr accounts[9]? .notEnoughAccountKeys
  let vault ← okOr accounts[10]? .notEnoughAccountKeys
  let tokenProgram ← okOr accounts[11]? .notEnoughAccountKeys
  let payer ← okOr accounts[12]? .notEnoughAccountKeys
  let system ← okOr accounts[13]? .notEnoughAccountKeys
  requirePayerAndSystemProgram payer system l
  requireTokenProgramAccount tokenProgram l
  requireForestMintAccount init mint l
  let expectedMaster := (poolV1PairForestMasterAddress env env.programId mint.key).1
  let masterPreparation ← planFreshProgramPda env master expectedMaster POOL_V1_PAIR_FOREST_MASTER_ACCOUNT_BYTES l
  let vaultPreparation ← planVaultInitialization env expectedMaster mint.key vault l
  let lanePreparations ← collect fun lane =>
    planFreshProgramPda env (lanes lane) (poolV1PairForestLaneAddress env env.programId expectedMaster lane).1
      POOL_V1_PAIR_FOREST_LANE_ACCOUNT_BYTES l
  let masterImage ← forestMasterImageBoxV1 expectedMaster init
  let laneImages ← collect (genesisLaneImageBoxV1 env expectedMaster)
  return ⟨master, lanes, mint, vault, payer, system, init, masterPreparation, vaultPreparation, lanePreparations,
    masterImage, laneImages⟩

/-- Create the lane accounts that do not exist yet, in order. -/
def createLanes (plan : PlannedForestInitializationV1) : List LaneIdV2 → Handler Unit
  | [] => pure ()
  | lane :: rest => do
    createProgramPdaIfNeeded env plan.payer (plan.lanes lane) plan.system POOL_V1_PAIR_FOREST_LANE_ACCOUNT_BYTES
      (plan.lanePreparations lane)
    createLanes plan rest

/-- Write the lane images, in order. -/
def writeLanes (lanes : LaneIdV2 → AccountInfo) (images : LaneIdV2 → Bytes) : List LaneIdV2 → Ledger → Ledger
  | [], l => l
  | lane :: rest, l => writeLanes lanes images rest (setData (lanes lane).key (images lane) l)

def processPairForestInitializeV1 (accounts : List AccountInfo) (data : Bytes) : Handler Unit := do
  let plan ← Exec.query (planForestInitialization env accounts data)
  createProgramPdaIfNeeded env plan.payer plan.master plan.system POOL_V1_PAIR_FOREST_MASTER_ACCOUNT_BYTES
    plan.masterPreparation
  createLanes env plan (List.finRange 8)
  initializeVaultAccount env plan.master.key plan.mint plan.vault plan.payer plan.system plan.vaultPreparation
  Exec.query (requireProgramOwnedZeroed env plan.master POOL_V1_PAIR_FOREST_MASTER_ACCOUNT_BYTES)
  let _ ← Exec.query fun l => collect fun lane =>
    requireProgramOwnedZeroed env (plan.lanes lane) POOL_V1_PAIR_FOREST_LANE_ACCOUNT_BYTES l
  Exec.update (setData plan.master.key plan.masterImage)
  Exec.update (writeLanes plan.lanes plan.laneImages (List.finRange 8))

/-! ### The plan of a checkpoint -/

/-- The sequence of one lane, if the lane is the one its place in the list says. -/
def checkpointLaneSequence (master : PoolV1PairForestMasterV1) (lanes : LaneIdV2 → PoolV1PairForestLaneStateV1)
    (lane : LaneIdV2) : Except PoolV1PairForestAccountErrorV1 ℕ := do
  require ((lanes lane).master = master.identity.pool) .laneMasterMismatch
  require ((lanes lane).laneId.toNat = lane) .laneOrderMismatch
  require ((lanes lane).tree.nextLeafIndex ≤ POOL_V1_PAIR_CAPACITY) .invalidMasterState
  return (lanes lane).tree.nextLeafIndex

/-- After a first checkpoint no lane falls behind it and some lane is past it. -/
def requireLaneProgress (master : PoolV1PairForestMasterV1) (sequences : LaneSequences) :
    Except PoolV1PairForestAccountErrorV1 Unit :=
  if master.hasCheckpoint then do
    require (∀ lane, master.lastCheckpointLaneSequences lane ≤ sequences lane) .laneSequenceDecreased
    require (∃ lane, master.lastCheckpointLaneSequences lane < sequences lane) .duplicateCheckpoint
  else .ok ()

def planPoolV1PairForestCheckpointV1 (master : PoolV1PairForestMasterV1)
    (lanes : LaneIdV2 → PoolV1PairForestLaneStateV1) (globalRoot : Digest) :
    Except PoolV1PairForestAccountErrorV1 PoolV1PairForestCheckpointPlanV1 := do
  validateMaster master
  require (master.initializedLaneMask = POOL_V1_PAIR_FOREST_ALL_LANES_MASK) .invalidMasterState
  require (DigestIsCanonical globalRoot) .nonCanonicalDigest
  let sequences ← collect (checkpointLaneSequence master lanes)
  requireLaneProgress master sequences
  require (master.nextCheckpointSequence + 1 < U64_LIMIT) .checkpointSequenceOverflow
  let nextMaster : PoolV1PairForestMasterV1 := { master with
    hasCheckpoint := true
    nextCheckpointSequence := master.nextCheckpointSequence + 1
    lastCheckpointLaneSequences := sequences }
  validateMaster nextMaster
  return ⟨nextMaster, ⟨master.identity.pool, master.identity.deploymentDomain, master.nextCheckpointSequence, globalRoot,
    sequences⟩⟩

structure PlannedPairForestCheckpointAccountsV1 where
  master : Pubkey
  checkpoint : Pubkey
  laneSequences : LaneSequences
  nextMasterImage : Bytes
  checkpointImage : Bytes

def requireAliasFree (master : AccountInfo) (lanes : LaneIdV2 → AccountInfo) (checkpoint : AccountInfo) :
    Except ProgramError Unit := do
  require (master.key ≠ checkpoint.key) .invalidArgument
  require (∀ lane, (lanes lane).key ≠ master.key ∧ (lanes lane).key ≠ checkpoint.key ∧
    ∀ previous, previous < lane → (lanes previous).key ≠ (lanes lane).key) .invalidArgument

def planPairForestCheckpointAccountsV1 (masterAccount : AccountInfo) (lanes : LaneIdV2 → AccountInfo)
    (checkpoint : AccountInfo) (l : Ledger) : Except ProgramError PlannedPairForestCheckpointAccountsV1 := do
  requireAliasFree masterAccount lanes checkpoint
  let master ← decodeMasterAccount env masterAccount true l
  let states ← collect fun lane => decodeLaneAccount env masterAccount.key lane (lanes lane) false l
  let globalRoot := poolV1PairForestGlobalRootV1 env.treeParent fun lane => (states lane).tree.root
  let plan ← mapErr (fun _ => .custom .stateHistoryMismatch) (planPoolV1PairForestCheckpointV1 master states globalRoot)
  let expected := (poolV1PairForestCheckpointAddress env env.programId masterAccount.key
    plan.checkpoint.checkpointSequence).1
  let _ ← planFreshProgramPda env checkpoint expected POOL_V1_PAIR_FOREST_CHECKPOINT_ACCOUNT_BYTES l
  let nextMasterImage ← mapErr (fun _ => .custom .stateHistoryMismatch)
    (encodePoolV1PairForestMasterV1 plan.nextMaster)
  let checkpointImage ← mapErr (fun _ => .custom .stateHistoryMismatch)
    (encodePoolV1PairForestCheckpointV1 plan.checkpoint)
  return ⟨masterAccount.key, expected, plan.checkpoint.laneSequences, nextMasterImage, checkpointImage⟩

/-- The checks of a checkpoint instruction and the accounts it will write. -/
structure PlannedForestCheckpointV1 where
  master : AccountInfo
  lanes : LaneIdV2 → AccountInfo
  checkpoint : AccountInfo
  payer : AccountInfo
  system : AccountInfo
  planned : PlannedPairForestCheckpointAccountsV1
  preparation : FreshPdaPreparationV1

def planForestCheckpoint (accounts : List AccountInfo) (data : Bytes) (l : Ledger) :
    Except ProgramError PlannedForestCheckpointV1 := do
  decodePairForestCheckpointInstructionV1 data
  requireExactAccountCount accounts 12
  requireUniqueAccounts accounts
  let master ← okOr accounts[0]? .notEnoughAccountKeys
  let lanes ← laneAccounts accounts
  let checkpoint ← okOr accounts[9]? .notEnoughAccountKeys
  let payer ← okOr accounts[10]? .notEnoughAccountKeys
  let system ← okOr accounts[11]? .notEnoughAccountKeys
  requirePayerAndSystemProgram payer system l
  let planned ← planPairForestCheckpointAccountsV1 env master lanes checkpoint l
  let preparation ← planFreshProgramPda env checkpoint planned.checkpoint
    POOL_V1_PAIR_FOREST_CHECKPOINT_ACCOUNT_BYTES l
  return ⟨master, lanes, checkpoint, payer, system, planned, preparation⟩

/-- The sequence that the seeds of a new checkpoint account take is read back from the image. -/
def checkpointSeedSequence (planned : PlannedPairForestCheckpointAccountsV1) (preparation : FreshPdaPreparationV1) :
    Except ProgramError Unit :=
  if preparation = .createOrAllocateSystemOwned then do
    let _ ← mapErr (fun _ => .custom .stateHistoryMismatch) (decodePoolV1PairForestCheckpointV1 planned.checkpointImage)
  else .ok ()

def processPairForestCheckpointV1 (accounts : List AccountInfo) (data : Bytes) : Handler Unit := do
  let plan ← Exec.query (planForestCheckpoint env accounts data)
  Exec.query fun _ => checkpointSeedSequence plan.planned plan.preparation
  prepareZeroedAccount env plan.payer plan.checkpoint plan.system POOL_V1_PAIR_FOREST_CHECKPOINT_ACCOUNT_BYTES
    plan.preparation
  Exec.update (setData plan.checkpoint.key plan.planned.checkpointImage)
  Exec.update (setData plan.master.key plan.planned.nextMasterImage)

/-! ### What a successful initialization did -/

variable {env : Environment}

/-- What the plan of an initialization has checked. -/
structure ForestInitializationSpec (env : Environment) (plan : PlannedForestInitializationV1) (l : Ledger) : Prop where
  master_eq : plan.master.key = (poolV1PairForestMasterAddress env env.programId plan.mint.key).1
  lane_eq : ∀ lane, (plan.lanes lane).key = (poolV1PairForestLaneAddress env env.programId plan.master.key lane).1
  vault_planned : planVaultInitialization env plan.master.key plan.mint.key plan.vault l = .ok plan.vaultPreparation
  master_encoded : encodePoolV1PairForestMasterV1 (genesisMaster plan.master.key plan.init) = .ok plan.masterImage
  lane_encoded : ∀ lane, encodePoolV1PairForestLaneStateV1 env (genesisLaneState env plan.master.key lane) =
    .ok (plan.laneImages lane)
  master_ne : ∀ lane, (plan.lanes lane).key ≠ plan.master.key
  lanes_ne : ∀ lane other, lane ≠ other → (plan.lanes lane).key ≠ (plan.lanes other).key

theorem planForestInitialization_spec {accounts : List AccountInfo} {data : Bytes}
    {plan : PlannedForestInitializationV1} {l : Ledger} (h : planForestInitialization env accounts data l = .ok plan) :
    ForestInitializationSpec env plan l := by
  simp only [planForestInitialization, laneAccounts, forestMasterImageBoxV1, genesisLaneImageBoxV1, except_bind_eq_ok,
    mapErr_eq_ok, okOr_eq_ok, collect_eq_ok, except_pure_eq_ok] at h
  obtain ⟨-, -, _, hunique, init, -, master, hmaster, lanes, hlanes, mint, -, vault, -, tokenProgram, -, payer, -, system,
    -, -, -, -, -, -, -, masterPreparation, hfresh, vaultPreparation, hvault, lanePreparations, hlaneFresh, masterImage,
    hmasterImage, laneImages, hlaneImages, rfl⟩ := h
  have hkey := planFreshProgramPda_key hfresh
  rw [← hkey] at hvault hlaneFresh hmasterImage hlaneImages
  refine ⟨hkey, fun lane => planFreshProgramPda_key (hlaneFresh lane), hvault, hmasterImage, hlaneImages, ?_, ?_⟩
  · exact fun lane => key_ne_of_unique hunique (hlanes lane) hmaster (by omega)
  · refine fun lane other hne => key_ne_of_unique hunique (hlanes lane) (hlanes other) ?_
    exact fun heq => hne (Fin.ext (by omega))

/-- The steps of a successful initialization. -/
structure ForestInitializeRun (env : Environment) (plan : PlannedForestInitializationV1) (l prepared l' : Ledger) :
    Prop where
  planned : ForestInitializationSpec env plan l
  vault : VaultInitialized env l prepared
  master_zeroed : Zeroed env prepared plan.master.key
  lanes_zeroed : ∀ lane, Zeroed env prepared (plan.lanes lane).key
  written : l' = writeLanes plan.lanes plan.laneImages (List.finRange 8)
    (setData plan.master.key plan.masterImage prepared)

theorem createLanes_call {plan : PlannedForestInitializationV1} {lanes : List LaneIdV2} {l l' : Ledger} {u : Unit}
    (h : createLanes env plan lanes l = .ok u l') : SystemCall l l' := by
  induction lanes generalizing l with
  | nil =>
    obtain ⟨-, rfl⟩ := Exec.pure_ok.mp h
    exact SystemCall.refl l
  | cons lane rest ih =>
    simp only [createLanes, Exec.bind_ok] at h
    obtain ⟨_, m, hcreate, hrest⟩ := h
    exact (createProgramPdaIfNeeded_call hcreate).trans (ih hrest)

theorem processPairForestInitializeV1_run {accounts : List AccountInfo} {data : Bytes} {l l' : Ledger} {u : Unit}
    (h : processPairForestInitializeV1 env accounts data l = .ok u l') :
    ∃ plan prepared, planForestInitialization env accounts data l = .ok plan ∧
      ForestInitializeRun env plan l prepared l' := by
  simp only [processPairForestInitializeV1, Exec.bind_ok, Exec.query_ok, Exec.update_ok, collect_eq_ok] at h
  obtain ⟨plan, _, ⟨hplan, rfl⟩, _, m, hmaster, _, n, hlanes, _, prepared, hvault, _, _, ⟨hmasterZero, rfl⟩, _, _,
    ⟨hlanesZero, rfl⟩, _, _, rfl, rfl⟩ := h
  have hspec := planForestInitialization_spec hplan
  have hcall := (createProgramPdaIfNeeded_call hmaster).trans (createLanes_call hlanes)
  exact ⟨plan, prepared, hplan, hspec, initializeVaultAccount_initialized hspec.vault_planned hcall hvault,
    requireProgramOwnedZeroed_zeroed hmasterZero, fun lane => requireProgramOwnedZeroed_zeroed (hlanesZero lane), rfl⟩

/-! ### What a successful checkpoint did -/

/-- What the plan of a checkpoint has checked. -/
structure ForestCheckpointSpec (env : Environment) (plan : PlannedForestCheckpointV1)
    (master : PoolV1PairForestMasterV1) (states : LaneIdV2 → PoolV1PairForestLaneStateV1)
    (bound : PoolV1PairForestCheckpointPlanV1) (l : Ledger) : Prop where
  master_decoded : decodeMasterAccount env plan.master true l = .ok master
  lanes_decoded : ∀ lane, decodeLaneAccount env plan.master.key lane (plan.lanes lane) false l = .ok (states lane)
  bound_eq : planPoolV1PairForestCheckpointV1 master states
    (poolV1PairForestGlobalRootV1 env.treeParent fun lane => (states lane).tree.root) = .ok bound
  checkpoint_eq : plan.checkpoint.key = (poolV1PairForestCheckpointAddress env env.programId plan.master.key
    bound.checkpoint.checkpointSequence).1
  master_encoded : encodePoolV1PairForestMasterV1 bound.nextMaster = .ok plan.planned.nextMasterImage
  checkpoint_encoded : encodePoolV1PairForestCheckpointV1 bound.checkpoint = .ok plan.planned.checkpointImage
  checkpoint_ne : plan.checkpoint.key ≠ plan.master.key

theorem planForestCheckpoint_spec {accounts : List AccountInfo} {data : Bytes} {plan : PlannedForestCheckpointV1}
    {l : Ledger} (h : planForestCheckpoint env accounts data l = .ok plan) :
    ∃ master states bound, ForestCheckpointSpec env plan master states bound l := by
  simp only [planForestCheckpoint, planPairForestCheckpointAccountsV1, requireAliasFree, except_bind_eq_ok, mapErr_eq_ok,
    okOr_eq_ok, collect_eq_ok, require_eq_ok, except_pure_eq_ok] at h
  obtain ⟨-, -, -, -, -, -, master, -, lanes, -, checkpoint, -, payer, -, system, -, -, -, planned,
    ⟨-, ⟨-, hne, -⟩, state, hmaster, states, hlanes, bound, hpure, _, hfresh, nextMasterImage, hmasterImage,
    checkpointImage, hcheckpointImage, rfl⟩, preparation, -, rfl⟩ := h
  exact ⟨state, states, bound, hmaster, hlanes, hpure, planFreshProgramPda_key hfresh, hmasterImage, hcheckpointImage,
    fun heq => hne heq.symm⟩

/-- The steps of a successful checkpoint. -/
structure ForestCheckpointRun (env : Environment) (plan : PlannedForestCheckpointV1) (master : PoolV1PairForestMasterV1)
    (states : LaneIdV2 → PoolV1PairForestLaneStateV1) (bound : PoolV1PairForestCheckpointPlanV1)
    (l prepared l' : Ledger) : Prop where
  planned : ForestCheckpointSpec env plan master states bound l
  prepared_call : SystemCall l prepared
  checkpoint_zeroed : Zeroed env prepared plan.checkpoint.key
  written : l' = setData plan.master.key plan.planned.nextMasterImage
    (setData plan.checkpoint.key plan.planned.checkpointImage prepared)

theorem processPairForestCheckpointV1_run {accounts : List AccountInfo} {data : Bytes} {l l' : Ledger} {u : Unit}
    (h : processPairForestCheckpointV1 env accounts data l = .ok u l') :
    ∃ plan master states bound prepared, planForestCheckpoint env accounts data l = .ok plan ∧
      ForestCheckpointRun env plan master states bound l prepared l' := by
  simp only [processPairForestCheckpointV1, Exec.bind_ok, Exec.query_ok, Exec.update_ok] at h
  obtain ⟨plan, _, ⟨hplan, rfl⟩, _, _, ⟨-, rfl⟩, _, prepared, hprepare, _, _, rfl, rfl⟩ := h
  obtain ⟨master, states, bound, hspec⟩ := planForestCheckpoint_spec hplan
  obtain ⟨hcall, hzeroed⟩ := prepareZeroedAccount_ok hprepare
  exact ⟨plan, master, states, bound, prepared, hplan, hspec, hcall, hzeroed, rfl⟩

end

end Aspis.Forest
