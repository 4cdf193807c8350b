import Aspis.Forest.AccountsExact
import Aspis.Forest.ResultChecks
import Aspis.Pool.VerifierSelection

/-! The two routes of the verifier program into a terminal spend. The compact
route gets a request, reads the accounts it names and builds the terminal
statement from them and from the afterstate in front of the proof. The full
route gets the statement itself and compares it with the same accounts, field by
field; its Pool program is the owner of the master account. Both share the
reading of the accounts and of the proof, so they differ only in how the
statement comes about. -/

namespace Aspis.Forest.V7Dispatch

open Lib Chain Statement Pool Verifier Registry
open PoolV1PairForestTerminalStatementV1 (ofPayment)

/-! ### Build features and constants -/

structure V7DispatchFeatures where
  laneInvariant : Bool
  fixedCanonical : Bool
  deriving DecidableEq, Repr

def V7_CANONICAL_BODY_WITHOUT_FRONTIERS : ℕ := 20268

def V7_POOL_NATIVE_TAG73_MIN_FRONTIER_NODES : ℕ := 14

def PAIR_FOREST_INVARIANT_POOL_PROGRAM_AUDIT_V1 : Bytes32 := Bytes32.filled 0x41

def PAIR_FOREST_INVARIANT_REGISTRY_PROGRAM_AUDIT_V1 : Bytes32 := Bytes32.filled 0x44

def PAIR_FOREST_INVARIANT_POLICY_BINDING_AUDIT_V1 : Bytes32 := Bytes32.filled 7

structure ValidatedV7PairForestAsq8V1 where
  statement : PoolV1PairForestTerminalStatementV1
  frontierNodes : ℕ
  proofLength : ℕ
  deriving DecidableEq

structure AuthenticatedV7PairForestAsq8AccountsV1 where
  masterAccount : Bytes32
  checkpointAccount : Bytes32
  selectedLaneAccount : Bytes32
  master : PoolV1PairForestMasterV1
  checkpoint : PoolV1PairForestCheckpointV1
  selectedLane : PoolV1PairForestLaneStateV1
  liveSnapshot : PoolV1PairLiveSnapshotV1

structure ScannedV7PairForestAsq8ProofV1 where
  candidateAfterstate : PoolV1PairVerifiedAfterstateV1
  frontierNodes : ℕ
  proofLength : ℕ

section
variable (env : Environment) (features : V7DispatchFeatures)

/-- The frontier size a proof body of this length has. -/
def frontierNodesFromProofLength (length : ℕ) : Option ℕ :=
  let bodyWithoutFrontiers :=
    if features.fixedCanonical then V7_CANONICAL_BODY_WITHOUT_FRONTIERS else V7_COMPACT_BODY_WITHOUT_FRONTIERS
  if length < bodyWithoutFrontiers then none
  else
    let frontierBytes := length - bodyWithoutFrontiers
    let nodes := frontierBytes / (2 * V7_COMPACT_DIGEST_BYTES)
    if frontierBytes % (2 * V7_COMPACT_DIGEST_BYTES) = 0 ∧ V7_POOL_NATIVE_TAG73_MIN_FRONTIER_NODES ≤ nodes ∧
      nodes ≤ V7_COMPACT_FRONTIER_CAP_PER_TREE then some nodes else none

/-! ### The accounts -/

def requireReadonlyAccount (account : AccountInfo) (owner : Pubkey) (l : Ledger) : Except ProgramError Unit :=
  require (account.owner l = owner ∧ account.isSigner = false ∧ account.isWritable = false ∧
    account.executable l = false) .invalidAccountData

def requireDistinctAccounts (accounts : List AccountInfo) : Except ProgramError Unit :=
  require (accounts.map (·.key)).Nodup .invalidArgument

/-- The deployment a release registry of the second family certifies. -/
def releaseRegistryDeployment (registryProgram : Pubkey) : (v : RegistryVersion) → VerifierRegistry v → Bool
  | .v1, _ => true
  | .v2, registry =>
    let deployment : RegistryDeploymentV2 := registry.deployment
    deployment.registryProgram = registryProgram ∧ deployment.loaderProgram = bpfLoaderUpgradeable ∧
      deployment.programdataAddress = programdataAddressOf env.findProgramAddress registryProgram

def releaseEntryDeployment (verifierProgram : Pubkey) : (v : RegistryVersion) → VerifierRegistryEntry v → Bool
  | .v1, _ => true
  | .v2, entry =>
    let deployment : EntryDeploymentV2 := entry.deployment
    deployment.loaderProgram = bpfLoaderUpgradeable ∧
      deployment.programdataAddress = programdataAddressOf env.findProgramAddress verifierProgram ∧
      deployment.expectedUpgradeAuthority = Bytes32.zero

def authenticateInvariantReleaseRegistryAtSlotV1 (verifierProgram poolProgram : Pubkey) (masterAccount : AccountInfo)
    (master : PoolV1PairForestMasterV1) (registryAccount entryAccount : AccountInfo) (currentSlot : UInt64) (l : Ledger) :
    Except ProgramError Unit := do
  let policy := master.verifierPolicy
  require (poolProgram = PAIR_FOREST_INVARIANT_POOL_PROGRAM_AUDIT_V1 ∧ policy.flags &&& 1 ≠ 0 ∧
    policy.registryProgram = PAIR_FOREST_INVARIANT_REGISTRY_PROGRAM_AUDIT_V1 ∧
    policy.registryAuthority = Bytes32.zero ∧
    policy.policyBinding = PAIR_FOREST_INVARIANT_POLICY_BINDING_AUDIT_V1) .invalidAccountData
  mapErr (fun _ => .invalidAccountData) (validateVerifierPolicyV1 policy)
  let registryProgram := PAIR_FOREST_INVARIANT_REGISTRY_PROGRAM_AUDIT_V1
  requireReadonlyAccount registryAccount registryProgram l
  -- the second family when the policy asks for an immutable deployment
  let v := policyVersion policy
  require (registryAccount.key =
    (poolV1VerifierRegistryAddress env.findProgramAddress v registryProgram masterAccount.key).1) .invalidAccountData
  let registry ← mapErr (fun _ => .invalidAccountData) (decodeVerifierRegistry v (registryAccount.data l))
  require (registry.pool = masterAccount.key ∧ registry.authority = policy.registryAuthority ∧
    registry.policyBinding = policy.policyBinding ∧ releaseRegistryDeployment env registryProgram v registry = true ∧
    registry.isImmutable = true ∧ registry.isPaused = false) .invalidAccountData
  requireReadonlyAccount entryAccount registryProgram l
  require (entryAccount.key = (poolV1VerifierEntryAddress env.findProgramAddress v registryProgram masterAccount.key
    V7_POOL_PAIR_FOREST_TAG73_PROFILE_BINDING V7_POOL_PAIR_FOREST_TAG73_RELEASE_BINDING).1) .invalidAccountData
  let entry ← mapErr (fun _ => .invalidAccountData) (decodeVerifierRegistryEntry v (entryAccount.data l))
  require (entry.pool = masterAccount.key ∧
    entry.policyBinding = PAIR_FOREST_INVARIANT_POLICY_BINDING_AUDIT_V1 ∧ entry.verifierProgram = verifierProgram ∧
    entry.profileBinding = V7_POOL_PAIR_FOREST_TAG73_PROFILE_BINDING ∧
    entry.releaseBinding = V7_POOL_PAIR_FOREST_TAG73_RELEASE_BINDING ∧
    entry.statementVersion = POOL_V1_PAIR_FOREST_TERMINAL_VERSION ∧
    releaseEntryDeployment env verifierProgram v entry = true ∧ entry.isActiveAt currentSlot = true) .invalidAccountData

/-- The accounts of a terminal verification; the invariant build has the registry and its entry after them. -/
structure TerminalAccounts where
  proof : AccountInfo
  master : AccountInfo
  checkpoint : AccountInfo
  lane : AccountInfo
  release : Option (AccountInfo × AccountInfo)

def terminalAccounts (accounts : List AccountInfo) : Except ProgramError TerminalAccounts :=
  match features.laneInvariant, accounts with
  | true, [proof, master, checkpoint, lane, registry, entry] =>
    .ok ⟨proof, master, checkpoint, lane, some (registry, entry)⟩
  | true, _ => .error (if accounts.length < 6 then .notEnoughAccountKeys else .invalidArgument)
  | false, [proof, master, checkpoint, lane] => .ok ⟨proof, master, checkpoint, lane, none⟩
  | false, _ => .error (if accounts.length < 4 then .notEnoughAccountKeys else .invalidArgument)

def decodeSelectedLane (bytes : Bytes) : Except ProgramError PoolV1PairForestLaneStateV1 :=
  if features.laneInvariant then decodeLaneFromPoolReleaseInvariantBoxV1 env bytes else decodeLaneBox env bytes

def liveSnapshotBox (masterAccount deploymentDomain : Bytes32) (selectedLane : PoolV1PairForestLaneStateV1) :
    PoolV1PairLiveSnapshotV1 where
  pool := masterAccount
  deploymentDomain
  sequence := UInt64.ofNat selectedLane.tree.nextLeafIndex
  nextPairIndex := UInt64.ofNat selectedLane.tree.nextLeafIndex
  currentRoot := selectedLane.tree.root
  frontier := selectedLane.tree.frontier

def authenticateAsq8AccountsV1 (verifierProgram : Pubkey) (accounts : List AccountInfo) (poolProgram : Pubkey)
    (outputLane : UInt8) (currentSlot : UInt64) (l : Ledger) :
    Except ProgramError AuthenticatedV7PairForestAsq8AccountsV1 := do
  let ⟨proofAccount, masterAccount, checkpointAccount, laneAccount, release⟩ ← terminalAccounts features accounts
  requireReadonlyAccount proofAccount verifierProgram l
  requireReadonlyAccount masterAccount poolProgram l
  requireReadonlyAccount checkpointAccount poolProgram l
  requireReadonlyAccount laneAccount poolProgram l
  requireDistinctAccounts accounts
  let master ← mapErr (fun _ => .invalidAccountData) (decodePoolV1PairForestMasterV1 (masterAccount.data l))
  require (master.identity.pool = masterAccount.key ∧ master.initializedLaneMask = POOL_V1_PAIR_FOREST_ALL_LANES_MASK ∧
    (poolV1PairForestMasterAddress env poolProgram master.identity.assetMint).1 = masterAccount.key) .invalidAccountData
  match release with
  | some (registryAccount, entryAccount) =>
    authenticateInvariantReleaseRegistryAtSlotV1 env verifierProgram poolProgram masterAccount master registryAccount
      entryAccount currentSlot l
  | none => .ok ()
  let checkpoint ← mapErr (fun _ => .invalidAccountData) (decodePoolV1PairForestCheckpointV1 (checkpointAccount.data l))
  require (checkpoint.master = masterAccount.key ∧ checkpoint.deploymentDomain = master.identity.deploymentDomain ∧
    (poolV1PairForestCheckpointAddress env poolProgram masterAccount.key checkpoint.checkpointSequence).1 =
      checkpointAccount.key) .invalidAccountData
  let selectedLane ← decodeSelectedLane env features (laneAccount.data l)
  require (selectedLane.master = masterAccount.key ∧ selectedLane.laneId = outputLane ∧
    (env.findProgramAddress [POOL_V1_PAIR_FOREST_LANE_SEED, masterAccount.key.bytes, [outputLane]] poolProgram).1 =
      laneAccount.key) .invalidAccountData
  return ⟨masterAccount.key, checkpointAccount.key, laneAccount.key, master, checkpoint, selectedLane,
    liveSnapshotBox masterAccount.key master.identity.deploymentDomain selectedLane⟩

/-! ### The proof account -/

def scanAsq8ProofV1 (proofAccount : AccountInfo) (l : Ledger) : Except ProgramError ScannedV7PairForestAsq8ProofV1 := do
  let data := proofAccount.data l
  require (proofAccountFinalized data = true) .invalidAccountData
  let (payloadStart, payloadEnd) ← mapErr (fun _ => .invalidAccountData) (uploadedProofBounds data)
  require (payloadEnd = data.length ∧ POOL_V1_PAIR_VERIFIED_AFTERSTATE_BYTES < payloadEnd - payloadStart)
    .invalidAccountData
  let payload := slice payloadStart (payloadEnd - payloadStart) data
  let proof := payload.drop POOL_V1_PAIR_VERIFIED_AFTERSTATE_BYTES
  let candidateAfterstate ← mapErr (fun _ => .invalidAccountData)
    (decodePoolV1PairVerifiedAfterstateV1 (payload.take POOL_V1_PAIR_VERIFIED_AFTERSTATE_BYTES))
  let frontierNodes ← okOr (frontierNodesFromProofLength features proof.length) .invalidAccountData
  return ⟨candidateAfterstate, frontierNodes, proof.length⟩

/-! ### The compact route -/

def asq8CommonBoxV1 (authenticated : AuthenticatedV7PairForestAsq8AccountsV1)
    (candidateAfterstate : PoolV1PairVerifiedAfterstateV1) : PoolV1PairForestTerminalCommonV1 where
  masterAccount := authenticated.masterAccount
  checkpointAccount := authenticated.checkpointAccount
  selectedLaneAccount := authenticated.selectedLaneAccount
  outputLane := authenticated.selectedLane.laneId
  checkpointSequence := UInt64.ofNat authenticated.checkpoint.checkpointSequence
  historicalGlobalAnchor := authenticated.checkpoint.globalRoot
  laneTransition := ⟨authenticated.liveSnapshot, candidateAfterstate⟩

def reconstructAsq8StatementBoxV1 (request : PoolV1PairForestTerminalRequestV1)
    (authenticated : AuthenticatedV7PairForestAsq8AccountsV1) (candidateAfterstate : PoolV1PairVerifiedAfterstateV1) :
    Except ProgramError PoolV1PairForestTerminalStatementV1 := do
  require (authenticated.liveSnapshot.nextPairIndex.toNat + 1 = candidateAfterstate.nextPairIndex.toNat)
    .invalidAccountData
  require (authenticated.master.identity.assetId = request.publicInput.common.assetId) .invalidInstructionData
  let statement := ofPayment (asq8CommonBoxV1 authenticated candidateAfterstate) request.publicInput
  mapErr (fun _ => .invalidInstructionData) (validatePoolV1PairForestTerminalStatementV1 statement)
  return statement

def validateV7PairForestAsq8RequestV1 (verifierProgram : Pubkey) (accounts : List AccountInfo) (instructionData : Bytes)
    (currentSlot : UInt64) (l : Ledger) : Except ProgramError ValidatedV7PairForestAsq8V1 := do
  require (instructionData.length = POOL_V1_PAIR_FOREST_TERMINAL_REQUEST_BYTES) .invalidInstructionData
  let request ← mapErr (fun _ => .invalidInstructionData) (decodePoolV1PairForestTerminalRequestV1 instructionData)
  require (request.verifierProfile = V7_POOL_PAIR_FOREST_TAG73_PROFILE_BINDING ∧
    request.verifierRelease = V7_POOL_PAIR_FOREST_TAG73_RELEASE_BINDING) .invalidInstructionData
  let outputLane ← mapErr (fun _ => .invalidInstructionData)
    (poolV1PairForestOutputLaneV1 request.publicInput.common.nullifier)
  let authenticated ← authenticateAsq8AccountsV1 env features verifierProgram accounts request.poolProgram outputLane
    currentSlot l
  let proofAccount ← okOr accounts[0]? .notEnoughAccountKeys
  let scanned ← scanAsq8ProofV1 features proofAccount l
  let statement ← reconstructAsq8StatementBoxV1 request authenticated scanned.candidateAfterstate
  return ⟨statement, scanned.frontierNodes, scanned.proofLength⟩

/-! ### The full route -/

def requestFromAsf8StatementV1 (statement : PoolV1PairForestTerminalStatementV1) (poolProgram : Bytes32) :
    PoolV1PairForestTerminalRequestV1 :=
  ⟨V7_POOL_PAIR_FOREST_TAG73_PROFILE_BINDING, V7_POOL_PAIR_FOREST_TAG73_RELEASE_BINDING, poolProgram, statement.payment⟩

def authenticateSuppliedAsf8StatementV1 (supplied : PoolV1PairForestTerminalStatementV1)
    (request : PoolV1PairForestTerminalRequestV1) (authenticated : AuthenticatedV7PairForestAsq8AccountsV1)
    (candidateAfterstate : PoolV1PairVerifiedAfterstateV1) : Except ProgramError Unit :=
  let common := supplied.common
  require (authenticated.liveSnapshot.nextPairIndex.toNat + 1 = candidateAfterstate.nextPairIndex.toNat ∧
    authenticated.master.identity.assetId = request.publicInput.common.assetId ∧
    common.masterAccount = authenticated.masterAccount ∧ common.checkpointAccount = authenticated.checkpointAccount ∧
    common.selectedLaneAccount = authenticated.selectedLaneAccount ∧
    common.outputLane = authenticated.selectedLane.laneId ∧
    common.checkpointSequence = UInt64.ofNat authenticated.checkpoint.checkpointSequence ∧
    common.historicalGlobalAnchor = authenticated.checkpoint.globalRoot ∧
    common.laneTransition.liveSnapshot = authenticated.liveSnapshot ∧
    common.laneTransition.candidateAfterstate = candidateAfterstate) .invalidInstructionData

def validateV7PairForestAsf8RequestV1 (verifierProgram : Pubkey) (accounts : List AccountInfo) (instructionData : Bytes)
    (currentSlot : UInt64) (l : Ledger) : Except ProgramError ValidatedV7PairForestAsq8V1 := do
  require (instructionData.length = POOL_V1_PAIR_FOREST_TERMINAL_STATEMENT_BYTES) .invalidInstructionData
  let supplied ← mapErr (fun _ => .invalidInstructionData) (decodePoolV1PairForestTerminalStatementV1 instructionData)
  let masterAccount ← okOr accounts[1]? .notEnoughAccountKeys
  let poolProgram := masterAccount.owner l
  let request := requestFromAsf8StatementV1 supplied poolProgram
  let outputLane ← mapErr (fun _ => .invalidInstructionData)
    (poolV1PairForestOutputLaneV1 request.publicInput.common.nullifier)
  let authenticated ← authenticateAsq8AccountsV1 env features verifierProgram accounts poolProgram outputLane
    currentSlot l
  let proofAccount ← okOr accounts[0]? .notEnoughAccountKeys
  let scanned ← scanAsq8ProofV1 features proofAccount l
  authenticateSuppliedAsf8StatementV1 supplied request authenticated scanned.candidateAfterstate
  return ⟨supplied, scanned.frontierNodes, scanned.proofLength⟩

end

/-! ### What the routes have checked -/

section
variable {env : Environment} {features : V7DispatchFeatures}

/-- A common part is given by the fields the full route compares. -/
theorem common_eq_iff {common : PoolV1PairForestTerminalCommonV1} {a : AuthenticatedV7PairForestAsq8AccountsV1}
    {after : PoolV1PairVerifiedAfterstateV1} :
    (common.masterAccount = a.masterAccount ∧ common.checkpointAccount = a.checkpointAccount ∧
      common.selectedLaneAccount = a.selectedLaneAccount ∧ common.outputLane = a.selectedLane.laneId ∧
      common.checkpointSequence = UInt64.ofNat a.checkpoint.checkpointSequence ∧
      common.historicalGlobalAnchor = a.checkpoint.globalRoot ∧
      common.laneTransition.liveSnapshot = a.liveSnapshot ∧ common.laneTransition.candidateAfterstate = after) ↔
    common = asq8CommonBoxV1 a after := by
  obtain ⟨master, checkpoint, lane, output, sequence, anchor, ⟨live, candidate⟩⟩ := common
  simp only [asq8CommonBoxV1, PoolV1PairForestTerminalCommonV1.mk.injEq, PoolV1PairLatePublicStatementV1.mk.injEq]

theorem authenticateSupplied_eq_ok {supplied : PoolV1PairForestTerminalStatementV1}
    {request : PoolV1PairForestTerminalRequestV1} {a : AuthenticatedV7PairForestAsq8AccountsV1}
    {after : PoolV1PairVerifiedAfterstateV1} {u : Unit} :
    authenticateSuppliedAsf8StatementV1 supplied request a after = .ok u ↔
      a.liveSnapshot.nextPairIndex.toNat + 1 = after.nextPairIndex.toNat ∧
      a.master.identity.assetId = request.publicInput.common.assetId ∧ supplied.common = asq8CommonBoxV1 a after := by
  rw [← common_eq_iff]
  exact require_eq_ok

theorem reconstruct_eq_ok {request : PoolV1PairForestTerminalRequestV1} {a : AuthenticatedV7PairForestAsq8AccountsV1}
    {after : PoolV1PairVerifiedAfterstateV1} {s : PoolV1PairForestTerminalStatementV1} :
    reconstructAsq8StatementBoxV1 request a after = .ok s ↔
      a.liveSnapshot.nextPairIndex.toNat + 1 = after.nextPairIndex.toNat ∧
      a.master.identity.assetId = request.publicInput.common.assetId ∧ ValidTerminalStatement s ∧
      s = ofPayment (asq8CommonBoxV1 a after) request.publicInput := by
  simp only [reconstructAsq8StatementBoxV1, except_bind_eq_ok, require_eq_ok, mapErr_eq_ok, except_pure_eq_ok,
    validateTerminalStatement_eq_ok]
  constructor
  · rintro ⟨-, hadvances, -, hasset, -, hvalid, rfl⟩
    exact ⟨hadvances, hasset, hvalid, rfl⟩
  · rintro ⟨hadvances, hasset, hvalid, rfl⟩
    exact ⟨(), hadvances, (), hasset, (), hvalid, rfl⟩

theorem terminalAccounts_master {accounts : List AccountInfo} {t : TerminalAccounts}
    (h : terminalAccounts features accounts = .ok t) : accounts[1]? = some t.master := by
  unfold terminalAccounts at h
  split at h
  · obtain rfl := Except.ok.inj h
    rfl
  · cases h
  · obtain rfl := Except.ok.inj h
    rfl
  · cases h

/-- The Pool program of authenticated accounts owns the account at index one. -/
theorem authenticateAsq8AccountsV1_owner {verifierProgram poolProgram : Pubkey} {accounts : List AccountInfo}
    {outputLane : UInt8} {slot : UInt64} {l : Ledger} {a : AuthenticatedV7PairForestAsq8AccountsV1}
    (h : authenticateAsq8AccountsV1 env features verifierProgram accounts poolProgram outputLane slot l = .ok a) :
    ∃ master, accounts[1]? = some master ∧ master.owner l = poolProgram := by
  simp only [authenticateAsq8AccountsV1, requireReadonlyAccount, except_bind_eq_ok, require_eq_ok] at h
  obtain ⟨t, haccounts, -, -, -, ⟨howner, -⟩, -⟩ := h
  exact ⟨t.master, terminalAccounts_master haccounts, howner⟩

/-- A statement that encodes is valid, and so does its payment. -/
theorem encodedStatement_valid {s : PoolV1PairForestTerminalStatementV1} {bytes : Bytes}
    (h : encodePoolV1PairForestTerminalStatementV1 s = .ok bytes) : ValidTerminalStatement s := by
  simp only [encodePoolV1PairForestTerminalStatementV1, except_bind_eq_ok] at h
  obtain ⟨_, hvalid, -⟩ := h
  exact validateTerminalStatement_eq_ok.mp hvalid

theorem validStatement_encodes {s : PoolV1PairForestTerminalStatementV1} (h : ValidTerminalStatement s) :
    ∃ bytes, encodePoolV1PairForestTerminalStatementV1 s = .ok bytes := by
  obtain ⟨payment, hpayment⟩ := h.payment_encodes
  obtain ⟨late, hlate⟩ := encodeLate_isOk.mpr ⟨h.advances, h.snapshot_valid, h.afterstate_valid⟩
  simp only [encodePoolV1PairForestTerminalStatementV1, except_bind_eq_ok, mapErr_eq_ok, except_pure_eq_ok]
  exact ⟨_, (), validateTerminalStatement_eq_ok.mpr h, late, hlate, payment, hpayment, rfl⟩

theorem length_of_decodeStatement {s : PoolV1PairForestTerminalStatementV1} {bytes : Bytes}
    (h : decodePoolV1PairForestTerminalStatementV1 bytes = .ok s) :
    bytes.length = POOL_V1_PAIR_FOREST_TERMINAL_STATEMENT_BYTES := by
  simp only [decodePoolV1PairForestTerminalStatementV1, except_bind_eq_ok, require_eq_ok] at h
  obtain ⟨-, hlen, -⟩ := h
  exact hlen

theorem length_of_decodeRequest {r : PoolV1PairForestTerminalRequestV1} {bytes : Bytes}
    (h : decodePoolV1PairForestTerminalRequestV1 bytes = .ok r) :
    bytes.length = POOL_V1_PAIR_FOREST_TERMINAL_REQUEST_BYTES := by
  simp only [decodePoolV1PairForestTerminalRequestV1, except_bind_eq_ok, require_eq_ok] at h
  obtain ⟨-, hlen, -⟩ := h
  exact hlen

/-- What an accepted full statement has passed. -/
theorem asf8_eq_ok {verifierProgram : Pubkey} {accounts : List AccountInfo} {bytes : Bytes} {slot : UInt64} {l : Ledger}
    {s : PoolV1PairForestTerminalStatementV1} {v : ValidatedV7PairForestAsq8V1}
    (hs : encodePoolV1PairForestTerminalStatementV1 s = .ok bytes) :
    validateV7PairForestAsf8RequestV1 env features verifierProgram accounts bytes slot l = .ok v ↔
      ∃ master lane a proofAccount scanned, accounts[1]? = some master ∧
        poolV1PairForestOutputLaneV1 s.payment.common.nullifier = .ok lane ∧
        authenticateAsq8AccountsV1 env features verifierProgram accounts (master.owner l) lane slot l = .ok a ∧
        accounts[0]? = some proofAccount ∧ scanAsq8ProofV1 features proofAccount l = .ok scanned ∧
        authenticateSuppliedAsf8StatementV1 s (requestFromAsf8StatementV1 s (master.owner l)) a
          scanned.candidateAfterstate = .ok () ∧
        v = ⟨s, scanned.frontierNodes, scanned.proofLength⟩ := by
  have hdecode := decode_encodeTerminalStatement hs
  simp only [validateV7PairForestAsf8RequestV1, except_bind_eq_ok, require_eq_ok, mapErr_eq_ok, okOr_eq_ok,
    except_pure_eq_ok, hdecode]
  constructor
  · rintro ⟨-, -, _, hsame, master, hmaster, lane, hlane, a, hauth, proofAccount, hproof, scanned, hscanned, _, hsupplied,
      rfl⟩
    obtain rfl := Except.ok.inj hsame
    exact ⟨master, lane, a, proofAccount, scanned, hmaster, hlane, hauth, hproof, hscanned, hsupplied, rfl⟩
  · rintro ⟨master, lane, a, proofAccount, scanned, hmaster, hlane, hauth, hproof, hscanned, hsupplied, rfl⟩
    exact ⟨(), length_of_decodeStatement hdecode, s, rfl, master, hmaster, lane, hlane, a, hauth, proofAccount, hproof,
      scanned, hscanned, (), hsupplied, rfl⟩

/-- What an accepted compact request has passed. -/
theorem asq8_eq_ok {verifierProgram : Pubkey} {accounts : List AccountInfo} {bytes : Bytes} {slot : UInt64} {l : Ledger}
    {s : PoolV1PairForestTerminalStatementV1} {poolProgram : Bytes32} {v : ValidatedV7PairForestAsq8V1}
    (hr : encodePoolV1PairForestTerminalRequestV1 (requestFromAsf8StatementV1 s poolProgram) = .ok bytes) :
    validateV7PairForestAsq8RequestV1 env features verifierProgram accounts bytes slot l = .ok v ↔
      ∃ lane a proofAccount scanned, poolV1PairForestOutputLaneV1 s.payment.common.nullifier = .ok lane ∧
        authenticateAsq8AccountsV1 env features verifierProgram accounts poolProgram lane slot l = .ok a ∧
        accounts[0]? = some proofAccount ∧ scanAsq8ProofV1 features proofAccount l = .ok scanned ∧
        reconstructAsq8StatementBoxV1 (requestFromAsf8StatementV1 s poolProgram) a scanned.candidateAfterstate =
          .ok v.statement ∧
        v.frontierNodes = scanned.frontierNodes ∧ v.proofLength = scanned.proofLength := by
  have hdecode := decode_encodeTerminalRequest hr
  simp only [validateV7PairForestAsq8RequestV1, except_bind_eq_ok, require_eq_ok, mapErr_eq_ok, okOr_eq_ok,
    except_pure_eq_ok, hdecode]
  constructor
  · rintro ⟨-, -, _, hsame, -, -, lane, hlane, a, hauth, proofAccount, hproof, scanned, hscanned, _, hstatement, rfl⟩
    obtain rfl := Except.ok.inj hsame
    exact ⟨lane, a, proofAccount, scanned, hlane, hauth, hproof, hscanned, hstatement, rfl, rfl⟩
  · rintro ⟨lane, a, proofAccount, scanned, hlane, hauth, hproof, hscanned, hstatement, hnodes, hlength⟩
    refine ⟨(), length_of_decodeRequest hdecode, _, rfl, (), ⟨rfl, rfl⟩, lane, hlane, a, hauth, proofAccount, hproof,
      scanned, hscanned, v.statement, hstatement, ?_⟩
    rw [← hnodes, ← hlength]

/-- A request with a Pool program that is not zero encodes as soon as the statement it comes from does. -/
theorem requestFromAsf8StatementV1_encodes {s : PoolV1PairForestTerminalStatementV1} {poolProgram : Bytes32}
    (h : ValidTerminalStatement s) (hprogram : poolProgram ≠ Bytes32.zero) :
    ∃ bytes, encodePoolV1PairForestTerminalRequestV1 (requestFromAsf8StatementV1 s poolProgram) = .ok bytes := by
  obtain ⟨payment, hpayment⟩ := h.payment_encodes
  simp only [encodePoolV1PairForestTerminalRequestV1, except_bind_eq_ok, require_eq_ok, mapErr_eq_ok, except_pure_eq_ok]
  refine ⟨_, (), ⟨?_, ?_, hprogram⟩, payment, hpayment, rfl⟩
  · exact show V7_POOL_PAIR_FOREST_TAG73_PROFILE_BINDING ≠ Bytes32.zero by decide
  · exact show V7_POOL_PAIR_FOREST_TAG73_RELEASE_BINDING ≠ Bytes32.zero by decide

/-- The full route accepts a statement exactly when the compact route accepts the request with its payment and Pool
program and builds that statement; what both report is the same. -/
theorem full_route_iff_compact_route {verifierProgram poolProgram : Pubkey} {accounts : List AccountInfo}
    {statementBytes : Bytes} {slot : UInt64} {l : Ledger} {s : PoolV1PairForestTerminalStatementV1}
    (hs : encodePoolV1PairForestTerminalStatementV1 s = .ok statementBytes)
    (howner : ∀ master, accounts[1]? = some master → master.owner l = poolProgram)
    (hprogram : poolProgram ≠ Bytes32.zero) :
    ∃ requestBytes,
      encodePoolV1PairForestTerminalRequestV1 (requestFromAsf8StatementV1 s poolProgram) = .ok requestBytes ∧
      ∀ v, validateV7PairForestAsf8RequestV1 env features verifierProgram accounts statementBytes slot l = .ok v ↔
        validateV7PairForestAsq8RequestV1 env features verifierProgram accounts requestBytes slot l = .ok v ∧
          v.statement = s := by
  have hvalid := encodedStatement_valid hs
  obtain ⟨requestBytes, hr⟩ := requestFromAsf8StatementV1_encodes hvalid hprogram
  refine ⟨requestBytes, hr, fun v => ?_⟩
  rw [asf8_eq_ok hs, asq8_eq_ok hr]
  constructor
  · rintro ⟨master, lane, a, proofAccount, scanned, hmaster, hlane, hauth, hproof, hscanned, hsupplied, rfl⟩
    rw [howner master hmaster] at hauth hsupplied
    obtain ⟨hadvances, hasset, hcommon⟩ := authenticateSupplied_eq_ok.mp hsupplied
    have hstatement : s = ofPayment (asq8CommonBoxV1 a scanned.candidateAfterstate) s.payment := by
      rw [← hcommon, PoolV1PairForestTerminalStatementV1.ofPayment_payment]
    exact ⟨⟨lane, a, proofAccount, scanned, hlane, hauth, hproof, hscanned,
      reconstruct_eq_ok.mpr ⟨hadvances, hasset, hvalid, hstatement⟩, rfl, rfl⟩, rfl⟩
  · rintro ⟨⟨lane, a, proofAccount, scanned, hlane, hauth, hproof, hscanned, hstatement, hnodes, hlength⟩, hsame⟩
    obtain ⟨master, hmaster, hmasterOwner⟩ := authenticateAsq8AccountsV1_owner hauth
    rw [hsame, reconstruct_eq_ok] at hstatement
    obtain ⟨hadvances, hasset, -, hstatement⟩ := hstatement
    have hcommon : s.common = asq8CommonBoxV1 a scanned.candidateAfterstate := by
      rw [hstatement, PoolV1PairForestTerminalStatementV1.common_ofPayment]
    rw [← hmasterOwner] at hauth
    refine ⟨master, lane, a, proofAccount, scanned, hmaster, hlane, hauth, hproof, hscanned,
      authenticateSupplied_eq_ok.mpr ⟨hadvances, hasset, hcommon⟩, ?_⟩
    rw [← hsame, ← hnodes, ← hlength]

end

/-! ### A statement about an empty lane

The accounts of the sample spend, read by the verifier under a Pool program of
choice. The full route reads it off the master account, so it takes the zero
key as well, which no request can name. -/

section
variable {features : V7DispatchFeatures}

/-- A sealed proof account with an afterstate and a proof body. -/
def uploadedProof (after : PoolV1PairVerifiedAfterstateV1) (body : Bytes) : Bytes :=
  PROOF_ACCOUNT_MAGIC ++ (leBytes 4 (688 + body.length) ++ (zeros 32 ++ (afterstateImage after ++ body)))

theorem scan_uploadedProof {after : PoolV1PairVerifiedAfterstateV1} {body : Bytes} {nodes : ℕ}
    {proofAccount : AccountInfo} {l : Ledger} (hafter : validateVerifiedAfterstate after = .ok ())
    (hnodes : frontierNodesFromProofLength features body.length = some nodes) (hlt : body.length < 2 ^ 31)
    (hpos : 0 < body.length) (hdata : proofAccount.data l = uploadedProof after body) :
    scanAsq8ProofV1 features proofAccount l = .ok ⟨after, nodes, body.length⟩ := by
  have hencode : encodePoolV1PairVerifiedAfterstateV1 after = .ok (afterstateImage after) := by
    simp only [encodePoolV1PairVerifiedAfterstateV1, except_bind_eq_ok, except_pure_eq_ok]
    exact ⟨(), hafter, trivial⟩
  obtain ⟨himage, hdecode⟩ := decode_encodeAfterstate hencode
  have hmagicLength : PROOF_ACCOUNT_MAGIC.length = 4 := rfl
  have hlen : (uploadedProof after body).length = 728 + body.length := by
    simp only [uploadedProof, List.length_append, hmagicLength, length_leBytes, length_zeros, himage]
    omega
  have hmagic : slice 0 4 (uploadedProof after body) = PROOF_ACCOUNT_MAGIC := by
    rw [uploadedProof, slice_append_head hmagicLength]
  have htotal : leNat (slice 4 4 (uploadedProof after body)) = 688 + body.length := by
    have hslice : slice 4 4 (uploadedProof after body) = leBytes 4 (688 + body.length) := by
      simp [uploadedProof, slice_append_right, slice_append_head, hmagicLength]
    rw [hslice, leNat_leBytes_of_lt (by omega)]
  have hauthority : slice 8 32 (uploadedProof after body) = zeros 32 := by
    simp [uploadedProof, slice_append_right, slice_append_head, hmagicLength]
  have hpayload : slice 40 (688 + body.length) (uploadedProof after body) = afterstateImage after ++ body := by
    simp [uploadedProof, slice_append_right, slice_all, hmagicLength, himage]
  have hinitialized : proofAccountInitialized (uploadedProof after body) = true := by
    simp only [proofAccountInitialized, PROOF_ACCOUNT_HEADER_LEN, hlen, hmagic, Bool.and_eq_true, decide_eq_true_eq]
    exact ⟨by omega, trivial⟩
  have hfinalized : proofAccountFinalized (uploadedProof after body) = true := by
    rw [proofAccountFinalized, hinitialized, AUTHORITY_OFFSET, hauthority]
    rfl
  have hbounds : uploadedProofBounds (uploadedProof after body) = .ok (40, 728 + body.length) := by
    simp only [uploadedProofBounds, proofLen, except_bind_eq_ok, require_eq_ok, except_pure_eq_ok, hlen,
      PROOF_ACCOUNT_HEADER_LEN]
    refine ⟨688 + body.length, ⟨(), hinitialized, htotal⟩, (), by omega, ?_⟩
    rw [← Nat.add_assoc]
  have hspan : 728 + body.length - 40 = 688 + body.length := by omega
  have htake : (afterstateImage after ++ body).take POOL_V1_PAIR_VERIFIED_AFTERSTATE_BYTES = afterstateImage after :=
    List.take_left' himage
  have hdrop : (afterstateImage after ++ body).drop POOL_V1_PAIR_VERIFIED_AFTERSTATE_BYTES = body :=
    List.drop_left' himage
  simp only [scanAsq8ProofV1, hdata, except_bind_eq_ok, require_eq_ok, mapErr_eq_ok, okOr_eq_ok, except_pure_eq_ok]
  refine ⟨(), hfinalized, _, hbounds, (), ?_, after, ?_, nodes, ?_, ?_⟩
  · simp only [hlen, hspan, POOL_V1_PAIR_VERIFIED_AFTERSTATE_BYTES, true_and]
    omega
  · rw [hspan, hpayload, htake]
    exact hdecode
  · rw [hspan, hpayload, hdrop]
    exact hnodes
  · rw [hspan, hpayload, hdrop]

end

namespace SampleStatement

open Pool.Sample (environment nullifier programId)
open SampleSpend (master checkpoint lane masterState checkpointState laneState)

def verifierProgram : Pubkey := Bytes32.filled 52

def proofKey : Pubkey := Bytes32.filled 53

def after : PoolV1PairVerifiedAfterstateV1 := ⟨1, Digest.zero, fun _ => Digest.zero⟩

/-- A body with fourteen frontier nodes. -/
def body : Bytes := zeros 20676

def accounts : List AccountInfo :=
  [⟨proofKey, false, false⟩, ⟨master, false, false⟩, ⟨checkpoint, false, false⟩, ⟨lane, false, false⟩]

def ledger (poolProgram : Pubkey) : Ledger := fun k =>
  if k = proofKey then ⟨verifierProgram, 1, uploadedProof after body, false⟩
  else if k = master then ⟨poolProgram, 1, masterImage masterState, false⟩
  else if k = checkpoint then ⟨poolProgram, 1, checkpointImage checkpointState, false⟩
  else if k = lane then ⟨poolProgram, 1, laneImage laneState, false⟩
  else ⟨systemProgram, 1, [], false⟩

def snapshot : PoolV1PairLiveSnapshotV1 := ⟨master, Bytes32.filled 33, 0, 0, Digest.zero, fun _ => Digest.zero⟩

def statement : PoolV1PairForestTerminalStatementV1 :=
  .privateTransfer ⟨master, checkpoint, lane, 7, 0, Digest.zero, ⟨snapshot, after⟩⟩
    ⟨⟨master, Bytes32.filled 33, 0, Digest.zero, nullifier, ⟨3⟩⟩, fun _ => ⟨1⟩, fun _ => ⟨2⟩⟩

def features : V7DispatchFeatures := ⟨false, false⟩

/-- What the sample statement and its accounts are checked for. -/
@[mk_iff]
structure SampleChecks : Prop where
  statement_valid : validatePoolV1PairForestTerminalStatementV1 statement = .ok ()
  master_valid : validateMaster masterState = .ok ()
  master_canonical : masterState.identity.assetId.Canonical ∧ masterState.nextCheckpointSequence < Pool.U64_LIMIT
  checkpoint_bound : checkpointState.master ≠ Bytes32.zero ∧ checkpointState.deploymentDomain ≠ Bytes32.zero
  checkpoint_canonical : checkpointState.checkpointSequence < Pool.U64_LIMIT ∧ DigestIsCanonical checkpointState.globalRoot ∧
    ∀ lane, checkpointState.laneSequences lane ≤ POOL_V1_PAIR_CAPACITY
  lane_bound : laneState.master ≠ Bytes32.zero
  lane_canonical : laneState.laneId.toNat < POOL_V1_PAIR_FOREST_LANE_COUNT ∧
    laneState.tree.nextLeafIndex ≤ POOL_V1_PAIR_CAPACITY
  tree_valid : validatePairTree environment laneState.tree = .ok ()
  keys_distinct : [proofKey, master, checkpoint, lane].Nodup
  after_valid : validateVerifiedAfterstate after = .ok ()
  body_nodes : frontierNodesFromProofLength features 20676 = some 14
  output_lane : poolV1PairForestOutputLaneV1 statement.payment.common.nullifier = .ok 7

set_option maxRecDepth 100000 in
theorem sample_checks : SampleChecks := by
  rw [sampleChecks_iff]
  decide +kernel

/-- The accounts as both routes read them. -/
def authenticated : AuthenticatedV7PairForestAsq8AccountsV1 :=
  ⟨master, checkpoint, lane, masterState, checkpointState, laneState, snapshot⟩

theorem master_decoded : decodePoolV1PairForestMasterV1 (masterImage masterState) = .ok masterState :=
  decode_masterImage ⟨sample_checks.master_canonical.1, sample_checks.master_canonical.2⟩ sample_checks.master_valid

theorem checkpoint_decoded : decodePoolV1PairForestCheckpointV1 (checkpointImage checkpointState) = .ok checkpointState := by
  obtain ⟨hsequence, hroot, hlanes⟩ := sample_checks.checkpoint_canonical
  apply decode_checkpointImage hsequence
  simp only [encodePoolV1PairForestCheckpointV1, except_bind_eq_ok, require_eq_ok, except_pure_eq_ok]
  exact ⟨(), sample_checks.checkpoint_bound, (), hroot, (), hlanes, trivial⟩

theorem lane_decoded : decodePoolV1PairForestLaneStateV1 environment (laneImage laneState) = .ok laneState := by
  obtain ⟨hlane, hindex⟩ := sample_checks.lane_canonical
  apply decode_laneImage ⟨Environment.zero_canonical, fun _ => Environment.zero_canonical⟩
  simp only [encodePoolV1PairForestLaneStateV1, except_bind_eq_ok, require_eq_ok, mapErr_eq_ok, except_pure_eq_ok]
  exact ⟨(), hlane, (), sample_checks.lane_bound, (), hindex, (), sample_checks.tree_valid, trivial⟩

/-- The accounts that the sample ledger holds. -/
structure LedgerReads (poolProgram : Pubkey) : Prop where
  proof : ledger poolProgram proofKey = ⟨verifierProgram, 1, uploadedProof after body, false⟩
  master : ledger poolProgram master = ⟨poolProgram, 1, masterImage masterState, false⟩
  checkpoint : ledger poolProgram checkpoint = ⟨poolProgram, 1, checkpointImage checkpointState, false⟩
  lane : ledger poolProgram lane = ⟨poolProgram, 1, laneImage laneState, false⟩

theorem ledger_reads (poolProgram : Pubkey) : LedgerReads poolProgram := by
  have hkeys := sample_checks.keys_distinct
  simp only [List.nodup_cons, List.mem_cons, not_or] at hkeys
  refine ⟨if_pos rfl, ?_, ?_, ?_⟩
  · rw [ledger, if_neg (Ne.symm hkeys.1.1), if_pos rfl]
  · rw [ledger, if_neg (Ne.symm hkeys.1.2.1), if_neg (Ne.symm hkeys.2.1.1), if_pos rfl]
  · rw [ledger, if_neg (Ne.symm hkeys.1.2.2.1), if_neg (Ne.symm hkeys.2.1.2.1), if_neg (Ne.symm hkeys.2.2.1.1), if_pos rfl]

theorem proof_scanned (poolProgram : Pubkey) :
    scanAsq8ProofV1 features ⟨proofKey, false, false⟩ (ledger poolProgram) = .ok ⟨after, 14, 20676⟩ := by
  have hbody : body.length = 20676 := length_zeros _
  have hnodes : frontierNodesFromProofLength features body.length = some 14 := by
    rw [hbody]
    exact sample_checks.body_nodes
  rw [← hbody]
  exact scan_uploadedProof sample_checks.after_valid hnodes (by omega) (by omega)
    (by rw [AccountInfo.data, (ledger_reads poolProgram).proof])

theorem address_any_program (seeds : List Bytes) (p q : Pubkey) :
    environment.findProgramAddress seeds p = environment.findProgramAddress seeds q := rfl

/-- The accounts are authenticated under every Pool program that owns them. -/
theorem accounts_authenticated (poolProgram : Pubkey) : authenticateAsq8AccountsV1 environment features verifierProgram
    accounts poolProgram 7 0 (ledger poolProgram) = .ok authenticated := by
  have hproof : requireReadonlyAccount ⟨proofKey, false, false⟩ verifierProgram (ledger poolProgram) = .ok () :=
    require_of _ (by simp only [AccountInfo.owner, AccountInfo.executable, (ledger_reads poolProgram).proof, and_self])
  have hmaster : requireReadonlyAccount ⟨master, false, false⟩ poolProgram (ledger poolProgram) = .ok () :=
    require_of _ (by simp only [AccountInfo.owner, AccountInfo.executable, (ledger_reads poolProgram).master, and_self])
  have hcheckpoint : requireReadonlyAccount ⟨checkpoint, false, false⟩ poolProgram (ledger poolProgram) = .ok () :=
    require_of _ (by simp only [AccountInfo.owner, AccountInfo.executable, (ledger_reads poolProgram).checkpoint, and_self])
  have hlane : requireReadonlyAccount ⟨lane, false, false⟩ poolProgram (ledger poolProgram) = .ok () :=
    require_of _ (by simp only [AccountInfo.owner, AccountInfo.executable, (ledger_reads poolProgram).lane, and_self])
  have hdistinct : requireDistinctAccounts accounts = .ok () := require_of _ sample_checks.keys_distinct
  have haccounts : terminalAccounts features accounts = .ok ⟨⟨proofKey, false, false⟩, ⟨master, false, false⟩,
    ⟨checkpoint, false, false⟩, ⟨lane, false, false⟩, none⟩ := rfl
  have hdecode : decodeSelectedLane environment features (laneImage laneState) = .ok laneState := by
    rw [decodeSelectedLane, if_neg (by decide), decodeLaneBox, lane_decoded]
    rfl
  have hmasterRead : mapErr (fun _ => ProgramError.invalidAccountData) (decodePoolV1PairForestMasterV1
      ((⟨master, false, false⟩ : AccountInfo).data (ledger poolProgram))) = .ok masterState := by
    rw [AccountInfo.data, (ledger_reads poolProgram).master, master_decoded]
    rfl
  have hcheckpointRead : mapErr (fun _ => ProgramError.invalidAccountData) (decodePoolV1PairForestCheckpointV1
      ((⟨checkpoint, false, false⟩ : AccountInfo).data (ledger poolProgram))) = .ok checkpointState := by
    rw [AccountInfo.data, (ledger_reads poolProgram).checkpoint, checkpoint_decoded]
    rfl
  have hlaneRead : decodeSelectedLane environment features ((⟨lane, false, false⟩ : AccountInfo).data (ledger poolProgram)) =
      .ok laneState := by
    rw [AccountInfo.data, (ledger_reads poolProgram).lane, hdecode]
  -- the sample addresses do not depend on the program, so they are never computed here
  have hmasterAddress : (poolV1PairForestMasterAddress environment poolProgram masterState.identity.assetMint).1 = master :=
    congrArg Prod.fst (address_any_program _ poolProgram programId)
  have hcheckpointAddress : (poolV1PairForestCheckpointAddress environment poolProgram master
      checkpointState.checkpointSequence).1 = checkpoint := congrArg Prod.fst (address_any_program _ poolProgram programId)
  have hlaneAddress : (environment.findProgramAddress [POOL_V1_PAIR_FOREST_LANE_SEED, master.bytes, [7]] poolProgram).1 =
      lane := congrArg Prod.fst (address_any_program _ poolProgram programId)
  rw [authenticateAsq8AccountsV1, haccounts, except_ok_bind]
  dsimp only
  rw [hproof, except_ok_bind, hmaster, except_ok_bind, hcheckpoint, except_ok_bind, hlane, except_ok_bind, hdistinct,
    except_ok_bind, hmasterRead, except_ok_bind, require_of _ ⟨rfl, rfl, hmasterAddress⟩, except_ok_bind, except_ok_bind,
    hcheckpointRead, except_ok_bind, require_of _ ⟨rfl, rfl, hcheckpointAddress⟩, except_ok_bind, hlaneRead, except_ok_bind,
    require_of _ ⟨rfl, rfl, hlaneAddress⟩, except_ok_bind]
  rfl

theorem master_owner (poolProgram : Pubkey) :
    (⟨master, false, false⟩ : AccountInfo).owner (ledger poolProgram) = poolProgram := by
  rw [AccountInfo.owner, (ledger_reads poolProgram).master]

/-- The full route accepts the sample statement whichever program owns the accounts. -/
theorem full_route_accepts (poolProgram : Pubkey) {bytes : Bytes}
    (hs : encodePoolV1PairForestTerminalStatementV1 statement = .ok bytes) :
    validateV7PairForestAsf8RequestV1 environment features verifierProgram accounts bytes 0 (ledger poolProgram) =
      .ok ⟨statement, 14, 20676⟩ := by
  rw [asf8_eq_ok hs]
  refine ⟨⟨master, false, false⟩, 7, authenticated, ⟨proofKey, false, false⟩, ⟨after, 14, 20676⟩, rfl,
    sample_checks.output_lane,
    ?_, rfl, proof_scanned poolProgram, ?_, rfl⟩
  · rw [master_owner]
    exact accounts_authenticated poolProgram
  · rw [authenticateSupplied_eq_ok]
    exact ⟨rfl, rfl, rfl⟩

end SampleStatement

open SampleStatement in
/-- Under the program that owns the sample accounts, both routes accept the sample statement. -/
theorem full_route_iff_compact_route_sample : ∃ statementBytes requestBytes,
    encodePoolV1PairForestTerminalStatementV1 statement = .ok statementBytes ∧
    encodePoolV1PairForestTerminalRequestV1 (requestFromAsf8StatementV1 statement Pool.Sample.programId) =
      .ok requestBytes ∧
    validateV7PairForestAsq8RequestV1 Pool.Sample.environment features verifierProgram accounts requestBytes 0
      (ledger Pool.Sample.programId) = .ok ⟨statement, 14, 20676⟩ := by
  obtain ⟨statementBytes, hs⟩ := validStatement_encodes (validateTerminalStatement_eq_ok.mp sample_checks.statement_valid)
  have howner : ∀ account, accounts[1]? = some account →
      account.owner (ledger Pool.Sample.programId) = Pool.Sample.programId := by
    rintro account haccount
    obtain rfl := Option.some.inj haccount
    exact master_owner _
  obtain ⟨requestBytes, hr, hiff⟩ := full_route_iff_compact_route hs howner (by decide)
  exact ⟨statementBytes, requestBytes, hs, hr,
    ((hiff _).mp (full_route_accepts _ hs)).1⟩

open SampleStatement in
/-- When the zero program owns the accounts, the full route accepts the sample statement and no compact request has the
same Pool program. -/
theorem zero_program_only_full_route : ∃ statementBytes,
    encodePoolV1PairForestTerminalStatementV1 statement = .ok statementBytes ∧
    validateV7PairForestAsf8RequestV1 Pool.Sample.environment features verifierProgram accounts statementBytes 0
      (ledger Bytes32.zero) = .ok ⟨statement, 14, 20676⟩ ∧
    ∀ requestBytes request, decodePoolV1PairForestTerminalRequestV1 requestBytes = .ok request →
      request.poolProgram ≠ (⟨SampleSpend.master, false, false⟩ : AccountInfo).owner (ledger Bytes32.zero) := by
  obtain ⟨statementBytes, hs⟩ := validStatement_encodes (validateTerminalStatement_eq_ok.mp sample_checks.statement_valid)
  refine ⟨statementBytes, hs, full_route_accepts _ hs, ?_⟩
  intro requestBytes request hrequest
  rw [master_owner]
  have hencode := encode_decodeTerminalRequest hrequest
  simp only [encodePoolV1PairForestTerminalRequestV1, except_bind_eq_ok, require_eq_ok] at hencode
  obtain ⟨-, ⟨-, -, hprogram⟩, -⟩ := hencode
  exact hprogram

end Aspis.Forest.V7Dispatch
