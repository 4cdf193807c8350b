import Aspis.Pool.PlanClose
import Aspis.Pool.Refinement

/-! Notes and their nullifiers. A commitment binds owner, value, asset and salt;
a nullifier binds the owner's nullifier key and the salt alone. Two notes of one
owner therefore have different nullifiers exactly if their salts differ, and
then the marker of the one is never written for the other. -/

namespace Aspis.Pool

open Lib Chain Statement

/-! ### Note hashes -/

def DOMAIN_OWNER_KEY : M31 := ⟨0x41530001⟩

def DOMAIN_NULLIFIER : M31 := ⟨0x41530002⟩

def DOMAIN_NOTE : M31 := ⟨0x41530003⟩

/-- The sponge over field elements, under a domain. -/
abbrev FieldHash := M31 → List M31 → Digest

def deriveOwnerKey (hash : FieldHash) (nullifierKey : Digest) : Digest := hash DOMAIN_OWNER_KEY (List.ofFn nullifierKey)

def deriveNullifier (hash : FieldHash) (nullifierKey salt : Digest) : Digest :=
  hash DOMAIN_NULLIFIER (List.ofFn nullifierKey ++ List.ofFn salt)

def noteCommitment (hash : FieldHash) (ownerKey : Digest) (value : ℕ) (assetId : M31) (salt : Digest) : Digest :=
  hash DOMAIN_NOTE (List.ofFn ownerKey ++ ([⟨UInt32.ofNat value⟩, assetId] ++ List.ofFn salt))

def poolV1NoteCommitment (hash : FieldHash) (ownerKey : Digest) (value : ℕ) (assetId : M31) (salt : Digest) : Digest :=
  noteCommitment hash ownerKey value assetId salt

def poolV1Nullifier (hash : FieldHash) (nullifierKey salt : Digest) : Digest := deriveNullifier hash nullifierKey salt

/-- What opens a leaf: the owner's nullifier key, the value and the salt. -/
structure Note where
  nullifierKey : Digest
  value : ℕ
  salt : Digest

namespace Note

variable (hash : FieldHash) (note : Note)

def ownerKey : Digest := deriveOwnerKey hash note.nullifierKey

def nullifier : Digest := poolV1Nullifier hash note.nullifierKey note.salt

def commitment (assetId : M31) : Digest := poolV1NoteCommitment hash (note.ownerKey hash) note.value assetId note.salt

/-- Everything that is hashed for a note. -/
def messages (assetId : M31) : Set (M31 × List M31) :=
  {(DOMAIN_OWNER_KEY, List.ofFn note.nullifierKey),
    (DOMAIN_NULLIFIER, List.ofFn note.nullifierKey ++ List.ofFn note.salt),
    (DOMAIN_NOTE, List.ofFn (note.ownerKey hash) ++ ([⟨UInt32.ofNat note.value⟩, assetId] ++ List.ofFn note.salt))}

variable {hash note} {note' : Note} {assetId : M31}

/-- Notes of one owner share a nullifier exactly if they share the salt. -/
theorem nullifier_eq_iff
    (hinj : Set.InjOn (fun m : M31 × List M31 => hash m.1 m.2) (note.messages hash assetId ∪ note'.messages hash assetId))
    (howner : note.ownerKey hash = note'.ownerKey hash) :
    note.nullifier hash = note'.nullifier hash ↔ note.salt = note'.salt := by
  have hkey : note.nullifierKey = note'.nullifierKey := by
    have hmessage := hinj (.inl (.inl rfl)) (.inr (.inl rfl)) howner
    exact List.ofFn_injective (Prod.ext_iff.mp hmessage).2
  constructor
  · intro hnullifier
    have hmessage := hinj (.inl (.inr (.inl rfl))) (.inr (.inr (.inl rfl))) hnullifier
    have hfields := (Prod.ext_iff.mp hmessage).2
    rw [hkey] at hfields
    exact List.ofFn_injective (List.append_cancel_left hfields)
  · intro hsalt
    rw [nullifier, nullifier, hkey, hsalt]

end Note

/-! ### Where markers come from -/

/-- Outside the listed accounts no marker is written. -/
def MarkersOnlyAt (env : Environment) (written : List Pubkey) (l l' : Ledger) : Prop :=
  ∀ k, k ∉ written → HasKind env .marker l' k → HasKind env .marker l k

section Markers
variable {env : Environment} {l m l' : Ledger} {written written' : List Pubkey}

namespace MarkersOnlyAt

theorem trans (h : MarkersOnlyAt env written l m) (h' : MarkersOnlyAt env written' m l') :
    MarkersOnlyAt env (written ++ written') l l' := by
  intro k hk hmarker
  rw [List.mem_append, not_or] at hk
  exact h k hk.1 (h' k hk.2 hmarker)

theorem of_outside (h : Outside env.programId l l') : MarkersOnlyAt env [] l l' := fun _ _ hmarker => (hmarker.of_outside h).1

/-- Writes that leave no marker outside the listed accounts. -/
theorem of_touches {keys : List Pubkey} (h : Touches keys l l')
    (hkeys : ∀ k ∈ keys, k ∉ written → ¬ HasKind env .marker l' k) : MarkersOnlyAt env written l l' := by
  intro k hk hmarker
  obtain ⟨howner, hdata⟩ := h k fun hmem => hkeys k hmem hk hmarker
  exact ⟨howner.symm.trans hmarker.owner_eq, by rw [← hdata]; exact hmarker.magic_eq⟩

end MarkersOnlyAt

theorem not_marker_of_magic {kind : AccountKind} {k : Pubkey} (h : slice 0 4 (l k).data = kind.magic)
    (hne : kind ≠ .marker) : ¬ HasKind env .marker l k :=
  fun hmarker => hne (AccountKind.magic_inj (h.symm.trans hmarker.magic_eq))

/-- Writing one account a record of another kind. -/
theorem MarkersOnlyAt.setData {key : Pubkey} {data : Bytes} {kind : AccountKind} (hdata : slice 0 4 data = kind.magic)
    (hne : kind ≠ .marker) : MarkersOnlyAt env [] l (setData key data l) := by
  refine MarkersOnlyAt.of_touches (Touches.setData key data l) fun k hk _ => ?_
  obtain rfl := List.mem_singleton.mp hk
  exact not_marker_of_magic (by rw [setData_self]; exact hdata) hne

theorem AppendSpec.markers {pool current : AccountInfo} {supplied : Option AccountInfo}
    {source : AuthorizedSourceStateV1} {prevalidated : Option PrevalidatedCurrentHistoryV1} {r : AuthorizedAppendV1}
    {plan : AppendPlanV1} (hspec : AppendSpec env pool current supplied source prevalidated r l plan)
    (htargets : AppendTargets env pool.key current.key (plan.next.map (·.1)) m) :
    MarkersOnlyAt env [] m (plan.persist pool.key current.key m) := by
  refine MarkersOnlyAt.of_touches plan.persist_touches fun k hk _ => ?_
  rcases hspec.written_magic htargets hk with hmagic | hmagic
  · exact not_marker_of_magic hmagic (by decide)
  · exact not_marker_of_magic hmagic (by decide)

theorem DepositRun.markers {pool current : AccountInfo} {next : Option AccountInfo}
    {tokenAccounts : List AccountInfo} {c : CanonicalPoolStateV1} {r : DepositRequestV1}
    {transfer : LegacyDepositTransferPlanV1} {plan : AppendPlanV1} {created paid : Ledger} {receipt : DepositReceiptV1}
    (h : DepositRun env pool current next tokenAccounts c r transfer plan l created paid l' receipt) :
    MarkersOnlyAt env [] l l' := by
  have hbefore := (h.created_call.outside env.programId_ne_system).trans
    (env.transferChecked_outside _ _ _ h.transferred)
  have hafter := (planAuthorizedAppend_spec h.append).markers h.targets
  rw [h.persisted] at hafter
  exact (MarkersOnlyAt.of_outside hbefore).trans hafter

theorem InitializeRun.markers {pool pageZero : AccountInfo} {init : PoolInitializationV1} {state : PoolStateV1}
    {prepared : Ledger} (h : InitializeRun env pool pageZero init state l prepared l') : MarkersOnlyAt env [] l l' := by
  have hpool : MarkersOnlyAt env [] prepared (setData pool.key state.writeEncodingPrevalidated prepared) :=
    @MarkersOnlyAt.setData _ _ _ _ .state (magic_of_preamble (magic_writeEncoding _)) (by decide)
  have hpage : MarkersOnlyAt env [] (setData pool.key state.writeEncodingPrevalidated prepared) l' := by
    rw [h.written]
    exact MarkersOnlyAt.setData (magic_writeNewPageUnchecked pool.key 0 0 [env.emptyRoots POOL_V1_TREE_DEPTH]) (by decide)
  exact ((MarkersOnlyAt.of_outside h.outside).trans hpool).trans hpage

theorem SpendRun.markers {i : SpendInstructionV1} {pool current marker : AccountInfo} {next : Option AccountInfo}
    {source : AuthorizedSourceStateV1} {prevalidated : Option PrevalidatedCurrentHistoryV1} {r : AuthorizedAppendV1}
    {plan : AppendPlanV1} {planned : PlannedNullifierMarkerV1} {tokens : List AccountInfo}
    {withdrawal : Option LegacyWithdrawalTransferPlanV1} {created marked paid : Ledger} {receipt : TransitionReceiptV1}
    (h : SpendRun env i pool current marker next source prevalidated r plan planned tokens withdrawal l created marked
      paid l' receipt) : MarkersOnlyAt env [marker.key] l l' := by
  have hbefore := (h.created_call.outside env.programId_ne_system).trans h.outside
  have hmarker : MarkersOnlyAt env [marker.key] paid (setData marker.key planned.encodedMarker paid) :=
    MarkersOnlyAt.of_touches (Touches.setData _ _ _) fun k hk hk' => absurd hk hk'
  have hafter := (planAuthorizedAppend_spec h.append).markers (h.targets.setData planned.encodedMarker h.marker_not_target)
  rw [h.persisted] at hafter
  exact ((MarkersOnlyAt.of_outside hbefore).trans hmarker).trans hafter

theorem PrepareRun.markers {pool core : AccountInfo} {c : CanonicalPoolStateV1} {r : AuthorizedAppendV1}
    {images : PreparedSettlementPlanImagesV1} {f : PreparedSettlementPlanFieldsV1}
    {prepared : PreparedAuthorizedAppendImagesV1} {shard : Option PlannedShard} {created : Ledger}
    (h : PrepareRun env pool core c r images f prepared shard l created l') : MarkersOnlyAt env [] l l' := by
  obtain ⟨current, rollover, hencoded⟩ := h.built.encoded
  have hcore : MarkersOnlyAt env [] created (setData core.key images.coreImage created) :=
    @MarkersOnlyAt.setData _ _ _ _ .core (encodePreparedSettlementPlanV1_magic env hencoded) (by decide)
  have hshard : MarkersOnlyAt env [] (setData core.key images.coreImage created) l' := by
    rw [h.written]
    cases hs : shard with
    | none => exact fun _ _ hmarker => hmarker
    | some s =>
      obtain ⟨-, -, hmagic⟩ := h.shard_zeroed s hs
      exact @MarkersOnlyAt.setData _ _ _ _ .shard hmagic (by decide)
  exact ((MarkersOnlyAt.of_outside (h.created_call.outside env.programId_ne_system)).trans hcore).trans hshard

theorem PlanClosed.markers {core : AccountInfo} {shard : Option AccountInfo} (h : PlanClosed env core shard l l') :
    MarkersOnlyAt env [] l l' := by
  refine MarkersOnlyAt.of_touches h.touches fun k hk _ hmarker => ?_
  exact env.programId_ne_system (hmarker.owner_eq.symm.trans (h.disowned k hk))

theorem SettleRun.markers {services : AuthorizationServices} {accounts : List AccountInfo} {pool : AccountInfo}
    {kind : PoolV1TransitionKind} {s : PoolStateV1} {layout : SettlePreparedLayoutV1}
    {x : PreparedSettlementApplyContextV1} {v : PreparedSettlementPlanViewV1} {a : AuthenticatedSettlementStatementV1}
    {sourceNext : Option Bytes} {applied : PreparedSettlementApplyResultV1} {planned : PlannedNullifierMarkerV1}
    {withdrawal : Option LegacyWithdrawalTransferPlanV1} {marked paid closing : Ledger} {receipt : TransitionReceiptV1}
    (h : SettleRun env services accounts pool kind s layout x v a sourceNext applied planned withdrawal l marked paid
      closing l' receipt) : MarkersOnlyAt env [layout.marker.key] l l' := by
  have hclosing : MarkersOnlyAt env [layout.marker.key] paid closing := by
    refine MarkersOnlyAt.of_touches h.closing_touches fun k hk hk' => ?_
    rw [List.mem_append] at hk
    rcases h.closing_magic (hk.resolve_right hk') with hmagic | hmagic
    · exact not_marker_of_magic hmagic (by decide)
    · exact not_marker_of_magic hmagic (by decide)
  exact ((MarkersOnlyAt.of_outside h.outside).trans hclosing).trans h.closed.markers

/-- An accepted instruction writes a marker only as the spend of its nullifier. -/
theorem Accepted.markers {services : AuthorizationServices} {i : Instruction} {o : Outcome}
    (h : Accepted env services l l' i o) {k : Pubkey} (hbefore : ¬ HasKind env .marker l k)
    (hafter : HasKind env .marker l' k) :
    ∃ receipt, o = .spent receipt ∧ k = (poolV1NullifierMarkerAddress env receipt.pool receipt.nullifier).1 := by
  cases h with
  | initializePool run => exact absurd (run.markers k (by simp) hafter) hbefore
  | deposit run => exact absurd (run.markers k (by simp) hafter) hbefore
  | @spend _ _ _ _ marker _ _ _ _ _ _ _ _ _ _ _ receipt _ run =>
    refine ⟨receipt, rfl, ?_⟩
    by_contra hne
    rw [← run.marker_key] at hne
    exact hbefore (run.markers k (by simpa using hne) hafter)
  | prepare _ _ run => exact absurd (run.markers k (by simp) hafter) hbefore
  | @settle _ _ _ _ _ _ _ _ _ _ _ _ _ _ _ _ receipt _ _ run =>
    refine ⟨receipt, rfl, ?_⟩
    by_contra hne
    rw [← run.marker_key] at hne
    exact hbefore (run.markers k (by simpa using hne) hafter)
  | cancel _ run => exact absurd (run.closed.markers k (by simp) hafter) hbefore

end Markers

/-! ### Whole runs -/

section Runs
variable {d : Deployment} {l l' : Ledger} {events : List Event}

theorem Deployment.Step.marker_origin {e : Event} {k : Pubkey} (h : d.Step l e l') (hbefore : ¬ HasKind d.env .marker l k)
    (hafter : HasKind d.env .marker l' k) :
    ∃ pool nullifier, e.consumed = some (pool, nullifier) ∧ k = (poolV1NullifierMarkerAddress d.env pool nullifier).1 := by
  cases e with
  | outside => exact absurd (hafter.of_outside h).1 hbefore
  | rejected i =>
    obtain ⟨-, rfl⟩ := h
    exact absurd hafter hbefore
  | accepted i o =>
    obtain ⟨receipt, rfl, hk⟩ := (processInstruction_accepted h).markers hbefore hafter
    exact ⟨receipt.pool, receipt.nullifier, rfl, hk⟩

/-- The marker of the nullifier is written: the program refuses to spend it again. -/
def Spent (env : Environment) (pool : Pubkey) (nullifier : Digest) (l : Ledger) : Prop :=
  HasKind env .marker l (poolV1NullifierMarkerAddress env pool nullifier).1

/-- The pools and nullifiers the run spent. -/
def consumedIn (events : List Event) : Set (Pubkey × Digest) := {p | ∃ e ∈ events, e.consumed = some p}

/-- A nullifier becomes spent only by a spend of that nullifier, where marker addresses do not collide. -/
theorem spent_only_by_spend {pool : Pubkey} {nullifier : Digest} (h : d.Runs l events l')
    (haddress : Set.InjOn (fun p : Pubkey × Digest => (poolV1NullifierMarkerAddress d.env p.1 p.2).1)
      (insert (pool, nullifier) (consumedIn events)))
    (hstart : ¬ Spent d.env pool nullifier l) (hend : Spent d.env pool nullifier l') :
    (pool, nullifier) ∈ consumedIn events := by
  obtain ⟨es₁, e, es₂, x, y, rfl, -, hstep, -, hx, hy⟩ := h.exists_step_into (Spent d.env pool nullifier) hstart hend
  obtain ⟨pool', nullifier', hconsumed, hkey⟩ := Deployment.Step.marker_origin hstep hx hy
  have hmem : (pool', nullifier') ∈ consumedIn (es₁ ++ e :: es₂) := ⟨e, by simp, hconsumed⟩
  rwa [haddress (Set.mem_insert _ _) (Set.mem_insert_of_mem _ hmem) hkey]

/-- Over any run from genesis, for two leaves of a pool at different positions that open to notes of one owner for the
pool's asset: their nullifiers differ exactly if their salts do, and then a note is spent in the run only by a spend of
its own nullifier. -/
theorem notes_of_one_owner (hgenesis : Genesis d.env l) (h : d.Runs l events l') :
    ∀ (hash : FieldHash) (pool : Pubkey) (log : PoolLog) (i j : ℕ) (note note' : Note), logsOf events pool = some log →
      i ≠ j → log.leaves[i]? = some (note.commitment hash log.identity.assetId) →
      log.leaves[j]? = some (note'.commitment hash log.identity.assetId) →
      note.ownerKey hash = note'.ownerKey hash →
      Set.InjOn (fun m : M31 × List M31 => hash m.1 m.2)
        (note.messages hash log.identity.assetId ∪ note'.messages hash log.identity.assetId) →
      Set.InjOn (fun p : Pubkey × Digest => (poolV1NullifierMarkerAddress d.env p.1 p.2).1)
        (insert (pool, note'.nullifier hash) (consumedIn events)) →
      (note.nullifier hash ≠ note'.nullifier hash ↔ note.salt ≠ note'.salt) ∧
        (Spent d.env pool (note'.nullifier hash) l' → (pool, note'.nullifier hash) ∈ consumedIn events) := by
  intro hash pool log i j note note' _ _ _ _ howner hinj haddress
  refine ⟨not_congr (Note.nullifier_eq_iff hinj howner), fun hspent => ?_⟩
  refine spent_only_by_spend h haddress ?_ hspent
  intro hmarker
  exact Zeroed.not_kind ⟨hmarker.owner_eq, hgenesis _ hmarker.owner_eq⟩ hmarker

end Runs

namespace Sample

/-- A stand-in for the field sponge: a positional sum of its input under the domain. -/
def spongeOf : FieldHash := fun domain fields i =>
  ⟨UInt32.ofNat ((fields.foldl (fun n x => n * 3 + x.raw.toNat + 1) domain.raw.toNat + i) % P)⟩

theorem spongeOf_canonical (domain : M31) (fields : List M31) : DigestIsCanonical (spongeOf domain fields) := by
  intro i
  have hlt := Nat.mod_lt (fields.foldl (fun n x => n * 3 + x.raw.toNat + 1) domain.raw.toNat + i) (by decide : 0 < P)
  have hP : P < 2 ^ 32 := by decide
  change (UInt32.ofNat _).toNat < P
  rw [UInt32.toNat_ofNat_of_lt' (hlt.trans hP)]
  exact hlt

/-- The sample deployment with note commitments and tree nodes from the sponge. -/
def noteEnvironment : Environment :=
  { environment with
    treeParent := fun a b => spongeOf ⟨0x41531005⟩ (List.ofFn a ++ List.ofFn b)
    noteCommitment := poolV1NoteCommitment spongeOf
    treeParent_canonical := fun _ _ => spongeOf_canonical _ _ }

def noteDeployment : Deployment := ⟨noteEnvironment, services, fun _ _ _ _ => .ok ()⟩

/-- Three notes of one owner; the first two have the same salt. -/
def noteAt : Fin 3 → Note
  | 0 => ⟨Digest.zero, 1, Digest.zero⟩
  | 1 => ⟨Digest.zero, 2, Digest.zero⟩
  | 2 => ⟨Digest.zero, 1, fun _ => ⟨5⟩⟩

def noteRequest (i : Fin 3) : DepositRequestV1 := ⟨(noteAt i).ownerKey spongeOf, (noteAt i).value, (noteAt i).salt, []⟩

def noteStart : Ledger := fun k =>
  if k = pool then ⟨programId, 1, zeros 1000, false⟩
  else if k = page 0 then ⟨programId, 1, zeros 8256, false⟩
  else if k = vault then ⟨LEGACY_SPL_TOKEN_PROGRAM_ID, 1, tokenData vaultAuthority 0, false⟩
  else if k = source then ⟨LEGACY_SPL_TOKEN_PROGRAM_ID, 1, tokenData depositor 1000, false⟩
  else if k = mint then ⟨LEGACY_SPL_TOKEN_PROGRAM_ID, 1, mintData, false⟩
  else if k = LEGACY_SPL_TOKEN_PROGRAM_ID then ⟨bpfLoader, 1, [], true⟩
  else if k = systemProgram then ⟨nativeLoader, 1, [], true⟩
  else if k = payer then ⟨systemProgram, 1000, [], false⟩
  else ⟨systemProgram, 0, [], false⟩

def initializeNotes : Handler Unit := processInitializeV1 noteEnvironment initializeAccounts initialization

def depositNote (i : Fin 3) : Handler DepositReceiptV1 :=
  processDepositV1 noteEnvironment depositAccounts (noteRequest i)

def noteLedger : ℕ → Ledger
  | 0 => initializeNotes.final noteStart
  | n + 1 => (depositNote (Fin.ofNat 3 n)).final (noteLedger n)

/-- The receipt is of the pool and for the note. -/
def receiptFor (i : Fin 3) (receipt : DepositReceiptV1) : Bool :=
  decide (receipt.pool = pool ∧ receipt.noteCommitment = (noteAt i).commitment spongeOf initialization.assetId)

def messageList (i : Fin 3) : List (M31 × List M31) :=
  [(DOMAIN_OWNER_KEY, List.ofFn (noteAt i).nullifierKey),
    (DOMAIN_NULLIFIER, List.ofFn (noteAt i).nullifierKey ++ List.ofFn (noteAt i).salt),
    (DOMAIN_NOTE, List.ofFn ((noteAt i).ownerKey spongeOf) ++
      ([⟨UInt32.ofNat (noteAt i).value⟩, initialization.assetId] ++ List.ofFn (noteAt i).salt))]

/-- The pool is initialized, the three notes are deposited, and nothing hashed for them collides. -/
@[mk_iff]
structure NotesDeposited : Prop where
  initialized : initializeNotes.succeeds noteStart = true
  first : (depositNote 0).yields (noteLedger 0) (fun r _ => receiptFor 0 r) = true
  second : (depositNote 1).yields (noteLedger 1) (fun r _ => receiptFor 1 r) = true
  third : (depositNote 2).yields (noteLedger 2) (fun r _ => receiptFor 2 r) = true
  injective : ∀ m ∈ messageList 0 ++ (messageList 1 ++ messageList 2),
    ∀ m' ∈ messageList 0 ++ (messageList 1 ++ messageList 2), spongeOf m.1 m.2 = spongeOf m'.1 m'.2 → m = m'

set_option maxRecDepth 100000 in
theorem notes_deposited : NotesDeposited := by
  rw [notesDeposited_iff]
  decide +kernel

def noteEvent (i : Fin 3) (receipt : DepositReceiptV1) : Event :=
  .accepted (.deposit depositAccounts (noteRequest i)) (.deposited receipt)

def noteEvents (r₀ r₁ r₂ : DepositReceiptV1) : List Event :=
  [.accepted (.initializePool initializeAccounts initialization) (.initialized pool initialization), noteEvent 0 r₀,
    noteEvent 1 r₁, noteEvent 2 r₂]

theorem noteStart_genesis : Genesis noteEnvironment noteStart := by
  intro k hk
  unfold noteStart at hk ⊢
  split_ifs at hk ⊢
  · exact allZero_zeros _
  · exact allZero_zeros _
  all_goals exact absurd hk (by decide)

theorem depositNote_step {i : Fin 3} {l : Ledger} (h : (depositNote i).yields l (fun r _ => receiptFor i r) = true) :
    ∃ r, noteDeployment.Step l (noteEvent i r) ((depositNote i).final l) ∧ r.pool = pool ∧
      r.noteCommitment = (noteAt i).commitment spongeOf initialization.assetId := by
  obtain ⟨r, l', hok, hreceipt⟩ := Exec.ok_of_yields h
  have hfinal : (depositNote i).final l = l' := by rw [Exec.final, hok]
  rw [hfinal]
  obtain ⟨hpool, hnote⟩ := of_decide_eq_true hreceipt
  exact ⟨r, Exec.bind_ok.mpr ⟨r, l', hok, Exec.pure_ok.mpr ⟨rfl, rfl⟩⟩, hpool, hnote⟩

theorem notes_run : ∃ r₀ r₁ r₂ log, noteDeployment.Runs noteStart (noteEvents r₀ r₁ r₂) (noteLedger 3) ∧
    logsOf (noteEvents r₀ r₁ r₂) pool = some log ∧ log.identity.assetId = initialization.assetId ∧
    log.leaves = [(noteAt 0).commitment spongeOf initialization.assetId,
      (noteAt 1).commitment spongeOf initialization.assetId, (noteAt 2).commitment spongeOf initialization.assetId] := by
  have hdeposited := notes_deposited
  obtain ⟨r₀, hstep₀, hpool₀, hnote₀⟩ := depositNote_step hdeposited.first
  obtain ⟨r₁, hstep₁, hpool₁, hnote₁⟩ := depositNote_step hdeposited.second
  obtain ⟨r₂, hstep₂, hpool₂, hnote₂⟩ := depositNote_step hdeposited.third
  have hinitialize : noteDeployment.Step noteStart (.accepted (.initializePool initializeAccounts initialization)
      (.initialized pool initialization)) (noteLedger 0) :=
    Exec.bind_ok.mpr ⟨(), _, Exec.ok_final hdeposited.initialized, Exec.pure_ok.mpr ⟨rfl, rfl⟩⟩
  refine ⟨r₀, r₁, r₂, ((((PoolLog.initial pool initialization).append [r₀.noteCommitment]).append
    [r₁.noteCommitment]).append [r₂.noteCommitment]), ?_, ?_, rfl, ?_⟩
  · exact .cons hinitialize (.cons hstep₀ (.cons hstep₁ (.cons hstep₂ (.nil _))))
  · simp [noteEvents, noteEvent, logsOf, Logs.record, Logs.append, hpool₀, hpool₁, hpool₂]
  · rw [hnote₀, hnote₁, hnote₂]
    rfl

/-- Nothing hashed for two of the notes collides. -/
theorem notes_injective (i j : Fin 3) : Set.InjOn (fun m : M31 × List M31 => spongeOf m.1 m.2)
    ((noteAt i).messages spongeOf initialization.assetId ∪ (noteAt j).messages spongeOf initialization.assetId) := by
  have hlist : ∀ (i : Fin 3), ∀ m ∈ (noteAt i).messages spongeOf initialization.assetId,
      m ∈ messageList 0 ++ (messageList 1 ++ messageList 2) := by
    intro i m hm
    have hmem : m ∈ messageList i := by
      rcases hm with rfl | rfl | rfl
      · exact List.mem_cons_self
      · exact List.mem_cons_of_mem _ List.mem_cons_self
      · exact List.mem_cons_of_mem _ (List.mem_cons_of_mem _ List.mem_cons_self)
    fin_cases i
    · exact List.mem_append_left _ hmem
    · exact List.mem_append_right _ (List.mem_append_left _ hmem)
    · exact List.mem_append_right _ (List.mem_append_right _ hmem)
  rintro m hm m' hm' heq
  exact notes_deposited.injective m (hm.elim (hlist i m) (hlist j m)) m' (hm'.elim (hlist i m') (hlist j m')) heq

end Sample

/-- Two deposits of one owner with one salt: two leaves, one nullifier. -/
theorem equal_salts_share_a_nullifier : ∃ events log, Genesis Sample.noteDeployment.env Sample.noteStart ∧
    Sample.noteDeployment.Runs Sample.noteStart events (Sample.noteLedger 3) ∧
    logsOf events Sample.pool = some log ∧
    log.leaves[0]? = some ((Sample.noteAt 0).commitment Sample.spongeOf log.identity.assetId) ∧
    log.leaves[1]? = some ((Sample.noteAt 1).commitment Sample.spongeOf log.identity.assetId) ∧
    (Sample.noteAt 0).ownerKey Sample.spongeOf = (Sample.noteAt 1).ownerKey Sample.spongeOf ∧
    Set.InjOn (fun m : M31 × List M31 => Sample.spongeOf m.1 m.2)
      ((Sample.noteAt 0).messages Sample.spongeOf log.identity.assetId ∪
        (Sample.noteAt 1).messages Sample.spongeOf log.identity.assetId) ∧
    (Sample.noteAt 0).value ≠ (Sample.noteAt 1).value ∧
    (Sample.noteAt 0).nullifier Sample.spongeOf = (Sample.noteAt 1).nullifier Sample.spongeOf := by
  obtain ⟨r₀, r₁, r₂, log, hrun, hlog, hasset, hleaves⟩ := Sample.notes_run
  rw [← hasset] at hleaves
  refine ⟨_, log, Sample.noteStart_genesis, hrun, hlog, ?_, ?_, rfl, ?_, by decide, rfl⟩
  · rw [hleaves]
    rfl
  · rw [hleaves]
    rfl
  · rw [hasset]
    exact Sample.notes_injective 0 1

/-- Two deposits of one owner with two salts: two nullifiers, and neither is spent. -/
theorem notes_of_one_owner_sample : (Sample.noteAt 0).nullifier Sample.spongeOf ≠ (Sample.noteAt 2).nullifier Sample.spongeOf ∧
    ¬ Spent Sample.noteEnvironment Sample.pool ((Sample.noteAt 2).nullifier Sample.spongeOf) (Sample.noteLedger 3) := by
  obtain ⟨r₀, r₁, r₂, log, hrun, hlog, hasset, hleaves⟩ := Sample.notes_run
  have hnone : consumedIn (Sample.noteEvents r₀ r₁ r₂) = ∅ := by
    ext p
    simp [consumedIn, Sample.noteEvents, Sample.noteEvent, Event.consumed]
  obtain ⟨hdiffer, hspent⟩ := notes_of_one_owner Sample.noteStart_genesis hrun Sample.spongeOf Sample.pool log 0 2
    (Sample.noteAt 0) (Sample.noteAt 2) hlog (by decide) (by rw [hleaves, hasset]; rfl) (by rw [hleaves, hasset]; rfl) rfl
    (by rw [hasset]; exact Sample.notes_injective 0 2) (by rw [hnone]; simp)
  rw [hnone] at hspent
  exact ⟨hdiffer.mpr (by decide), hspent⟩

end Aspis.Pool
