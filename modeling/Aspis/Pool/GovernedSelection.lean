import Aspis.Pool.VerifierSelection
import Aspis.Registry.Certificates

/-! Who decides which verifier the pool selects. Under a mutable policy only the
authority the policy names can bring a verifier about. Under an immutable policy
no authority is named: whoever opens the registry and freezes it decides, and
from the freeze on nothing about the selection changes any more. -/

namespace Aspis.Pool

open Lib Chain Statement Registry

section
variable {env : RegistryEnvironment} {v : RegistryVersion} {pool : Pubkey} {policy : VerifierPolicyV1}
  {accounts : List AccountInfo} {selection : VerifierSelectionV1} {slot : UInt64} {l l' : Ledger}
  {evidence : AuthenticatedVerifierSelectionV1} {start s t : RegistryState} {events : List RegistryEvent}

/-- The registry a selection rests on names the policy's authority and is frozen if the policy is immutable. -/
theorem authenticateVerifierSelection_policy (hprogram : policy.registryProgram = env.programId)
    (h : authenticateVerifierSelection env.findProgramAddress v pool policy accounts selection slot l = .ok evidence) :
    ∃ registry, registryAt env v l (registryKey env v pool) = some registry ∧
      registry.authority = policy.registryAuthority ∧
      registryMeetsPolicy env.findProgramAddress policy v registry = true := by
  unfold authenticateVerifierSelection at h
  split at h
  · simp only [except_bind_eq_ok, selectRegistry, requireReadonlyRegistryAccount, require_eq_ok, mapErr_eq_ok,
      except_pure_eq_ok, hprogram] at h
    obtain ⟨_, ⟨_, ⟨howner, -⟩, _, haddress, registry, hregistry, _, ⟨-, hauthority, -, hmeets⟩, -⟩, -⟩ := h
    refine ⟨registry, registryAt_eq_some.mpr ?_, hauthority, hmeets⟩
    rw [registryKey, ← haddress]
    exact ⟨howner, hregistry⟩
  · cases h

theorem registryMeetsPolicy_immutable {registry : VerifierRegistry v} (hpolicy : v = .v2 → policy.flags &&& 1 ≠ 0)
    (h : registryMeetsPolicy env.findProgramAddress policy v registry = true) :
    registry.isImmutable = decide (policy.flags &&& 1 ≠ 0) := by
  cases v with
  | v1 => exact of_decide_eq_true h
  | v2 =>
    rw [decide_eq_true (hpolicy rfl)]
    exact (of_decide_eq_true h).1

/-- An immutable deployment needs an immutable registry. -/
theorem validateVerifierPolicyV1_deployment {u : Unit} (h : validateVerifierPolicyV1 policy = .ok u)
    (hdeployment : policyVersion policy = .v2) : policy.flags &&& 1 ≠ 0 := by
  simp only [validateVerifierPolicyV1, except_bind_eq_ok, require_eq_ok] at h
  obtain ⟨_, -, _, -, _, hmode, -⟩ := h
  intro hmutable
  unfold policyVersion at hdeployment
  split_ifs at hdeployment with hflag
  exact hmode ⟨hflag, hmutable⟩

/-- The registry behind a selection is frozen exactly if the policy is immutable. -/
theorem authenticateVerifierSelectionV1_policy (hprogram : policy.registryProgram = env.programId)
    (h : authenticateVerifierSelectionV1 env.findProgramAddress pool policy accounts selection slot l = .ok evidence) :
    ∃ registry, registryAt env (policyVersion policy) l (registryKey env (policyVersion policy) pool) = some registry ∧
      registry.authority = policy.registryAuthority ∧ registry.isImmutable = decide (policy.flags &&& 1 ≠ 0) := by
  obtain ⟨registry, hregistry, hauthority, hmeets⟩ :=
    authenticateVerifierSelection_policy hprogram (authenticateVerifierSelectionV1_version h)
  simp only [authenticateVerifierSelectionV1, except_bind_eq_ok, mapErr_eq_ok] at h
  obtain ⟨_, hvalid, -⟩ := h
  exact ⟨registry, hregistry, hauthority,
    registryMeetsPolicy_immutable (validateVerifierPolicyV1_deployment hvalid) hmeets⟩

/-! ### Strangers -/

/-- Without a freeze no registry of the pool becomes frozen. -/
theorem Runs.not_frozen (hstart : Registry.Genesis env start) (hrun : Runs env start events s)
    (hnone : ∀ e ∈ events, ¬ Freezes v (registryKey env v pool) e) : ¬ Frozen env v pool s.ledger := by
  intro hfrozen
  obtain ⟨es₁, e, es₂, x, y, rfl, -, hstep, -, hx, hy⟩ :=
    Run.exists_step_into (fun st => Frozen env v pool st.ledger) hrun hstart.not_frozen hfrozen
  exact hnone e (List.mem_append_right es₁ List.mem_cons_self) (hstep.freezes hx hy)

/-- A key that is not the policy's authority never gets a verifier selected by signing all registry instructions for
the pool, unless the policy is immutable and one of the instructions is a freeze. -/
theorem stranger_never_selected {authority : Pubkey} (hstart : Registry.Genesis env start)
    (hrun : Runs env start events s) (hprogram : policy.registryProgram = env.programId)
    (hstranger : authority ≠ policy.registryAuthority) (hsigned : ∀ e ∈ events, e.SignedBy env pool authority)
    (hmode : policy.flags &&& 1 = 0 ∨ ∀ e ∈ events, ∀ v, ¬ Freezes v (registryKey env v pool) e) :
    authenticateVerifierSelectionV1 env.findProgramAddress pool policy accounts selection slot s.ledger ≠
      .ok evidence := by
  intro h
  obtain ⟨registry, hregistry, hauthority, himmutable⟩ := authenticateVerifierSelectionV1_policy hprogram h
  by_cases hmutable : policy.flags &&& 1 = 0
  · -- the registry names the signer of its opening, not the policy's authority
    rw [decide_eq_false (not_not.mpr hmutable)] at himmutable
    have hheld := Runs.heldBy hrun hstart.heldBy hsigned _ registry hregistry himmutable
    exact hstranger (hheld.symm.trans hauthority)
  · rw [decide_eq_true hmutable] at himmutable
    have hnone := hmode.resolve_left hmutable
    exact Runs.not_frozen hstart hrun (fun e he => hnone e he _) ⟨registry, hregistry, himmutable⟩

end

/-- A policy that names another authority than the one of the sample run. -/
def foreignPolicy : VerifierPolicyV1 := { samplePolicy with registryAuthority := Bytes32.filled 8 }

theorem sampleEvents_signed : ∀ e ∈ Registry.Sample.events,
    e.SignedBy Registry.Sample.environment Registry.Sample.pool (Bytes32.filled 7) := by
  intro e he
  simp only [Registry.Sample.events, List.mem_cons, List.not_mem_nil, or_false] at he
  rcases he with rfl | rfl | rfl <;> exact fun _ => rfl

/-- In the sample run one key signs everything, and a policy that names another authority selects nothing. -/
theorem stranger_never_selected_sample : Bytes32.filled 7 ≠ foreignPolicy.registryAuthority ∧
    ∀ evidence : AuthenticatedVerifierSelectionV1,
      authenticateVerifierSelectionV1 Registry.Sample.environment.findProgramAddress Registry.Sample.pool
        foreignPolicy sampleAccounts sampleSelection 12 Registry.Sample.activated.ledger ≠ .ok evidence := by
  have hstranger : Bytes32.filled 7 ≠ foreignPolicy.registryAuthority := by decide
  refine ⟨hstranger, ?_⟩
  intro evidence
  exact stranger_never_selected Registry.Sample.genesis Registry.Sample.runs rfl hstranger sampleEvents_signed (.inl rfl)

/-- The immutable policy of the sample pool; it names no authority. -/
def frozenPolicy : VerifierPolicyV1 := ⟨1, Bytes32.filled 9, Bytes32.zero, Bytes32.filled 2⟩

def freezeSample : RegistryHandler Unit :=
  processDecodedInstruction Registry.Sample.environment [Registry.Sample.registryAccount, Registry.Sample.authority] 13
    (.freeze (v := .v1) 2)

def frozenSample : RegistryState := ⟨freezeSample.final Registry.Sample.activated.ledger, 13⟩

set_option maxRecDepth 100000 in
theorem freezeSample_ok : freezeSample.succeeds Registry.Sample.activated.ledger = true ∧
    authenticateVerifierSelectionV1 Registry.Sample.environment.findProgramAddress Registry.Sample.pool frozenPolicy
      sampleAccounts sampleSelection 13 frozenSample.ledger =
        .ok ⟨frozenPolicy, Registry.Sample.pool, sampleSelection, 3, none, 13⟩ := by
  decide +kernel

set_option maxRecDepth 100000 in
theorem freezeSample_run : freezeSample Registry.Sample.activated.ledger = .ok () frozenSample.ledger :=
  Exec.ok_final freezeSample_ok.1

/-- The run in which the signer of everything freezes the registry at the end. -/
theorem frozenSample_runs : Runs Registry.Sample.environment Registry.Sample.start (Registry.Sample.events ++
    [.accepted 13 [Registry.Sample.registryAccount, Registry.Sample.authority] (.freeze (v := .v1) 2)])
      frozenSample := by
  refine Registry.Sample.runs.append (.cons (t := frozenSample) ⟨?_, rfl, freezeSample_run⟩ (.nil _))
  decide

/-- Under an immutable policy a key that neither signed the pool's initialization nor is named in the policy gets its
own verifier selected: it opens the registry first and freezes it. -/
theorem stranger_selected_after_freeze : ¬ ∀ (env : RegistryEnvironment) (start s : RegistryState)
    (events : List RegistryEvent) (pool : Pubkey) (policy : VerifierPolicyV1) (initializer authority : Pubkey)
    (accounts : List AccountInfo) (selection : VerifierSelectionV1) (slot : UInt64)
    (evidence : AuthenticatedVerifierSelectionV1), Registry.Genesis env start → Runs env start events s →
      policy.registryProgram = env.programId → authority ≠ initializer → authority ≠ policy.registryAuthority →
      (∀ e ∈ events, e.SignedBy env pool authority) →
      authenticateVerifierSelectionV1 env.findProgramAddress pool policy accounts selection slot s.ledger ≠
        .ok evidence := by
  intro h
  have hinitializer : Bytes32.filled 7 ≠ Bytes32.filled 1 := by decide
  have hstranger : Bytes32.filled 7 ≠ frozenPolicy.registryAuthority := by decide
  refine h _ _ _ _ Registry.Sample.pool frozenPolicy _ _ _ _ _ _ Registry.Sample.genesis frozenSample_runs rfl
    hinitializer hstranger (fun e he => ?_) freezeSample_ok.2
  rcases List.mem_append.mp he with he | he
  · exact sampleEvents_signed e he
  · obtain rfl := List.mem_singleton.mp he
    exact fun _ => rfl

end Aspis.Pool
