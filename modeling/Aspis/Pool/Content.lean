import Aspis.Pool.Program

/-! Which of the program's accounts is which. Every record the program writes
starts with four bytes of its own, so two roles of one instruction never fall on
one account unless both are still zeroed, and no address derivation has to be
injective for that. -/

namespace Aspis.Pool

open Lib Chain Statement

inductive AccountKind
  | state
  | page
  | marker
  | core
  | shard
  deriving DecidableEq, Repr

def AccountKind.magic : AccountKind → Bytes
  | .state => [65, 83, 80, 75]
  | .page => ASPR
  | .marker => markerMagic
  | .core => coreMagic
  | .shard => rolloverMagic

theorem AccountKind.magic_inj {a b : AccountKind} (h : a.magic = b.magic) : a = b := by
  cases a <;> cases b <;> first | rfl | (exact absurd h (by decide))

theorem AccountKind.magic_not_zero (a : AccountKind) : allZero a.magic = false := by
  cases a <;> decide

/-- An account of the program that holds a record of the given kind. -/
structure HasKind (env : Environment) (kind : AccountKind) (l : Ledger) (k : Pubkey) : Prop where
  owner_eq : (l k).owner = env.programId
  magic_eq : slice 0 4 (l k).data = kind.magic

/-- An account of the program that holds nothing yet. -/
structure Zeroed (env : Environment) (l : Ledger) (k : Pubkey) : Prop where
  owner_eq : (l k).owner = env.programId
  zero_eq : allZero (l k).data = true

/-- The root sequence a state account carries. -/
def rootSequenceAt (l : Ledger) (k : Pubkey) : ℕ := leNat (slice 40 8 (l k).data)

section
variable {env : Environment} {kind kind' : AccountKind} {l l' : Ledger} {k k' : Pubkey}

theorem HasKind.unique (h : HasKind env kind l k) (h' : HasKind env kind' l k) : kind = kind' :=
  AccountKind.magic_inj (h.magic_eq.symm.trans h'.magic_eq)

theorem HasKind.not_kind_of_ne (h : HasKind env kind l k) (hne : kind ≠ kind') : ¬ HasKind env kind' l k :=
  fun h' => hne (h.unique h')

theorem HasKind.ne_of_kind (h : HasKind env kind l k) (h' : HasKind env kind' l k') (hne : kind ≠ kind') : k ≠ k' := by
  rintro rfl
  exact hne (h.unique h')

theorem Zeroed.not_kind (h : Zeroed env l k) : ¬ HasKind env kind l k := by
  intro hk
  have hzero := allZero_slice 0 4 h.zero_eq
  rw [hk.magic_eq, kind.magic_not_zero] at hzero
  cases hzero

theorem Zeroed.ne_of_kind (h : Zeroed env l k) (h' : HasKind env kind l k') : k ≠ k' := by
  rintro rfl
  exact h.not_kind h'

theorem HasKind.outside (h : HasKind env kind l k) (hout : Outside env.programId l l') : HasKind env kind l' k := by
  obtain ⟨howner, hdata⟩ := hout.kept k h.owner_eq
  exact ⟨howner, by rw [hdata]; exact h.magic_eq⟩

theorem Zeroed.outside (h : Zeroed env l k) (hout : Outside env.programId l l') : Zeroed env l' k := by
  obtain ⟨howner, hdata⟩ := hout.kept k h.owner_eq
  exact ⟨howner, by rw [hdata]; exact h.zero_eq⟩

/-- What is not zeroed before others act was there before, unchanged. -/
theorem HasKind.of_outside (h : HasKind env kind l' k) (hout : Outside env.programId l l') :
    HasKind env kind l k ∧ (l' k).data = (l k).data := by
  by_cases howner : (l k).owner = env.programId
  · obtain ⟨-, hdata⟩ := hout.kept k howner
    exact ⟨⟨howner, by rw [← hdata]; exact h.magic_eq⟩, hdata⟩
  · exact absurd h (Zeroed.not_kind ⟨h.owner_eq, hout.fresh k howner h.owner_eq⟩)

theorem magic_of_preamble {data preamble : Bytes} (h : slice 0 8 data = preamble) :
    slice 0 4 data = slice 0 4 preamble := by
  rw [← h, slice_slice data (by omega)]

/-- A decoded pool state is a state record. -/
theorem hasKind_state {decode : Bytes → Except ProgramError PoolTree} {pool : Pubkey} {s : PoolStateV1}
    (howner : (l k).owner = env.programId) (h : decodeStateWith decode (l k).data pool = .ok s) :
    HasKind env .state l k :=
  ⟨howner, magic_of_preamble (decodeStateWith_magic h).2.1⟩

theorem hasKind_page {pool : Pubkey} {pageNumber : ℕ} {header : RootPageHeaderV1}
    (howner : (l k).owner = env.programId) (h : validateRootPageBytes (l k).data pool pageNumber = .ok header) :
    HasKind env .page l k :=
  ⟨howner, magic_of_preamble (validateRootPageBytes_ok h).1⟩

theorem hasKind_core {shard : Option PreparedSettlementRolloverShardAccountV1} {v : PreparedSettlementPlanViewV1}
    (howner : (l k).owner = env.programId) (h : decodePreparedSettlementPlanV1 env k (l k).data shard = .ok v) :
    HasKind env .core l k :=
  ⟨howner, decodePreparedSettlementPlanV1_magic env h⟩

theorem hasKind_shard {core : Pubkey} {bytes : Bytes} {shard : Option AccountInfo} {v : PreparedSettlementPlanViewV1}
    {account : AccountInfo} (howner : (l account.key).owner = env.programId) (hshard : shard = some account)
    (h : decodePreparedSettlementPlanV1 env core bytes (shardAccountView shard l) = .ok v) :
    HasKind env .shard l account.key := by
  subst hshard
  exact ⟨howner, decodePreparedSettlementPlanV1_shardMagic env h⟩

/-- The accounts of a decoded plan are its core and its shard. -/
theorem plan_kinds {core : AccountInfo} {shard : Option AccountInfo} {v : PreparedSettlementPlanViewV1}
    (hcore : (l core.key).owner = env.programId) (hshard : ∀ s ∈ shard, (l s.key).owner = env.programId)
    (hv : decodePreparedSettlementPlanV1 env core.key (l core.key).data (shardAccountView shard l) = .ok v) :
    ∀ k ∈ (shard.map (·.key)).toList ++ [core.key], HasKind env .core l k ∨ HasKind env .shard l k := by
  intro k hk
  rw [List.mem_append, Option.mem_toList, List.mem_singleton] at hk
  rcases hk with hk | rfl
  · obtain ⟨s, hs, rfl⟩ := Option.map_eq_some_iff.mp hk
    exact .inr (hasKind_shard (hshard s hs) hs hv)
  · exact .inl (hasKind_core hcore hv)

theorem hasKind_marker {m : PoolV1NullifierMarkerV1} (howner : (l k).owner = env.programId)
    (h : (l k).data = markerBytes m) : HasKind env .marker l k :=
  ⟨howner, by rw [h]; exact slice_markerBytes_magic m⟩

end

end Aspis.Pool
