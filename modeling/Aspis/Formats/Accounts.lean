import Aspis.Forest.AccountsExact
import Aspis.Pool.RootHistoryPage
import Aspis.Statement.VerifierRegistry
import Aspis.Verifier.ReceiptExact

/-! The account formats of the protocol side by side. Each of them is exact, and
since each starts with four bytes of its own no account is read as another kind. -/

namespace Aspis.Formats

open Lib Chain Statement Pool Forest Verifier

/-- A decoder that begins by checking a length and four bytes accepts only these. -/
theorem magic_of_checks {ε α : Type} {bytes magic : Bytes} {p : Prop} [Decidable p] {e e' : ε} {rest : Except ε α}
    {v : α} (h : (do require p e; require (slice 0 4 bytes = magic) e'; rest) = .ok v) : slice 0 4 bytes = magic := by
  simp only [except_bind_eq_ok, require_eq_ok] at h
  obtain ⟨-, -, -, hmagic, -⟩ := h
  exact hmagic

/-- The kinds of accounts; a pool state is read for the pool it is expected of. -/
inductive AccountFormat
  | poolState (pool : Pubkey)
  | forestMaster
  | forestLane
  | forestCheckpoint
  | rootHistoryPage
  | incrementalTree
  | registry (v : RegistryVersion)
  | registryEntry (v : RegistryVersion)
  | authorizationReceipt
  | authorizationReceiptAccount
  deriving DecidableEq

namespace AccountFormat

def Value : AccountFormat → Type
  | poolState _ => PoolStateV1
  | forestMaster => PoolV1PairForestMasterV1
  | forestLane => PoolV1PairForestLaneStateV1
  | forestCheckpoint => PoolV1PairForestCheckpointV1
  | rootHistoryPage => RootHistoryPageV1
  | incrementalTree => PoolTree
  | registry v => VerifierRegistry v
  | registryEntry v => VerifierRegistryEntry v
  | authorizationReceipt => Verifier.PoolV1AuthorizationReceiptV1
  | authorizationReceiptAccount => Verifier.PoolV1AuthorizationReceiptAccountV1

/-- The strict decoder and the encoder of a kind. A value fits if its limbs are
canonical and its numbers have the width of their fields; the receipt account has
no encoder of its own and is given by its layout and its invariant. -/
def format (env : Environment) : (f : AccountFormat) → Format f.Value
  | poolState pool => .ofExcept (PoolStateV1.decodeWithValidatedTree env · pool) (PoolStateV1.encode env)
      (CanonicalState pool)
  | forestMaster => .ofExcept decodePoolV1PairForestMasterV1 encodePoolV1PairForestMasterV1 CanonicalMaster
  | forestLane => .ofExcept (decodePoolV1PairForestLaneStateV1 env) (encodePoolV1PairForestLaneStateV1 env)
      fun lane => CanonicalTree lane.tree
  | forestCheckpoint => .ofExcept decodePoolV1PairForestCheckpointV1 encodePoolV1PairForestCheckpointV1
      fun c => c.checkpointSequence < Pool.U64_LIMIT
  | rootHistoryPage => .ofExcept RootHistoryPageV1.decode RootHistoryPageV1.encode
      fun page => ∀ slot, DigestIsCanonical (page.roots slot)
  | incrementalTree => .ofExcept (decodeWithEmptyRoots env.treeParent env.emptyRoots)
      (encodeWithEmptyRoots env.treeParent env.emptyRoots) CanonicalTree
  | registry v => .ofExcept (decodeVerifierRegistry v) encodeVerifierRegistry fun _ => True
  | registryEntry v => .ofExcept (decodeVerifierRegistryEntry v) encodeVerifierRegistryEntry fun _ => True
  | authorizationReceipt => .ofExcept (decodePoolV1AuthorizationReceiptV1 env.hashv)
      (encodePoolV1AuthorizationReceiptV1 env.hashv) fun _ => True
  | authorizationReceiptAccount => .ofExcept (decodePoolV1AuthorizationReceiptAccountV1 env.hashv)
      (accountLayout env.hashv) (AccountInvariant env.hashv)

def magic : AccountFormat → Bytes
  | poolState _ => [65, 83, 80, 75]
  | forestMaster => [65, 83, 77, 56]
  | forestLane => [65, 83, 76, 56]
  | forestCheckpoint => [65, 83, 67, 56]
  | rootHistoryPage => ASPR
  | incrementalTree => [65, 83, 80, 84]
  | registry v => RecordKind.magic (.registry v)
  | registryEntry v => RecordKind.magic (.entry v)
  | authorizationReceipt => POOL_V1_AUTHORIZATION_RECEIPT_MAGIC
  | authorizationReceiptAccount => POOL_V1_AUTHORIZATION_RECEIPT_ACCOUNT_MAGIC

variable {env : Environment} {f g : AccountFormat} {bytes : Bytes}

theorem registry_exact (v : RegistryVersion) : ((registry v).format env).Exact := by
  apply Format.exact_ofExcept
  · intro bytes r _ h
    simp only [encodeVerifierRegistry, except_bind_eq_ok, except_pure_eq_ok] at h
    obtain ⟨_, hvalid, rfl⟩ := h
    exact decode_registryImage hvalid
  · intro bytes r h
    refine ⟨trivial, ?_⟩
    simp only [encodeVerifierRegistry, except_bind_eq_ok, except_pure_eq_ok]
    exact ⟨(), (decodeVerifierRegistry_ok h).2, registryImage_of_decode h⟩

theorem registryEntry_exact (v : RegistryVersion) : ((registryEntry v).format env).Exact := by
  apply Format.exact_ofExcept
  · intro bytes e _ h
    simp only [encodeVerifierRegistryEntry, except_bind_eq_ok, except_pure_eq_ok] at h
    obtain ⟨_, hvalid, rfl⟩ := h
    exact decode_entryImage hvalid
  · intro bytes e h
    refine ⟨trivial, ?_⟩
    simp only [encodeVerifierRegistryEntry, except_bind_eq_ok, except_pure_eq_ok]
    exact ⟨(), (decodeVerifierRegistryEntry_ok h).2, entryImage_of_decode h⟩

theorem format_exact (env : Environment) (f : AccountFormat) : (f.format env).Exact := by
  cases f with
  | poolState pool => exact state_exact pool
  | forestMaster => exact master_exact
  | forestLane => exact lane_exact
  | forestCheckpoint => exact checkpoint_exact
  | rootHistoryPage => exact rootHistoryPage_exact
  | incrementalTree => exact tree_exact
  | registry v => exact registry_exact v
  | registryEntry v => exact registryEntry_exact v
  | authorizationReceipt => exact receipt_exact
  | authorizationReceiptAccount => exact account_exact

/-! ### The kinds are disjoint -/

theorem decodeState_magic {pool : Pubkey} {s : PoolStateV1}
    (h : PoolStateV1.decodeWithValidatedTree env bytes pool = .ok s) : slice 0 4 bytes = [65, 83, 80, 75] := by
  have hpreamble := (decodeStateWith_magic h).2.1
  have hslice := @slice_slice 0 8 0 4 bytes (by omega)
  rw [hpreamble] at hslice
  exact hslice.symm

theorem decodePage_magic {page : RootHistoryPageV1} (h : RootHistoryPageV1.decode bytes = .ok page) :
    slice 0 4 bytes = ASPR := by
  simp only [RootHistoryPageV1.decode, validateRootHistoryPageBytesV1, except_bind_eq_ok] at h
  obtain ⟨_, ⟨_, hprefix, -⟩, -⟩ := h
  exact magic_of_checks hprefix

theorem decodeTree_magic {parent : Digest → Digest → Digest} {empty : ℕ → Digest} {t : PoolTree}
    (h : decodeWithEmptyRoots parent empty bytes = .ok t) : slice 0 4 bytes = [65, 83, 80, 84] := by
  simp only [decodeWithEmptyRoots, except_bind_eq_ok] at h
  obtain ⟨_, himage, -⟩ := h
  exact magic_of_checks himage

theorem accepts_magic (h : (f.format env).Accepts bytes) : slice 0 4 bytes = f.magic := by
  obtain ⟨v, hv⟩ := h
  cases f with
  | poolState pool => exact decodeState_magic (Format.toOption_eq_some.mp hv)
  | forestMaster => exact magic_of_checks (Format.toOption_eq_some.mp hv)
  | forestLane => exact magic_of_checks (Format.toOption_eq_some.mp hv)
  | forestCheckpoint => exact magic_of_checks (Format.toOption_eq_some.mp hv)
  | rootHistoryPage => exact decodePage_magic (Format.toOption_eq_some.mp hv)
  | incrementalTree => exact decodeTree_magic (Format.toOption_eq_some.mp hv)
  | registry v => exact (decodeVerifierRegistry_ok (Format.toOption_eq_some.mp hv)).1
  | registryEntry v => exact (decodeVerifierRegistryEntry_ok (Format.toOption_eq_some.mp hv)).1
  | authorizationReceipt => exact magic_of_checks (Format.toOption_eq_some.mp hv)
  | authorizationReceiptAccount => exact magic_of_checks (Format.toOption_eq_some.mp hv)

/-- A state names its pool, so it is read for one pool only. -/
theorem decodeState_pool_unique {p q : Pubkey} {s t : PoolStateV1}
    (hs : PoolStateV1.decodeWithValidatedTree env bytes p = .ok s)
    (ht : PoolStateV1.decodeWithValidatedTree env bytes q = .ok t) : p = q := by
  simp only [PoolStateV1.decodeWithValidatedTree, decodeStateWith, except_bind_eq_ok, require_eq_ok, mapErr_eq_ok] at hs ht
  obtain ⟨-, -, identity, hidentity, -, hpool, -⟩ := hs
  obtain ⟨-, -, identity', hidentity', -, hpool', -⟩ := ht
  rw [hidentity] at hidentity'
  obtain rfl := Except.ok.inj hidentity'
  exact hpool.symm.trans hpool'

/-- Only two pool states, of whatever pools, start with the same four bytes. -/
theorem magic_cases (h : f.magic = g.magic) : f = g ∨ ∃ p q, f = poolState p ∧ g = poolState q := by
  rcases f with p | _ | _ | _ | _ | _ | v | v | _ | _ <;> rcases g with q | _ | _ | _ | _ | _ | w | w | _ | _ <;>
    try cases v
  all_goals try cases w
  all_goals first
    | exact .inl rfl
    | exact .inr ⟨p, q, rfl, rfl⟩
    | exact absurd h (by simp [magic, RecordKind.magic, ASPR, POOL_V1_AUTHORIZATION_RECEIPT_MAGIC,
        POOL_V1_AUTHORIZATION_RECEIPT_ACCOUNT_MAGIC])

theorem format_unique (hf : (f.format env).Accepts bytes) (hg : (g.format env).Accepts bytes) : f = g := by
  rcases magic_cases ((accepts_magic hf).symm.trans (accepts_magic hg)) with rfl | ⟨p, q, rfl, rfl⟩
  · rfl
  · obtain ⟨s, hs⟩ := hf
    obtain ⟨t, ht⟩ := hg
    rw [decodeState_pool_unique (Format.toOption_eq_some.mp hs) (Format.toOption_eq_some.mp ht)]

end AccountFormat

/-- For every kind of account and every byte string, the strict decoder returns a
value exactly if the bytes are the encoding of that value and the value is one of
the format. So a valid value has one accepted image and no bytes are accepted as
two kinds of account. What the programs write into a receipt account is in its
format too. -/
theorem account_formats_exact (env : Environment) :
    (∀ (f : AccountFormat) (bytes : Bytes) (v : f.Value),
      (f.format env).decode bytes = some v ↔ (f.format env).Fits v ∧ (f.format env).encode v = some bytes) ∧
    (∀ (f : AccountFormat) (bytes : Bytes),
      (f.format env).Accepts bytes ↔ ∃ v, (f.format env).Fits v ∧ (f.format env).encode v = some bytes) ∧
    (∀ (f : AccountFormat) (v : f.Value), (f.format env).Valid v → ∃! bytes, (f.format env).decode bytes = some v) ∧
    (∀ (f g : AccountFormat) (bytes : Bytes), (f.format env).Accepts bytes → (g.format env).Accepts bytes → f = g) ∧
    (∀ request proof upload signer close bump bytes,
      initializePoolV1AuthorizationReceiptAccountV1 env.hashv request proof upload signer close bump = .ok bytes →
      (AccountFormat.authorizationReceiptAccount.format env).Accepts bytes) ∧
    ∀ before request receipt bytes,
      finalizePoolV1AuthorizationReceiptAccountV1 env.hashv before request receipt = .ok bytes →
      (AccountFormat.authorizationReceiptAccount.format env).Accepts bytes := by
  have haccount : ∀ bytes, (∃ a, AccountInvariant env.hashv a ∧ accountLayout env.hashv a = .ok bytes) →
      (AccountFormat.authorizationReceiptAccount.format env).Accepts bytes := by
    rintro bytes ⟨a, hinvariant, hlayout⟩
    exact ⟨a, Format.toOption_eq_some.mpr (decode_accountLayout hinvariant hlayout)⟩
  refine ⟨?_, ?_, ?_, ?_, ?_, ?_⟩
  · exact fun f => AccountFormat.format_exact env f
  · exact fun f => (AccountFormat.format_exact env f).accepts_iff
  · exact fun f v hv => (AccountFormat.format_exact env f).existsUnique_image hv
  · exact fun f g bytes hf hg => AccountFormat.format_unique hf hg
  · intro request proof upload signer close bump bytes h
    exact haccount bytes (initialized_accepted h)
  · intro before request receipt bytes h
    exact haccount bytes (finalized_accepted h)

end Aspis.Formats
