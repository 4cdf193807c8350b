import Aspis.Chain.Ledger
import Aspis.Statement.IncrementalMerkle
import Aspis.Statement.Digest

/-! What the pool program takes from outside its own code: address derivation,
SHA-256, rent, the Poseidon hashes and the token program's instructions. Nothing
is assumed of them except that hashes return canonical digests and that the
token program does not write the pool program's accounts. -/

namespace Aspis.Pool

open Lib Chain Statement

/-- One `TransferChecked` instruction of the token program. -/
structure TokenTransfer where
  source : Pubkey
  mint : Pubkey
  destination : Pubkey
  authority : Pubkey
  amount : ℕ
  decimals : UInt8
  deriving DecidableEq

structure Environment where
  programId : Pubkey
  findProgramAddress : List Bytes → Pubkey → Pubkey × UInt8
  hashv : List Bytes → Bytes32
  minimumBalance : ℕ → ℕ
  treeParent : Digest → Digest → Digest
  noteCommitment : Digest → ℕ → M31 → Digest → Digest
  transferChecked : TokenTransfer → Ledger → Except ProgramError Ledger
  initializeAccount3 : Pubkey → Pubkey → Pubkey → Ledger → Except ProgramError Ledger
  programId_ne_system : programId ≠ systemProgram
  treeParent_canonical : ∀ a b, DigestIsCanonical (treeParent a b)
  transferChecked_outside : ∀ t l l', transferChecked t l = .ok l' → Outside programId l l'
  initializeAccount3_outside : ∀ a b c l l', initializeAccount3 a b c l = .ok l' → Outside programId l l'

def POOL_V1_TREE_DEPTH : ℕ := 20

/-- Number of leaves of a full pool tree. -/
def POOL_V1_LEAF_CAPACITY : ℕ := 2 ^ POOL_V1_TREE_DEPTH

abbrev PoolTree := IncrementalMerkleTreeV1 Digest POOL_V1_TREE_DEPTH

namespace Environment

/-- An address derived from this program. -/
def programAddress (env : Environment) (seeds : List Bytes) : Pubkey × UInt8 :=
  env.findProgramAddress seeds env.programId

/-- The recursive empty roots; level zero is the zero digest. -/
def emptyRoots (env : Environment) (level : ℕ) : Digest :=
  MerkleTree.emptyRoot env.treeParent Digest.zero level

theorem zero_canonical : DigestIsCanonical Digest.zero := by
  intro i
  simp [Digest.zero, M31.ZERO, M31.Canonical, P]

theorem emptyRoots_canonical (env : Environment) (level : ℕ) : DigestIsCanonical (env.emptyRoots level) := by
  cases level with
  | zero => exact zero_canonical
  | succ level => exact env.treeParent_canonical _ _

/-- Every block root over canonical leaves is canonical. -/
theorem node_canonical (env : Environment) {f : ℕ → Digest} (hf : ∀ i, DigestIsCanonical (f i)) (h i : ℕ) :
    DigestIsCanonical (MerkleTree.node env.treeParent f h i) := by
  cases h with
  | zero => exact hf i
  | succ h => exact env.treeParent_canonical _ _

theorem pad_canonical {e : Digest} {leaves : List Digest} (he : DigestIsCanonical e)
    (h : ∀ x ∈ leaves, DigestIsCanonical x) (i : ℕ) : DigestIsCanonical (MerkleTree.pad e leaves i) := by
  rw [MerkleTree.pad, List.getD_eq_getElem?_getD]
  cases hi : leaves[i]? with
  | none => exact he
  | some x => exact h x (List.mem_of_getElem? hi)

/-- The tree the pool holds after appending the given leaves. -/
def tree (env : Environment) (leaves : List Digest) : PoolTree :=
  treeOf env.treeParent Digest.zero POOL_V1_TREE_DEPTH leaves

theorem tree_root_canonical (env : Environment) {leaves : List Digest}
    (h : ∀ x ∈ leaves, DigestIsCanonical x) : DigestIsCanonical (env.tree leaves).root :=
  env.node_canonical (pad_canonical zero_canonical h) _ _

theorem tree_frontier_canonical (env : Environment) {leaves : List Digest}
    (h : ∀ x ∈ leaves, DigestIsCanonical x) (level : Fin POOL_V1_TREE_DEPTH) :
    DigestIsCanonical ((env.tree leaves).frontier level) := by
  simp only [tree, treeOf, MerkleTree.frontier]
  split_ifs
  · exact env.node_canonical (pad_canonical zero_canonical h) _ _
  · exact env.emptyRoots_canonical level

end Environment

end Aspis.Pool
