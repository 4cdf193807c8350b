import Aspis.Forest.AccountsExact
import Aspis.Forest.Lane

/-! What a lane stands for: its forest, its place and a growing list of pair
leaves. The lane account is the tree of that list over empty pairs, which every
encoder accepts and every reader gives back, and appending a leaf extends it. -/

namespace Aspis.Forest

open Lib Chain Statement Pool

section
variable (env : Environment)

/-- The tree of a lane after appending the given pair leaves. -/
def laneTree (leaves : List Digest) : PoolTree :=
  treeOf env.treeParent (env.treeParent Digest.zero Digest.zero) POOL_V1_TREE_DEPTH leaves

/-- The abstract lane: where it belongs and every pair leaf appended to it, in order. -/
structure LaneLog where
  master : Pubkey
  lane : LaneIdV2
  leaves : List Digest
  deriving DecidableEq

namespace LaneLog

def state (log : LaneLog) : PoolV1PairForestLaneStateV1 := ⟨log.master, laneByte log.lane, laneTree env log.leaves⟩

def append (log : LaneLog) (leaf : Digest) : LaneLog := { log with leaves := log.leaves ++ [leaf] }

/-- A log that the encoders of the program accept. -/
structure WellFormed (log : LaneLog) : Prop where
  master_ne : log.master ≠ Bytes32.zero
  leaves_canonical : ∀ x ∈ log.leaves, DigestIsCanonical x
  length_le : log.leaves.length ≤ POOL_V1_PAIR_CAPACITY

end LaneLog

variable {env}

theorem pairEmptyRoots_eq : pairEmptyRoots env = MerkleTree.emptyRoot env.treeParent
    (env.treeParent Digest.zero Digest.zero) := by
  funext level
  rw [MerkleTree.emptyRoot_parent]
  rfl

/-- Appending a pair leaf to a lane extends its list. -/
theorem carryAppend_laneTree {leaves : List Digest} (leaf : Digest) (h : leaves.length < POOL_V1_PAIR_CAPACITY) :
    (carryAppend env.treeParent (pairEmptyRoots env) (laneTree env leaves) leaf).1 = laneTree env (leaves ++ [leaf]) := by
  rw [pairEmptyRoots_eq, laneTree, carryAppend_treeOf env.treeParent _ h]
  rfl

theorem laneTree_nil : laneTree env [] = ⟨0, pairEmptyRoots env POOL_V1_TREE_DEPTH, fun level => pairEmptyRoots env level⟩ := by
  rw [laneTree, treeOf_nil, pairEmptyRoots_eq]
  rfl

theorem laneTree_canonical {leaves : List Digest} (h : ∀ x ∈ leaves, DigestIsCanonical x) :
    CanonicalTree (laneTree env leaves) where
  root_canonical := env.node_canonical (Environment.pad_canonical (env.treeParent_canonical _ _) h) _ _
  frontier_canonical level := by
    simp only [laneTree, treeOf, MerkleTree.frontier]
    split_ifs
    · exact env.node_canonical (Environment.pad_canonical (env.treeParent_canonical _ _) h) _ _
    · rw [MerkleTree.emptyRoot_parent]
      exact env.emptyRoots_canonical _

theorem laneByte_lt (lane : LaneIdV2) : (laneByte lane).toNat < POOL_V1_PAIR_FOREST_LANE_COUNT := by
  revert lane
  decide

namespace LaneLog.WellFormed

variable {log : LaneLog}

/-- The strict encoder accepts the lane of a log. -/
theorem encoded (h : log.WellFormed) :
    encodePoolV1PairForestLaneStateV1 env (log.state env) = .ok (laneImage (log.state env)) := by
  have hvalid : validatePairTree env (laneTree env log.leaves) = .ok () := by
    rw [validatePairTree, pairEmptyRoots_eq]
    exact validate_treeOf env.treeParent _ h.length_le
  simp only [encodePoolV1PairForestLaneStateV1, except_bind_eq_ok, require_eq_ok, mapErr_eq_ok, except_pure_eq_ok]
  exact ⟨(), laneByte_lt log.lane, (), h.master_ne, (), h.length_le, (), hvalid, trivial⟩

/-- The strict decoder reads it back. -/
theorem decoded (h : log.WellFormed) :
    decodePoolV1PairForestLaneStateV1 env (laneImage (log.state env)) = .ok (log.state env) :=
  decode_laneImage (laneTree_canonical h.leaves_canonical) h.encoded

theorem append (h : log.WellFormed) {leaf : Digest} (hleaf : DigestIsCanonical leaf)
    (hroom : log.leaves.length < POOL_V1_PAIR_CAPACITY) : (log.append leaf).WellFormed where
  master_ne := h.master_ne
  leaves_canonical x hx := by
    rcases List.mem_append.mp hx with hx | hx
    · exact h.leaves_canonical x hx
    · rw [List.mem_singleton.mp hx]
      exact hleaf
  length_le := by
    rw [LaneLog.append, List.length_append]
    exact hroom

end LaneLog.WellFormed

end

end Aspis.Forest
