import Aspis.Core.Transcript
import Aspis.Lib.Openings

/-! The compact multi-openings of binary hash trees. A worklist of opened blocks moves up
level by level: two siblings on the list are joined, and any other block is joined with
the next digest of the stream. The verifiers differ in the digest width, in whether the
stream is a list of digests or bytes, and in whether one tree or two trees over the same
positions are walked. -/

namespace Aspis.Core

open Aspis.Lib Aspis.Lib.Openings

def DOM_NODE : UInt8 := 0x11

/-- The parent of two 32-byte digests. -/
def nodeHash (hash : HashFn) (left right : FixedBytes 32) : FixedBytes 32 :=
  hash.hashv [[DOM_NODE] ++ left.1 ++ right.1]

def truncateSha256 (w : ℕ) (hw : w ≤ 32) (digest : FixedBytes 32) : FixedBytes w :=
  ⟨digest.1.take w, by rw [List.length_take, digest.2, Nat.min_eq_left hw]⟩

/-- The parent of two shortened digests: the first bytes of the hash. -/
def truncatedNodeHash (w : ℕ) (hw : w ≤ 32) (hash : HashFn) (left right : FixedBytes w) : FixedBytes w :=
  truncateSha256 w hw (hash.hashv [[DOM_NODE] ++ left.1 ++ right.1])

/-- The 27-byte digests of the 216-bit trees. -/
def nodeHash216 : HashFn → FixedBytes 27 → FixedBytes 27 → FixedBytes 27 := truncatedNodeHash 27 (by decide)

/-- The 26-byte digests of the 208-bit trees. -/
def nodeHashV7 : HashFn → FixedBytes 26 → FixedBytes 26 → FixedBytes 26 := truncatedNodeHash 26 (by decide)

/-! ### The walk -/

section Walk
variable {D σ : Type} (node : D → D → D) (take : σ → Option (D × σ))

/-- A block and its sibling, joined in their order. -/
def joinSibling (i : ℕ) (digest sibling : D) : D := if i % 2 = 0 then node digest sibling else node sibling digest

/-- One level of the worklist; the parents are pushed onto `next`. -/
def walkLevel : List (ℕ × D) → List (ℕ × D) → σ → Option (List (ℕ × D) × σ)
  | [], next, s => some (next, s)
  | [(i, h)], next, s =>
    match take s with
    | none => none
    | some (sib, s) => some (next ++ [(i / 2, joinSibling node i h sib)], s)
  | (i, h) :: (j, right) :: rest, next, s =>
    if i % 2 = 0 ∧ j = i + 1 then walkLevel rest (next ++ [(i / 2, node h right)]) s
    else
      match take s with
      | none => none
      | some (sib, s) => walkLevel ((j, right) :: rest) (next ++ [(i / 2, joinSibling node i h sib)]) s

/-- All levels. The vector of the parents is cleared before each level and swapped with the worklist after it. -/
def walkLevels : ℕ → List (ℕ × D) → List (ℕ × D) → σ → Option (List (ℕ × D) × σ)
  | 0, level, _, s => some (level, s)
  | depth + 1, level, next, s =>
    match walkLevel node take level (next.take 0) s with
    | none => none
    | some (parents, s) => walkLevels depth parents level s

end Walk

/-- The walk ended with the root alone on the worklist and with its stream used up. -/
def endsAt {D σ : Type} [DecidableEq D] (root : D) (usedUp : σ → Bool) : Option (List (ℕ × D) × σ) → Bool
  | none => false
  | some (level, s) => usedUp s && decide (level = [(0, root)])

/-- The checks on the positions: some, in a tree of fewer than 32 levels, increasing, and the last one in range. -/
def positionsOk (depth : ℕ) (positions : List ℕ) : Bool :=
  !positions.isEmpty && decide (depth < 32) && decide (positions.IsChain (· < ·)) &&
    decide (positions.getLastD 0 < 2 ^ depth)

/-- The next digest of a list. -/
def nextNode {D : Type} : List D → Option (D × List D)
  | [] => none
  | x :: rest => some (x, rest)

def verifyMinimalSubtree (hash : HashFn) (root : FixedBytes 32) (depth : ℕ) (entries : List (ℕ × FixedBytes 32))
    (nodes : List (FixedBytes 32)) : Bool :=
  positionsOk depth (entries.map Prod.fst) &&
    endsAt root List.isEmpty (walkLevels (nodeHash hash) nextNode depth entries [] nodes)

/-- The digest at a position of the bytes. -/
def readNode (w : ℕ) (nodeBytes : Bytes) (nodePos : ℕ) : Option (FixedBytes w × ℕ) :=
  if nodeBytes.length < nodePos + w then none else some (readFixed w nodePos nodeBytes, nodePos + w)

/-- One tree, with its stream as bytes and two vectors of the caller as scratch space. -/
def minimalSubtreeBytes (w : ℕ) (node : FixedBytes w → FixedBytes w → FixedBytes w) (root : FixedBytes w) (depth : ℕ)
    (entries : List (ℕ × FixedBytes w)) (nodeBytes : Bytes) (level next : List (ℕ × FixedBytes w)) : Bool :=
  decide (nodeBytes.length % w = 0) && positionsOk depth (entries.map Prod.fst) &&
    endsAt root (· == nodeBytes.length)
      (walkLevels node (readNode w nodeBytes) depth (level.take 0 ++ entries) next 0)

def verifyMinimalSubtreeBytes (hash : HashFn) : FixedBytes 32 → ℕ → List (ℕ × FixedBytes 32) → Bytes →
    List (ℕ × FixedBytes 32) → List (ℕ × FixedBytes 32) → Bool :=
  minimalSubtreeBytes 32 (nodeHash hash)

/-- The digests of two trees at a position of their bytes; the length of the first is checked. -/
def readNodes (w : ℕ) (nodeBytes : Bytes × Bytes) (nodePos : ℕ) : Option ((FixedBytes w × FixedBytes w) × ℕ) :=
  if nodeBytes.1.length < nodePos + w then none
  else some ((readFixed w nodePos nodeBytes.1, readFixed w nodePos nodeBytes.2), nodePos + w)

/-- The parents in two trees. -/
def nodeBoth {D : Type} (node : D → D → D) (left right : D × D) : D × D := (node left.1 right.1, node left.2 right.2)

/-- Two trees over the same positions, walked together. -/
def twoMinimalSubtreesBytes (w : ℕ) (node : FixedBytes w → FixedBytes w → FixedBytes w)
    (roots : FixedBytes w × FixedBytes w) (depth : ℕ) (entries : List (ℕ × FixedBytes w × FixedBytes w))
    (nodeBytes : Bytes × Bytes) (level next : List (ℕ × FixedBytes w × FixedBytes w)) : Bool :=
  decide (nodeBytes.1.length % w = 0) && decide (nodeBytes.2.length % w = 0) &&
    decide (nodeBytes.1.length = nodeBytes.2.length) && positionsOk depth (entries.map Prod.fst) &&
    endsAt roots (· == nodeBytes.1.length)
      (walkLevels (nodeBoth node) (readNodes w nodeBytes) depth (level.take 0 ++ entries) next 0)

def verifyTwoMinimalSubtreesBytes (hash : HashFn) : FixedBytes 32 × FixedBytes 32 → ℕ →
    List (ℕ × FixedBytes 32 × FixedBytes 32) → Bytes × Bytes → List (ℕ × FixedBytes 32 × FixedBytes 32) →
    List (ℕ × FixedBytes 32 × FixedBytes 32) → Bool :=
  twoMinimalSubtreesBytes 32 (nodeHash hash)

def verifyTwoMinimalSubtrees216Bytes (hash : HashFn) : FixedBytes 27 × FixedBytes 27 → ℕ →
    List (ℕ × FixedBytes 27 × FixedBytes 27) → Bytes × Bytes → List (ℕ × FixedBytes 27 × FixedBytes 27) →
    List (ℕ × FixedBytes 27 × FixedBytes 27) → Bool :=
  twoMinimalSubtreesBytes 27 (nodeHash216 hash)

def verifyTwoMinimalSubtreesV7Bytes (hash : HashFn) : FixedBytes 26 × FixedBytes 26 → ℕ →
    List (ℕ × FixedBytes 26 × FixedBytes 26) → Bytes × Bytes → List (ℕ × FixedBytes 26 × FixedBytes 26) →
    List (ℕ × FixedBytes 26 × FixedBytes 26) → Bool :=
  twoMinimalSubtreesBytes 26 (nodeHashV7 hash)

/-! ### The walk over a list of digests -/

section ListWalk
variable {D : Type} {node : D → D → D}

/-- On the missing siblings of a labelled level, the walk gives the labelled parents and leaves the rest. -/
theorem walkLevel_eq (g : ℕ → D) (P : List ℕ) (next : List (ℕ × D)) (rest : List D) :
    walkLevel node nextNode (P.map fun i => (i, g i)) next ((missing P).map g ++ rest) =
      some (next ++ (parents P).map fun k => (k, node (g (2 * k)) (g (2 * k + 1))), rest) := by
  have hjoin : ∀ i, joinSibling node i (g i) (g (sibling i)) = node (g (2 * (i / 2))) (g (2 * (i / 2) + 1)) := by
    intro i
    unfold joinSibling sibling
    split_ifs with heven
    · rw [show 2 * (i / 2) = i by omega]
    · rw [show 2 * (i / 2) = i - 1 by omega, show i - 1 + 1 = i by omega]
  induction P using missing.induct generalizing next with
  | case1 => simp [walkLevel, missing, parents]
  | case2 i => simp [walkLevel, missing, parents, nextNode, hjoin]
  | case3 i j more hpair ih =>
    obtain ⟨heven, rfl⟩ := hpair
    rw [missing, if_pos ⟨heven, rfl⟩, parents, if_pos ⟨heven, rfl⟩, List.map_cons, List.map_cons, walkLevel,
      if_pos ⟨heven, rfl⟩, ih, List.map_cons, List.append_assoc]
    rw [show 2 * (i / 2) = i by omega]
    rfl
  | case4 i j more hpair ih =>
    rw [missing, if_neg hpair, parents, if_neg hpair, List.map_cons, List.map_cons, walkLevel, if_neg hpair]
    have htail := ih (next ++ [(i / 2, node (g (2 * (i / 2))) (g (2 * (i / 2) + 1)))])
    rw [List.map_cons] at htail
    simp only [List.map_cons, List.cons_append, nextNode, hjoin, htail, List.append_assoc, List.nil_append]

/-- A stream that is too short for the missing siblings is refused. -/
theorem walkLevel_short (level next : List (ℕ × D)) (nodes : List D)
    (h : nodes.length < (missing (level.map Prod.fst)).length) : walkLevel node nextNode level next nodes = none := by
  fun_induction walkLevel node nextNode level next nodes with
  | case1 => simp [missing] at h
  | case2 => rfl
  | case3 i d next nodes sib rest hnext =>
    cases nodes with
    | nil => simp [nextNode] at hnext
    | cons x nodes => simp [missing] at h
  | case4 i d j right rest next nodes hpair ih =>
    apply ih
    simpa [missing, hpair] using h
  | case5 => rfl
  | case6 i d j right rest next nodes hpair sib nodes' hnext ih =>
    apply ih
    cases nodes with
    | nil => simp [nextNode] at hnext
    | cons x nodes =>
      simp only [nextNode, Option.some.injEq, Prod.mk.injEq] at hnext
      simp only [List.map_cons, missing, if_neg hpair, List.length_cons] at h
      rw [← hnext.2]
      show nodes.length < (missing (j :: rest.map Prod.fst)).length
      omega

end ListWalk

end Aspis.Core
