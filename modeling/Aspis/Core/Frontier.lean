import Aspis.Core.MultiOpening
import Aspis.Core.PackedCodec

/-! The size of a multi-opening. The number of digests that an opening of given positions
takes is computed from the positions alone, by the levels at which neighbouring positions
part, before any stream is read. -/

namespace Aspis.Core

open Aspis.Lib Aspis.Lib.Openings

/-- Insert each query into the sorted ones before it, from the right; these are kept with the last one first. -/
def sortQueries (queries : List ℕ) : List ℕ :=
  (queries.foldl (fun sorted value => sorted.orderedInsert (· ≥ ·) value) []).reverse

/-- The number of digests that open the queries in a tree of the given depth. -/
def binaryFrontierNodes (queries : List ℕ) (depth : ℕ) : Except V6WireError ℕ :=
  if queries.length = 0 ∨ 32 ≤ depth then .error .invalidQuerySchedule
  else
    let leafCount := 2 ^ depth
    let sorted := sortQueries queries
    if leafCount ≤ sorted.getLastD 0 then .error .invalidQuerySchedule
    else if ¬ sorted.IsChain (· ≠ ·) then .error .invalidQuerySchedule
    else
      let expanded := depth + 1 + splitLevels sorted
      if expanded < queries.length then .error .invalidQuerySchedule else .ok (expanded - queries.length)

theorem foldl_orderedInsert (queries sorted : List ℕ) (h : sorted.Pairwise (· ≥ ·)) :
    (queries.foldl (fun sorted value => sorted.orderedInsert (· ≥ ·) value) sorted).Pairwise (· ≥ ·) ∧
      (queries.foldl (fun sorted value => sorted.orderedInsert (· ≥ ·) value) sorted).Perm (sorted ++ queries) := by
  induction queries generalizing sorted with
  | nil => exact ⟨h, by rw [List.append_nil]; exact List.Perm.refl _⟩
  | cons value queries ih =>
    obtain ⟨hsorted, hperm⟩ := ih (sorted.orderedInsert (· ≥ ·) value) (h.orderedInsert value sorted)
    refine ⟨hsorted, hperm.trans ?_⟩
    exact ((List.perm_orderedInsert (· ≥ ·) value sorted).append_right queries).trans List.perm_middle.symm

theorem sortQueries_perm (queries : List ℕ) : (sortQueries queries).Perm queries :=
  (List.reverse_perm _).trans (foldl_orderedInsert queries [] List.Pairwise.nil).2

/-- Queries without repetition are put in increasing order. -/
theorem sortQueries_sorted {queries : List ℕ} (h : queries.Nodup) : (sortQueries queries).Pairwise (· < ·) := by
  have hle : (sortQueries queries).Pairwise (· ≤ ·) :=
    List.pairwise_reverse.mpr (foldl_orderedInsert queries [] List.Pairwise.nil).1
  have hne : (sortQueries queries).Pairwise (· ≠ ·) := (sortQueries_perm queries).nodup_iff.mpr h
  exact hle.imp₂ (fun a b hab hne => lt_of_le_of_ne hab hne) hne

/-- Different queries in range have the frontier of their sorted list. -/
theorem binaryFrontierNodes_eq {queries : List ℕ} {depth : ℕ} (hne : queries ≠ []) (hdepth : depth < 32)
    (hnodup : queries.Nodup) (hlt : ∀ i ∈ queries, i < 2 ^ depth) :
    binaryFrontierNodes queries depth = .ok (missingCount depth (sortQueries queries)) := by
  have hperm := sortQueries_perm queries
  have hsorted := sortQueries_sorted hnodup
  have hlen := hperm.length_eq
  have hne' : sortQueries queries ≠ [] := by
    intro hnil
    rw [hnil] at hperm
    exact hne hperm.nil_eq.symm
  have hlt' : ∀ i ∈ sortQueries queries, i < 2 ^ depth := fun i hi => hlt i (hperm.mem_iff.mp hi)
  have hcount := missingCount_eq hsorted hne' hlt'
  have hok := positionsOk_iff.mpr ⟨hne', hdepth, hsorted, hlt'⟩
  simp only [positionsOk, Bool.and_eq_true, decide_eq_true_eq] at hok
  have hdistinct : (sortQueries queries).IsChain (· ≠ ·) := hok.1.2.imp fun _ _ => ne_of_lt
  unfold binaryFrontierNodes
  rw [if_neg (by simp [hne, hdepth]), if_neg (by simpa using hok.2), if_neg (by simpa using hdistinct),
    if_neg (by omega)]
  congr 1
  omega

section
variable {D : Type} [Inhabited D] {node : D → D → D}

/-- A stream with enough digests is walked to the root. -/
theorem walkLevels_enough {depth : ℕ} {entries next : List (ℕ × D)} {nodes : List D} {P : List ℕ}
    (hP : P = entries.map Prod.fst) (hsorted : P.Pairwise (· < ·)) (h : missingCount depth P ≤ nodes.length) :
    ∃ level rest, walkLevels node nextNode depth entries next nodes = some (level, rest) := by
  induction depth generalizing entries next nodes P with
  | zero => exact ⟨entries, nodes, rfl⟩
  | succ depth ih =>
    rw [missingCount] at h
    obtain ⟨g, hentries, hstream⟩ := exists_label (v := nodes.take (missing P).length) hP hsorted
      (by rw [List.length_take]; omega)
    have hnodes : nodes = (missing P).map g ++ nodes.drop (missing P).length := by
      rw [← hstream, List.take_append_drop]
    rw [walkLevels, hentries, hnodes, walkLevel_eq, List.take_zero, List.nil_append]
    refine ih ?_ (parents_sorted P hsorted) (by rw [List.length_drop]; omega)
    rw [List.map_map]
    exact (List.map_id _).symm

/-- The walk takes a digest for every missing sibling and leaves the others; with too few digests it is refused. -/
theorem walkLevels_consumes {depth : ℕ} {entries next : List (ℕ × D)} {nodes : List D}
    (hok : positionsOk depth (entries.map Prod.fst) = true) :
    (missingCount depth (entries.map Prod.fst) ≤ nodes.length → ∃ root,
      walkLevels node nextNode depth entries next nodes =
        some ([(0, root)], nodes.drop (missingCount depth (entries.map Prod.fst)))) ∧
    (nodes.length < missingCount depth (entries.map Prod.fst) →
      walkLevels node nextNode depth entries next nodes = none) := by
  obtain ⟨hne, -, hsorted, hlt⟩ := positionsOk_iff.mp hok
  constructor
  · intro henough
    obtain ⟨level, rest, hwalk⟩ : ∃ level rest, walkLevels node nextNode depth entries next nodes = some (level, rest) :=
      walkLevels_enough rfl hsorted henough
    obtain ⟨T, -, hnodes, hlevel⟩ := (walkLevels_eq_some rfl hsorted hlt).mp hwalk
    have hlen := T.length_siblings hsorted hlt
    refine ⟨T.digest depth 0, ?_⟩
    rw [hwalk, hlevel, ancestors_root hne hsorted hlt, hnodes, ← hlen, List.drop_left]
    rfl
  · intro hshort
    rcases hwalk : walkLevels node nextNode depth entries next nodes with _ | ⟨level, rest⟩
    · rfl
    · obtain ⟨T, -, hnodes, -⟩ := (walkLevels_eq_some rfl hsorted hlt).mp hwalk
      have hlen := T.length_siblings hsorted hlt
      rw [hnodes, List.length_append] at hshort
      omega

end

section
variable {w : ℕ} {node : FixedBytes w → FixedBytes w → FixedBytes w} {depth : ℕ}

/-- A walk over bytes stops after the digests of the missing siblings. -/
theorem walkLevels_bytes_consumes (hw : 0 < w) {entries next : List (ℕ × FixedBytes w)} {nodeBytes : Bytes}
    (hok : positionsOk depth (entries.map Prod.fst) = true) (hwhole : nodeBytes.length % w = 0)
    (henough : missingCount depth (entries.map Prod.fst) * w ≤ nodeBytes.length) :
    ∃ root, walkLevels node (readNode w nodeBytes) depth entries next 0 =
      some ([(0, root)], missingCount depth (entries.map Prod.fst) * w) := by
  obtain ⟨nodes, hnodes⟩ := exists_digests hwhole
  have hlen : nodeBytes.length = nodes.length * w := by rw [hnodes, length_digests]
  have hcount : missingCount depth (entries.map Prod.fst) ≤ nodes.length := by
    rw [hlen] at henough
    exact Nat.le_of_mul_le_mul_right henough hw
  obtain ⟨root, hwalk⟩ : ∃ root, walkLevels node nextNode depth entries next nodes = _ :=
    (walkLevels_consumes hok).1 hcount
  have hstreams : Option.Rel _ (walkLevels node nextNode depth entries next nodes)
      (walkLevels node (readNode w nodeBytes) depth entries next 0) :=
    walkLevels_streams (readNode_streams hw nodeBytes) (holdsAt_zero.mpr hnodes)
  rw [hwalk] at hstreams
  generalize walkLevels node (readNode w nodeBytes) depth entries next 0 = result at hstreams
  cases hstreams with
  | @some a b hab =>
    obtain ⟨level, pos⟩ := b
    obtain ⟨hlevel, hpos⟩ := hab
    have hend := hpos.length
    simp only at hlevel hend
    rw [List.length_drop, hlen, Nat.sub_mul] at hend
    have hle : missingCount depth (entries.map Prod.fst) * w ≤ nodes.length * w := Nat.mul_le_mul_right w hcount
    refine ⟨root, ?_⟩
    rw [← hlevel]
    congr 2
    omega

/-- Some root is accepted exactly when the stream has a digest for every missing sibling and no byte more. -/
theorem exists_root_iff_length (hw : 0 < w) {entries level next : List (ℕ × FixedBytes w)} {nodeBytes : Bytes}
    (hok : positionsOk depth (entries.map Prod.fst) = true) :
    (∃ root, minimalSubtreeBytes w node root depth entries nodeBytes level next = true) ↔
      nodeBytes.length = missingCount depth (entries.map Prod.fst) * w := by
  simp only [minimalSubtreeBytes_iff hw, hok, true_and]
  constructor
  · rintro ⟨root, nodes, rfl, hopens⟩
    rw [length_digests, hopens.length_eq hok]
  · intro hlen
    obtain ⟨nodes, hnodes⟩ := exists_digests (show nodeBytes.length % w = 0 by rw [hlen, Nat.mul_mod_left])
    have hcount : nodes.length = missingCount depth (entries.map Prod.fst) := by
      rw [hnodes, length_digests] at hlen
      exact Nat.eq_of_mul_eq_mul_right hw hlen
    obtain ⟨root, hwalk⟩ : ∃ root, walkLevels node nextNode depth entries next nodes = _ :=
      (walkLevels_consumes hok).1 hcount.ge
    rw [← hcount, List.drop_length] at hwalk
    exact ⟨root, nodes, hnodes, (walkLevels_root_iff hok).mp hwalk⟩

end

/-- The positions of sorted entries are the sorted positions. -/
theorem eq_sortQueries {positions P : List ℕ} (hnodup : positions.Nodup) (hsorted : P.Pairwise (· < ·))
    (hperm : P.Perm positions) : P = sortQueries positions :=
  (hperm.trans (sortQueries_perm positions).symm).eq_of_pairwise
    (fun a _ _ _ hab hba => absurd (hab.trans hba) (lt_irrefl a)) hsorted (sortQueries_sorted hnodup)

/-- The count from the positions is the number of digests that the walk takes: in any walk over enough bytes it stops
after them, and a stream is accepted for some root, or a pair of streams for some roots, exactly when it has their
length. -/
theorem frontier_count_consumed {depth : ℕ} {positions : List ℕ} (hne : positions ≠ []) (hdepth : depth < 32)
    (hnodup : positions.Nodup) (hlt : ∀ i ∈ positions, i < 2 ^ depth) :
    ∃ count, binaryFrontierNodes positions depth = .ok count ∧
      (∀ (w : ℕ) (node : FixedBytes w → FixedBytes w → FixedBytes w) (entries level next : List (ℕ × FixedBytes w))
        (nodeBytes : Bytes), 0 < w → (entries.map Prod.fst).Pairwise (· < ·) → (entries.map Prod.fst).Perm positions →
        (nodeBytes.length % w = 0 → count * w ≤ nodeBytes.length → ∃ root,
          walkLevels node (readNode w nodeBytes) depth entries next 0 = some ([(0, root)], count * w)) ∧
        ((∃ root, minimalSubtreeBytes w node root depth entries nodeBytes level next = true) ↔
          nodeBytes.length = count * w)) ∧
      ∀ (w : ℕ) (node : FixedBytes w → FixedBytes w → FixedBytes w)
        (entries level next : List (ℕ × FixedBytes w × FixedBytes w)) (nodeBytes : Bytes × Bytes), 0 < w →
        (entries.map Prod.fst).Pairwise (· < ·) → (entries.map Prod.fst).Perm positions →
        ((∃ roots, twoMinimalSubtreesBytes w node roots depth entries nodeBytes level next = true) ↔
          nodeBytes.1.length = count * w ∧ nodeBytes.2.length = count * w) := by
  have hok : ∀ P : List ℕ, P.Pairwise (· < ·) → P.Perm positions → positionsOk depth P = true := by
    intro P hsorted hperm
    refine positionsOk_iff.mpr ⟨?_, hdepth, hsorted, fun i hi => hlt i (hperm.mem_iff.mp hi)⟩
    rintro rfl
    exact hne hperm.nil_eq.symm
  refine ⟨missingCount depth (sortQueries positions), binaryFrontierNodes_eq hne hdepth hnodup hlt, ?_, ?_⟩
  · intro w node entries level next nodeBytes hw hsorted hperm
    have hpositions := hok _ hsorted hperm
    rw [← eq_sortQueries hnodup hsorted hperm]
    exact ⟨walkLevels_bytes_consumes hw hpositions, exists_root_iff_length hw hpositions⟩
  · intro w node entries level next nodeBytes hw hsorted hperm
    have hpositions := hok _ hsorted hperm
    have hfirst := hpositions
    have hsecond := hpositions
    rw [firstEntries_positions] at hfirst
    rw [secondEntries_positions] at hsecond
    have hleft : (∃ root, minimalSubtreeBytes w node root depth (firstEntries entries) nodeBytes.1 [] [] = true) ↔ _ :=
      exists_root_iff_length hw hfirst
    have hright : (∃ root, minimalSubtreeBytes w node root depth (secondEntries entries) nodeBytes.2 [] [] = true) ↔ _ :=
      exists_root_iff_length hw hsecond
    rw [← firstEntries_positions] at hleft
    rw [← secondEntries_positions] at hright
    rw [← eq_sortQueries hnodup hsorted hperm, ← hleft, ← hright]
    simp only [twoMinimalSubtreesBytes_eq hw node _ depth entries level next nodeBytes [] [] [] [], Bool.and_eq_true]
    constructor
    · rintro ⟨roots, hone, htwo⟩
      exact ⟨⟨roots.1, hone⟩, roots.2, htwo⟩
    · rintro ⟨⟨one, hone⟩, two, htwo⟩
      exact ⟨(one, two), hone, htwo⟩

/-- Two leaves of a tree of four, given in falling order, take two digests. -/
theorem frontier_count_two_of_four : ∃ count, binaryFrontierNodes [3, 0] 2 = .ok count ∧ count = 2 := by
  obtain ⟨count, hcount, -⟩ := @frontier_count_consumed 2 [3, 0] (by simp) (by simp) (by simp) (by simp)
  have htwo : binaryFrontierNodes [3, 0] 2 = .ok 2 := by decide +kernel
  exact ⟨count, hcount, Except.ok.inj (hcount.symm.trans htwo)⟩

/-- No position gives an error instead of a count. -/
theorem frontier_count_of_none : ¬ ∀ (depth : ℕ) (positions : List ℕ), depth < 32 → positions.Nodup →
    (∀ i ∈ positions, i < 2 ^ depth) → ∃ count, binaryFrontierNodes positions depth = .ok count := by
  intro h
  obtain ⟨count, hcount⟩ := h 0 [] (by simp) (by simp) (by simp)
  simp [binaryFrontierNodes] at hcount

end Aspis.Core
