import Aspis.Core.Merkle

/-! What an accepted multi-opening shows. The verifiers accept exactly when there is a
hash tree with the given root, known along the paths of the listed positions, whose
leaves there have the given digests and whose missing siblings are the stream. -/

namespace Aspis.Core

open Aspis.Lib Aspis.Lib.Openings

/-! ### Lists of digests -/

section ListWalk
variable {D : Type} {node : D → D → D}

/-- Entries that a function labels. -/
theorem eq_map_iff {entries : List (ℕ × D)} {g : ℕ → D} :
    entries = (entries.map Prod.fst).map (fun i => (i, g i)) ↔ ∀ e ∈ entries, g e.1 = e.2 := by
  rw [List.map_map]
  constructor
  · intro h e he
    have hsame : entries.map (fun e => (e.1, g e.1)) = entries.map id := by
      rw [List.map_id]
      exact h.symm
    exact congrArg Prod.snd (List.map_inj_left.mp hsame e he)
  · intro h
    have hsame : entries.map (fun e => (e.1, g e.1)) = entries.map id :=
      List.map_inj_left.mpr fun e he => by rw [h e he]; rfl
    rw [List.map_id] at hsame
    exact hsame.symm

variable [Inhabited D]

/-- Every increasing list of entries is labelled by a function. -/
theorem exists_label {entries : List (ℕ × D)} {P : List ℕ} {v : List D} (hP : P = entries.map Prod.fst)
    (hsorted : P.Pairwise (· < ·)) (hv : v.length = (missing P).length) :
    ∃ g : ℕ → D, entries = P.map (fun i => (i, g i)) ∧ v = (missing P).map g := by
  have hnodup : (P ++ missing P).Nodup := by
    refine List.Nodup.append (hsorted.imp ne_of_lt) ((missing_sorted P hsorted).imp ne_of_lt) ?_
    intro k hk hmissing
    exact ((mem_missing P hsorted).mp hmissing).2 hk
  obtain ⟨g, hg⟩ := exists_map_eq (v := entries.map Prod.snd ++ v) hnodup (by simp [hP, hv])
  rw [List.map_append] at hg
  obtain ⟨hlevel, hstream⟩ := List.append_inj hg (by simp [hP])
  refine ⟨g, ?_, hstream.symm⟩
  rw [hP, List.map_map] at hlevel
  rw [hP, eq_map_iff]
  exact fun e he => List.map_inj_left.mp hlevel e he

/-- A walk over one level labels it: the digests of the stream label the missing siblings. -/
theorem exists_of_walkLevel {entries next out : List (ℕ × D)} {nodes rest : List D} {P : List ℕ}
    (hP : P = entries.map Prod.fst) (hsorted : P.Pairwise (· < ·))
    (h : walkLevel node nextNode entries next nodes = some (out, rest)) :
    ∃ g : ℕ → D, entries = P.map (fun i => (i, g i)) ∧ nodes = (missing P).map g ++ rest ∧
      out = next ++ (parents P).map fun k => (k, node (g (2 * k)) (g (2 * k + 1))) := by
  have henough : (missing P).length ≤ nodes.length := by
    by_contra hshort
    rw [walkLevel_short entries next nodes (by rw [← hP]; omega)] at h
    simp at h
  obtain ⟨g, hentries, hstream⟩ := exists_label (v := nodes.take (missing P).length) hP hsorted
    (by rw [List.length_take, Nat.min_eq_left henough])
  have hnodes : nodes = (missing P).map g ++ nodes.drop (missing P).length := by
    rw [← hstream, List.take_append_drop]
  have hwalk : walkLevel node nextNode _ next _ = _ := walkLevel_eq g P next (nodes.drop (missing P).length)
  rw [← hentries, ← hnodes, h] at hwalk
  simp only [Option.some.injEq, Prod.mk.injEq] at hwalk
  exact ⟨g, hentries, by rw [hwalk.2]; exact hnodes, hwalk.1⟩

/-- A walk to the root is a tree along the opened paths. -/
theorem walkLevels_eq_some {depth : ℕ} {entries next level : List (ℕ × D)} {nodes rest : List D} {P : List ℕ}
    (hP : P = entries.map Prod.fst) (hsorted : P.Pairwise (· < ·)) (hlt : ∀ i ∈ P, i < 2 ^ depth) :
    walkLevels node nextNode depth entries next nodes = some (level, rest) ↔
      ∃ T : OpenedTree node depth P, entries = P.map (fun i => (i, T.digest 0 i)) ∧ nodes = T.siblings ++ rest ∧
        level = (ancestors depth P).map fun k => (k, T.digest depth k) := by
  induction depth generalizing entries next nodes P with
  | zero =>
    rw [walkLevels, Option.some.injEq, Prod.mk.injEq]
    constructor
    · rintro ⟨rfl, rfl⟩
      obtain ⟨g, hentries, -⟩ := exists_label (v := (missing P).map fun _ => default) hP hsorted (by simp)
      exact ⟨⟨fun _ => g, by simp⟩, hentries, rfl, hentries⟩
    · rintro ⟨T, hentries, hnodes, hlevel⟩
      exact ⟨hentries.trans hlevel.symm, hnodes⟩
  | succ depth ih =>
    rw [walkLevels]
    constructor
    · intro h
      split at h
      · simp at h
      · next out nodes' hlevel =>
        obtain ⟨g, hentries, hnodes, hout⟩ := exists_of_walkLevel hP hsorted hlevel
        rw [List.take_zero, List.nil_append] at hout
        have hpositions : parents P = out.map Prod.fst := by
          rw [hout, List.map_map]
          exact (List.map_id _).symm
        obtain ⟨T, hlabels, hsiblings, hroot⟩ := (ih hpositions (parents_sorted P hsorted) (parents_lt hlt)).mp h
        have hjoin : ∀ k ∈ parents P, T.digest 0 k = node (g (2 * k)) (g (2 * k + 1)) := by
          intro k hk
          have hsame := List.map_inj_left.mp (hlabels.symm.trans hout) k hk
          exact congrArg Prod.snd hsame
        refine ⟨.cons g T hjoin, hentries, ?_, hroot⟩
        rw [OpenedTree.siblings_succ _ hsorted hlt, List.append_assoc, hnodes, hsiblings]
        rfl
    · rintro ⟨T, hentries, hnodes, hlevel⟩
      rw [T.siblings_succ hsorted hlt, List.append_assoc] at hnodes
      have hparents : (parents P).map (fun k => (k, node (T.digest 0 (2 * k)) (T.digest 0 (2 * k + 1)))) =
          (parents P).map fun k => (k, T.tail.digest 0 k) := by
        apply List.map_congr_left
        intro k hk
        obtain ⟨p, hp, rfl⟩ := (mem_parents P).mp hk
        have hjoin := T.joins 0 (Nat.succ_pos depth) p hp
        rw [Nat.zero_add, pow_one] at hjoin
        rw [← hjoin]
        rfl
      rw [hentries, hnodes, walkLevel_eq, List.take_zero, List.nil_append, hparents]
      refine (ih ?_ (parents_sorted P hsorted) (parents_lt hlt)).mpr ⟨T.tail, rfl, rfl, hlevel⟩
      rw [List.map_map]
      exact (List.map_id _).symm

end ListWalk

/-! ### Acceptance -/

theorem positionsOk_iff {depth : ℕ} {P : List ℕ} : positionsOk depth P = true ↔
    P ≠ [] ∧ depth < 32 ∧ P.Pairwise (· < ·) ∧ ∀ i ∈ P, i < 2 ^ depth := by
  unfold positionsOk
  simp only [Bool.and_eq_true, Bool.not_eq_true', List.isEmpty_eq_false_iff, decide_eq_true_eq,
    List.isChain_iff_pairwise, and_assoc, ne_eq]
  refine and_congr_right fun hne => and_congr_right fun _ => and_congr_right fun hsorted => ?_
  obtain ⟨front, last, rfl⟩ := (List.eq_nil_or_concat' P).resolve_left hne
  rw [List.getLastD_concat]
  constructor
  · intro h i hi
    rcases List.mem_append.mp hi with hi | hi
    · exact ((List.pairwise_append.mp hsorted).2.2 i hi last List.mem_cons_self).trans h
    · rwa [List.mem_singleton.mp hi]
  · exact fun h => h last (by simp)

/-- There is a tree with the root that is known along the paths of the entries, has their digests at its leaves, and
whose missing siblings are the nodes. -/
def Opens {D : Type} (node : D → D → D) (root : D) (depth : ℕ) (entries : List (ℕ × D)) (nodes : List D) : Prop :=
  ∃ T : OpenedTree node depth (entries.map Prod.fst), T.root = root ∧ (∀ e ∈ entries, T.digest 0 e.1 = e.2) ∧
    nodes = T.siblings

/-- Above all listed positions there is the root alone. -/
theorem ancestors_root {depth : ℕ} {P : List ℕ} (hne : P ≠ []) (hsorted : P.Pairwise (· < ·))
    (hlt : ∀ i ∈ P, i < 2 ^ depth) : ancestors depth P = [0] := by
  have hzero : ∀ k ∈ ancestors depth P, k = 0 := by
    intro k hk
    obtain ⟨i, hi, rfl⟩ := mem_ancestors.mp hk
    exact Nat.div_eq_of_lt (hlt i hi)
  obtain ⟨i, hi⟩ := List.exists_mem_of_ne_nil P hne
  have hmem : 0 ∈ ancestors depth P := mem_ancestors.mpr ⟨i, hi, Nat.div_eq_of_lt (hlt i hi)⟩
  have hordered := ancestors_sorted depth hsorted
  generalize ancestors depth P = l at hzero hmem hordered
  match l with
  | [] => simp at hmem
  | [k] => rw [hzero k List.mem_cons_self]
  | k :: k' :: rest =>
    have hlt := (List.pairwise_cons.mp hordered).1 k' List.mem_cons_self
    have hk' := hzero k' (by simp)
    omega

section
variable {D σ : Type} {node : D → D → D} {take : σ → Option (D × σ)} {R : σ → List D → Prop}

theorem walkLevels_root_iff [Inhabited D] {depth : ℕ} {root : D} {entries next : List (ℕ × D)} {nodes : List D}
    (hok : positionsOk depth (entries.map Prod.fst) = true) :
    walkLevels node nextNode depth entries next nodes = some ([(0, root)], []) ↔ Opens node root depth entries nodes := by
  obtain ⟨hne, -, hsorted, hlt⟩ := positionsOk_iff.mp hok
  rw [walkLevels_eq_some rfl hsorted hlt, ancestors_root hne hsorted hlt]
  simp only [List.map_cons, List.map_nil, List.cons.injEq, Prod.mk.injEq, true_and, and_true, List.append_nil,
    eq_map_iff]
  constructor
  · rintro ⟨T, hlabels, hnodes, hroot⟩
    exact ⟨T, hroot.symm, hlabels, hnodes⟩
  · rintro ⟨T, hroot, hlabels, hnodes⟩
    exact ⟨T, hlabels, hnodes, hroot.symm⟩

/-- A stream gives out, one after another, the digests that `R` says it holds. -/
structure Streams (take : σ → Option (D × σ)) (R : σ → List D → Prop) : Prop where
  nil : ∀ s, R s [] → take s = none
  cons : ∀ s x xs, R s (x :: xs) → ∃ s', take s = some (x, s') ∧ R s' xs

/-- The next digest of the stream is the next one of what it holds. -/
theorem Streams.next (h : Streams take R) {s : σ} {nodes : List D} (hs : R s nodes) :
    (nextNode nodes = none ∧ take s = none) ∨
      ∃ x rest s', nextNode nodes = some (x, rest) ∧ take s = some (x, s') ∧ R s' rest := by
  cases nodes with
  | nil => exact Or.inl ⟨rfl, h.nil s hs⟩
  | cons x rest =>
    obtain ⟨s', hnext, hs'⟩ := h.cons s x rest hs
    exact Or.inr ⟨x, rest, s', rfl, hnext, hs'⟩

/-- A walk over a stream goes as the walk over the digests it holds. -/
theorem walkLevel_streams (h : Streams take R) {level next : List (ℕ × D)} {s : σ} {nodes : List D} (hs : R s nodes) :
    Option.Rel (fun a b => a.1 = b.1 ∧ R b.2 a.2) (walkLevel node nextNode level next nodes)
      (walkLevel node take level next s) := by
  fun_induction walkLevel node nextNode level next nodes generalizing s with
  | case1 => exact .some ⟨rfl, hs⟩
  | case2 i d next nodes hnone =>
    rcases h.next hs with ⟨-, htake⟩ | ⟨x, rest, s', hnext, -⟩
    · rw [walkLevel, htake]
      exact .none
    · rw [hnext] at hnone
      simp at hnone
  | case3 i d next nodes sib rest hsome =>
    rcases h.next hs with ⟨hnext, -⟩ | ⟨x, rest', s', hnext, htake, hs'⟩
    · rw [hnext] at hsome
      simp at hsome
    · obtain ⟨rfl, rfl⟩ := Prod.mk.inj (Option.some.inj (hnext.symm.trans hsome))
      rw [walkLevel, htake]
      exact .some ⟨rfl, hs'⟩
  | case4 i d j right rest next nodes hpair ih =>
    rw [walkLevel, if_pos hpair]
    exact ih hs
  | case5 i d j right more next nodes hpair hnone =>
    rcases h.next hs with ⟨-, htake⟩ | ⟨x, rest, s', hnext, -⟩
    · rw [walkLevel, if_neg hpair, htake]
      exact .none
    · rw [hnext] at hnone
      simp at hnone
  | case6 i d j right more next nodes hpair sib rest hsome ih =>
    rcases h.next hs with ⟨hnext, -⟩ | ⟨x, rest', s', hnext, htake, hs'⟩
    · rw [hnext] at hsome
      simp at hsome
    · obtain ⟨rfl, rfl⟩ := Prod.mk.inj (Option.some.inj (hnext.symm.trans hsome))
      rw [walkLevel, if_neg hpair, htake]
      exact ih hs'

theorem walkLevels_streams (h : Streams take R) {depth : ℕ} {level next next' : List (ℕ × D)} {s : σ} {nodes : List D}
    (hs : R s nodes) : Option.Rel (fun a b => a.1 = b.1 ∧ R b.2 a.2) (walkLevels node nextNode depth level next nodes)
      (walkLevels node take depth level next' s) := by
  induction depth generalizing level next next' s nodes with
  | zero => exact .some ⟨rfl, hs⟩
  | succ depth ih =>
    have hlevel : Option.Rel _ (walkLevel node nextNode level [] nodes) (walkLevel node take level [] s) :=
      walkLevel_streams h hs
    rw [walkLevels, walkLevels, List.take_zero, List.take_zero]
    generalize walkLevel node take level [] s = out' at hlevel
    generalize walkLevel node nextNode level [] nodes = out at hlevel
    cases hlevel with
    | none => exact .none
    | @some a b hout =>
      obtain ⟨parents, rest⟩ := a
      obtain ⟨parents', s'⟩ := b
      obtain ⟨hparents, hrest⟩ := hout
      simp only at hparents hrest
      subst hparents
      exact ih hrest

/-- A walk over a stream ends at the root with the stream used up when its digests open the tree. -/
theorem endsAt_iff_opens [Inhabited D] [DecidableEq D] (h : Streams take R) {usedUp : σ → Bool}
    (hused : ∀ s rest, R s rest → (usedUp s = true ↔ rest = [])) {depth : ℕ} {root : D}
    {entries next : List (ℕ × D)} {s : σ} {nodes : List D} (hs : R s nodes)
    (hok : positionsOk depth (entries.map Prod.fst) = true) :
    endsAt root usedUp (walkLevels node take depth entries next s) = true ↔ Opens node root depth entries nodes := by
  have hroot : walkLevels node nextNode depth entries next nodes = some ([(0, root)], []) ↔ _ := walkLevels_root_iff hok
  rw [← hroot]
  have hwalk : Option.Rel _ (walkLevels node nextNode depth entries next nodes) (walkLevels node take depth entries next s) :=
    walkLevels_streams h hs
  generalize walkLevels node take depth entries next s = result at hwalk
  generalize walkLevels node nextNode depth entries next nodes = walked at hwalk
  cases hwalk with
  | none => simp [endsAt]
  | @some a b hab =>
    obtain ⟨level, rest⟩ := a
    obtain ⟨level', s'⟩ := b
    obtain ⟨hlevel, hrest⟩ := hab
    simp only at hlevel hrest
    subst hlevel
    simp [endsAt, hused s' rest hrest, and_comm]

end

/-! ### The streams of the verifiers -/

/-- A string of whole digests. -/
theorem exists_digests {w : ℕ} {d : Bytes} (h : d.length % w = 0) :
    ∃ nodes : List (FixedBytes w), d = nodes.flatMap Subtype.val := by
  obtain ⟨n, hn⟩ := Nat.dvd_of_mod_eq_zero h
  induction n generalizing d with
  | zero => exact ⟨[], List.length_eq_zero_iff.mp hn⟩
  | succ n ih =>
    rw [Nat.mul_succ] at hn
    obtain ⟨nodes, hnodes⟩ := @ih (d.drop w) (by rw [List.length_drop, hn]; simp) (by rw [List.length_drop]; omega)
    refine ⟨⟨d.take w, by rw [List.length_take]; omega⟩ :: nodes, ?_⟩
    rw [List.flatMap_cons, ← hnodes, List.take_append_drop]

theorem length_digests {w : ℕ} (nodes : List (FixedBytes w)) :
    (nodes.flatMap Subtype.val).length = nodes.length * w := length_flatMap_const fun a _ => a.2

/-- The bytes from a position on are the digests. -/
def HoldsAt {w : ℕ} (d : Bytes) (pos : ℕ) (nodes : List (FixedBytes w)) : Prop :=
  ∃ front, d = front ++ nodes.flatMap Subtype.val ∧ front.length = pos

theorem HoldsAt.length {w : ℕ} {d : Bytes} {pos : ℕ} {nodes : List (FixedBytes w)} (h : HoldsAt d pos nodes) :
    d.length = pos + nodes.length * w := by
  obtain ⟨front, rfl, rfl⟩ := h
  rw [List.length_append, length_digests]

theorem HoldsAt.read {w : ℕ} {d : Bytes} {pos : ℕ} {x : FixedBytes w} {nodes : List (FixedBytes w)}
    (h : HoldsAt d pos (x :: nodes)) : readFixed w pos d = x ∧ HoldsAt d (pos + w) nodes := by
  obtain ⟨front, rfl, rfl⟩ := h
  refine ⟨readFixed_of_slice ?_, front ++ x.1, by simp, by rw [List.length_append, x.2]⟩
  rw [slice_append_right le_rfl, Nat.sub_self, List.flatMap_cons, slice_append_head x.2.symm]

theorem readNode_streams {w : ℕ} (hw : 0 < w) (d : Bytes) : Streams (readNode w d) (HoldsAt d) where
  nil pos h := by
    have hlen := h.length
    rw [List.length_nil, Nat.zero_mul] at hlen
    exact if_pos (by omega)
  cons pos x nodes h := by
    have hlen := h.length
    rw [List.length_cons, Nat.succ_mul] at hlen
    refine ⟨pos + w, ?_, h.read.2⟩
    rw [readNode, if_neg (by omega), h.read.1]

theorem readNodes_streams {w : ℕ} (hw : 0 < w) (d : Bytes × Bytes) : Streams (readNodes w d)
    fun pos nodes => HoldsAt d.1 pos (nodes.map Prod.fst) ∧ HoldsAt d.2 pos (nodes.map Prod.snd) where
  nil pos h := by
    have hlen := h.1.length
    rw [List.map_nil, List.length_nil, Nat.zero_mul] at hlen
    exact if_pos (by omega)
  cons pos x nodes h := by
    have hlen := h.1.length
    rw [List.map_cons, List.length_cons, Nat.succ_mul] at hlen
    have hfirst := h.1.read
    have hsecond := h.2.read
    refine ⟨pos + w, ?_, hfirst.2, hsecond.2⟩
    rw [readNodes, if_neg (by omega), hfirst.1, hsecond.1]

theorem holdsAt_zero {w : ℕ} {d : Bytes} {nodes : List (FixedBytes w)} :
    HoldsAt d 0 nodes ↔ d = nodes.flatMap Subtype.val := by
  constructor
  · rintro ⟨front, rfl, hfront⟩
    rw [List.length_eq_zero_iff.mp hfront, List.nil_append]
  · rintro rfl
    exact ⟨[], rfl, rfl⟩

instance {w : ℕ} : Inhabited (FixedBytes w) := ⟨⟨zeros w, length_zeros w⟩⟩

section
variable {w : ℕ} {node : FixedBytes w → FixedBytes w → FixedBytes w} {depth : ℕ}

theorem verifyMinimalSubtree_iff {hash : HashFn} {root : FixedBytes 32} {entries : List (ℕ × FixedBytes 32)}
    {nodes : List (FixedBytes 32)} : verifyMinimalSubtree hash root depth entries nodes = true ↔
      positionsOk depth (entries.map Prod.fst) = true ∧ Opens (nodeHash hash) root depth entries nodes := by
  rw [verifyMinimalSubtree, Bool.and_eq_true]
  refine and_congr_right fun hok => ?_
  have hstreams : Streams (nextNode (D := FixedBytes 32)) (· = ·) :=
    ⟨fun s h => by rw [h]; rfl, fun s x xs h => ⟨xs, by rw [h]; rfl, rfl⟩⟩
  exact endsAt_iff_opens hstreams (fun s rest h => by rw [h, List.isEmpty_iff]) rfl hok

theorem minimalSubtreeBytes_iff (hw : 0 < w) {root : FixedBytes w} {entries level next : List (ℕ × FixedBytes w)}
    {nodeBytes : Bytes} : minimalSubtreeBytes w node root depth entries nodeBytes level next = true ↔
      positionsOk depth (entries.map Prod.fst) = true ∧
        ∃ nodes, nodeBytes = nodes.flatMap Subtype.val ∧ Opens node root depth entries nodes := by
  rw [minimalSubtreeBytes, Bool.and_eq_true, Bool.and_eq_true, decide_eq_true_eq, List.take_zero, List.nil_append]
  have hused : ∀ (pos : ℕ) (rest : List (FixedBytes w)), HoldsAt nodeBytes pos rest →
      ((pos == nodeBytes.length) = true ↔ rest = []) := by
    intro pos rest h
    rw [h.length, beq_iff_eq]
    simp [hw.ne']
  have hends := fun (nodes : List (FixedBytes w)) (hnodes : nodeBytes = nodes.flatMap Subtype.val)
    (hok : positionsOk depth (entries.map Prod.fst) = true) =>
    @endsAt_iff_opens _ _ node _ _ _ _ (readNode_streams hw nodeBytes) _ hused depth root entries next 0 nodes
      (holdsAt_zero.mpr hnodes) hok
  constructor
  · rintro ⟨⟨hlen, hok⟩, hwalk⟩
    obtain ⟨nodes, hnodes⟩ := exists_digests hlen
    exact ⟨hok, nodes, hnodes, (hends nodes hnodes hok).mp hwalk⟩
  · rintro ⟨hok, nodes, hnodes, hopens⟩
    refine ⟨⟨?_, hok⟩, (hends nodes hnodes hok).mpr hopens⟩
    rw [hnodes, length_digests, Nat.mul_mod_left]

theorem twoMinimalSubtreesBytes_iff (hw : 0 < w) {roots : FixedBytes w × FixedBytes w}
    {entries level next : List (ℕ × FixedBytes w × FixedBytes w)} {nodeBytes : Bytes × Bytes} :
    twoMinimalSubtreesBytes w node roots depth entries nodeBytes level next = true ↔
      positionsOk depth (entries.map Prod.fst) = true ∧ ∃ nodes : List (FixedBytes w × FixedBytes w),
        nodeBytes.1 = (nodes.map Prod.fst).flatMap Subtype.val ∧
        nodeBytes.2 = (nodes.map Prod.snd).flatMap Subtype.val ∧ Opens (nodeBoth node) roots depth entries nodes := by
  rw [twoMinimalSubtreesBytes, Bool.and_eq_true, Bool.and_eq_true, Bool.and_eq_true, Bool.and_eq_true,
    decide_eq_true_eq, decide_eq_true_eq, decide_eq_true_eq, List.take_zero, List.nil_append]
  have hused : ∀ (pos : ℕ) (rest : List (FixedBytes w × FixedBytes w)),
      HoldsAt nodeBytes.1 pos (rest.map Prod.fst) ∧ HoldsAt nodeBytes.2 pos (rest.map Prod.snd) →
      ((pos == nodeBytes.1.length) = true ↔ rest = []) := by
    intro pos rest h
    rw [h.1.length, beq_iff_eq]
    simp [hw.ne']
  have hends := fun (nodes : List (FixedBytes w × FixedBytes w))
    (hfirst : nodeBytes.1 = (nodes.map Prod.fst).flatMap Subtype.val)
    (hsecond : nodeBytes.2 = (nodes.map Prod.snd).flatMap Subtype.val)
    (hok : positionsOk depth (entries.map Prod.fst) = true) =>
    @endsAt_iff_opens _ _ (nodeBoth node) _ _ _ _ (readNodes_streams hw nodeBytes) _ hused depth roots entries next 0
      nodes ⟨holdsAt_zero.mpr hfirst, holdsAt_zero.mpr hsecond⟩ hok
  constructor
  · rintro ⟨⟨⟨⟨hfirst, hsecond⟩, hsame⟩, hok⟩, hwalk⟩
    obtain ⟨nodes, hnodes⟩ := exists_digests hfirst
    obtain ⟨nodes', hnodes'⟩ := exists_digests hsecond
    rw [hnodes, hnodes', length_digests, length_digests] at hsame
    have hlen : nodes.length = nodes'.length := Nat.eq_of_mul_eq_mul_right hw hsame
    have hleft : (nodes.zip nodes').map Prod.fst = nodes := List.map_fst_zip hlen.le
    have hright : (nodes.zip nodes').map Prod.snd = nodes' := List.map_snd_zip hlen.ge
    have hl : nodeBytes.1 = ((nodes.zip nodes').map Prod.fst).flatMap Subtype.val := by rw [hleft, hnodes]
    have hr : nodeBytes.2 = ((nodes.zip nodes').map Prod.snd).flatMap Subtype.val := by rw [hright, hnodes']
    exact ⟨hok, nodes.zip nodes', hl, hr, (hends _ hl hr hok).mp hwalk⟩
  · rintro ⟨hok, nodes, hl, hr, hopens⟩
    refine ⟨⟨⟨⟨?_, ?_⟩, ?_⟩, hok⟩, (hends nodes hl hr hok).mpr hopens⟩
    · rw [hl, length_digests, Nat.mul_mod_left]
    · rw [hr, length_digests, Nat.mul_mod_left]
    · rw [hl, hr, length_digests, length_digests, List.length_map, List.length_map]

end

/-! ### Two trees at once -/

section
variable {D : Type} {node : D → D → D} {depth : ℕ}

/-- The entries of the first tree. -/
def firstEntries (entries : List (ℕ × D × D)) : List (ℕ × D) := entries.map fun e => (e.1, e.2.1)

/-- The entries of the second tree. -/
def secondEntries (entries : List (ℕ × D × D)) : List (ℕ × D) := entries.map fun e => (e.1, e.2.2)

theorem firstEntries_positions (entries : List (ℕ × D × D)) :
    entries.map Prod.fst = (firstEntries entries).map Prod.fst := by
  rw [firstEntries, List.map_map]
  rfl

theorem secondEntries_positions (entries : List (ℕ × D × D)) :
    entries.map Prod.fst = (secondEntries entries).map Prod.fst := by
  rw [secondEntries, List.map_map]
  rfl

theorem opens_iff {P : List ℕ} {root : D} {entries : List (ℕ × D)} {nodes : List D} (hP : P = entries.map Prod.fst) :
    Opens node root depth entries nodes ↔
      ∃ T : OpenedTree node depth P, T.root = root ∧ (∀ e ∈ entries, T.digest 0 e.1 = e.2) ∧ nodes = T.siblings := by
  subst hP
  rfl

/-- A tree of pairs is a pair of trees. -/
theorem opens_both_iff {roots : D × D} {entries : List (ℕ × D × D)} {nodes : List (D × D)} :
    Opens (nodeBoth node) roots depth entries nodes ↔
      Opens node roots.1 depth (firstEntries entries) (nodes.map Prod.fst) ∧
        Opens node roots.2 depth (secondEntries entries) (nodes.map Prod.snd) := by
  have hfst : ∀ (f : ℕ → ℕ → D × D) (l : List ℕ), ((List.range depth).flatMap fun h =>
      (missingAt depth l h).map (f h)).map Prod.fst = (List.range depth).flatMap fun h =>
        (missingAt depth l h).map fun i => (f h i).1 := by
    intro f l
    simp [List.map_flatMap, Function.comp_def]
  have hsnd : ∀ (f : ℕ → ℕ → D × D) (l : List ℕ), ((List.range depth).flatMap fun h =>
      (missingAt depth l h).map (f h)).map Prod.snd = (List.range depth).flatMap fun h =>
        (missingAt depth l h).map fun i => (f h i).2 := by
    intro f l
    simp [List.map_flatMap, Function.comp_def]
  rw [opens_iff (firstEntries_positions entries), opens_iff (secondEntries_positions entries)]
  constructor
  · rintro ⟨T, rfl, hlabels, rfl⟩
    refine ⟨⟨⟨fun h i => (T.digest h i).1, fun h hh p hp => congrArg Prod.fst (T.joins h hh p hp)⟩, rfl, ?_, hfst _ _⟩,
      ⟨⟨fun h i => (T.digest h i).2, fun h hh p hp => congrArg Prod.snd (T.joins h hh p hp)⟩, rfl, ?_, hsnd _ _⟩⟩
    · simp only [firstEntries, List.forall_mem_map]
      exact fun e he => congrArg Prod.fst (hlabels e he)
    · simp only [secondEntries, List.forall_mem_map]
      exact fun e he => congrArg Prod.snd (hlabels e he)
  · rintro ⟨⟨T, hroot, hlabels, hnodes⟩, T', hroot', hlabels', hnodes'⟩
    refine ⟨⟨fun h i => (T.digest h i, T'.digest h i), fun h hh p hp => ?_⟩, ?_, fun e he => ?_, ?_⟩
    · exact Prod.ext (T.joins h hh p hp) (T'.joins h hh p hp)
    · exact Prod.ext hroot hroot'
    · simp only [firstEntries, secondEntries, List.forall_mem_map] at hlabels hlabels'
      exact Prod.ext (hlabels e he) (hlabels' e he)
    · have hzip := List.zip_of_prod hnodes hnodes'
      rw [hzip, OpenedTree.siblings, OpenedTree.siblings, OpenedTree.siblings]
      refine (List.zip_of_prod ?_ ?_).symm
      · exact hfst _ _
      · exact hsnd _ _

/-- An opened tree uses one digest for every missing sibling. -/
theorem Opens.length_eq {root : D} {entries : List (ℕ × D)} {nodes : List D} (h : Opens node root depth entries nodes)
    (hok : positionsOk depth (entries.map Prod.fst) = true) :
    nodes.length = missingCount depth (entries.map Prod.fst) := by
  obtain ⟨-, -, hsorted, hlt⟩ := positionsOk_iff.mp hok
  obtain ⟨T, -, -, rfl⟩ := h
  exact T.length_siblings hsorted hlt

end

/-- The fused walk accepts what two single walks accept. -/
theorem twoMinimalSubtreesBytes_eq {w : ℕ} (hw : 0 < w) (node : FixedBytes w → FixedBytes w → FixedBytes w)
    (roots : FixedBytes w × FixedBytes w) (depth : ℕ) (entries level next : List (ℕ × FixedBytes w × FixedBytes w))
    (nodeBytes : Bytes × Bytes) (level₁ next₁ level₂ next₂ : List (ℕ × FixedBytes w)) :
    twoMinimalSubtreesBytes w node roots depth entries nodeBytes level next =
      (minimalSubtreeBytes w node roots.1 depth (firstEntries entries) nodeBytes.1 level₁ next₁ &&
        minimalSubtreeBytes w node roots.2 depth (secondEntries entries) nodeBytes.2 level₂ next₂) := by
  rw [Bool.eq_iff_iff, Bool.and_eq_true, twoMinimalSubtreesBytes_iff hw, minimalSubtreeBytes_iff hw,
    minimalSubtreeBytes_iff hw, ← firstEntries_positions, ← secondEntries_positions]
  constructor
  · rintro ⟨hok, nodes, hl, hr, hopens⟩
    obtain ⟨hfirst, hsecond⟩ := opens_both_iff.mp hopens
    exact ⟨⟨hok, _, hl, hfirst⟩, hok, _, hr, hsecond⟩
  · rintro ⟨⟨hok, nodes, hl, hfirst⟩, -, nodes', hr, hsecond⟩
    -- both streams have a digest for every missing sibling of the positions, so they pair up
    have hlen : nodes.length = nodes'.length := by
      rw [hfirst.length_eq (by rw [← firstEntries_positions]; exact hok),
        hsecond.length_eq (by rw [← secondEntries_positions]; exact hok), ← firstEntries_positions,
        ← secondEntries_positions]
    have hleft : (nodes.zip nodes').map Prod.fst = nodes := List.map_fst_zip hlen.le
    have hright : (nodes.zip nodes').map Prod.snd = nodes' := List.map_snd_zip hlen.ge
    refine ⟨hok, nodes.zip nodes', by rw [hleft]; exact hl, by rw [hright]; exact hr, opens_both_iff.mpr ?_⟩
    rw [hleft, hright]
    exact ⟨hfirst, hsecond⟩

/-- The fused verifiers accept exactly when the single-tree verifier accepts each tree with its own digests and stream,
whatever the scratch vectors hold. -/
theorem fused_verifiers_accept_iff_both (hash : HashFn) (depth : ℕ) (nodeBytes : Bytes × Bytes) :
    (∀ roots entries level next level₁ next₁ level₂ next₂,
      verifyTwoMinimalSubtreesBytes hash roots depth entries nodeBytes level next =
        (verifyMinimalSubtreeBytes hash roots.1 depth (firstEntries entries) nodeBytes.1 level₁ next₁ &&
          verifyMinimalSubtreeBytes hash roots.2 depth (secondEntries entries) nodeBytes.2 level₂ next₂)) ∧
    (∀ roots entries level next level₁ next₁ level₂ next₂,
      verifyTwoMinimalSubtrees216Bytes hash roots depth entries nodeBytes level next =
        (minimalSubtreeBytes 27 (nodeHash216 hash) roots.1 depth (firstEntries entries) nodeBytes.1 level₁ next₁ &&
          minimalSubtreeBytes 27 (nodeHash216 hash) roots.2 depth (secondEntries entries) nodeBytes.2 level₂ next₂)) ∧
    ∀ roots entries level next level₁ next₁ level₂ next₂,
      verifyTwoMinimalSubtreesV7Bytes hash roots depth entries nodeBytes level next =
        (minimalSubtreeBytes 26 (nodeHashV7 hash) roots.1 depth (firstEntries entries) nodeBytes.1 level₁ next₁ &&
          minimalSubtreeBytes 26 (nodeHashV7 hash) roots.2 depth (secondEntries entries) nodeBytes.2 level₂ next₂) := by
  refine ⟨?_, ?_, ?_⟩
  · intro roots entries level next
    exact twoMinimalSubtreesBytes_eq (by decide) _ roots depth entries level next nodeBytes
  · intro roots entries level next
    exact twoMinimalSubtreesBytes_eq (by decide) _ roots depth entries level next nodeBytes
  · intro roots entries level next
    exact twoMinimalSubtreesBytes_eq (by decide) _ roots depth entries level next nodeBytes

/-! ### What acceptance shows -/

/-- At most one stream opens given entries under a root, unless the trees of two streams show a collision. -/
theorem opens_unique {D : Type} {node : D → D → D} {root : D} {depth : ℕ} {entries : List (ℕ × D)} {nodes nodes' : List D}
    (hlt : ∀ i ∈ entries.map Prod.fst, i < 2 ^ depth) (h : Opens node root depth entries nodes)
    (h' : Opens node root depth entries nodes') :
    nodes = nodes' ∨ ∃ T T' : OpenedTree node depth (entries.map Prod.fst),
      T.siblings = nodes ∧ T'.siblings = nodes' ∧ T.Collide T' := by
  obtain ⟨T, hroot, -, rfl⟩ := h
  obtain ⟨T', hroot', -, rfl⟩ := h'
  by_cases hcollide : T.Collide T'
  · exact Or.inr ⟨T, T', rfl, rfl, hcollide⟩
  · exact Or.inl (OpenedTree.siblings_eq (hroot.trans hroot'.symm) hlt hcollide)

/-- The verifiers accept exactly the openings of a tree: the positions are in order and in range, and the stream is the
list of missing siblings, level by level and from left to right, of a tree with the given root and leaves. The scratch
vectors do not matter. Two trees of one root that do not collide have the listed leaves in common, and so have two
accepted streams. -/
theorem multi_opening_accepts_iff (depth : ℕ) :
    (∀ hash root entries nodes, verifyMinimalSubtree hash root depth entries nodes = true ↔
      (entries.map Prod.fst ≠ [] ∧ depth < 32 ∧ (entries.map Prod.fst).Pairwise (· < ·) ∧
        ∀ i ∈ entries.map Prod.fst, i < 2 ^ depth) ∧ Opens (nodeHash hash) root depth entries nodes) ∧
    (∀ hash root entries nodeBytes level next,
      verifyMinimalSubtreeBytes hash root depth entries nodeBytes level next = true ↔
      (entries.map Prod.fst ≠ [] ∧ depth < 32 ∧ (entries.map Prod.fst).Pairwise (· < ·) ∧
        ∀ i ∈ entries.map Prod.fst, i < 2 ^ depth) ∧
        ∃ nodes, nodeBytes = nodes.flatMap Subtype.val ∧ Opens (nodeHash hash) root depth entries nodes) ∧
    (∀ hash roots entries nodeBytes level next,
      verifyTwoMinimalSubtreesV7Bytes hash roots depth entries nodeBytes level next = true ↔
      (entries.map Prod.fst ≠ [] ∧ depth < 32 ∧ (entries.map Prod.fst).Pairwise (· < ·) ∧
        ∀ i ∈ entries.map Prod.fst, i < 2 ^ depth) ∧
        ∃ nodes : List (FixedBytes 26 × FixedBytes 26), nodeBytes.1 = (nodes.map Prod.fst).flatMap Subtype.val ∧
          nodeBytes.2 = (nodes.map Prod.snd).flatMap Subtype.val ∧
          Opens (nodeHashV7 hash) roots.1 depth (firstEntries entries) (nodes.map Prod.fst) ∧
          Opens (nodeHashV7 hash) roots.2 depth (secondEntries entries) (nodes.map Prod.snd)) ∧
    (∀ (D : Type) (node : D → D → D) (P : List ℕ) (T T' : OpenedTree node depth P), (∀ p ∈ P, p < 2 ^ depth) →
      T.root = T'.root → T.Collide T' ∨ ∀ p ∈ P, T.digest 0 p = T'.digest 0 p) ∧
    ∀ (D : Type) (node : D → D → D) (root : D) (entries : List (ℕ × D)) (nodes nodes' : List D),
      (∀ i ∈ entries.map Prod.fst, i < 2 ^ depth) → Opens node root depth entries nodes →
      Opens node root depth entries nodes' → nodes = nodes' ∨
        ∃ T T' : OpenedTree node depth (entries.map Prod.fst), T.siblings = nodes ∧ T'.siblings = nodes' ∧ T.Collide T' := by
  refine ⟨?_, ?_, ?_, ?_, ?_⟩
  · intro hash root entries nodes
    rw [verifyMinimalSubtree_iff, positionsOk_iff]
  · intro hash root entries nodeBytes level next
    rw [verifyMinimalSubtreeBytes, minimalSubtreeBytes_iff (by decide), positionsOk_iff]
  · intro hash roots entries nodeBytes level next
    rw [verifyTwoMinimalSubtreesV7Bytes, twoMinimalSubtreesBytes_iff (by decide), positionsOk_iff]
    simp only [opens_both_iff]
  · intro D node P T T' hlt hroot
    by_cases hcollide : T.Collide T'
    · exact Or.inl hcollide
    · exact Or.inr fun p hp => OpenedTree.leaf_eq hroot hlt hcollide hp
  · intro D node root entries nodes nodes' hlt h h'
    exact opens_unique hlt h h'

/-- A hash that always gives the same digest. -/
def constantHash (b : UInt8) : HashFn := .ofBytes fun _ => ⟨List.replicate 32 b, (Bytes32.filled b).length_eq⟩

/-- The digest of 32 equal bytes. -/
def digestOf (b : UInt8) : FixedBytes 32 := ⟨List.replicate 32 b, (Bytes32.filled b).length_eq⟩

/-- One leaf of a tree of two, opened with the other one. -/
theorem opening_of_one_leaf_accepted :
    verifyMinimalSubtree (constantHash 1) (digestOf 1) 1 [(0, digestOf 2)] [digestOf 3] = true :=
  ((multi_opening_accepts_iff 1).1 (constantHash 1) (digestOf 1) [(0, digestOf 2)] [digestOf 3]).mpr
    ⟨by simp, .ofLeaves _ 1 [0] (fun i => if i = 0 then digestOf 2 else digestOf 3), rfl, by simp; rfl, rfl⟩

/-- The stream of a tree that is known as a whole: the leaves have the entries' digests, every block is hashed. -/
def OpensFully {D : Type} (node : D → D → D) (root : D) (depth : ℕ) (entries : List (ℕ × D)) (nodes : List D) : Prop :=
  ∃ f : ℕ → D, MerkleTree.node node f depth 0 = root ∧ (∀ e ∈ entries, f e.1 = e.2) ∧
    nodes = (OpenedTree.ofLeaves node depth (entries.map Prod.fst) f).siblings

/-- A tree of 32 levels is refused, an opening of no position is refused, and a sibling above the leaves need not be the
hash of anything. -/
theorem not_accepts_iff_opensFully :
    (∃ entries nodes, (entries.map Prod.fst).Pairwise (· < ·) ∧
      ¬ (verifyMinimalSubtree (constantHash 1) (digestOf 1) 32 entries nodes = true ↔
        OpensFully (nodeHash (constantHash 1)) (digestOf 1) 32 entries nodes)) ∧
    ¬ (verifyMinimalSubtree (constantHash 1) (digestOf 1) 0 [] [] = true ↔
      OpensFully (nodeHash (constantHash 1)) (digestOf 1) 0 [] []) ∧
    ¬ (verifyMinimalSubtree (constantHash 1) (digestOf 1) 2 [(0, digestOf 2)] [digestOf 3, digestOf 4] = true ↔
      OpensFully (nodeHash (constantHash 1)) (digestOf 1) 2 [(0, digestOf 2)] [digestOf 3, digestOf 4]) := by
  refine ⟨?_, ?_, ?_⟩
  · let f : ℕ → FixedBytes 32 := fun _ => digestOf 1
    refine ⟨[(0, digestOf 1)], (OpenedTree.ofLeaves (nodeHash (constantHash 1)) 32 [0] f).siblings, by simp, ?_⟩
    intro h
    have hopens : OpensFully (nodeHash (constantHash 1)) (digestOf 1) 32 [(0, digestOf 1)]
        (OpenedTree.ofLeaves (nodeHash (constantHash 1)) 32 [0] f).siblings :=
      ⟨f, rfl, by simp [f], rfl⟩
    have haccepts := h.mpr hopens
    simp [verifyMinimalSubtree, positionsOk] at haccepts
  · intro h
    have haccepts := h.mpr ⟨fun _ => digestOf 1, rfl, by simp, rfl⟩
    simp [verifyMinimalSubtree, positionsOk] at haccepts
  · intro h
    obtain ⟨f, -, -, hnodes⟩ := h.mp (by decide +kernel)
    have hsiblings : (OpenedTree.ofLeaves (nodeHash (constantHash 1)) 2 [0] f).siblings = [f 1, digestOf 1] := rfl
    have hsecond : [digestOf 3, digestOf 4] = [f 1, digestOf 1] := hnodes.trans hsiblings
    simp [digestOf] at hsecond

end Aspis.Core
