import Aspis.Lib.MerkleTree
import Mathlib.Data.List.Sort

/-! Opening several leaves of a binary hash tree at once. The digests of the
opened blocks are computed level by level; a block whose sibling holds no opened
leaf needs that sibling's digest from outside. What is said here is about the
positions alone and about the trees they are positions of. -/

namespace Aspis.Lib.Openings

/-! ### One level of positions -/

/-- The blocks one level up that hold a listed block. -/
def parents : List ℕ → List ℕ
  | [] => []
  | [i] => [i / 2]
  | i :: j :: rest => if i % 2 = 0 ∧ j = i + 1 then i / 2 :: parents rest else i / 2 :: parents (j :: rest)

/-- The sibling of a block. -/
def sibling (i : ℕ) : ℕ := if i % 2 = 0 then i + 1 else i - 1

/-- The siblings that are not listed themselves, from left to right. -/
def missing : List ℕ → List ℕ
  | [] => []
  | [i] => [sibling i]
  | i :: j :: rest => if i % 2 = 0 ∧ j = i + 1 then missing rest else sibling i :: missing (j :: rest)

theorem sibling_div (i : ℕ) : sibling i / 2 = i / 2 := by
  unfold sibling
  split_ifs <;> omega

theorem sibling_ne (i : ℕ) : sibling i ≠ i := by
  unfold sibling
  split_ifs <;> omega

theorem sibling_sibling (i : ℕ) : sibling (sibling i) = i := by
  unfold sibling
  split_ifs <;> omega

/-- Two different blocks under one parent are siblings. -/
theorem eq_sibling {i j : ℕ} (hdiv : j / 2 = i / 2) (hne : j ≠ i) : j = sibling i := by
  unfold sibling
  split_ifs <;> omega

theorem mem_parents {k : ℕ} (P : List ℕ) : k ∈ parents P ↔ ∃ i ∈ P, i / 2 = k := by
  fun_induction parents P with
  | case1 => simp
  | case2 i => simp [eq_comm]
  | case3 i j rest h ih =>
    have hj : j / 2 = i / 2 := by omega
    simp only [List.mem_cons, ih, exists_eq_or_imp, hj]
    tauto
  | case4 i j rest h ih =>
    simp only [List.mem_cons, ih, exists_eq_or_imp]
    tauto

/-- Every listed block and every missing sibling lies under a parent of the list. -/
theorem missing_div {k : ℕ} (P : List ℕ) (h : k ∈ missing P) : ∃ i ∈ P, k = sibling i := by
  fun_induction missing P with
  | case1 => simp at h
  | case2 i => exact ⟨i, by simp, by simpa using h⟩
  | case3 i j rest hpair ih =>
    obtain ⟨l, hl, hk⟩ := ih h
    exact ⟨l, by simp [hl], hk⟩
  | case4 i j rest hpair ih =>
    rcases List.mem_cons.mp h with rfl | hrest
    · exact ⟨i, by simp, rfl⟩
    · obtain ⟨l, hl, hk⟩ := ih hrest
      exact ⟨l, by simp [List.mem_cons.mp hl], hk⟩

/-- In an increasing list, what follows a block that does not meet its sibling lies under later parents. -/
theorem div_lt_of_not_pair {i j : ℕ} {rest : List ℕ} (hsorted : (i :: j :: rest).Pairwise (· < ·))
    (hpair : ¬ (i % 2 = 0 ∧ j = i + 1)) : ∀ k ∈ j :: rest, i / 2 < k / 2 := by
  rw [List.pairwise_cons, List.pairwise_cons] at hsorted
  obtain ⟨hi, hj, -⟩ := hsorted
  have hij := hi j List.mem_cons_self
  intro k hk
  rcases List.mem_cons.mp hk with rfl | hk
  · omega
  · have := hj k hk
    omega

theorem div_lt_of_pair {i j : ℕ} {rest : List ℕ} (hsorted : (i :: j :: rest).Pairwise (· < ·))
    (hpair : i % 2 = 0 ∧ j = i + 1) : ∀ k ∈ rest, i / 2 < k / 2 := by
  rw [List.pairwise_cons, List.pairwise_cons] at hsorted
  intro k hk
  have := hsorted.2.1 k hk
  omega

theorem parents_sorted (P : List ℕ) (h : P.Pairwise (· < ·)) : (parents P).Pairwise (· < ·) := by
  fun_induction parents P with
  | case1 => exact h
  | case2 i => simp
  | case3 i j rest hpair ih =>
    have hlater := div_lt_of_pair h hpair
    rw [List.pairwise_cons, List.pairwise_cons] at h
    refine List.pairwise_cons.mpr ⟨fun k hk => ?_, ih h.2.2⟩
    obtain ⟨l, hl, rfl⟩ := (mem_parents rest).mp hk
    exact hlater l hl
  | case4 i j rest hpair ih =>
    have hlater := div_lt_of_not_pair h hpair
    refine List.pairwise_cons.mpr ⟨fun k hk => ?_, ih (List.pairwise_cons.mp h).2⟩
    obtain ⟨l, hl, rfl⟩ := (mem_parents (j :: rest)).mp hk
    exact hlater l hl

theorem missing_sorted (P : List ℕ) (h : P.Pairwise (· < ·)) : (missing P).Pairwise (· < ·) := by
  fun_induction missing P with
  | case1 => exact h
  | case2 i => simp
  | case3 i j rest hpair ih =>
    rw [List.pairwise_cons, List.pairwise_cons] at h
    exact ih h.2.2
  | case4 i j rest hpair ih =>
    have hlater := div_lt_of_not_pair h hpair
    refine List.pairwise_cons.mpr ⟨fun k hk => ?_, ih (List.pairwise_cons.mp h).2⟩
    obtain ⟨l, hl, rfl⟩ := missing_div _ hk
    have hl := hlater l hl
    have hi := sibling_div i
    have hk := sibling_div l
    omega

/-- The missing siblings of an increasing list are the blocks next to a listed one that are not listed. -/
theorem mem_missing {k : ℕ} (P : List ℕ) (h : P.Pairwise (· < ·)) : k ∈ missing P ↔ sibling k ∈ P ∧ k ∉ P := by
  fun_induction missing P with
  | case1 => simp
  | case2 i =>
    simp only [List.mem_singleton]
    constructor
    · rintro rfl
      exact ⟨sibling_sibling i, sibling_ne i⟩
    · rintro ⟨rfl, -⟩
      exact (sibling_sibling k).symm
  | case3 i j rest hpair ih =>
    have hlater := div_lt_of_pair h hpair
    have hrest := (List.pairwise_cons.mp (List.pairwise_cons.mp h).2).2
    rw [ih hrest]
    obtain ⟨heven, rfl⟩ := hpair
    have hk := sibling_div k
    constructor
    · rintro ⟨hmem, hnot⟩
      have hlt := hlater _ hmem
      refine ⟨by simp [hmem], ?_⟩
      simp only [List.mem_cons, not_or]
      exact ⟨by omega, by omega, hnot⟩
    · rintro ⟨hmem, hnot⟩
      simp only [List.mem_cons, not_or] at hmem hnot
      refine ⟨?_, hnot.2.2⟩
      rcases hmem with hmem | hmem | hmem
      · exact absurd (eq_sibling (by omega) hnot.1) (by rw [sibling, if_pos heven]; exact hnot.2.1)
      · exact absurd (eq_sibling (i := i + 1) (by omega) hnot.2.1) (by
          rw [sibling, if_neg (by omega), Nat.add_sub_cancel]
          exact hnot.1)
      · exact hmem
  | case4 i j rest hpair ih =>
    have hlater := div_lt_of_not_pair h hpair
    have hrest := (List.pairwise_cons.mp h).2
    rw [List.mem_cons, ih hrest]
    have hk := sibling_div k
    have hi := sibling_div i
    constructor
    · rintro (rfl | ⟨hmem, hnot⟩)
      · refine ⟨by simp [sibling_sibling], ?_⟩
        rw [List.mem_cons, not_or]
        refine ⟨sibling_ne i, fun hmem => ?_⟩
        have := hlater _ hmem
        omega
      · have hlt := hlater _ hmem
        refine ⟨List.mem_cons_of_mem i hmem, ?_⟩
        rw [List.mem_cons, not_or]
        exact ⟨by rintro rfl; omega, hnot⟩
    · rintro ⟨hmem, hnot⟩
      rw [List.mem_cons, not_or] at hnot
      rcases List.mem_cons.mp hmem with heq | hmem
      · left
        rw [← heq, sibling_sibling]
      · exact Or.inr ⟨hmem, hnot.2⟩

/-! ### How many siblings are missing -/

theorem length_missing (P : List ℕ) : P.length + (missing P).length = 2 * (parents P).length := by
  fun_induction missing P with
  | case1 => rfl
  | case2 i => rfl
  | case3 i j rest hpair ih =>
    rw [parents, if_pos hpair, List.length_cons, List.length_cons, List.length_cons]
    omega
  | case4 i j rest hpair ih =>
    rw [parents, if_neg hpair]
    simp only [List.length_cons] at ih ⊢
    omega

/-- The siblings missing below a root that is `depth` levels up. -/
def missingCount : ℕ → List ℕ → ℕ
  | 0, _ => 0
  | depth + 1, P => (missing P).length + missingCount depth (parents P)

/-- The levels at which neighbours of the list part, added up. -/
def splitLevels : List ℕ → ℕ
  | [] => 0
  | [_] => 0
  | i :: j :: rest => (i ^^^ j).log2 + splitLevels (j :: rest)

/-- One level down, blocks that part already do so one level higher. -/
theorem log2_xor_of_div_ne {i j : ℕ} (h : i / 2 ≠ j / 2) : (i ^^^ j).log2 = (i / 2 ^^^ j / 2).log2 + 1 := by
  have hhalf : (i ^^^ j) / 2 = i / 2 ^^^ j / 2 := by
    have := @Nat.xor_div_two_pow i j 1
    simpa using this
  have hne : i / 2 ^^^ j / 2 ≠ 0 := by simpa [Nat.xor_eq_zero_iff] using h
  have htwo : 2 ≤ i ^^^ j := by omega
  rw [← hhalf, Nat.log2_def (i ^^^ j), if_pos htwo]

theorem log2_xor_of_pair {i : ℕ} (h : i % 2 = 0) : (i ^^^ (i + 1)).log2 = 0 := by
  have hone : i ^^^ (i + 1) = 1 := by
    have heven : Even i := ⟨i / 2, by omega⟩
    have hxor : i + 1 = i ^^^ 1 := by rw [Nat.xor_one_of_even heven]
    rw [hxor, ← Nat.xor_assoc, Nat.xor_self, Nat.zero_xor]
  rw [hone]
  rfl

/-- The first of the parents is the parent of the first. -/
theorem parents_cons (i : ℕ) (P : List ℕ) : ∃ rest, parents (i :: P) = i / 2 :: rest := by
  cases P with
  | nil => exact ⟨[], rfl⟩
  | cons j rest =>
    rw [parents]
    split_ifs
    · exact ⟨_, rfl⟩
    · exact ⟨_, rfl⟩

/-- Each parent but the first adds one level. -/
theorem splitLevels_parents (P : List ℕ) (hsorted : P.Pairwise (· < ·)) :
    splitLevels P + 1 = splitLevels (parents P) + (parents P).length ∨ P = [] := by
  have hjoin : ∀ (i j : ℕ) (rest : List ℕ), i / 2 ≠ j / 2 →
      splitLevels (i / 2 :: parents (j :: rest)) + 1 = (i ^^^ j).log2 + splitLevels (parents (j :: rest)) := by
    intro i j rest hne
    obtain ⟨tail, htail⟩ := parents_cons j rest
    rw [htail, splitLevels, log2_xor_of_div_ne hne]
    omega
  fun_induction parents P with
  | case1 => exact Or.inr rfl
  | case2 i => exact Or.inl rfl
  | case3 i j rest hpair ih =>
    left
    have hlater := div_lt_of_pair hsorted hpair
    have hrest := (List.pairwise_cons.mp (List.pairwise_cons.mp hsorted).2).2
    obtain ⟨heven, rfl⟩ := hpair
    rw [splitLevels, log2_xor_of_pair heven]
    rcases ih hrest with ih | rfl
    · cases rest with
      | nil => rfl
      | cons k rest =>
        have hk := hlater k List.mem_cons_self
        have hone := hjoin (i + 1) k rest (by omega)
        have hhalf : (i + 1) / 2 = i / 2 := by omega
        rw [hhalf] at hone
        rw [splitLevels, List.length_cons]
        omega
    · rfl
  | case4 i j rest hpair ih =>
    left
    have hlater := div_lt_of_not_pair hsorted hpair j List.mem_cons_self
    have hone := hjoin i j rest (by omega)
    rcases ih (List.pairwise_cons.mp hsorted).2 with ih | hnil
    · rw [splitLevels, List.length_cons]
      omega
    · exact absurd hnil (List.cons_ne_nil j rest)

theorem parents_ne_nil {P : List ℕ} (h : P ≠ []) : parents P ≠ [] := by
  obtain ⟨i, rest, rfl⟩ := List.exists_cons_of_ne_nil h
  obtain ⟨tail, htail⟩ := parents_cons i rest
  rw [htail]
  exact List.cons_ne_nil _ _

theorem parents_lt {P : List ℕ} {depth : ℕ} (h : ∀ i ∈ P, i < 2 ^ (depth + 1)) : ∀ k ∈ parents P, k < 2 ^ depth := by
  intro k hk
  obtain ⟨i, hi, rfl⟩ := (mem_parents P).mp hk
  have := h i hi
  rw [pow_succ] at this
  omega

/-- The closed form of the count: the depth and the parting levels of neighbours, less one for each further leaf. -/
theorem missingCount_eq {P : List ℕ} {depth : ℕ} (hsorted : P.Pairwise (· < ·)) (hne : P ≠ [])
    (hlt : ∀ i ∈ P, i < 2 ^ depth) : missingCount depth P + P.length = depth + 1 + splitLevels P := by
  induction depth generalizing P with
  | zero =>
    obtain ⟨i, rest, rfl⟩ := List.exists_cons_of_ne_nil hne
    have hi := hlt i List.mem_cons_self
    cases rest with
    | nil => rfl
    | cons j rest =>
      have hj := hlt j (by simp)
      have hij := (List.pairwise_cons.mp hsorted).1 j List.mem_cons_self
      omega
  | succ depth ih =>
    have hcount := length_missing P
    have hlevels := (splitLevels_parents P hsorted).resolve_right hne
    have hrest := ih (parents_sorted P hsorted) (parents_ne_nil hne) (parents_lt hlt)
    rw [missingCount]
    omega

/-! ### Trees known along the opened paths -/

/-- The blocks `h` levels up that hold a listed block. -/
def ancestors : ℕ → List ℕ → List ℕ
  | 0, P => P
  | h + 1, P => ancestors h (parents P)

theorem mem_ancestors {h k : ℕ} {P : List ℕ} : k ∈ ancestors h P ↔ ∃ i ∈ P, i / 2 ^ h = k := by
  induction h generalizing P with
  | zero => simp [ancestors]
  | succ h ih =>
    rw [ancestors, ih]
    have hdiv : ∀ i, i / 2 / 2 ^ h = i / 2 ^ (h + 1) := fun i => by rw [Nat.div_div_eq_div_mul, ← pow_succ']
    constructor
    · rintro ⟨l, hl, rfl⟩
      obtain ⟨i, hi, rfl⟩ := (mem_parents P).mp hl
      exact ⟨i, hi, (hdiv i).symm⟩
    · rintro ⟨i, hi, rfl⟩
      exact ⟨i / 2, (mem_parents P).mpr ⟨i, hi, rfl⟩, hdiv i⟩

theorem ancestors_sorted (h : ℕ) {P : List ℕ} (hsorted : P.Pairwise (· < ·)) : (ancestors h P).Pairwise (· < ·) := by
  induction h generalizing P with
  | zero => exact hsorted
  | succ h ih => exact ih (parents_sorted P hsorted)

/-- The blocks of one height, of a tree of the given depth, that hold no listed leaf but whose sibling does. -/
def missingAt (depth : ℕ) (P : List ℕ) (h : ℕ) : List ℕ :=
  (List.range (2 ^ (depth - h))).filter fun i => sibling i ∈ P.map (· / 2 ^ h) ∧ i ∉ P.map (· / 2 ^ h)

theorem sibling_lt {i n : ℕ} (h : i < 2 ^ (n + 1)) : sibling i < 2 ^ (n + 1) := by
  have hdiv := sibling_div i
  rw [pow_succ] at h ⊢
  omega

/-- What a level consumes is what is missing at its height. -/
theorem missing_ancestors {depth h : ℕ} {P : List ℕ} (hsorted : P.Pairwise (· < ·)) (hlt : ∀ i ∈ P, i < 2 ^ depth)
    (hh : h < depth) : missing (ancestors h P) = missingAt depth P h := by
  have hleft := missing_sorted _ (ancestors_sorted h hsorted)
  have hright : (missingAt depth P h).Pairwise (· < ·) := List.Pairwise.filter _ List.pairwise_lt_range
  have hmap : ∀ k, k ∈ P.map (· / 2 ^ h) ↔ k ∈ ancestors h P := fun k => by
    rw [List.mem_map, mem_ancestors]
  obtain ⟨n, hn⟩ : ∃ n, depth - h = n + 1 := ⟨depth - h - 1, by omega⟩
  have hbound : ∀ k ∈ ancestors h P, k < 2 ^ (n + 1) := by
    intro k hk
    obtain ⟨i, hi, rfl⟩ := mem_ancestors.mp hk
    rw [Nat.div_lt_iff_lt_mul (Nat.two_pow_pos h), ← pow_add]
    have := hlt i hi
    rwa [show n + 1 + h = depth by omega]
  have hmem : ∀ k, k ∈ missing (ancestors h P) ↔ k ∈ missingAt depth P h := by
    intro k
    rw [mem_missing _ (ancestors_sorted h hsorted), missingAt, List.mem_filter, List.mem_range, decide_eq_true_iff, hmap,
      hmap, hn]
    constructor
    · rintro ⟨hsib, hnot⟩
      refine ⟨?_, hsib, hnot⟩
      rw [← sibling_sibling k]
      exact sibling_lt (hbound _ hsib)
    · exact fun ⟨_, hsib, hnot⟩ => ⟨hsib, hnot⟩
  have hperm : (missing (ancestors h P)).Perm (missingAt depth P h) :=
    (List.perm_ext_iff_of_nodup (hleft.imp ne_of_lt) (hright.imp ne_of_lt)).mpr hmem
  exact hperm.eq_of_pairwise (fun a b _ _ hab hba => absurd (hab.trans hba) (lt_irrefl a)) hleft hright

section
variable {D : Type*} (node : D → D → D)

/-- A binary hash tree that is known along the paths of some leaves: `digest h i` stands for the block `i` of height `h`,
and a block that holds one of the leaves is the hash of its two halves. Other blocks are known by their digest only. -/
structure OpenedTree (depth : ℕ) (P : List ℕ) where
  digest : ℕ → ℕ → D
  joins : ∀ h < depth, ∀ p ∈ P, digest (h + 1) (p / 2 ^ (h + 1)) =
    node (digest h (2 * (p / 2 ^ (h + 1)))) (digest h (2 * (p / 2 ^ (h + 1)) + 1))

namespace OpenedTree

variable {node} {depth : ℕ} {P : List ℕ}

def root (T : OpenedTree node depth P) : D := T.digest depth 0

/-- The digests that the opened leaves do not give, level by level and from left to right. -/
def siblings (T : OpenedTree node depth P) : List D :=
  (List.range depth).flatMap fun h => (missingAt depth P h).map (T.digest h)

/-- A tree that is known as a whole is known along any paths. -/
def ofLeaves (node : D → D → D) (depth : ℕ) (P : List ℕ) (f : ℕ → D) : OpenedTree node depth P :=
  ⟨MerkleTree.node node f, fun _ _ _ _ => rfl⟩

/-- What is above the first level. -/
def tail (T : OpenedTree node (depth + 1) P) : OpenedTree node depth (parents P) where
  digest h := T.digest (h + 1)
  joins := by
    intro h hh k hk
    obtain ⟨p, hp, rfl⟩ := (mem_parents P).mp hk
    rw [Nat.div_div_eq_div_mul, ← pow_succ']
    exact T.joins (h + 1) (by omega) p hp

/-- A level under a tree of its parents joins up with them when its own pairs do. -/
theorem joins_below (T : OpenedTree node depth (parents P)) (digest : ℕ → ℕ → D)
    (habove : ∀ h, digest (h + 1) = T.digest h)
    (hjoin : ∀ k ∈ parents P, T.digest 0 k = node (digest 0 (2 * k)) (digest 0 (2 * k + 1))) :
    ∀ h < depth + 1, ∀ p ∈ P, digest (h + 1) (p / 2 ^ (h + 1)) =
      node (digest h (2 * (p / 2 ^ (h + 1)))) (digest h (2 * (p / 2 ^ (h + 1)) + 1)) := by
  intro h hh p hp
  have hk : p / 2 ∈ parents P := (mem_parents P).mpr ⟨p, hp, rfl⟩
  cases h with
  | zero => simpa [habove] using hjoin (p / 2) hk
  | succ h =>
    have hjoins := T.joins h (by omega) (p / 2) hk
    rw [Nat.div_div_eq_div_mul, ← pow_succ'] at hjoins
    rwa [habove, habove]

/-- A first level under a tree of its parents. -/
def cons (g : ℕ → D) (T : OpenedTree node depth (parents P))
    (hjoin : ∀ k ∈ parents P, T.digest 0 k = node (g (2 * k)) (g (2 * k + 1))) : OpenedTree node (depth + 1) P where
  digest
    | 0 => g
    | h + 1 => T.digest h
  joins := joins_below T (fun h => match h with | 0 => g | h + 1 => T.digest h) (fun _ => rfl) hjoin

/-- The first level's siblings come first. -/
theorem siblings_succ (T : OpenedTree node (depth + 1) P) (hsorted : P.Pairwise (· < ·))
    (hlt : ∀ i ∈ P, i < 2 ^ (depth + 1)) : T.siblings = (missing P).map (T.digest 0) ++ T.tail.siblings := by
  rw [siblings, List.range_succ_eq_map, List.flatMap_cons, ← missing_ancestors hsorted hlt (Nat.succ_pos depth)]
  congr 1
  rw [siblings, List.flatMap_map]
  have hlevel : ∀ h ∈ List.range depth, missingAt (depth + 1) P (h + 1) = missingAt depth (parents P) h := by
    intro h hh
    have hh := List.mem_range.mp hh
    rw [← missing_ancestors hsorted hlt (by omega),
      ← missing_ancestors (parents_sorted P hsorted) (parents_lt hlt) hh]
    rfl
  apply List.flatMap_congr
  intro h hh
  show (missingAt (depth + 1) P (h + 1)).map (T.digest (h + 1)) = _
  rw [hlevel h hh]
  rfl

theorem length_siblings (T : OpenedTree node depth P) (hsorted : P.Pairwise (· < ·)) (hlt : ∀ i ∈ P, i < 2 ^ depth) :
    T.siblings.length = missingCount depth P := by
  induction depth generalizing P with
  | zero => rfl
  | succ depth ih =>
    rw [siblings_succ T hsorted hlt, List.length_append, List.length_map, missingCount,
      ih T.tail (parents_sorted P hsorted) (parents_lt hlt)]

/-! ### Two trees of one root -/

/-- The pairs of digests that are hashed along the opened paths. -/
def Hashes (T : OpenedTree node depth P) (a b : D) : Prop :=
  ∃ h < depth, ∃ p ∈ P, a = T.digest h (2 * (p / 2 ^ (h + 1))) ∧ b = T.digest h (2 * (p / 2 ^ (h + 1)) + 1)

/-- Two different pairs, one from the paths of each tree, with one hash. -/
def Collide (T T' : OpenedTree node depth P) : Prop :=
  ∃ a b c d, T.Hashes a b ∧ T'.Hashes c d ∧ (a, b) ≠ (c, d) ∧ node a b = node c d

/-- Trees that do not collide and agree on a block along the opened paths agree on both halves of it. -/
theorem halves_eq_of_block {T T' : OpenedTree node depth P} (hcollide : ¬ T.Collide T') {h p : ℕ} (hh : h < depth)
    (hp : p ∈ P) (hblock : T.digest (h + 1) (p / 2 ^ (h + 1)) = T'.digest (h + 1) (p / 2 ^ (h + 1))) :
    T.digest h (2 * (p / 2 ^ (h + 1))) = T'.digest h (2 * (p / 2 ^ (h + 1))) ∧
      T.digest h (2 * (p / 2 ^ (h + 1)) + 1) = T'.digest h (2 * (p / 2 ^ (h + 1)) + 1) := by
  rw [T.joins h hh p hp, T'.joins h hh p hp] at hblock
  by_contra hne
  rw [← Prod.mk.injEq] at hne
  exact hcollide ⟨_, _, _, _, ⟨h, hh, p, hp, rfl, rfl⟩, ⟨h, hh, p, hp, rfl, rfl⟩, hne, hblock⟩

/-- Unless two trees of one root collide, they agree on both halves of every block along the opened paths. -/
theorem halves_eq {T T' : OpenedTree node depth P} (hroot : T.root = T'.root) (hlt : ∀ p ∈ P, p < 2 ^ depth)
    (hcollide : ¬ T.Collide T') {h p : ℕ} (hh : h < depth) (hp : p ∈ P) :
    T.digest h (2 * (p / 2 ^ (h + 1))) = T'.digest h (2 * (p / 2 ^ (h + 1))) ∧
      T.digest h (2 * (p / 2 ^ (h + 1)) + 1) = T'.digest h (2 * (p / 2 ^ (h + 1)) + 1) := by
  apply halves_eq_of_block hcollide hh hp
  -- downwards from the root: a block on a path is a half of the block above it
  obtain ⟨n, hn⟩ : ∃ n, h + 1 + n = depth := ⟨depth - (h + 1), by omega⟩
  induction n generalizing h with
  | zero =>
    have hzero : p / 2 ^ (h + 1) = 0 := Nat.div_eq_of_lt (by rw [show h + 1 = depth by omega]; exact hlt p hp)
    rw [hzero, show h + 1 = depth by omega]
    exact hroot
  | succ n ih =>
    have habove := ih (h := h + 1) (by omega) (by omega)
    obtain ⟨hleft, hright⟩ := halves_eq_of_block hcollide (by omega) hp habove
    have hhalf : p / 2 ^ (h + 1 + 1) = p / 2 ^ (h + 1) / 2 := by rw [Nat.div_div_eq_div_mul, ← pow_succ]
    rw [hhalf] at hleft hright
    rcases Nat.mod_two_eq_zero_or_one (p / 2 ^ (h + 1)) with heven | hodd
    · rwa [show 2 * (p / 2 ^ (h + 1) / 2) = p / 2 ^ (h + 1) by omega] at hleft
    · rwa [show 2 * (p / 2 ^ (h + 1) / 2) + 1 = p / 2 ^ (h + 1) by omega] at hright

/-- Unless two trees of one root collide, they have the opened leaves in common. -/
theorem leaf_eq {T T' : OpenedTree node depth P} (hroot : T.root = T'.root) (hlt : ∀ p ∈ P, p < 2 ^ depth)
    (hcollide : ¬ T.Collide T') {p : ℕ} (hp : p ∈ P) : T.digest 0 p = T'.digest 0 p := by
  rcases Nat.eq_zero_or_pos depth with rfl | hdepth
  · have hzero : p = 0 := by simpa using hlt p hp
    rw [hzero]
    exact hroot
  · obtain ⟨hleft, hright⟩ := halves_eq hroot hlt hcollide hdepth hp
    rw [Nat.zero_add, pow_one] at hleft hright
    rcases Nat.mod_two_eq_zero_or_one p with heven | hodd
    · rwa [show 2 * (p / 2) = p by omega] at hleft
    · rwa [show 2 * (p / 2) + 1 = p by omega] at hright

/-- Unless two trees of one root collide, they have the missing siblings in common. -/
theorem siblings_eq {T T' : OpenedTree node depth P} (hroot : T.root = T'.root) (hlt : ∀ p ∈ P, p < 2 ^ depth)
    (hcollide : ¬ T.Collide T') : T.siblings = T'.siblings := by
  unfold siblings
  apply List.flatMap_congr
  intro h hh
  apply List.map_congr_left
  intro k hk
  have hk := (List.mem_filter.mp hk).2
  simp only [decide_eq_true_eq, List.mem_map] at hk
  obtain ⟨⟨p, hp, hsib⟩, -⟩ := hk
  obtain ⟨hleft, hright⟩ := halves_eq hroot hlt hcollide (List.mem_range.mp hh) hp
  have hhalf : p / 2 ^ (h + 1) = k / 2 := by
    rw [pow_succ, ← Nat.div_div_eq_div_mul, hsib, sibling_div]
  rw [hhalf] at hleft hright
  rcases Nat.mod_two_eq_zero_or_one k with heven | hodd
  · rwa [show 2 * (k / 2) = k by omega] at hleft
  · rwa [show 2 * (k / 2) + 1 = k by omega] at hright

end OpenedTree

end

/-- Values for the elements of a list without repetition are the values of a function. -/
theorem exists_map_eq {D : Type*} [Inhabited D] : ∀ {l : List ℕ} {v : List D}, l.Nodup → l.length = v.length →
    ∃ g : ℕ → D, l.map g = v
  | [], [], _, _ => ⟨fun _ => default, rfl⟩
  | i :: l, x :: v, hnodup, hlen => by
    obtain ⟨hi, hnodup⟩ := List.nodup_cons.mp hnodup
    obtain ⟨g, hg⟩ := exists_map_eq hnodup (by simpa using hlen)
    refine ⟨Function.update g i x, ?_⟩
    have hrest : l.map (Function.update g i x) = l.map g := by
      apply List.map_congr_left
      intro j hj
      exact Function.update_of_ne (ne_of_mem_of_not_mem hj hi) x g
    rw [List.map_cons, Function.update_self, hrest, hg]

end Aspis.Lib.Openings
