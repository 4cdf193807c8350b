import Aspis.Core.Transcript

/-! Query positions with and without replacement. Both samplers mask the words of the
block stream. While no position repeats they push the same positions; they differ in
when they stop: the one with replacement stops at the end of the block that gives the
last position, the other one looks at a further block before it sees that it is done. -/

namespace Aspis.Core

open Aspis.Lib

section
variable {count maxDraws : ℕ} {mask : UInt32}

theorem pushWords_eq {words out : List UInt32} (h : out.length ≤ count) :
    pushWords count mask words out = (out ++ words.map (· &&& mask)).take count := by
  induction words generalizing out with
  | nil => rw [pushWords, List.map_nil, List.append_nil, List.take_of_length_le h]
  | cons word words ih =>
    rw [pushWords]
    split_ifs with hfull
    · rw [← hfull, List.take_left]
    · rw [ih (by rw [List.length_append, List.length_singleton]; omega), List.append_assoc]
      rfl

/-- Words that stay different are all pushed, up to the last position wanted; a block that has words beyond it is
left in the middle. -/
theorem pushDistinct_eq {words out : List UInt32} (h : out.length ≤ count) (hmax : count ≤ maxDraws)
    (hnodup : ((out ++ words.map (· &&& mask)).take count).Nodup) :
    pushDistinct count maxDraws mask words out out.length =
      if out.length + words.length ≤ count then (out ++ words.map (· &&& mask), out.length + words.length, false)
      else ((out ++ words.map (· &&& mask)).take count, count, true) := by
  induction words generalizing out with
  | nil =>
    rw [List.map_nil, List.append_nil, List.length_nil, Nat.add_zero, if_pos h]
    rfl
  | cons word words ih =>
    rw [pushDistinct]
    by_cases hfull : out.length = count
    · rw [if_pos (Or.inl hfull), if_neg (by rw [List.length_cons]; omega), ← hfull, List.take_left]
    · have hgrown : (out ++ [word &&& mask]).length = out.length + 1 := by
        rw [List.length_append, List.length_singleton]
      have hsplit : out ++ (word :: words).map (· &&& mask) = (out ++ [word &&& mask]) ++ words.map (· &&& mask) := by
        rw [List.append_assoc]
        rfl
      rw [hsplit] at hnodup
      -- the candidate is new, as the pushed positions and it are among the first `count`
      have hnew : word &&& mask ∉ out := by
        have hfront : (out ++ [word &&& mask]).Nodup := by
          rw [List.take_append, List.take_of_length_le (by omega)] at hnodup
          exact (List.nodup_append.mp hnodup).1
        intro hmem
        exact (List.nodup_append.mp hfront).2.2 _ hmem _ (List.mem_singleton.mpr rfl) rfl
      have hrest := ih (by omega) hnodup
      rw [hgrown] at hrest
      rw [if_neg (by omega), hsplit]
      simp only [if_neg hnew, hrest, List.length_cons]
      rw [Nat.add_assoc, Nat.add_comm 1]

end

namespace Transcript

/-- The position that the word `i` of the block stream gives. -/
def candidate (t : Transcript) (bound : UInt32) (i : ℕ) : UInt32 :=
  blockWord (t.blockAt (i / 8)) (i % 8) &&& (bound - 1)

variable {t : Transcript} {bound : UInt32} {count maxDraws : ℕ}

theorem map_blockWords (n : ℕ) : (blockWords (t.blockAt n)).map (· &&& (bound - 1)) =
    (List.range 8).map fun j => t.candidate bound (8 * n + j) := by
  rw [blockWords, List.map_map]
  apply List.map_congr_left
  intro j hj
  have hj := List.mem_range.mp hj
  rw [candidate, show (8 * n + j) / 8 = n by omega, show (8 * n + j) % 8 = j by omega]
  rfl

theorem map_candidate_add (m : ℕ) : (List.range (8 * m)).map (t.candidate bound) ++
    (blockWords (t.blockAt m)).map (· &&& (bound - 1)) = (List.range (8 * (m + 1))).map (t.candidate bound) := by
  rw [map_blockWords, Nat.mul_succ, List.range_add, List.map_append, List.map_map]
  rfl

theorem take_map_candidate {n : ℕ} (h : count ≤ n) : ((List.range n).map (t.candidate bound)).take count =
    (List.range count).map (t.candidate bound) := by
  rw [← List.map_take, List.take_range, Nat.min_eq_left h]

/-- The sampler with replacement takes the first positions of the stream and no block beyond them. -/
theorem queryBlocks_eq {fuel m : ℕ} (hm : 8 * m ≤ count) (hstart : m = 0 ∨ 8 * m < count) (hfuel : count + 1 ≤ fuel + m) :
    queryBlocks t.blocks count (bound - 1) fuel ((List.range (8 * m)).map (t.candidate bound)) m =
      ((List.range count).map (t.candidate bound), max 1 ((count + 7) / 8)) := by
  induction fuel generalizing m with
  | zero => omega
  | succ fuel ih =>
    have hpush : pushWords count (bound - 1) (blockWords (t.blocks m).1) ((List.range (8 * m)).map (t.candidate bound)) =
        ((List.range (8 * (m + 1))).map (t.candidate bound)).take count := by
      rw [pushWords_eq (by simpa using hm), blocks, map_candidate_add]
    rw [queryBlocks]
    simp only [hpush]
    by_cases hlast : count ≤ 8 * (m + 1)
    · rw [take_map_candidate hlast, if_pos (by simp)]
      congr 1
      show m + 1 = _
      omega
    · rw [List.take_of_length_le (by simp; omega), if_neg (by simp; omega)]
      exact ih (by omega) (Or.inr (by omega)) (by omega)

/-- The sampler without replacement takes the same positions while they are different, and one more block when they
fill their blocks and draws are left. -/
theorem distinctBlocks_eq {fuel m : ℕ} (hdistinct : ((List.range count).map (t.candidate bound)).Nodup)
    (hmax : count ≤ maxDraws) (hm : 8 * m ≤ count) (hfuel : maxDraws + 1 ≤ fuel + m) :
    distinctBlocks t.blocks count maxDraws (bound - 1) fuel ((List.range (8 * m)).map (t.candidate bound)) (8 * m) m =
      ((List.range count).map (t.candidate bound),
        if count % 8 = 0 ∧ maxDraws = count then count / 8 else count / 8 + 1) := by
  induction fuel generalizing m with
  | zero => omega
  | succ fuel ih =>
    rw [distinctBlocks]
    by_cases hleft : 8 * m < maxDraws
    · have hlen : ((List.range (8 * m)).map (t.candidate bound)).length = 8 * m := by simp
      have hfront : (((List.range (8 * (m + 1))).map (t.candidate bound)).take count).Nodup := by
        by_cases hlast : count ≤ 8 * (m + 1)
        · rwa [take_map_candidate hlast]
        · rw [← take_map_candidate (show 8 * (m + 1) ≤ count by omega)]
          exact (hdistinct.sublist (List.take_sublist _ _)).sublist (List.take_sublist _ _)
      have hpush : pushDistinct count maxDraws (bound - 1) (blockWords (t.blockAt m))
          ((List.range (8 * m)).map (t.candidate bound)) (8 * m) =
          if 8 * (m + 1) ≤ count then ((List.range (8 * (m + 1))).map (t.candidate bound), 8 * (m + 1), false)
          else (((List.range (8 * (m + 1))).map (t.candidate bound)).take count, count, true) := by
        have heq := pushDistinct_eq (by rw [hlen]; exact hm) hmax (by rw [map_candidate_add]; exact hfront)
        rwa [map_candidate_add, hlen, show (blockWords (t.blockAt m)).length = 8 by simp [blockWords]] at heq
      rw [if_pos hleft, blocks]
      simp only [hpush]
      by_cases hmore : 8 * (m + 1) ≤ count
      · rw [if_pos hmore]
        exact ih hmore (by omega)
      · rw [if_neg hmore, take_map_candidate (by omega), if_neg (by omega), show m = count / 8 by omega]
    · rw [if_neg hleft, if_pos (by omega), show 8 * m = count by omega, show m = count / 8 by omega]

/-- What the sampler with replacement returns and the transcript it leaves. -/
theorem challengeQueries_eq : t.challengeQueries count bound =
    ((List.range count).map (t.candidate bound), advance^[max 1 ((count + 7) / 8)] t) := by
  have hrun := queryBlocks_follows t.follows_blocks count (bound - 1) (count + 1) [] 0
  have heq : queryBlocks t.blocks count (bound - 1) (count + 1) [] 0 = _ :=
    queryBlocks_eq (m := 0) (Nat.zero_le count) (Or.inl rfl) (by omega)
  rw [heq] at hrun
  exact hrun

theorem challengeQueriesWithoutReplacement_eq (hbound : isPowerOfTwo bound = true) (hcount : count ≤ bound.toNat)
    (hmax : count ≤ maxDraws) (hdistinct : ((List.range count).map (t.candidate bound)).Nodup) :
    t.challengeQueriesWithoutReplacement count bound maxDraws = (.ok ((List.range count).map (t.candidate bound)),
      advance^[if count % 8 = 0 ∧ (count = 0 ∨ maxDraws = count) then count / 8 else count / 8 + 1] t) := by
  have hrun := distinctBlocks_follows t.follows_blocks count maxDraws (bound - 1) (maxDraws + 1) [] 0 0
  have heq : distinctBlocks t.blocks count maxDraws (bound - 1) (maxDraws + 1) [] 0 0 = _ :=
    distinctBlocks_eq (m := 0) hdistinct hmax (Nat.zero_le count) (by omega)
  rw [heq] at hrun
  unfold challengeQueriesWithoutReplacement Core.challengeQueriesWithoutReplacement
  rw [if_neg (by simpa using hbound), if_neg (by omega)]
  by_cases hzero : count = 0
  · subst hzero
    rfl
  · change distinctBlocks squeezeBlock count maxDraws (bound - 1) (maxDraws + 1) [] 0 t = _ at hrun
    rw [if_neg hzero, hrun]
    simp [hzero]

/-- Where the first positions of the stream are different, both samplers return them; they leave the same transcript
when the positions end inside a block, when the draws end with the positions, or when the transcript they would part
at is one that squeezing leaves as it is. -/
theorem samplers_agree_iff (t : Transcript) (count : ℕ) (bound : UInt32) (maxDraws : ℕ) (hbound : isPowerOfTwo bound = true)
    (hcount : count ≤ bound.toNat) (hmax : count ≤ maxDraws)
    (hdistinct : ((List.range count).map (t.candidate bound)).Nodup) :
    ((t.challengeQueriesWithoutReplacement count bound maxDraws).1 = .ok (t.challengeQueries count bound).1 ∧
      (t.challengeQueriesWithoutReplacement count bound maxDraws).2 = (t.challengeQueries count bound).2) ↔
      count % 8 ≠ 0 ∨ (count ≠ 0 ∧ maxDraws = count) ∨
        (advance^[count / 8] t).advance = advance^[count / 8] t := by
  rw [challengeQueries_eq, challengeQueriesWithoutReplacement_eq hbound hcount hmax hdistinct]
  simp only [true_and]
  rw [← Function.iterate_succ_apply' advance]
  by_cases hblock : count % 8 = 0
  · by_cases hzero : count = 0
    · subst hzero
      simp [eq_comm]
    · have hblocks : max 1 ((count + 7) / 8) = count / 8 := by omega
      rw [hblocks]
      by_cases hlast : maxDraws = count
      · simp [hblock, hzero, hlast]
      · simp [hblock, hzero, hlast]
  · have hblocks : max 1 ((count + 7) / 8) = count / 8 + 1 := by omega
    rw [hblocks]
    simp [hblock]

/-- A hash whose blocks hold the words 0 to 7, apart from a last byte that adds up what was hashed. -/
def countingHash : HashFn := .ofBytes fun input =>
  ⟨(List.range 31).map (fun i => if i % 4 = 0 then UInt8.ofNat (i / 4) else 0) ++ [input.foldl (· + ·) 0], by simp⟩

/-- Three positions end inside the first block. -/
theorem samplers_agree_three :
    ((new countingHash).challengeQueriesWithoutReplacement 3 8 64).1 = .ok ((new countingHash).challengeQueries 3 8).1 ∧
      ((new countingHash).challengeQueriesWithoutReplacement 3 8 64).2 = ((new countingHash).challengeQueries 3 8).2 :=
  (samplers_agree_iff (new countingHash) 3 8 64 (by decide) (by decide) (by decide) (by decide +kernel)).mpr
    (Or.inl (by decide))

/-- Eight positions fill the first block: with draws left, the sampler without replacement squeezes a second one. -/
theorem samplers_differ_eight :
    ¬ ∀ (t : Transcript) (count : ℕ) (bound : UInt32) (maxDraws : ℕ), isPowerOfTwo bound = true →
      count ≤ bound.toNat → count ≤ maxDraws → ((List.range count).map (t.candidate bound)).Nodup →
      (t.challengeQueriesWithoutReplacement count bound maxDraws).1 = .ok (t.challengeQueries count bound).1 ∧
        (t.challengeQueriesWithoutReplacement count bound maxDraws).2 = (t.challengeQueries count bound).2 := by
  intro h
  have hsame := (h (new countingHash) 8 8 64 (by decide) (by decide) (by decide) (by decide +kernel)).2
  have hstate : ((new countingHash).challengeQueriesWithoutReplacement 8 8 64).2.state.1 ≠
      ((new countingHash).challengeQueries 8 8).2.state.1 := by decide +kernel
  exact hstate (by rw [hsame])

end Transcript

end Aspis.Core
