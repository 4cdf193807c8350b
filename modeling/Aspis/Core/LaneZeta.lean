import Aspis.Core.FieldTower
import Aspis.Lib.Accumulate
import Aspis.Lib.SubsetSum
import Aspis.Lib.PowerSum
import Aspis.Lib.Exec

/-! The lane tables: the in-place subset transform over base words and its inverse, the two evaluators
over the extension, and the split restriction of the two stages. -/

namespace Aspis.Core

open Aspis.Lib.SubsetSum Aspis.Lib.Accumulate Aspis.Lib.PowerSum

inductive ZetaError
  | emptyTable
  | lengthNotPowerOfTwo
  | dimensionMismatch
  deriving DecidableEq, Repr

def STAGE_A_SOURCE_LANES : ℕ := 26
def STAGE_A_LANE_VARIABLES : ℕ := 5
def STAGE_A_PADDED_LANES : ℕ := 2 ^ STAGE_A_LANE_VARIABLES
def STAGE_B_QM31_LANES : ℕ := 3
def QM31_LIMBS : ℕ := 4
def STAGE_B_LANE_VARIABLES : ℕ := 4
def STAGE_B_PADDED_LANES : ℕ := 2 ^ STAGE_B_LANE_VARIABLES
def STAGE_B_OUTER_GAMMA_POWER : UInt64 := UInt64.ofNat STAGE_A_SOURCE_LANES

def QM31_I : QM31 := ⟨⟨M31.zero, M31.one⟩, CM31.zero⟩

def QM31_U : QM31 := ⟨CM31.zero, CM31.one⟩

def qm31Limbs (value : QM31) : List M31 := [value.c0.a, value.c0.b, value.c1.a, value.c1.b]

def liftM31 (value : M31) : QM31 := QM31.fromCm31 (CM31.fromM31 value)

def validatePowerOfTwoLength (length : ℕ) : Except ZetaError Unit :=
  if length = 0 then .error .emptyTable
  else if 2 ^ Nat.log2 length ≠ length then .error .lengthNotPowerOfTwo
  else .ok ()

/-- One bit level, from the first entry to the last. -/
def levelInPlace (op : M31 → M31 → M31) (bit : ℕ) (table : List M31) : List M31 :=
  (List.range table.length).foldl (fun table mask =>
    if mask &&& bit ≠ 0 then table.set mask (op (table.getD mask M31.zero) (table.getD (mask ^^^ bit) M31.zero))
    else table) table

/-- The levels from a bit on; the bit doubles, so that there are fewer levels than entries. -/
def levelsInPlace (op : M31 → M31 → M31) : ℕ → ℕ → List M31 → List M31
  | 0, _, table => table
  | fuel + 1, bit, table =>
    if bit < table.length then levelsInPlace op fuel (bit * 2) (levelInPlace op bit table) else table

def zetaInPlaceM31 (table : List M31) : Except ZetaError (List M31) := do
  validatePowerOfTwoLength table.length
  return levelsInPlace M31.add table.length 1 table

def mobiusInPlaceM31 (table : List M31) : Except ZetaError (List M31) := do
  validatePowerOfTwoLength table.length
  return levelsInPlace M31.sub table.length 1 table

/-- The length for a dimension, which is read as a 32-bit shift of a 64-bit word. -/
def expectedTableLength (dimension : ℕ) : Except ZetaError ℕ :=
  if 64 ≤ dimension % 2 ^ 32 then .error .dimensionMismatch else .ok (2 ^ (dimension % 2 ^ 32))

/-- One coordinate: the pairs of entries are folded to the front. -/
def foldCoordinate (coordinate : QM31) (half : ℕ) (scratch : List QM31) : List QM31 :=
  (List.range half).foldl (fun scratch pair =>
    let low := scratch.getD (2 * pair) QM31.zero
    let high := scratch.getD (2 * pair + 1) QM31.zero
    scratch.set pair (low.add (coordinate.mul (high.sub low)))) scratch

def evaluateMleZeta (table : List M31) (point : List QM31) : Except ZetaError QM31 := do
  validatePowerOfTwoLength table.length
  let expected ← expectedTableLength point.length
  if expected ≠ table.length then .error .dimensionMismatch
  else
    let last := point.foldl (fun (state : List QM31 × ℕ) coordinate =>
      (foldCoordinate coordinate (state.2 / 2) state.1, state.2 / 2)) (table.map liftM31, table.length)
    .ok (last.1.getD 0 QM31.zero)

/-- Each coefficient times the coordinates of the bits of its index; a shift takes its amount modulo the word size. -/
def evaluateMonomialCoefficients (coefficients : List M31) (point : List QM31) : Except ZetaError QM31 := do
  validatePowerOfTwoLength coefficients.length
  let expected ← expectedTableLength point.length
  if expected ≠ coefficients.length then .error .dimensionMismatch
  else
    .ok (coefficients.zipIdx.foldl (fun result entry =>
      result.add (point.zipIdx.foldl (fun term coordinate =>
        if entry.2 &&& 2 ^ (coordinate.2 % 64) ≠ 0 then term.mul coordinate.1 else term) (liftM31 entry.1))) QM31.zero)

/-! ### The two stages -/

def stageACoefficients (source : Vector M31 26) : List M31 :=
  source.toList ++ List.replicate (STAGE_A_PADDED_LANES - STAGE_A_SOURCE_LANES) M31.zero

def stageAZetaTable (source : Vector M31 26) : Option (List M31) := (zetaInPlaceM31 (stageACoefficients source)).toOption

/-- The limbs of the three lanes: the limb in the low two bits of the index, the lane in the high two. -/
def stageBCoefficients (source : Vector QM31 3) : List M31 :=
  source.toList.flatMap qm31Limbs ++
    List.replicate (STAGE_B_PADDED_LANES - STAGE_B_QM31_LANES * QM31_LIMBS) M31.zero

def stageBZetaTable (source : Vector QM31 3) : Option (List M31) := (zetaInPlaceM31 (stageBCoefficients source)).toOption

def stageALanePoint (gamma : QM31) : List QM31 :=
  let gamma2 := gamma.square
  let gamma4 := gamma2.square
  let gamma8 := gamma4.square
  [gamma, gamma2, gamma4, gamma8, gamma8.square]

def stageBLanePoint (gamma : QM31) : List QM31 := [QM31_I, QM31_U, gamma, gamma.square]

def stageARestriction (table : List M31) (gamma : QM31) : Option QM31 :=
  (evaluateMleZeta table (stageALanePoint gamma)).toOption

def stageBRestriction (table : List M31) (gamma : QM31) : Option QM31 :=
  (evaluateMleZeta table (stageBLanePoint gamma)).toOption

def splitTensorRestriction (stageATable stageBTable : List M31) (gamma : QM31) : Option QM31 := do
  let first ← stageARestriction stageATable gamma
  let second ← stageBRestriction stageBTable gamma
  return first.add ((gamma.pow STAGE_B_OUTER_GAMMA_POWER).mul second)

/-- The lanes of both stages times the powers of the challenge. -/
def width29Batch (stageASource : Vector M31 26) (stageBSource : Vector QM31 3) (gamma : QM31) : QM31 :=
  let base := stageASource.toList.foldl (fun (state : QM31 × QM31) lane =>
    (state.1.add (state.2.mulM31 lane), state.2.mul gamma)) (QM31.zero, QM31.one)
  (stageBSource.toList.foldl (fun (state : QM31 × QM31) lane =>
    (state.1.add (state.2.mul lane), state.2.mul gamma)) base).1

/-! ### The transforms -/

section Tables
variable {α G : Type*} {R : α → G → Prop} {d : α}

/-- The first entries of a table stand for the values of a function. -/
def Holds (R : α → G → Prop) (d : α) (n : ℕ) (table : List α) (f : ℕ → G) : Prop :=
  n ≤ table.length ∧ ∀ i < n, R (table.getD i d) (f i)

theorem getD_set {table : List α} {i : ℕ} (hi : i < table.length) (x : α) (j : ℕ) :
    (table.set i x).getD j d = if j = i then x else table.getD j d := by
  rw [List.getD_eq_getElem?_getD, List.getElem?_set, List.getD_eq_getElem?_getD]
  by_cases h : i = j
  · rw [if_pos h, if_pos hi, if_pos h.symm, Option.getD_some]
  · rw [if_neg h, if_neg fun hj => h hj.symm]

theorem Holds.set {n i : ℕ} {table : List α} {f g : ℕ → G} {x : α} (h : Holds R d n table f) (hi : i < n) (hx : R x (g i))
    (hother : ∀ j < n, j ≠ i → g j = f j) : Holds R d n (table.set i x) g := by
  refine ⟨by rw [List.length_set]; exact h.1, fun j hj => ?_⟩
  rw [getD_set (lt_of_lt_of_le hi h.1)]
  by_cases heq : j = i
  · rw [if_pos heq, heq]
    exact hx
  · rw [if_neg heq, hother j hj heq]
    exact h.2 j hj

theorem Holds.congr {n : ℕ} {table : List α} {f g : ℕ → G} (h : Holds R d n table f) (hfg : ∀ i < n, f i = g i) :
    Holds R d n table g := by
  refine ⟨h.1, fun i hi => ?_⟩
  rw [← hfg i hi]
  exact h.2 i hi

end Tables

theorem levelInPlace_length (op : M31 → M31 → M31) (bit : ℕ) (table : List M31) :
    (levelInPlace op bit table).length = table.length := by
  unfold levelInPlace
  refine foldl_range_invariant (fun _ (t : List M31) => t.length = table.length) rfl _ fun j _ t ht => ?_
  split
  · rw [List.length_set, ht]
  · exact ht

section Level
variable {op : M31 → M31 → M31} {gop : BaseField → BaseField → BaseField} {lev : ℕ → (ℕ → BaseField) → ℕ → BaseField}

/-- One pass over the table is one level: the entry it reads lies lower and has not the bit, so it is still the old one. -/
theorem levelInPlace_denotes
    (hop : ∀ {x y : M31} {v w : BaseField}, x.Denotes v → y.Denotes w → (op x y).Denotes (gop v w))
    (hlev : ∀ k f m, lev k f m = if m.testBit k then gop (f m) (f (m - 2 ^ k)) else f m)
    {table : List M31} {f : ℕ → BaseField} (h : Holds M31.Denotes M31.zero table.length table f) (k : ℕ) :
    Holds M31.Denotes M31.zero table.length (levelInPlace op (2 ^ k) table) (lev k f) := by
  have hpass : Holds M31.Denotes M31.zero table.length (levelInPlace op (2 ^ k) table)
      fun i => if i < table.length then lev k f i else f i := by
    unfold levelInPlace
    refine foldl_range_invariant (fun j t => Holds M31.Denotes M31.zero table.length t fun i => if i < j then lev k f i else f i)
      (h.congr fun i _ => (if_neg (by omega)).symm) _ fun j hj t ht => ?_
    have hother : ∀ i < table.length, i ≠ j → (if i < j + 1 then lev k f i else f i) = if i < j then lev k f i else f i := by
      intro i _ hne
      by_cases hij : i < j
      · rw [if_pos hij, if_pos (by omega)]
      · rw [if_neg hij, if_neg (by omega)]
    by_cases hbit : j.testBit k = true
    · have hle := Nat.ge_two_pow_of_testBit hbit
      have hpow : 0 < 2 ^ k := Nat.two_pow_pos k
      rw [if_pos (and_two_pow_ne_zero.mpr hbit), xor_two_pow_of_testBit hbit]
      refine ht.set hj ?_ hother
      have hhigh := ht.2 j hj
      have hlow := ht.2 (j - 2 ^ k) (by omega)
      beta_reduce at hhigh hlow ⊢
      rw [if_neg (lt_irrefl j)] at hhigh
      rw [if_pos (show j - 2 ^ k < j by omega), hlev, testBit_sub_two_pow hbit, if_neg Bool.false_ne_true] at hlow
      rw [if_pos (Nat.lt_succ_self j), hlev, if_pos hbit]
      exact hop hhigh hlow
    · rw [if_neg fun hne => hbit (and_two_pow_ne_zero.mp hne)]
      refine ht.congr fun i hi => ?_
      by_cases hij : i = j
      · rw [hij, if_neg (lt_irrefl j), if_pos (Nat.lt_succ_self j), hlev, if_neg hbit]
      · exact (hother i hi hij).symm
  exact hpass.congr fun i hi => if_pos hi

theorem levelsInPlace_length (op : M31 → M31 → M31) : ∀ (fuel bit : ℕ) (table : List M31),
    (levelsInPlace op fuel bit table).length = table.length
  | 0, _, _ => rfl
  | fuel + 1, bit, table => by
    rw [levelsInPlace]
    split
    · rw [levelsInPlace_length, levelInPlace_length]
    · rfl

theorem levelsInPlace_denotes
    (hop : ∀ {x y : M31} {v w : BaseField}, x.Denotes v → y.Denotes w → (op x y).Denotes (gop v w))
    (hlev : ∀ k f m, lev k f m = if m.testBit k then gop (f m) (f (m - 2 ^ k)) else f m) {n : ℕ} :
    ∀ (fuel k : ℕ) {table : List M31} {f : ℕ → BaseField}, n ≤ k + fuel → table.length = 2 ^ n →
      Holds M31.Denotes M31.zero table.length table f →
      Holds M31.Denotes M31.zero table.length (levelsInPlace op fuel (2 ^ k) table)
        ((List.range' k (n - k)).foldl (fun f k => lev k f) f)
  | 0, k, table, f, hfuel, _, h => by
    rw [show n - k = 0 by omega]
    exact h
  | fuel + 1, k, table, f, hfuel, hlen, h => by
    rw [levelsInPlace, hlen]
    by_cases hk : k < n
    · rw [if_pos (Nat.pow_lt_pow_right (by decide) hk), ← pow_succ, ← hlen,
        show n - k = (n - (k + 1)) + 1 by omega, List.range'_succ, List.foldl_cons]
      have hnext := levelInPlace_denotes hop hlev h k
      have hlength := levelInPlace_length op (2 ^ k) table
      rw [← hlength] at hnext ⊢
      exact levelsInPlace_denotes hop hlev fuel (k + 1) (by omega) (hlength.trans hlen) hnext
    · rw [if_neg (by rw [Nat.pow_lt_pow_iff_right (by decide)]; exact hk), show n - k = 0 by omega, ← hlen]
      exact h

/-- The loop runs the levels of every bit: it has more turns left than there are bits. -/
theorem allLevels_denotes
    (hop : ∀ {x y : M31} {v w : BaseField}, x.Denotes v → y.Denotes w → (op x y).Denotes (gop v w))
    (hlev : ∀ k f m, lev k f m = if m.testBit k then gop (f m) (f (m - 2 ^ k)) else f m) {n : ℕ} {table : List M31}
    {f : ℕ → BaseField} (hlen : table.length = 2 ^ n) (h : Holds M31.Denotes M31.zero table.length table f) :
    Holds M31.Denotes M31.zero (2 ^ n) (levelsInPlace op table.length 1 table)
      ((List.range n).foldl (fun f k => lev k f) f) := by
  have hfuel : n ≤ 0 + table.length := by
    have hlt := @Nat.lt_two_pow_self n
    omega
  have hlevels := levelsInPlace_denotes hop hlev table.length 0 hfuel hlen h
  rw [Nat.sub_zero, ← List.range_eq_range', pow_zero, hlen] at hlevels
  rw [hlen]
  exact hlevels

end Level

theorem validatePowerOfTwoLength_pow (n : ℕ) : validatePowerOfTwoLength (2 ^ n) = .ok () := by
  rw [validatePowerOfTwoLength, if_neg (Nat.two_pow_pos n).ne', Nat.log2_two_pow, if_neg fun hne => hne rfl]

/-- The values of the words of a table. -/
def entries (table : List M31) (i : ℕ) : BaseField := (table.getD i M31.zero).value

theorem holds_entries {table : List M31} (h : ∀ x ∈ table, x.Canonical) :
    Holds M31.Denotes M31.zero table.length table (entries table) := by
  refine ⟨le_rfl, fun i hi => ?_⟩
  rw [entries, List.getD_eq_getElem _ _ hi]
  exact (h _ (List.getElem_mem hi)).denotes

theorem eq_of_holds {table table' : List M31} {f : ℕ → BaseField} (hlen : table.length = table'.length)
    (h : Holds M31.Denotes M31.zero table.length table f) (h' : Holds M31.Denotes M31.zero table.length table' f) :
    table = table' := by
  apply List.ext_getElem hlen
  intro i hi hi'
  have hleft := h.2 i hi
  have hright := h'.2 i hi
  rw [List.getD_eq_getElem _ _ hi] at hleft
  rw [List.getD_eq_getElem _ _ hi'] at hright
  exact hleft.eq hright

theorem zetaInPlaceM31_denotes {table : List M31} {f : ℕ → BaseField} {n : ℕ} (hlen : table.length = 2 ^ n)
    (h : Holds M31.Denotes M31.zero table.length table f) :
    ∃ transformed, zetaInPlaceM31 table = .ok transformed ∧ transformed.length = 2 ^ n ∧
      Holds M31.Denotes M31.zero (2 ^ n) transformed (levels n f) := by
  refine ⟨levelsInPlace M31.add table.length 1 table, ?_, (levelsInPlace_length _ _ _ _).trans hlen,
    allLevels_denotes (fun hx hy => hx.add hy) (fun _ _ _ => rfl) hlen h⟩
  rw [zetaInPlaceM31, hlen, validatePowerOfTwoLength_pow]
  rfl

theorem mobiusInPlaceM31_denotes {table : List M31} {f : ℕ → BaseField} {n : ℕ} (hlen : table.length = 2 ^ n)
    (h : Holds M31.Denotes M31.zero table.length table f) :
    ∃ restored, mobiusInPlaceM31 table = .ok restored ∧ restored.length = 2 ^ n ∧
      Holds M31.Denotes M31.zero (2 ^ n) restored (unlevels n f) := by
  refine ⟨levelsInPlace M31.sub table.length 1 table, ?_, (levelsInPlace_length _ _ _ _).trans hlen,
    allLevels_denotes (fun hx hy => hx.sub hy) (fun _ _ _ => rfl) hlen h⟩
  rw [mobiusInPlaceM31, hlen, validatePowerOfTwoLength_pow]
  rfl

/-- The inverse transform returns the table. -/
theorem mobius_of_holds {table transformed : List M31} {f : ℕ → BaseField} {n : ℕ} (hlen : table.length = 2 ^ n)
    (h : Holds M31.Denotes M31.zero table.length table f) (hlen' : transformed.length = 2 ^ n)
    (h' : Holds M31.Denotes M31.zero (2 ^ n) transformed (levels n f)) : mobiusInPlaceM31 transformed = .ok table := by
  rw [← hlen'] at h'
  obtain ⟨restored, hok, hrestored, hholds⟩ := mobiusInPlaceM31_denotes hlen' h'
  have hback := hholds.congr fun m hm => unlevels_levels n f (levels n f) (fun _ _ => rfl) m hm
  rw [← hlen] at hback
  rw [hok, eq_of_holds (hlen.trans hrestored.symm) h hback]

/-! ### The evaluators -/

theorem liftM31_denotes {x : M31} {v : BaseField} (h : x.Denotes v) : (liftM31 x).Denotes (lift v) := denotes_lift h

/-- The pairs are folded to the front: a pair lies at or above the entry it is folded to. -/
theorem foldCoordinate_denotes {scratch : List QM31} {f : ℕ → QuarticField} {coordinate : QM31} {x : QuarticField} {half : ℕ}
    (hx : coordinate.Denotes x) (h : Holds QM31.Denotes QM31.zero (2 * half) scratch f) :
    Holds QM31.Denotes QM31.zero half (foldCoordinate coordinate half scratch)
      fun i => f (2 * i) + x * (f (2 * i + 1) - f (2 * i)) := by
  have hpass : Holds QM31.Denotes QM31.zero (2 * half) (foldCoordinate coordinate half scratch)
      fun i => if i < half then f (2 * i) + x * (f (2 * i + 1) - f (2 * i)) else f i := by
    unfold foldCoordinate
    refine foldl_range_invariant (fun j t => Holds QM31.Denotes QM31.zero (2 * half) t
      fun i => if i < j then f (2 * i) + x * (f (2 * i + 1) - f (2 * i)) else f i)
      (h.congr fun i _ => (if_neg (by omega)).symm) _ fun j hj t ht => ?_
    have hlow := ht.2 (2 * j) (by omega)
    have hhigh := ht.2 (2 * j + 1) (by omega)
    beta_reduce at hlow hhigh
    rw [if_neg (by omega)] at hlow hhigh
    refine ht.set (by omega) ?_ fun i _ hne => ?_
    · rw [if_pos (Nat.lt_succ_self j)]
      exact hlow.add (hx.mul (hhigh.sub hlow))
    · by_cases hij : i < j
      · rw [if_pos hij, if_pos (by omega)]
      · rw [if_neg hij, if_neg (by omega)]
  refine ⟨by have hle := hpass.1; omega, fun i hi => ?_⟩
  have hentry := hpass.2 i (by omega)
  beta_reduce at hentry
  rwa [if_pos hi] at hentry

/-- The coordinates one by one give the multilinear extension. -/
theorem foldCoordinates_denotes : ∀ (point : List QM31) {scratch : List QM31} {f : ℕ → QuarticField},
    (∀ x ∈ point, x.Canonical) → Holds QM31.Denotes QM31.zero (2 ^ point.length) scratch f →
    ((point.foldl (fun (state : List QM31 × ℕ) coordinate =>
      (foldCoordinate coordinate (state.2 / 2) state.1, state.2 / 2)) (scratch, 2 ^ point.length)).1.getD 0 QM31.zero).Denotes
      (extend (point.map QM31.value) f)
  | [], scratch, f, _, h => h.2 0 (by simp)
  | coordinate :: point, scratch, f, hpoint, h => by
    have hdouble : 2 ^ (coordinate :: point).length = 2 * 2 ^ point.length := by rw [List.length_cons, pow_succ, mul_comm]
    have hhalf : 2 ^ (coordinate :: point).length / 2 = 2 ^ point.length := by omega
    rw [hdouble] at h
    have hstep := foldCoordinate_denotes (hpoint coordinate List.mem_cons_self).denotes h
    rw [List.foldl_cons, hhalf, List.map_cons, extend]
    exact foldCoordinates_denotes point (fun x hx => hpoint x (List.mem_cons_of_mem _ hx)) hstep

/-- The coordinates at the set bits of an index, from a bit on. -/
theorem monomialLoop_denotes (m : ℕ) : ∀ (point : List QM31) (k : ℕ) {term : QM31} {v : QuarticField},
    (∀ x ∈ point, x.Canonical) → k + point.length ≤ 64 → term.Denotes v →
    ((point.zipIdx k).foldl (fun term coordinate =>
      if m &&& 2 ^ (coordinate.2 % 64) ≠ 0 then term.mul coordinate.1 else term) term).Denotes
      (v * monomial (point.map QM31.value) (m / 2 ^ k))
  | [], k, term, v, _, _, h => by
    rw [List.map_nil, monomial, mul_one]
    exact h
  | coordinate :: point, k, term, v, hpoint, hlen, h => by
    rw [List.length_cons] at hlen
    have hrest := fun x hx => hpoint x (List.mem_cons_of_mem coordinate hx)
    have hshift : m / 2 ^ k / 2 = m / 2 ^ (k + 1) := by rw [Nat.div_div_eq_div_mul, pow_succ]
    have hbit : (m / 2 ^ k).testBit 0 = m.testBit k := by rw [Nat.testBit_div_two_pow, Nat.zero_add]
    rw [List.zipIdx_cons, List.foldl_cons, List.map_cons, monomial, hshift, hbit, Nat.mod_eq_of_lt (by omega), ← mul_assoc]
    apply monomialLoop_denotes m point (k + 1) hrest (by omega)
    by_cases hset : m.testBit k = true
    · rw [if_pos (and_two_pow_ne_zero.mpr hset), if_pos hset]
      exact h.mul (hpoint coordinate List.mem_cons_self).denotes
    · rw [if_neg fun hne => hset (and_two_pow_ne_zero.mp hne), if_neg hset, mul_one]
      exact h

theorem monomialSum_denotes {coefficients : List M31} {point : List QM31} (hcanonical : ∀ x ∈ coefficients, x.Canonical)
    (hpoint : ∀ x ∈ point, x.Canonical) (hlen : coefficients.length = 2 ^ point.length) (hsmall : point.length < 64) :
    (coefficients.zipIdx.foldl (fun result entry =>
      result.add (point.zipIdx.foldl (fun term coordinate =>
        if entry.2 &&& 2 ^ (coordinate.2 % 64) ≠ 0 then term.mul coordinate.1 else term) (liftM31 entry.1))) QM31.zero).Denotes
      (monomialSum (point.map QM31.value) fun m => lift (entries coefficients m)) := by
  have hsum := @foldl_accumulates _ _ _ _ QM31.Denotes (fun result (entry : M31 × ℕ) =>
    result.add (point.zipIdx.foldl (fun term coordinate =>
      if entry.2 &&& 2 ^ (coordinate.2 % 64) ≠ 0 then term.mul coordinate.1 else term) (liftM31 entry.1)))
    (fun entry => lift entry.1.value * monomial (point.map QM31.value) entry.2) coefficients.zipIdx ?_
    QM31.zero 0 QM31.denotes_zero
  · rw [zero_add, sum_map_zipIdx _ M31.zero, hlen] at hsum
    rw [monomialSum, List.length_map]
    exact hsum
  · intro entry hentry result v hresult
    have hmem : entry.1 ∈ coefficients := List.fst_mem_of_mem_zipIdx hentry
    have hterm := monomialLoop_denotes entry.2 point 0 hpoint (by omega) (liftM31_denotes (hcanonical _ hmem).denotes)
    rw [pow_zero, Nat.div_one] at hterm
    exact hresult.add hterm

theorem expectedTableLength_of_lt {n : ℕ} (hn : n < 64) : expectedTableLength n = .ok (2 ^ n) := by
  rw [expectedTableLength, Nat.mod_eq_of_lt (by omega), if_neg (by omega)]

theorem evaluateMonomialCoefficients_denotes {coefficients : List M31} {point : List QM31}
    (hcanonical : ∀ x ∈ coefficients, x.Canonical) (hpoint : ∀ x ∈ point, x.Canonical)
    (hlen : coefficients.length = 2 ^ point.length) (hsmall : point.length < 64) :
    ∃ value, evaluateMonomialCoefficients coefficients point = .ok value ∧
      value.Denotes (monomialSum (point.map QM31.value) fun m => lift (entries coefficients m)) := by
  refine ⟨_, ?_, monomialSum_denotes hcanonical hpoint hlen hsmall⟩
  rw [evaluateMonomialCoefficients, hlen, validatePowerOfTwoLength_pow, expectedTableLength_of_lt hsmall]
  exact if_neg fun hne => hne rfl

theorem evaluateMleZeta_denotes {table : List M31} {point : List QM31} {f : ℕ → BaseField}
    (hpoint : ∀ x ∈ point, x.Canonical) (hlen : table.length = 2 ^ point.length) (hsmall : point.length < 64)
    (h : Holds M31.Denotes M31.zero (2 ^ point.length) table f) :
    ∃ value, evaluateMleZeta table point = .ok value ∧ value.Denotes (extend (point.map QM31.value) fun i => lift (f i)) := by
  have hlifted : Holds QM31.Denotes QM31.zero (2 ^ point.length) (table.map liftM31) fun i => lift (f i) := by
    refine ⟨by rw [List.length_map]; exact h.1, fun i hi => ?_⟩
    have hword := h.2 i hi
    rw [List.getD_eq_getElem _ _ (by omega)] at hword
    rw [List.getD_eq_getElem _ _ (by rw [List.length_map]; omega), List.getElem_map]
    exact liftM31_denotes hword
  refine ⟨_, ?_, foldCoordinates_denotes point hpoint hlifted⟩
  rw [evaluateMleZeta, hlen, validatePowerOfTwoLength_pow, expectedTableLength_of_lt hsmall]
  exact if_neg fun hne => hne rfl

theorem lift_levels (n : ℕ) (f : ℕ → BaseField) : (fun i => lift (levels n f i)) = levels n fun i => lift (f i) := by
  have hlevel : ∀ k (f : ℕ → BaseField), (fun i => lift (level k f i)) = level k fun i => lift (f i) := by
    intro k f
    funext m
    unfold level
    split
    · exact map_add _ _ _
    · rfl
  have hfold : ∀ (l : List ℕ) (f : ℕ → BaseField), (fun i => lift (l.foldl (fun f k => level k f) f i)) =
      l.foldl (fun f k => level k f) fun i => lift (f i) := by
    intro l
    induction l with
    | nil => exact fun _ => rfl
    | cons k l ih =>
      intro f
      rw [List.foldl_cons, List.foldl_cons, ← hlevel]
      exact ih _
  exact hfold _ f

/-- On a point of the dimension of the table the evaluator of the transformed table returns the monomial sum of the table. -/
theorem evaluateMleZeta_of_levels {transformed : List M31} {point : List QM31} {f : ℕ → BaseField} {n : ℕ}
    (hn : point.length = n) (hpoint : ∀ x ∈ point, x.Canonical) (hlen : transformed.length = 2 ^ n) (hsmall : n < 64)
    (h : Holds M31.Denotes M31.zero (2 ^ n) transformed (levels n f)) :
    ∃ value, evaluateMleZeta transformed point = .ok value ∧
      value.Denotes (monomialSum (point.map QM31.value) fun m => lift (f m)) := by
  subst hn
  obtain ⟨value, hok, hvalue⟩ := evaluateMleZeta_denotes hpoint hlen hsmall h
  have hextend := extend_levels (point.map QM31.value) fun m => lift (f m)
  rw [List.length_map] at hextend
  rw [lift_levels, hextend] at hvalue
  exact ⟨value, hok, hvalue⟩

/-- A point of another dimension is refused by both evaluators. -/
theorem evaluators_mismatch {table : List M31} {point : List QM31} {n : ℕ} (hlen : table.length = 2 ^ n)
    (hmismatch : point.length % 2 ^ 32 ≠ n) :
    evaluateMleZeta table point = .error .dimensionMismatch ∧
      evaluateMonomialCoefficients table point = .error .dimensionMismatch := by
  rw [evaluateMleZeta, evaluateMonomialCoefficients, hlen, validatePowerOfTwoLength_pow, expectedTableLength]
  by_cases hlarge : 64 ≤ point.length % 2 ^ 32
  · rw [if_pos hlarge]
    exact ⟨rfl, rfl⟩
  · have hne : 2 ^ (point.length % 2 ^ 32) ≠ 2 ^ n := fun heq => hmismatch (Nat.pow_right_injective le_rfl heq)
    rw [if_neg hlarge]
    exact ⟨if_pos hne, if_pos hne⟩

/-! ### The stages -/

/-- A table times the powers of a challenge. -/
theorem sum_entries_powers (table : List M31) (g : QuarticField) :
    ∑ m ∈ Finset.range table.length, lift (entries table m) * g ^ m = powerSum g (table.map fun x => lift x.value) := by
  rw [powerSum_eq_sum, List.length_map]
  refine Finset.sum_congr rfl fun m hm => ?_
  have hm' := Finset.mem_range.mp hm
  rw [entries, List.getD_eq_getElem _ _ hm', List.getD_eq_getElem _ _ (by rw [List.length_map]; exact hm'), List.getElem_map]

theorem lift_zero : lift M31.zero.value = 0 := by
  rw [M31.denotes_zero.value_eq]
  exact map_zero _

section Stages
variable {gamma : QM31} {g : QuarticField}

theorem stageALanePoint_value (h : gamma.Denotes g) :
    (stageALanePoint gamma).map QM31.value = (List.range 5).map fun k => g ^ 2 ^ k := by
  have h2 := h.square
  have h4 := h2.square
  have h8 := h4.square
  have h16 := h8.square
  simp only [stageALanePoint, List.map_cons, List.map_nil, h.value_eq, h2.value_eq, h4.value_eq, h8.value_eq, h16.value_eq]
  simp only [List.range_succ_eq_map, List.range_zero, List.map_cons, List.map_nil, List.cons.injEq, and_true]
  refine ⟨?_, ?_, ?_, ?_, ?_⟩ <;> ring

theorem stageALanePoint_canonical (h : gamma.Denotes g) : ∀ x ∈ stageALanePoint gamma, x.Canonical := by
  have h2 := h.square
  have h4 := h2.square
  have h8 := h4.square
  intro x hx
  simp only [stageALanePoint, List.mem_cons, List.not_mem_nil, or_false] at hx
  rcases hx with rfl | rfl | rfl | rfl | rfl
  · exact h.canonical
  · exact h2.canonical
  · exact h4.canonical
  · exact h8.canonical
  · exact h8.square.canonical

theorem stageACoefficients_length (source : Vector M31 26) : (stageACoefficients source).length = 2 ^ 5 := by
  have hlength : source.toList.length = 26 := Vector.length_toList
  rw [stageACoefficients, List.length_append, hlength, List.length_replicate]
  rfl

theorem stageACoefficients_canonical {source : Vector M31 26} (hsource : ∀ x ∈ source.toList, x.Canonical) :
    ∀ x ∈ stageACoefficients source, x.Canonical := by
  intro x hx
  rcases List.mem_append.mp hx with hmem | hmem
  · exact hsource x hmem
  · rw [List.eq_of_mem_replicate hmem]
    exact M31.denotes_zero.canonical

theorem stageA_sum (source : Vector M31 26) (g : QuarticField) :
    ∑ m ∈ Finset.range (2 ^ 5), lift (entries (stageACoefficients source) m) * g ^ m =
      powerSum g (source.toList.map fun x => lift x.value) := by
  rw [← stageACoefficients_length source, sum_entries_powers, stageACoefficients, List.map_append,
    List.map_replicate, lift_zero, powerSum_append, powerSum_replicate_zero, mul_zero, add_zero]

theorem stageA_denotes {source : Vector M31 26} (hsource : ∀ x ∈ source.toList, x.Canonical) (h : gamma.Denotes g) :
    ∃ table first, stageAZetaTable source = some table ∧ stageARestriction table gamma = some first ∧
      first.Denotes (powerSum g (source.toList.map fun x => lift x.value)) := by
  obtain ⟨table, hzeta, htable, hholds⟩ := zetaInPlaceM31_denotes (stageACoefficients_length source)
    (holds_entries (stageACoefficients_canonical hsource))
  have hfive : (stageALanePoint gamma).length = 5 := rfl
  obtain ⟨first, hfirst, hdenotes⟩ :=
    evaluateMleZeta_of_levels hfive (stageALanePoint_canonical h) htable (by decide) hholds
  rw [stageALanePoint_value h, monomialSum_powers, stageA_sum] at hdenotes
  refine ⟨table, first, ?_, ?_, hdenotes⟩
  · rw [stageAZetaTable, hzeta]
    rfl
  · rw [stageARestriction, hfirst]
    rfl

/-- The basis of the extension over the base field. -/
def imaginary : QuarticField := ⟨⟨0, 1⟩, 0⟩

def extensionUnit : QuarticField := ⟨0, 1⟩

theorem QM31_I_denotes : QM31_I.Denotes imaginary := ⟨⟨M31.denotes_zero, M31.denotes_one⟩, CM31.denotes_zero⟩

theorem QM31_U_denotes : QM31_U.Denotes extensionUnit := ⟨CM31.denotes_zero, CM31.denotes_one⟩

theorem lift_eq (w : BaseField) : lift w = ⟨⟨w, 0⟩, 0⟩ := rfl

/-- An element from its limbs. -/
theorem value_eq_limbs (x : QM31) : x.value = (lift x.c0.a.value + imaginary * lift x.c0.b.value) +
    extensionUnit * (lift x.c1.a.value + imaginary * lift x.c1.b.value) := by
  rw [lift_eq, lift_eq, lift_eq, lift_eq, imaginary, extensionUnit]
  refine QuadraticAlgebra.ext (QuadraticAlgebra.ext ?_ ?_) (QuadraticAlgebra.ext ?_ ?_)
  all_goals simp [QM31.value, CM31.value]

theorem stageBLanePoint_value (h : gamma.Denotes g) :
    (stageBLanePoint gamma).map QM31.value = imaginary :: extensionUnit :: (List.range 2).map fun k => g ^ 2 ^ k := by
  simp only [stageBLanePoint, List.map_cons, List.map_nil, h.value_eq, h.square.value_eq, QM31_I_denotes.value_eq,
    QM31_U_denotes.value_eq]
  simp only [List.range_succ_eq_map, List.range_zero, List.map_cons, List.map_nil, List.cons.injEq, and_true, true_and]
  refine ⟨?_, ?_⟩ <;> ring

theorem stageBLanePoint_canonical (h : gamma.Denotes g) : ∀ x ∈ stageBLanePoint gamma, x.Canonical := by
  intro x hx
  simp only [stageBLanePoint, List.mem_cons, List.not_mem_nil, or_false] at hx
  rcases hx with rfl | rfl | rfl | rfl
  · exact QM31_I_denotes.canonical
  · exact QM31_U_denotes.canonical
  · exact h.canonical
  · exact h.square.canonical

theorem stageBCoefficients_length (source : Vector QM31 3) : (stageBCoefficients source).length = 2 ^ 4 := by
  have hlength : source.toList.length = 3 := Vector.length_toList
  rw [stageBCoefficients, List.length_append, List.length_flatMap, List.length_replicate]
  obtain ⟨x, y, z, hlist⟩ := List.length_eq_three.mp hlength
  rw [hlist]
  rfl

theorem stageBCoefficients_canonical {source : Vector QM31 3} (hsource : ∀ x ∈ source.toList, x.Canonical) :
    ∀ x ∈ stageBCoefficients source, x.Canonical := by
  intro x hx
  rcases List.mem_append.mp hx with hmem | hmem
  · obtain ⟨lane, hlane, hlimb⟩ := List.mem_flatMap.mp hmem
    have hcanonical := hsource lane hlane
    simp only [qm31Limbs, List.mem_cons, List.not_mem_nil, or_false] at hlimb
    rcases hlimb with rfl | rfl | rfl | rfl
    · exact hcanonical.1.1
    · exact hcanonical.1.2
    · exact hcanonical.2.1
    · exact hcanonical.2.2
  · rw [List.eq_of_mem_replicate hmem]
    exact M31.denotes_zero.canonical

/-- The element with the limbs of a lane. -/
def laneValue (f : ℕ → QuarticField) (i : ℕ) : QuarticField :=
  (f (4 * i) + imaginary * f (4 * i + 1)) + extensionUnit * (f (4 * i + 2) + imaginary * f (4 * i + 3))

theorem monomialSum_limbs (point : List QuarticField) (f : ℕ → QuarticField) :
    monomialSum (imaginary :: extensionUnit :: point) f = monomialSum point (laneValue f) := by
  rw [monomialSum_cons, monomialSum_cons]
  congr 1
  funext i
  have hindex : ∀ b c : Bool, 2 * (2 * i + b.toNat) + c.toNat = 4 * i + (2 * b.toNat + c.toNat) := by
    intro b c
    omega
  unfold half laneValue
  beta_reduce
  rw [hindex, hindex, hindex, hindex]
  rfl

theorem stageB_sum (source : Vector QM31 3) (g : QuarticField) :
    monomialSum (imaginary :: extensionUnit :: (List.range 2).map fun k => g ^ 2 ^ k)
      (fun m => lift (entries (stageBCoefficients source) m)) = powerSum g (source.toList.map QM31.value) := by
  have hlength : source.toList.length = 3 := Vector.length_toList
  obtain ⟨x, y, z, hlist⟩ := List.length_eq_three.mp hlength
  have hcoefficients : stageBCoefficients source = qm31Limbs x ++ qm31Limbs y ++ qm31Limbs z ++
      [M31.zero, M31.zero, M31.zero, M31.zero] := by
    rw [stageBCoefficients, hlist]
    rfl
  have hx : laneValue (fun m => lift (entries (stageBCoefficients source) m)) 0 = x.value := by
    rw [value_eq_limbs, hcoefficients]
    rfl
  have hy : laneValue (fun m => lift (entries (stageBCoefficients source) m)) 1 = y.value := by
    rw [value_eq_limbs, hcoefficients]
    rfl
  have hz : laneValue (fun m => lift (entries (stageBCoefficients source) m)) 2 = z.value := by
    rw [value_eq_limbs, hcoefficients]
    rfl
  have hzero : laneValue (fun m => lift (entries (stageBCoefficients source) m)) 3 = 0 := by
    have hpad : QM31.zero.value = 0 := QM31.denotes_zero.value_eq
    rw [← hpad, value_eq_limbs, hcoefficients]
    rfl
  have hfour : 2 ^ 2 = 0 + 1 + 1 + 1 + 1 := rfl
  rw [monomialSum_limbs, monomialSum_powers, hfour, Finset.sum_range_succ, Finset.sum_range_succ, Finset.sum_range_succ,
    Finset.sum_range_succ, Finset.sum_range_zero, hx, hy, hz, hzero, hlist]
  simp only [List.map_cons, List.map_nil, powerSum_cons, powerSum_nil]
  ring

theorem stageB_denotes {source : Vector QM31 3} (hsource : ∀ x ∈ source.toList, x.Canonical) (h : gamma.Denotes g) :
    ∃ table second, stageBZetaTable source = some table ∧ stageBRestriction table gamma = some second ∧
      second.Denotes (powerSum g (source.toList.map QM31.value)) := by
  obtain ⟨table, hzeta, htable, hholds⟩ := zetaInPlaceM31_denotes (stageBCoefficients_length source)
    (holds_entries (stageBCoefficients_canonical hsource))
  have hfour : (stageBLanePoint gamma).length = 4 := rfl
  obtain ⟨second, hsecond, hdenotes⟩ :=
    evaluateMleZeta_of_levels hfour (stageBLanePoint_canonical h) htable (by decide) hholds
  rw [stageBLanePoint_value h, stageB_sum] at hdenotes
  refine ⟨table, second, ?_, ?_, hdenotes⟩
  · rw [stageBZetaTable, hzeta]
    rfl
  · rw [stageBRestriction, hsecond]
    rfl

/-- A batch of lanes by a running power. -/
theorem foldl_powers {α : Type*} {term : QM31 → α → QM31} {value : α → QuarticField} (h : gamma.Denotes g) :
    ∀ (lanes : List α) {result power : QM31} {v p : QuarticField},
      (∀ lane ∈ lanes, ∀ {power : QM31} {p : QuarticField}, power.Denotes p → (term power lane).Denotes (p * value lane)) →
      result.Denotes v → power.Denotes p →
      ((lanes.foldl (fun (state : QM31 × QM31) lane => (state.1.add (term state.2 lane), state.2.mul gamma))
        (result, power)).1.Denotes (v + p * powerSum g (lanes.map value))) ∧
      (lanes.foldl (fun (state : QM31 × QM31) lane => (state.1.add (term state.2 lane), state.2.mul gamma))
        (result, power)).2.Denotes (p * g ^ lanes.length)
  | [], result, power, v, p, _, hresult, hpower => by
    rw [List.map_nil, powerSum_nil, mul_zero, add_zero, List.length_nil, pow_zero, mul_one]
    exact ⟨hresult, hpower⟩
  | lane :: lanes, result, power, v, p, hterm, hresult, hpower => by
    have hnext := hresult.add (hterm lane List.mem_cons_self hpower)
    have hrest := foldl_powers h lanes (fun other hother => hterm other (List.mem_cons_of_mem lane hother)) hnext
      (hpower.mul h)
    have hsum : v + p * powerSum g ((lane :: lanes).map value) = v + p * value lane + p * g * powerSum g (lanes.map value) := by
      rw [List.map_cons, powerSum_cons]
      ring
    have hpow : p * g ^ (lane :: lanes).length = p * g * g ^ lanes.length := by
      rw [List.length_cons, pow_succ]
      ring
    rw [hsum, hpow]
    exact hrest

theorem width29Batch_denotes {stageASource : Vector M31 26} {stageBSource : Vector QM31 3}
    (hA : ∀ x ∈ stageASource.toList, x.Canonical) (hB : ∀ x ∈ stageBSource.toList, x.Canonical) (h : gamma.Denotes g) :
    (width29Batch stageASource stageBSource gamma).Denotes
      (powerSum g (stageASource.toList.map fun x => lift x.value) +
        g ^ 26 * powerSum g (stageBSource.toList.map QM31.value)) := by
  have hlength : stageASource.toList.length = 26 := Vector.length_toList
  have hbase := @foldl_powers gamma g _ (fun power lane => power.mulM31 lane) (fun lane => lift lane.value) h
    stageASource.toList _ _ _ _ (fun lane hlane power p hp => denotes_mulM31 hp (hA lane hlane).denotes)
    QM31.denotes_zero QM31.denotes_one
  rw [zero_add, one_mul, one_mul, hlength] at hbase
  have hall := @foldl_powers gamma g _ (fun power lane => power.mul lane) QM31.value h
    stageBSource.toList _ _ _ _ (fun lane hlane power p hp => hp.mul (hB lane hlane).denotes) hbase.1 hbase.2
  exact hall.1

end Stages

/-- The split restriction of the two stage tables is the batch of the lanes. -/
theorem split_of_canonical {stageASource : Vector M31 26} {stageBSource : Vector QM31 3} {gamma : QM31}
    (hA : ∀ x ∈ stageASource.toList, x.Canonical) (hB : ∀ x ∈ stageBSource.toList, x.Canonical) (h : gamma.Canonical) :
    ∃ stageATable stageBTable, stageAZetaTable stageASource = some stageATable ∧
      stageBZetaTable stageBSource = some stageBTable ∧
      splitTensorRestriction stageATable stageBTable gamma = some (width29Batch stageASource stageBSource gamma) := by
  obtain ⟨stageATable, first, hAtable, hfirst, hAvalue⟩ := stageA_denotes hA h.denotes
  obtain ⟨stageBTable, second, hBtable, hsecond, hBvalue⟩ := stageB_denotes hB h.denotes
  refine ⟨stageATable, stageBTable, hAtable, hBtable, ?_⟩
  have hpow : (gamma.pow STAGE_B_OUTER_GAMMA_POWER).Denotes (gamma.value ^ 26) := h.denotes.pow STAGE_B_OUTER_GAMMA_POWER
  have hsplit := hAvalue.add (hpow.mul hBvalue)
  rw [splitTensorRestriction, hfirst, hsecond, ← hsplit.eq (width29Batch_denotes hA hB h.denotes)]
  rfl

/-- The transform sums each entry over the subsets of its index and the inverse transform undoes it; on every point of the
dimension of the table the extension of the transformed table is the monomial evaluation of the coefficients, and a point
of another dimension is refused by both; so the split restriction of the stage tables is the batch of the lanes. -/
theorem lane_zeta :
    (∀ (n : ℕ) (table : List M31), n < 64 → table.length = 2 ^ n → (∀ x ∈ table, x.Canonical) →
      ∃ transformed, zetaInPlaceM31 table = .ok transformed ∧ transformed.length = 2 ^ n ∧
        (∀ m < 2 ^ n, (transformed.getD m M31.zero).Denotes
          (∑ s ∈ Finset.range (2 ^ n), if s &&& m = s then (table.getD s M31.zero).value else 0)) ∧
        mobiusInPlaceM31 transformed = .ok table ∧
        (∀ point : List QM31, point.length = n → (∀ x ∈ point, x.Canonical) →
          ∃ value, evaluateMleZeta transformed point = .ok value ∧ evaluateMonomialCoefficients table point = .ok value) ∧
        ∀ point : List QM31, point.length % 2 ^ 32 ≠ n →
          evaluateMleZeta transformed point = .error .dimensionMismatch ∧
          evaluateMonomialCoefficients table point = .error .dimensionMismatch) ∧
    ∀ (stageASource : Vector M31 26) (stageBSource : Vector QM31 3) (gamma : QM31),
      (∀ x ∈ stageASource.toList, x.Canonical) → (∀ x ∈ stageBSource.toList, x.Canonical) → gamma.Canonical →
      ∃ stageATable stageBTable, stageAZetaTable stageASource = some stageATable ∧
        stageBZetaTable stageBSource = some stageBTable ∧
        splitTensorRestriction stageATable stageBTable gamma = some (width29Batch stageASource stageBSource gamma) := by
  refine ⟨fun n table hn hlen hcanonical => ?_, fun stageASource stageBSource gamma hA hB h => split_of_canonical hA hB h⟩
  have hentries := holds_entries hcanonical
  obtain ⟨transformed, hzeta, htransformed, hholds⟩ := zetaInPlaceM31_denotes hlen hentries
  refine ⟨transformed, hzeta, htransformed, fun m hm => ?_, mobius_of_holds hlen hentries htransformed hholds,
    fun point hpoint hpc => ?_, fun point hmismatch =>
      ⟨(evaluators_mismatch htransformed hmismatch).1, (evaluators_mismatch hlen hmismatch).2⟩⟩
  · have hentry := hholds.2 m hm
    rw [levels_eq_subsetSum n _ m hm] at hentry
    exact hentry
  · obtain ⟨value, hok, hvalue⟩ := evaluateMleZeta_of_levels hpoint hpc htransformed hn hholds
    rw [← hpoint] at hlen hn
    obtain ⟨other, hother, hdenotes⟩ := evaluateMonomialCoefficients_denotes hcanonical hpc hlen hn
    rw [← hvalue.eq hdenotes] at hother
    exact ⟨value, hok, hother⟩

theorem lane_zeta_four :
    mobiusInPlaceM31 [⟨3⟩, ⟨8⟩, ⟨10⟩, ⟨22⟩] = .ok [⟨3⟩, ⟨5⟩, ⟨7⟩, ⟨7⟩] ∧
      (∃ value, evaluateMleZeta [⟨3⟩, ⟨8⟩, ⟨10⟩, ⟨22⟩] [QM31_I, QM31_U] = .ok value ∧
        evaluateMonomialCoefficients [⟨3⟩, ⟨5⟩, ⟨7⟩, ⟨7⟩] [QM31_I, QM31_U] = .ok value) ∧
      ∃ stageATable stageBTable, stageAZetaTable (Vector.replicate 26 M31.one) = some stageATable ∧
        stageBZetaTable (Vector.replicate 3 QM31_I) = some stageBTable ∧
        splitTensorRestriction stageATable stageBTable QM31_U =
          some (width29Batch (Vector.replicate 26 M31.one) (Vector.replicate 3 QM31_I) QM31_U) := by
  have hzeta : zetaInPlaceM31 [⟨3⟩, ⟨5⟩, ⟨7⟩, ⟨7⟩] = .ok [⟨3⟩, ⟨8⟩, ⟨10⟩, ⟨22⟩] := by rfl
  obtain ⟨transformed, hok, _, _, hmobius, hpoint, _⟩ :=
    lane_zeta.1 2 [⟨3⟩, ⟨5⟩, ⟨7⟩, ⟨7⟩] (by decide) rfl (by decide)
  rw [hzeta] at hok
  obtain rfl := Except.ok.inj hok
  exact ⟨hmobius, hpoint [QM31_I, QM31_U] rfl (by decide), lane_zeta.2 _ _ _ (by decide) (by decide) (by decide)⟩

end Aspis.Core
