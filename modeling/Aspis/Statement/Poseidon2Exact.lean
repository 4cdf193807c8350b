import Aspis.Statement.Poseidon2Layers

/-! The optimized permutation is the reference: none of its sums wraps, its trace is a chain of the
same rounds, and on canonical states it loses nothing. -/

namespace Aspis.Poseidon2

open Aspis.Core Aspis.Lib

/-- The state stands for a vector of the field. -/
def Denotes (state : State) (v : Fin 16 → BaseField) : Prop := ∀ i, (state.get i).Denotes (v i)

def CanonicalState (state : State) : Prop := ∀ i, (state.get i).Canonical

theorem CanonicalState.denotes {state : State} (h : CanonicalState state) :
    Denotes state fun i => (state.get i).value := fun i => (h i).denotes

theorem Denotes.canonical {state : State} {v : Fin 16 → BaseField} (h : Denotes state v) : CanonicalState state :=
  fun i => (h i).canonical

theorem Denotes.eq {s t : State} {v : Fin 16 → BaseField} (hs : Denotes s v) (ht : Denotes t v) : s = t := by
  apply Vector.ext
  intro i hi
  exact (hs ⟨i, hi⟩).eq (ht ⟨i, hi⟩)

theorem denotes_pow5 {x : M31} {v : BaseField} (h : x.Denotes v) : (pow5 x).Denotes (v ^ 5) := by
  have hpow : v ^ 5 = v * v * (v * v) * v := by ring
  rw [hpow]
  exact ((h.mul h).mul (h.mul h)).mul h

/-! ### The reference layers -/

theorem denotes_applyMat4 {values : Fin 4 → M31} {v : Fin 4 → BaseField} (h : ∀ i, (values i).Denotes (v i))
    (i : Fin 4) : ((applyMat4 values).get i).Denotes (mixFour v i) := by
  have h01 := (h 0).add (h 1)
  have h23 := (h 2).add (h 3)
  have h01123 := (h01.add h23).add (h 1)
  have h01233 := (h01.add h23).add (h 3)
  fin_cases i
  · have hout := h01123.add h01
    rw [show v 0 + v 1 + (v 2 + v 3) + v 1 + (v 0 + v 1) = mixFour v 0 by simp [mixFour]; ring] at hout
    exact hout
  · have hout := h01123.add (h 2).double
    rw [show v 0 + v 1 + (v 2 + v 3) + v 1 + 2 * v 2 = mixFour v 1 by simp [mixFour]; ring] at hout
    exact hout
  · have hout := h01233.add h23
    rw [show v 0 + v 1 + (v 2 + v 3) + v 3 + (v 2 + v 3) = mixFour v 2 by simp [mixFour]; ring] at hout
    exact hout
  · have hout := h01233.add (h 0).double
    rw [show v 0 + v 1 + (v 2 + v 3) + v 3 + 2 * v 0 = mixFour v 3 by simp [mixFour]; ring] at hout
    exact hout

/-- A sum of canonical words, from left to right. -/
theorem denotes_foldl_add {n : ℕ} {f : Fin n → M31} {g : Fin n → BaseField} (h : ∀ i, (f i).Denotes (g i)) :
    ((List.finRange n).foldl (fun sum i => sum.add (f i)) M31.zero).Denotes (∑ i, g i) := by
  have hlist : ∀ (l : List (Fin n)) (x : M31) (v : BaseField), x.Denotes v →
      (l.foldl (fun sum i => sum.add (f i)) x).Denotes (v + (l.map g).sum) := by
    intro l
    induction l with
    | nil =>
      intro x v hx
      simpa using hx
    | cons i l ih =>
      intro x v hx
      have hnext := ih (x.add (f i)) (v + g i) (hx.add (h i))
      rw [add_assoc, ← List.sum_cons] at hnext
      exact hnext
  have hsum := hlist (List.finRange n) M31.zero 0 M31.denotes_zero
  rw [zero_add, ← Fin.sum_univ_def] at hsum
  exact hsum

/-- A position of the mixed rows. -/
theorem denotes_ofRows {rows : Vector (Vector M31 4) 4} {v : Fin 16 → BaseField}
    (h : ∀ row column, ((rows.get row).get column).Denotes (v (place row column))) : Denotes (ofRows rows) v := by
  intro i
  have hi := h (rowOf i) (columnOf i)
  rw [place_rowOf_columnOf] at hi
  rw [ofRows, get_vector_ofFn]
  exact hi

theorem mixRows_place (v : Fin 16 → BaseField) (row column : Fin 4) :
    mixRows v (place row column) = mixFour (fun c => v (place row c)) column := by
  rw [mixRows, rowOf_place, columnOf_place]

theorem denotes_externalLinear {state : State} {v : Fin 16 → BaseField} (h : Denotes state v) :
    Denotes (externalLinear state) (externalLayer v) := by
  have hmixed : Denotes (ofRows (Vector.ofFn fun row => applyMat4 (chunk state row))) (mixRows v) := by
    apply denotes_ofRows
    intro row column
    rw [get_vector_ofFn, mixRows_place]
    exact denotes_applyMat4 (fun c => h (place row c)) column
  intro i
  unfold externalLinear
  dsimp only
  rw [get_vector_ofFn, get_vector_ofFn]
  exact (hmixed i).add (denotes_foldl_add fun row => hmixed (place row (columnOf i)))

theorem denotes_internalLinear {state : State} {v : Fin 16 → BaseField} (h : Denotes state v) :
    Denotes (internalLinear state) (internalLayer v) := by
  have hpart : ((List.finRange 15).foldl (fun sum index => sum.add (state.get index.succ)) M31.zero).Denotes
      (∑ j : Fin 15, v j.succ) := denotes_foldl_add fun j => h j.succ
  intro i
  unfold internalLinear
  dsimp only
  rw [get_vector_ofFn]
  refine Fin.cases ?_ (fun j => ?_) i
  · exact hpart.sub (h 0)
  · have hpower : (⟨1 <<< UInt32.ofNat (INTERNAL_SHIFTS j)⟩ : M31).Denotes (2 ^ INTERNAL_SHIFTS j) := by
      have hcanonical : ∀ j, (⟨1 <<< UInt32.ofNat (INTERNAL_SHIFTS j)⟩ : M31).Canonical ∧
          (1 <<< UInt32.ofNat (INTERNAL_SHIFTS j) : UInt32).toNat = 2 ^ INTERNAL_SHIFTS j := by decide
      refine ⟨(hcanonical j).1, ?_⟩
      rw [M31.value, (hcanonical j).2, Nat.cast_pow, Nat.cast_two]
    exact (hpart.add (h 0)).add ((h j.succ).mul hpower)

/-! ### The lazy layers -/

theorem holds_word (x : M31) : Holds (some (word x)) x.val.toNat := ⟨word x, rfl, UInt32.toNat_toUInt64 x.val⟩

theorem holds_mulWord {x : M31} {c : UInt64} (hx : x.Canonical) (hc : c.toNat ≤ 3) :
    Holds (mulWord c (word x)) (c.toNat * x.val.toNat) := by
  have hlt := hx.lt
  have hword : (word x).toNat = x.val.toNat := UInt32.toNat_toUInt64 x.val
  unfold mulWord
  rw [hword]
  apply holds_wordOf
  calc c.toNat * x.val.toNat ≤ 3 * x.val.toNat := Nat.mul_le_mul_right _ hc
    _ < 2 ^ 64 := by omega

/-- A sum in the range of the reduction is reduced to the element it stands for. -/
theorem denotes_reduceU62 {sum : Option UInt64} {n : ℕ} (hsum : Holds sum n) (hn : n < 2 ^ 62) :
    ∃ x, sum.bind reduceU62 = some x ∧ x.Denotes (n : BaseField) := by
  obtain ⟨w, rfl, rfl⟩ := hsum
  have hlt : w < (1 : UInt64) <<< 62 := hn
  refine ⟨M31.reduceU62 w, ?_, M31.denotes_reduceU64 w⟩
  rw [Option.bind_some, reduceU62, if_pos hlt]

/-- The rows of the small matrix are sums of at most seven words. -/
theorem applyMat4Lazy_denotes {values : Fin 4 → M31} {v : Fin 4 → BaseField} (h : ∀ i, (values i).Denotes (v i)) :
    ∃ out, applyMat4Lazy values = some out ∧ ∀ i, (out.get i).Denotes (mixFour v i) := by
  have hlt : ∀ i, (values i).val.toNat < 2147483647 := fun i => (h i).canonical.lt
  have hval : ∀ i, ((values i).val.toNat : BaseField) = v i := fun i => (h i).value_eq
  have h2 : ∀ i, Holds (mulWord 2 (word (values i))) (2 * (values i).val.toNat) := fun i =>
    holds_mulWord (h i).canonical (by decide)
  have h3 : ∀ i, Holds (mulWord 3 (word (values i))) (3 * (values i).val.toNat) := fun i =>
    holds_mulWord (h i).canonical (by decide)
  have h1 : ∀ i, Holds (some (word (values i))) (values i).val.toNat := fun i => holds_word (values i)
  have hrow : ∀ {t0 t1 t2 t3 : Option UInt64} {n0 n1 n2 n3 : ℕ}, Holds t0 n0 → Holds t1 n1 → Holds t2 n2 →
      Holds t3 n3 → n0 + n1 + n2 + n3 < 2 ^ 62 → ∃ x, (sumChecked [t0, t1, t2, t3]).bind reduceU62 = some x ∧
        x.Denotes ((n0 + n1 + n2 + n3 : ℕ) : BaseField) := by
    intro t0 t1 t2 t3 n0 n1 n2 n3 k0 k1 k2 k3 hn
    have hsum := holds_sumChecked (.cons k0 (.cons k1 (.cons k2 (.cons k3 .nil))))
      (by simp only [List.sum_cons, List.sum_nil]; omega)
    have hnat : [n0, n1, n2, n3].sum = n0 + n1 + n2 + n3 := by
      simp only [List.sum_cons, List.sum_nil]
      omega
    rw [hnat] at hsum
    exact denotes_reduceU62 hsum hn
  have b0 := hlt 0
  have b1 := hlt 1
  have b2 := hlt 2
  have b3 := hlt 3
  obtain ⟨x0, hx0, d0⟩ := hrow (h2 0) (h3 1) (h1 2) (h1 3) (by omega)
  obtain ⟨x1, hx1, d1⟩ := hrow (h1 0) (h2 1) (h3 2) (h1 3) (by omega)
  obtain ⟨x2, hx2, d2⟩ := hrow (h1 0) (h1 1) (h2 2) (h3 3) (by omega)
  obtain ⟨x3, hx3, d3⟩ := hrow (h3 0) (h1 1) (h1 2) (h2 3) (by omega)
  refine ⟨#v[x0, x1, x2, x3], ?_, fun i => ?_⟩
  · unfold applyMat4Lazy
    simp only [hx0, hx1, hx2, hx3]
    rfl
  · push_cast at d0 d1 d2 d3
    simp only [hval] at d0 d1 d2 d3
    fin_cases i
    · exact d0
    · exact d1
    · exact d2
    · exact d3

/-- Sixteen words at most are added without a carry out. -/
theorem holds_sum_words {n : ℕ} {f : Fin n → M31} (hn : n ≤ 16) (h : ∀ i, (f i).Canonical) :
    Holds (sumChecked ((List.finRange n).map fun i => some (word (f i)))) (∑ i, (f i).val.toNat) ∧
      ∑ i, (f i).val.toNat ≤ 16 * 2147483647 := by
  have hle : ∑ i, (f i).val.toNat ≤ 16 * 2147483647 := by
    calc ∑ i, (f i).val.toNat ≤ ∑ _i : Fin n, 2147483647 := Finset.sum_le_sum fun i _ => (h i).lt.le
      _ = n * 2147483647 := by simp
      _ ≤ 16 * 2147483647 := Nat.mul_le_mul_right _ hn
  have hterms : List.Forall₂ Holds ((List.finRange n).map fun i => some (word (f i)))
      ((List.finRange n).map fun i => (f i).val.toNat) := by
    rw [List.forall₂_map_left_iff, List.forall₂_map_right_iff, List.forall₂_same]
    intro i _
    exact holds_word (f i)
  have hsum := holds_sumChecked hterms (by rw [← Fin.sum_univ_def]; omega)
  rw [← Fin.sum_univ_def] at hsum
  exact ⟨hsum, hle⟩

theorem externalLinearLazy_denotes {state : State} {v : Fin 16 → BaseField} (h : Denotes state v) :
    ∃ out, externalLinearLazy state = some out ∧ Denotes out (externalLayer v) := by
  have hrows : ∀ row, ∃ out, applyMat4Lazy (chunk state row) = some out ∧
      ∀ column, (out.get column).Denotes (mixFour (fun c => v (place row c)) column) := fun row =>
    applyMat4Lazy_denotes fun c => h (place row c)
  choose rows hrows hdenotes using hrows
  have hmixed : Denotes (ofRows (Vector.ofFn rows)) (mixRows v) := by
    apply denotes_ofRows
    intro row column
    rw [get_vector_ofFn, mixRows_place]
    exact hdenotes row column
  generalize hrest : ofRows (Vector.ofFn rows) = mixed at hmixed
  have hsums : ∀ column, ∃ sum, sumChecked ((List.finRange 4).map fun row => some (word (mixed.get (place row column)))) =
      some sum ∧ sum.toNat = ∑ row, (mixed.get (place row column)).val.toNat := fun column =>
    (@holds_sum_words 4 (fun row => mixed.get (place row column)) (by decide)
      fun row => (hmixed (place row column)).canonical).1
  choose sums hsums hsum using hsums
  have hout : ∀ i, ∃ x, (addWord (word (mixed.get i)) (sums (columnOf i))).bind reduceU62 = some x ∧
      x.Denotes (externalLayer v i) := by
    intro i
    have hle := (@holds_sum_words 4 (fun row => mixed.get (place row (columnOf i))) (by decide)
      fun row => (hmixed (place row (columnOf i))).canonical).2
    have hlt := (hmixed i).canonical.lt
    have hword : (word (mixed.get i)).toNat = (mixed.get i).val.toNat := UInt32.toNat_toUInt64 _
    have hadd : Holds (addWord (word (mixed.get i)) (sums (columnOf i)))
        ((mixed.get i).val.toNat + ∑ row, (mixed.get (place row (columnOf i))).val.toNat) := by
      rw [addWord, hword, hsum]
      exact holds_wordOf (by omega)
    obtain ⟨x, hx, hd⟩ := denotes_reduceU62 hadd (by omega)
    refine ⟨x, hx, ?_⟩
    rw [Nat.cast_add, Nat.cast_sum] at hd
    have hvalue : ∀ j, ((mixed.get j).val.toNat : BaseField) = mixRows v j := fun j => (hmixed j).value_eq
    simp only [hvalue] at hd
    exact hd
  choose out hout hdenote using hout
  refine ⟨Vector.ofFn out, ?_, fun i => ?_⟩
  · unfold externalLinearLazy
    rw [allSome_eq_some hrows, Option.bind_eq_bind, Option.bind_some]
    dsimp only
    rw [hrest, allSome_eq_some hsums, Option.bind_eq_bind, Option.bind_some]
    apply allSome_eq_some
    intro i
    rw [get_vector_ofFn]
    exact hout i
  · rw [get_vector_ofFn]
    exact hdenote i

/-- The shifted words are below `2 ^ 47` and their sum with all words of the state below `2 ^ 48`. -/
theorem internalLinearLazy_denotes {state : State} {v : Fin 16 → BaseField} (h : Denotes state v) :
    ∃ out, internalLinearLazy state = some out ∧ Denotes out (internalLayer v) := by
  obtain ⟨⟨part, hpart, hpartNat⟩, hle⟩ := @holds_sum_words 15 (fun j => state.get j.succ) (by decide)
    fun j => (h j.succ).canonical
  have hlt : ∀ i, (state.get i).val.toNat < 2147483647 := fun i => (h i).canonical.lt
  have hvalue : ∀ i, ((state.get i).val.toNat : BaseField) = v i := fun i => (h i).value_eq
  have hword : ∀ i, (word (state.get i)).toNat = (state.get i).val.toNat := fun i => UInt32.toNat_toUInt64 _
  have hpartValue : (part.toNat : BaseField) = ∑ j : Fin 15, v j.succ := by
    rw [hpartNat, Nat.cast_sum]
    exact Finset.sum_congr rfl fun j _ => hvalue j.succ
  have h0 := hlt 0
  obtain ⟨full, hfull, hfullNat⟩ := @holds_wordOf (part.toNat + (state.get 0).val.toNat) (by omega)
  obtain ⟨shifted, hshifted, hshiftedNat⟩ := @holds_wordOf (part.toNat + P.toUInt64.toNat)
    (by rw [show P.toUInt64.toNat = 2147483647 from rfl]; omega)
  rw [show P.toUInt64.toNat = 2147483647 from rfl] at hshiftedNat
  have hdifference : Holds (subWord shifted (word (state.get 0)))
      (part.toNat + 2147483647 - (state.get 0).val.toNat) := by
    have hsub := @holds_subWord shifted (word (state.get 0)) (by rw [hword]; omega)
    rwa [hshiftedNat, hword] at hsub
  obtain ⟨first, hfirst, hfirstDenotes⟩ := denotes_reduceU62 hdifference (by omega)
  have hrest : ∀ j : Fin 15, ∃ x, ((shlWord (word (state.get j.succ)) (INTERNAL_SHIFTS j)).bind (addWord full)).bind
      reduceU62 = some x ∧ x.Denotes (∑ i : Fin 15, v i.succ + v 0 + v j.succ * 2 ^ INTERNAL_SHIFTS j) := by
    intro j
    have hj := hlt j.succ
    have hshift := internal_shifts_le j
    have hbound : (state.get j.succ).val.toNat * 2 ^ INTERNAL_SHIFTS j ≤ 2147483647 * 2 ^ 16 :=
      Nat.mul_le_mul hj.le (Nat.pow_le_pow_right (by decide) hshift)
    obtain ⟨moved, hmoved, hmovedNat⟩ := @holds_wordOf ((state.get j.succ).val.toNat * 2 ^ INTERNAL_SHIFTS j)
      (by omega)
    have hadd : Holds ((shlWord (word (state.get j.succ)) (INTERNAL_SHIFTS j)).bind (addWord full))
        (part.toNat + (state.get 0).val.toNat + (state.get j.succ).val.toNat * 2 ^ INTERNAL_SHIFTS j) := by
      rw [shlWord, hword, hmoved, Option.bind_some, addWord, hfullNat, hmovedNat]
      exact holds_wordOf (by omega)
    obtain ⟨x, hx, hd⟩ := denotes_reduceU62 hadd (by omega)
    refine ⟨x, hx, ?_⟩
    push_cast at hd
    rwa [hpartValue, hvalue, hvalue] at hd
  choose rest hrest hrestDenotes using hrest
  refine ⟨Vector.ofFn (Fin.cons first rest), ?_, fun i => ?_⟩
  · unfold internalLinearLazy
    rw [hpart, Option.bind_eq_bind, Option.bind_some, addWord, hword, hfull, Option.bind_some, addWord, hshifted,
      Option.bind_some]
    obtain ⟨difference, hdiff, -⟩ := hdifference
    rw [hdiff, Option.bind_some] at hfirst
    rw [hdiff, Option.bind_some, hfirst, Option.bind_eq_bind, Option.bind_some, allSome_eq_some hrest,
      Option.bind_eq_bind, Option.bind_some]
    have hget : (Vector.ofFn rest).get = rest := funext fun j => get_vector_ofFn rest j
    rw [hget]
    rfl
  · rw [get_vector_ofFn]
    refine Fin.cases ?_ (fun j => ?_) i
    · rw [Nat.cast_sub (by omega), Nat.cast_add, ZMod.natCast_self, add_zero, hpartValue, hvalue] at hfirstDenotes
      exact hfirstDenotes
    · exact hrestDenotes j

/-! ### Rounds -/

/-- The constants of all rounds, in order. -/
def ROUNDS : List (Round UInt32) := EXTERNAL_INITIAL.map .full ++ INTERNAL.map .inner ++ EXTERNAL_FINAL.map .full

/-- The kinds of the rounds, in order. -/
def roundKind (round : ℕ) : Poseidon2RoundKind :=
  if round < 4 then .externalInitial round
  else if round < 18 then .internal (round - 4)
  else .externalFinal (round - 18)

/-- A round of the reference. -/
def runRound (state : State) : Round UInt32 → State
  | .full constants => externalLinear (sboxes state constants)
  | .inner constant => internalLinear (sbox state constant)

/-- A round of the optimized kernel. -/
def runRoundLazy (state : State) : Round UInt32 → Option State
  | .full constants => externalLinearLazy (sboxes state constants)
  | .inner constant => internalLinearLazy (sbox state constant)

def Round.Canonical : Round UInt32 → Prop
  | .full constants => ∀ i, constants i < P
  | .inner constant => constant < P

def Round.value : Round UInt32 → Round BaseField
  | .full constants => .full fun i => ((constants i).toNat : BaseField)
  | .inner constant => .inner (constant.toNat : BaseField)

theorem rounds_canonical : ∀ round ∈ ROUNDS, round.Canonical := by
  have hfull : ∀ table : List (Fin 16 → UInt32), (∀ constants ∈ table, ∀ i, constants i < P) →
      ∀ round ∈ table.map Round.full, round.Canonical := by
    intro table htable round hround
    obtain ⟨constants, hmem, rfl⟩ := List.mem_map.mp hround
    exact htable constants hmem
  -- the lists are searched, not the 32-bit words
  have hinitial : EXTERNAL_INITIAL.all (fun constants => decide (∀ i, constants i < P)) = true := by decide
  have hinternal : INTERNAL.all (fun constant => decide (constant < P)) = true := by decide
  have hfinal : EXTERNAL_FINAL.all (fun constants => decide (∀ i, constants i < P)) = true := by decide
  simp only [List.all_eq_true, decide_eq_true_eq] at hinitial hinternal hfinal
  intro round hround
  rcases List.mem_append.mp hround with hround | hround
  · rcases List.mem_append.mp hround with hround | hround
    · exact hfull _ hinitial round hround
    · obtain ⟨constant, hmem, rfl⟩ := List.mem_map.mp hround
      exact hinternal constant hmem
  · exact hfull _ hfinal round hround

theorem length_ROUNDS : ROUNDS.length = 22 := rfl

theorem denotes_sboxes {state : State} {v : Fin 16 → BaseField} {constants : Fin 16 → UInt32} (h : Denotes state v)
    (hconstants : ∀ i, constants i < P) :
    Denotes (sboxes state constants) fun i => (v i + ((constants i).toNat : BaseField)) ^ 5 := by
  intro i
  rw [sboxes, get_vector_ofFn]
  exact denotes_pow5 ((h i).add ⟨hconstants i, rfl⟩)

theorem denotes_sbox {state : State} {v : Fin 16 → BaseField} {constant : UInt32} (h : Denotes state v)
    (hconstant : constant < P) :
    Denotes (sbox state constant) (Function.update v 0 ((v 0 + (constant.toNat : BaseField)) ^ 5)) := by
  intro i
  by_cases hi : i = 0
  · have hget : (sbox state constant).get 0 = pow5 ((state.get 0).add ⟨constant⟩) := Vector.getElem_set_self (by decide)
    rw [hi, Function.update_self, hget]
    exact denotes_pow5 ((h 0).add ⟨hconstant, rfl⟩)
  · rw [Function.update_of_ne hi]
    have hget : (sbox state constant).get i = state.get i := by
      have hne : 0 ≠ i.val := fun h0 => hi (Fin.ext h0.symm)
      exact Vector.getElem_set_ne (by decide) i.isLt hne
    rw [hget]
    exact h i

theorem denotes_runRound {state : State} {v : Fin 16 → BaseField} {round : Round UInt32} (h : Denotes state v)
    (hround : round.Canonical) : Denotes (runRound state round) (applyRound v round.value) := by
  cases round with
  | full constants => exact denotes_externalLinear (denotes_sboxes h hround)
  | inner constant => exact denotes_internalLinear (denotes_sbox h hround)

/-- The lazy round returns, and returns what the reference does. -/
theorem runRoundLazy_eq {state : State} {round : Round UInt32} (h : CanonicalState state) (hround : round.Canonical) :
    runRoundLazy state round = some (runRound state round) := by
  have href := denotes_runRound h.denotes hround
  cases round with
  | full constants =>
    obtain ⟨out, hout, hdenotes⟩ := externalLinearLazy_denotes (denotes_sboxes h.denotes hround)
    exact hout.trans (congrArg some (hdenotes.eq href))
  | inner constant =>
    obtain ⟨out, hout, hdenotes⟩ := internalLinearLazy_denotes (denotes_sbox h.denotes hround)
    exact hout.trans (congrArg some (hdenotes.eq href))

theorem externalLinearLazy_eq {state : State} (h : CanonicalState state) :
    externalLinearLazy state = some (externalLinear state) := by
  obtain ⟨out, hout, hdenotes⟩ := externalLinearLazy_denotes h.denotes
  exact hout.trans (congrArg some (hdenotes.eq (denotes_externalLinear h.denotes)))

/-- A run of rounds over the field. -/
theorem denotes_runRounds {rounds : List (Round UInt32)} : (∀ round ∈ rounds, round.Canonical) →
    ∀ {state : State} {v : Fin 16 → BaseField}, Denotes state v →
    Denotes (rounds.foldl runRound state) ((rounds.map Round.value).foldl applyRound v) := by
  induction rounds with
  | nil =>
    intro _ state v h
    exact h
  | cons round rounds ih =>
    intro hrounds state v h
    have hhead := denotes_runRound h (hrounds round List.mem_cons_self)
    exact ih (fun r hr => hrounds r (List.mem_cons_of_mem round hr)) hhead

theorem permute_eq (state : State) : permute state = ROUNDS.foldl runRound (externalLinear state) := by
  unfold permute ROUNDS
  rw [List.foldl_append, List.foldl_append, List.foldl_map, List.foldl_map, List.foldl_map]
  rfl

/-! ### The permutation loses nothing -/

theorem fifth_power_injective : Function.Injective fun x : BaseField => x ^ 5 := by
  have hinverse : ∀ x : BaseField, (x ^ 5) ^ 1717986917 = x := by
    intro x
    by_cases hx : x = 0
    · rw [hx]
      norm_num
    · have hfermat : x ^ 2147483646 = 1 := ZMod.pow_card_sub_one_eq_one hx
      calc (x ^ 5) ^ 1717986917 = (x ^ 2147483646) ^ 4 * x := by
            rw [← pow_mul, ← pow_mul, ← pow_succ]
        _ = x := by rw [hfermat, one_pow, one_mul]
  intro x y h
  have hpow := congrArg (fun z : BaseField => z ^ 1717986917) h
  simpa only [hinverse] using hpow

theorem permute_injective {s t : State} (hs : CanonicalState s) (ht : CanonicalState t) (h : permute s = permute t) :
    s = t := by
  have hne : ∀ n : ℕ, 0 < n → n < 2147483647 → ((n : ℕ) : BaseField) ≠ 0 := by
    intro n hpos hlt hzero
    have hdvd := (ZMod.natCast_eq_zero_iff n 2147483647).mp hzero
    exact absurd (Nat.le_of_dvd hpos hdvd) (by omega)
  have h35 : (35 : BaseField) ≠ 0 := hne 35 (by decide) (by decide)
  have h2 : (2 : BaseField) ≠ 0 := hne 2 (by decide) (by decide)
  have hdet : (327358 : BaseField) ≠ 0 := hne 327358 (by decide) (by decide)
  have hds := denotes_runRounds rounds_canonical (denotes_externalLinear hs.denotes)
  have hdt := denotes_runRounds rounds_canonical (denotes_externalLinear ht.denotes)
  rw [permute_eq, permute_eq] at h
  rw [h] at hds
  have hfinal : (ROUNDS.map Round.value).foldl applyRound (externalLayer fun i => (s.get i).value) =
      (ROUNDS.map Round.value).foldl applyRound (externalLayer fun i => (t.get i).value) := by
    funext i
    exact (hds i).value_eq.symm.trans (hdt i).value_eq
  have hstart := externalLayer_injective h35 (rounds_injective h35 h2 hdet fifth_power_injective _ hfinal)
  have hdenotes := ht.denotes
  rw [← hstart] at hdenotes
  exact hs.denotes.eq hdenotes

/-! ### The trace -/

/-- A trace from a state: every entry is a round of the evaluator, from the output of the one before
it; only the first applies the leading layer. -/
inductive Recorded (start : State) : List Poseidon2RoundTransition → State → Prop
  | nil : Recorded start [] start
  | snoc {trace : List Poseidon2RoundTransition} {entry : Poseidon2RoundTransition} (hbefore : Recorded start trace entry.input)
      (hround : entry.round = trace.length) (hkind : entry.kind = roundKind entry.round)
      (heval : evaluateTraceRound entry.input entry.round (entry.round == 0) = some entry.output) :
      Recorded start (trace ++ [entry]) entry.output

/-- The state before round `r`. -/
def stateAt (start : State) (r : ℕ) : State := (ROUNDS.take r).foldl runRound (externalLinear start)

theorem stateAt_succ {start : State} {r : ℕ} {round : Round UInt32} (h : ROUNDS[r]? = some round) :
    stateAt start (r + 1) = runRound (stateAt start r) round := by
  unfold stateAt
  rw [List.take_add_one, h, Option.toList_some, List.foldl_append]
  rfl

theorem canonical_stateAt {start : State} (h : CanonicalState start) (r : ℕ) : CanonicalState (stateAt start r) :=
  (denotes_runRounds (fun round hround => rounds_canonical round (List.mem_of_mem_take hround))
    (denotes_externalLinear h.denotes)).canonical

theorem applyRoundByIndex_eq {state : State} {r : ℕ} {round : Round UInt32} (h : ROUNDS[r]? = some round) :
    applyRoundByIndex state r = runRoundLazy state round := by
  have hi : EXTERNAL_INITIAL.length = 4 := rfl
  have hm : INTERNAL.length = 14 := rfl
  have hr : r < 22 := by
    by_contra hge
    rw [List.getElem?_eq_none (by rw [length_ROUNDS]; omega)] at h
    cases h
  unfold applyRoundByIndex
  rw [hi, hm]
  unfold ROUNDS at h
  by_cases h4 : r < 4
  · rw [List.getElem?_append_left (by simp only [List.length_append, List.length_map, hi, hm]; omega),
      List.getElem?_append_left (by rw [List.length_map, hi]; exact h4), List.getElem?_map,
      Option.map_eq_some_iff] at h
    obtain ⟨constants, hget, rfl⟩ := h
    rw [if_pos h4, hget, runRoundLazy, Option.bind_eq_bind, Option.bind_some]
  · rw [if_neg h4]
    by_cases h18 : r < 18
    · rw [List.getElem?_append_left (by simp only [List.length_append, List.length_map, hi, hm]; omega),
        List.getElem?_append_right (by rw [List.length_map, hi]; omega), List.length_map, hi, List.getElem?_map,
        Option.map_eq_some_iff] at h
      obtain ⟨constant, hget, rfl⟩ := h
      rw [if_pos (by omega), hget, runRoundLazy, Option.bind_eq_bind, Option.bind_some]
    · rw [List.getElem?_append_right (by simp only [List.length_append, List.length_map, hi, hm]; omega),
        List.length_append, List.length_map, List.length_map, hi, hm, List.getElem?_map,
        Option.map_eq_some_iff] at h
      obtain ⟨constants, hget, rfl⟩ := h
      rw [if_neg (by omega), if_pos (show r < POSEIDON2_ROUNDS from hr), Nat.sub_sub, hget, runRoundLazy, Option.bind_eq_bind, Option.bind_some]

/-- A round by its index, from the state before it. -/
theorem applyRoundByIndex_stateAt {start : State} (h : CanonicalState start) {r : ℕ} (hr : r < 22) :
    applyRoundByIndex (stateAt start r) r = some (stateAt start (r + 1)) := by
  have hget : ROUNDS[r]? = some (ROUNDS.get ⟨r, hr⟩) := List.getElem?_eq_getElem _
  rw [applyRoundByIndex_eq hget, runRoundLazy_eq (canonical_stateAt h r) (rounds_canonical _ (List.get_mem _ _)),
    stateAt_succ hget]

/-- The input of round `r`: the leading layer belongs to the first. -/
def EntersRound (start : State) (r : ℕ) (input : State) : Prop :=
  r = 0 ∧ input = start ∨ r ≠ 0 ∧ input = stateAt start r

theorem leadingExternal_enters {start input : State} (h : CanonicalState start) {r : ℕ} (henters : EntersRound start r input) :
    leadingExternal (r == 0) input = some (stateAt start r) := by
  unfold leadingExternal
  rcases henters with ⟨rfl, rfl⟩ | ⟨hr, rfl⟩
  · rw [if_pos (beq_self_eq_true 0)]
    exact externalLinearLazy_eq h
  · rw [if_neg (by simpa using hr)]

theorem evaluateTraceRound_enters {start input : State} (h : CanonicalState start) {r : ℕ} (hr : r < 22)
    (henters : EntersRound start r input) : evaluateTraceRound input r (r == 0) = some (stateAt start (r + 1)) := by
  rw [evaluateTraceRound, leadingExternal_enters h henters, Option.bind_eq_bind, Option.bind_some]
  exact applyRoundByIndex_stateAt h hr

/-- The tracer between two rounds. -/
structure TracerAt (start : State) (r : ℕ) (tracer : Tracer) : Prop where
  round : tracer.round = r
  length : tracer.trace.length = r
  state : tracer.state = stateAt start r
  recorded : Recorded start tracer.trace tracer.input
  enters : EntersRound start r tracer.input

theorem TracerAt.step {start : State} (h : CanonicalState start) {r : ℕ} {tracer : Tracer} (hat : TracerAt start r tracer)
    (hr : r < 22) : TracerAt start (r + 1) (tracer.record (roundKind r) (stateAt start (r + 1))) := by
  obtain ⟨hround, hlength, hstate, hrecorded, henters⟩ := hat
  have heval := evaluateTraceRound_enters h hr henters
  generalize houtput : stateAt start (r + 1) = output at heval ⊢
  have hentry : Recorded start (tracer.trace ++ [⟨tracer.round, roundKind r, tracer.input, output⟩]) output :=
    @Recorded.snoc start tracer.trace ⟨tracer.round, roundKind r, tracer.input, output⟩ hrecorded
      (hround.trans hlength.symm) (congrArg roundKind hround.symm) (by rw [hround]; exact heval)
  refine ⟨congrArg (· + 1) hround, ?_, houtput.symm, hentry, Or.inr ⟨Nat.succ_ne_zero r, houtput.symm⟩⟩
  rw [Tracer.record, List.length_append, hlength, List.length_singleton]

/-- A pass over a list of rounds. -/
def pass (kind : ℕ → Poseidon2RoundKind) : ℕ → List (Round UInt32) → Tracer → Option Tracer
  | _, [], self => some self
  | index, round :: rest, self => do
    let output ← runRoundLazy self.state round
    pass kind (index + 1) rest (self.record (kind index) output)

theorem externalPass_eq (kind : ℕ → Poseidon2RoundKind) : ∀ (table : List (Fin 16 → UInt32)) (index : ℕ)
    (tracer : Tracer), externalPass kind index table tracer = pass kind index (table.map .full) tracer
  | [], _, _ => rfl
  | constants :: table, index, tracer => by
    rw [externalPass, List.map_cons, pass]
    simp only [externalPass_eq kind table]
    rfl

theorem internalPass_eq : ∀ (table : List UInt32) (index : ℕ) (tracer : Tracer),
    internalPass index table tracer = pass .internal index (table.map .inner) tracer
  | [], _, _ => rfl
  | constant :: table, index, tracer => by
    rw [internalPass, List.map_cons, pass]
    simp only [internalPass_eq table]
    rfl

/-- A pass over the rounds from `r` on carries the tracer behind them. -/
theorem TracerAt.pass {start : State} (h : CanonicalState start) {kind : ℕ → Poseidon2RoundKind} :
    ∀ {rounds : List (Round UInt32)} {index r : ℕ} {tracer : Tracer}, TracerAt start r tracer →
    (∀ j round, rounds[j]? = some round → ROUNDS[r + j]? = some round ∧ kind (index + j) = roundKind (r + j)) →
    ∃ last, Poseidon2.pass kind index rounds tracer = some last ∧ TracerAt start (r + rounds.length) last := by
  intro rounds
  induction rounds with
  | nil =>
    intro index r tracer hat _
    exact ⟨tracer, rfl, hat⟩
  | cons round rounds ih =>
    intro index r tracer hat hrounds
    obtain ⟨hget, hkind⟩ := hrounds 0 round rfl
    rw [Nat.add_zero] at hget hkind
    have hr : r < 22 := by
      by_contra hge
      rw [List.getElem?_eq_none (by rw [length_ROUNDS]; omega)] at hget
      cases hget
    have hround : runRoundLazy tracer.state round = some (stateAt start (r + 1)) := by
      rw [hat.state, ← applyRoundByIndex_eq hget]
      exact applyRoundByIndex_stateAt h hr
    obtain ⟨last, hpass, hlast⟩ := ih (hat.step h hr) fun j next hnext => by
      have hsucc := hrounds (j + 1) next hnext
      rwa [Nat.add_comm j 1, ← Nat.add_assoc, ← Nat.add_assoc] at hsucc
    refine ⟨last, ?_, ?_⟩
    · rw [Poseidon2.pass, hround, Option.bind_eq_bind, Option.bind_some, hkind]
      exact hpass
    · rw [List.length_cons, Nat.add_comm rounds.length 1, ← Nat.add_assoc]
      exact hlast

theorem initial_rounds : ∀ j round, (EXTERNAL_INITIAL.map Round.full)[j]? = some round →
    ROUNDS[0 + j]? = some round ∧ Poseidon2RoundKind.externalInitial (0 + j) = roundKind (0 + j) := by
  intro j round h
  have hj : j < 4 := by
    by_contra hge
    rw [List.getElem?_eq_none (by rw [List.length_map]; exact not_lt.mp hge)] at h
    cases h
  rw [Nat.zero_add, roundKind, if_pos hj]
  refine ⟨?_, rfl⟩
  rw [← h, ROUNDS, List.append_assoc, List.getElem?_append_left (by rw [List.length_map]; exact hj)]

theorem internal_rounds : ∀ j round, (INTERNAL.map Round.inner)[j]? = some round →
    ROUNDS[4 + j]? = some round ∧ Poseidon2RoundKind.internal (0 + j) = roundKind (4 + j) := by
  intro j round h
  have hj : j < 14 := by
    by_contra hge
    rw [List.getElem?_eq_none (by rw [List.length_map]; exact not_lt.mp hge)] at h
    cases h
  have hlen : (EXTERNAL_INITIAL.map Round.full).length = 4 := rfl
  have hmid : (INTERNAL.map Round.inner).length = 14 := rfl
  rw [roundKind, if_neg (by omega), if_pos (by omega), Nat.add_sub_cancel_left, Nat.zero_add]
  refine ⟨?_, rfl⟩
  rw [← h, ROUNDS, List.append_assoc, List.getElem?_append_right (by rw [hlen]; omega), hlen, Nat.add_sub_cancel_left,
    List.getElem?_append_left (by rw [hmid]; exact hj)]

theorem final_rounds : ∀ j round, (EXTERNAL_FINAL.map Round.full)[j]? = some round →
    ROUNDS[18 + j]? = some round ∧ Poseidon2RoundKind.externalFinal (0 + j) = roundKind (18 + j) := by
  intro j round h
  have hlen : (EXTERNAL_INITIAL.map Round.full ++ INTERNAL.map Round.inner).length = 18 := rfl
  rw [roundKind, if_neg (by omega), if_neg (by omega), Nat.add_sub_cancel_left, Nat.zero_add]
  refine ⟨?_, rfl⟩
  rw [← h, ROUNDS, List.getElem?_append_right (by rw [hlen]; omega), hlen, Nat.add_sub_cancel_left]

theorem stateAt_last (start : State) : stateAt start 22 = permute start := by
  rw [permute_eq, stateAt, List.take_of_length_le (by rw [length_ROUNDS])]

/-- The traced permutation returns the result of the reference and a whole trace of it. -/
theorem permuteOptimizedWithTrace_eq {start : State} (h : CanonicalState start) :
    ∃ trace, permuteOptimizedWithTrace start = some (permute start, trace) ∧ trace.length = 22 ∧
      Recorded start trace (permute start) := by
  have hbegin : TracerAt start 0 ⟨externalLinear start, start, 0, []⟩ :=
    ⟨rfl, rfl, rfl, .nil, Or.inl ⟨rfl, rfl⟩⟩
  obtain ⟨first, hfirst, hat1⟩ := hbegin.pass h initial_rounds
  have hlen1 : 0 + (EXTERNAL_INITIAL.map Round.full).length = 4 := rfl
  rw [hlen1] at hat1
  obtain ⟨second, hsecond, hat2⟩ := hat1.pass h internal_rounds
  have hlen2 : 4 + (INTERNAL.map Round.inner).length = 18 := rfl
  rw [hlen2] at hat2
  obtain ⟨third, hthird, hat⟩ := hat2.pass h final_rounds
  have hlen3 : 18 + (EXTERNAL_FINAL.map Round.full).length = 22 := rfl
  rw [hlen3] at hat
  have hstate : third.state = permute start := hat.state.trans (stateAt_last start)
  have hinput : third.input = permute start := by
    rcases hat.enters with ⟨hzero, -⟩ | ⟨-, hinput⟩
    · cases hzero
    · exact hinput.trans (stateAt_last start)
  refine ⟨third.trace, ?_, hat.length, ?_⟩
  · rw [permuteOptimizedWithTrace, externalLinearLazy_eq h, Option.bind_eq_bind, Option.bind_some, externalPass_eq,
      hfirst, Option.bind_eq_bind, Option.bind_some, internalPass_eq, hsecond, Option.bind_some, externalPass_eq, hthird,
      Option.bind_some, hstate, Option.pure_def]
  · have hrecorded := hat.recorded
    rwa [hinput] at hrecorded

/-- The evaluator of single rounds, run through the first `n`. -/
theorem fold_rounds {start : State} (h : CanonicalState start) : ∀ n ≤ 22,
    ∃ input, (List.range n).foldlM (fun state round => evaluateTraceRound state round (round == 0)) start = some input ∧
      EntersRound start n input
  | 0, _ => ⟨start, rfl, Or.inl ⟨rfl, rfl⟩⟩
  | n + 1, hn => by
    obtain ⟨input, hfold, henters⟩ := fold_rounds h n (by omega)
    refine ⟨stateAt start (n + 1), ?_, Or.inr ⟨Nat.succ_ne_zero n, rfl⟩⟩
    rw [List.range_succ, List.foldlM_append, hfold, Option.bind_eq_bind, Option.bind_some, List.foldlM_cons,
      evaluateTraceRound_enters h (by omega) henters, Option.bind_eq_bind, Option.bind_some, List.foldlM_nil,
      Option.pure_def]

/-- The evaluator of pairs of rounds, run through the first `n`. -/
theorem fold_pairs {start : State} (h : CanonicalState start) : ∀ n ≤ 11,
    ∃ input, (List.range n).foldlM (fun state row => (evaluateTraceRoundPair state row).map Prod.snd) start = some input ∧
      EntersRound start (2 * n) input
  | 0, _ => ⟨start, rfl, Or.inl ⟨rfl, rfl⟩⟩
  | n + 1, hn => by
    obtain ⟨input, hfold, henters⟩ := fold_pairs h n (by omega)
    have hrow : (n == 0) = (2 * n == 0) := by
      rw [Bool.eq_iff_iff, beq_iff_eq, beq_iff_eq]
      omega
    have hpair : evaluateTraceRoundPair input n = some (stateAt start (2 * n + 1), stateAt start (2 * n + 1 + 1)) := by
      rw [evaluateTraceRoundPair, if_neg (show ¬ POSEIDON2_ROUNDS / 2 ≤ n from by rw [POSEIDON2_ROUNDS]; omega), hrow,
        leadingExternal_enters h henters, Option.bind_eq_bind, Option.bind_some,
        applyRoundByIndex_stateAt h (by omega), Option.bind_some, applyRoundByIndex_stateAt h (by omega)]
      rfl
    have hsucc : 2 * (n + 1) = 2 * n + 1 + 1 := by omega
    refine ⟨stateAt start (2 * n + 1 + 1), ?_, Or.inr ⟨by omega, by rw [hsucc]⟩⟩
    rw [List.range_succ, List.foldlM_append, hfold, Option.bind_eq_bind, Option.bind_some, List.foldlM_cons, hpair,
      Option.map_some, Option.bind_eq_bind, Option.bind_some, List.foldlM_nil, Option.pure_def]

theorem enters_last {start input : State} (h : EntersRound start 22 input) : input = permute start := by
  rcases h with ⟨hzero, -⟩ | ⟨-, hinput⟩
  · cases hzero
  · exact hinput.trans (stateAt_last start)

/-- On every canonical state the optimized permutation returns the state of the reference, and no
check of its 64-bit sums fails; its trace is a chain of rounds to that state, as are the evaluators
of single rounds and of pairs; and no other canonical state is permuted to it. -/
theorem permutation_optimized_exact (state : State) (hstate : CanonicalState state) :
    permuteOptimized state = some (permute state) ∧ CanonicalState (permute state) ∧
    (∃ trace, permuteOptimizedWithTrace state = some (permute state, trace) ∧ trace.length = POSEIDON2_ROUNDS ∧
      Recorded state trace (permute state)) ∧
    (List.range POSEIDON2_ROUNDS).foldlM (fun state round => evaluateTraceRound state round (round == 0)) state =
      some (permute state) ∧
    (List.range (POSEIDON2_ROUNDS / 2)).foldlM (fun state row => (evaluateTraceRoundPair state row).map Prod.snd) state =
      some (permute state) ∧
    ∀ other, CanonicalState other → permute other = permute state → other = state := by
  obtain ⟨trace, htrace, hlength, hrecorded⟩ := permuteOptimizedWithTrace_eq hstate
  obtain ⟨last, hrounds, hlast⟩ := fold_rounds hstate 22 le_rfl
  obtain ⟨last', hpairs, hlast'⟩ := fold_pairs hstate 11 le_rfl
  rw [enters_last hlast] at hrounds
  rw [enters_last hlast'] at hpairs
  refine ⟨?_, ?_, ⟨trace, htrace, hlength, hrecorded⟩, hrounds, hpairs, fun other hother h => ?_⟩
  · rw [permuteOptimized, htrace]
    rfl
  · rw [← stateAt_last]
    exact canonical_stateAt hstate 22
  · exact permute_injective hother hstate h

theorem permutation_optimized_exact_sample :
    CanonicalState (Vector.replicate 16 M31.one) ∧
    permuteOptimized (Vector.replicate 16 M31.one) = some (permute (Vector.replicate 16 M31.one)) := by
  have hstate : CanonicalState (Vector.replicate 16 M31.one) := by
    unfold CanonicalState
    decide
  exact ⟨hstate, (permutation_optimized_exact _ hstate).1⟩

end Aspis.Poseidon2
