import Aspis.Core.CirclePoint
import Aspis.Core.LaneZeta
import Aspis.Core.OneFoldWire
import Aspis.Core.RoundPolynomial

/-! The compact rounds. A round message leaves one coefficient of its polynomial out, which the reader
recomputes so that the boundary sum is the running claim: the linear one of the semantic rounds, from the
sums of the limbs, and the fourth one of the relation rounds, from a quarter of the claim. -/

namespace Aspis.Core

open Aspis.Lib Aspis.Lib.PowerSum Aspis.Lib.Accumulate
open scoped Widths


def STATE_ONLY_SUMCHECK_COEFFICIENTS : ℕ := 28
def V6_SEMANTIC_ROUNDS : ℕ := 10
def V6_SEMANTIC_SENT_VALUES : ℕ := 27
def V6_RELATION_SENT_VALUES : ℕ := 6

abbrev StateOnlySumcheckPolynomial := Vector QM31 28

/-! ### The limb sums -/

/-- The limbs of an element as 64-bit words. -/
def wideLimbs (value : QM31) : Fin 4 → UInt64 := fun k => (limbs value k).val.toUInt64

/-- Twice the limbs of the first coefficient plus those of the others. -/
def boundaryLimbs (first : QM31) (rest : List QM31) : Fin 4 → UInt64 :=
  rest.foldl (fun sums value k => sums k + wideLimbs value k) fun k => 2 * wideLimbs first k

def reduceLimbs (sums : Fin 4 → UInt64) : QM31 :=
  ⟨⟨M31.reduceU64 (sums 0), M31.reduceU64 (sums 1)⟩, ⟨M31.reduceU64 (sums 2), M31.reduceU64 (sums 3)⟩⟩

def stateOnlyBoundarySum (polynomial : StateOnlySumcheckPolynomial) : QM31 :=
  reduceLimbs (boundaryLimbs polynomial.head polynomial.tail.toList)

/-! ### The semantic rounds -/

/-- The polynomial of a message: the linear coefficient is what the claim leaves. -/
def compactSemanticPolynomial (sent : Vector QM31 27) (runningClaim : QM31) : StateOnlySumcheckPolynomial :=
  #v[sent.head, runningClaim.sub (reduceLimbs (boundaryLimbs sent.head sent.tail.toList))] ++ sent.tail

/-- Four coefficients at three powers. -/
def blockValue (polynomial : StateOnlySumcheckPolynomial) (powers : Vector QM31 3) (block : ℕ) : Option QM31 := do
  let start := 4 * block
  let c0 ← polynomial[start]?
  let c1 ← polynomial[start + 1]?
  let c2 ← polynomial[start + 2]?
  let c3 ← polynomial[start + 3]?
  let products ← qm31SumProducts3 powers #v[c1, c2, c3]
  return c0.add products

def evaluateStateOnlyPolynomial (polynomial : StateOnlySumcheckPolynomial) (challenge : QM31) : Option QM31 := do
  let x2 := challenge.square
  let x3 := challenge.mul x2
  let x4 := x2.square
  let powers := #v[challenge, x2, x3]
  let preparedX4 := PreparedQm31Multiplier.new x4
  let accumulator ← blockValue polynomial powers 6
  [5, 4, 3, 2, 1, 0].foldlM (fun accumulator block => do
    let value ← blockValue polynomial powers block
    return (preparedX4.mul accumulator).add value) accumulator

inductive V6TranscriptError
  | wire (error : DecodeFailure)
  | challengeSampling
  | overflow
  deriving DecidableEq, Repr

namespace Label

def M31_STATE_ONLY_HIDING_MASK_CLAIM : UInt8 := 31
def V6_COMPACT_SEMANTIC_ROUND : UInt8 := 48

end Label

def QM31.toLeBytes (value : QM31) : Bytes := [value.c0.a, value.c0.b, value.c1.a, value.c1.b].flatMap fun limb => u32Bytes limb.val

def beginStateOnlyMaskedSumcheck (transcript : Transcript) (initialMaskClaim : QM31) :
    Except ChallengeSampleExhausted QM31 × Transcript :=
  (transcript.absorb Label.M31_STATE_ONLY_HIDING_MASK_CLAIM ([27, 10] ++ initialMaskClaim.toLeBytes)).challengeNonzeroQm31

section Rounds
variable {F : Type} (nextQm31 : F → Except DecodeFailure (QM31 × F))

/-- What the loop over the rounds carries. -/
structure SemanticState (F : Type) where
  transcript : Transcript
  fields : F
  runningClaim : QM31
  point : List QM31

/-- The next values of the stream. -/
def readSent : ℕ → F → Except V6TranscriptError (List QM31 × F)
  | 0, fields => .ok ([], fields)
  | count + 1, fields => do
    let (value, fields) ← mapErr V6TranscriptError.wire (nextQm31 fields)
    let (rest, fields) ← readSent count fields
    return (value :: rest, fields)

theorem readSent_length : ∀ {count : ℕ} {fields : F} {sent : List QM31} {fields' : F},
    readSent nextQm31 count fields = .ok (sent, fields') → sent.length = count
  | 0, _, _, _, h => by
    obtain ⟨rfl, _⟩ := Prod.mk.inj (Except.ok.inj h)
    rfl
  | count + 1, fields, sent, fields', h => by
    obtain ⟨⟨value, next⟩, _, h⟩ := except_bind_eq_ok.mp h
    obtain ⟨⟨rest, last⟩, hrest, h⟩ := except_bind_eq_ok.mp h
    obtain ⟨rfl, _⟩ := Prod.mk.inj (Except.ok.inj h)
    rw [List.length_cons, readSent_length hrest]

/-- The values of one message. -/
def readMessage (fields : F) : Except V6TranscriptError (Vector QM31 27 × F) :=
  match h : readSent nextQm31 27 fields with
  | .error e => .error e
  | .ok (sent, fields) => .ok (⟨sent.toArray, by rw [List.size_toArray, readSent_length nextQm31 h]⟩, fields)

def semanticRound (state : SemanticState F) (round : ℕ) : Except V6TranscriptError (SemanticState F) := do
  let (sent, fields) ← readMessage nextQm31 state.fields
  let polynomial := compactSemanticPolynomial sent state.runningClaim
  let framed := UInt8.ofNat round :: sent.toList.flatMap QM31.toLeBytes
  let (drawn, transcript) := (state.transcript.absorb Label.V6_COMPACT_SEMANTIC_ROUND framed).challengeQm31
  let challenge ← mapErr (fun _ => V6TranscriptError.challengeSampling) drawn
  let runningClaim ← okOr (evaluateStateOnlyPolynomial polynomial challenge) V6TranscriptError.overflow
  return ⟨transcript, fields, runningClaim, state.point ++ [challenge]⟩

def verifyCompactSemanticSumcheck (transcript : Transcript) (fields : F) :
    Except V6TranscriptError (QM31 × SemanticState F) := do
  let (initialClaim, fields) ← mapErr V6TranscriptError.wire (nextQm31 fields)
  let (drawn, transcript) := beginStateOnlyMaskedSumcheck transcript initialClaim
  let eta ← mapErr (fun _ => V6TranscriptError.challengeSampling) drawn
  let state ← (List.range V6_SEMANTIC_ROUNDS).foldlM (semanticRound nextQm31) ⟨transcript, fields, initialClaim, []⟩
  return (eta, state)

end Rounds

/-! ### The relation rounds -/

def decodeCompactRelationPolynomial (sent : Vector QM31 6) (runningClaim : QM31) : SumcheckPolynomial :=
  #v[sent.get 0, sent.get 1, sent.get 2, sent.get 3, (runningClaim.mulM31 M31_QUARTER).sub (sent.get 0), sent.get 4, sent.get 5]

/-! ### What the limb sums stand for -/

/-- Limb sums of so many canonical elements, and the element they stand for. -/
structure SumsTo (sums : Fin 4 → UInt64) (count : ℕ) (v : QuarticField) : Prop where
  bound : ∀ k, (sums k).toNat ≤ count * 2147483646
  value : (⟨⟨((sums 0).toNat : BaseField), ((sums 1).toNat : BaseField)⟩,
    ⟨((sums 2).toNat : BaseField), ((sums 3).toNat : BaseField)⟩⟩ : QuarticField) = v

theorem wideLimbs_le {x : QM31} (hx : x.Canonical) (k : Fin 4) : (wideLimbs x k).toNat ≤ 2147483646 := by
  have hlimb : (limbs x k).Canonical := by
    fin_cases k
    · exact hx.1.1
    · exact hx.1.2
    · exact hx.2.1
    · exact hx.2.2
  have hlt := hlimb.lt
  rw [wideLimbs, UInt32.toNat_toUInt64]
  omega

theorem sumsTo_wideLimbs {x : QM31} (hx : x.Canonical) : SumsTo (wideLimbs x) 1 x.value := by
  refine ⟨fun k => by rw [one_mul]; exact wideLimbs_le hx k, ?_⟩
  unfold wideLimbs
  rw [UInt32.toNat_toUInt64, UInt32.toNat_toUInt64, UInt32.toNat_toUInt64, UInt32.toNat_toUInt64]
  rfl

theorem SumsTo.add {sums sums' : Fin 4 → UInt64} {count count' : ℕ} {v w : QuarticField} (h : SumsTo sums count v)
    (h' : SumsTo sums' count' w) (hcount : count + count' ≤ 2 ^ 32) :
    SumsTo (fun k => sums k + sums' k) (count + count') (v + w) := by
  have hsum : ∀ k, (sums k + sums' k).toNat = (sums k).toNat + (sums' k).toNat := by
    intro k
    have h1 := h.bound k
    have h2 := h'.bound k
    rw [UInt64.toNat_add]
    apply Nat.mod_eq_of_lt
    omega
  refine ⟨fun k => ?_, ?_⟩
  · have h1 := h.bound k
    have h2 := h'.bound k
    rw [hsum k, add_mul]
    omega
  · rw [← h.value, ← h'.value, hsum, hsum, hsum, hsum, Nat.cast_add, Nat.cast_add, Nat.cast_add, Nat.cast_add]
    rfl

theorem SumsTo.reduce {sums : Fin 4 → UInt64} {count : ℕ} {v : QuarticField} (h : SumsTo sums count v) :
    (reduceLimbs sums).Denotes v := by
  rw [← h.value]
  exact ⟨⟨M31.denotes_reduceU64 _, M31.denotes_reduceU64 _⟩, M31.denotes_reduceU64 _, M31.denotes_reduceU64 _⟩

theorem boundaryLimbs_sumsTo {first : QM31} {rest : List QM31} (hfirst : first.Canonical) (hrest : ∀ x ∈ rest, x.Canonical)
    (hlen : rest.length + 2 ≤ 2 ^ 32) :
    (reduceLimbs (boundaryLimbs first rest)).Denotes (first.value + first.value + (rest.map QM31.value).sum) := by
  have htwice : SumsTo (fun k => 2 * wideLimbs first k) 2 (first.value + first.value) := by
    have hadd := (sumsTo_wideLimbs hfirst).add (sumsTo_wideLimbs hfirst) (by norm_num)
    have heq : (fun k => 2 * wideLimbs first k) = fun k => wideLimbs first k + wideLimbs first k := by
      funext k
      exact UInt64.two_mul
    rw [heq]
    exact hadd
  -- the count rides along with the sum, so that the bound is only asked for at the end
  have hfold := @foldl_accumulates _ _ (ℕ × QuarticField) _ (fun sums m => m.1 ≤ 2 ^ 32 → SumsTo sums m.1 m.2)
    (fun sums value k => sums k + wideLimbs value k) (fun x => (1, x.value)) rest
    (fun x hx sums m hm hbound => by
      rw [Prod.fst_add] at hbound ⊢
      exact (hm (by omega)).add (sumsTo_wideLimbs (hrest x hx)) hbound) _ (2, first.value + first.value) fun _ => htwice
  have hpairs : (rest.map fun x => ((1, x.value) : ℕ × QuarticField)).sum = (rest.length, (rest.map QM31.value).sum) := by
    clear hlen hfold hrest
    induction rest with
    | nil => rfl
    | cons x rest ih =>
      rw [List.map_cons, List.sum_cons, ih, List.map_cons, List.sum_cons, List.length_cons, Prod.mk_add_mk, add_comm 1]
  rw [hpairs, Prod.mk_add_mk] at hfold
  exact (hfold (by omega)).reduce

/-! ### The evaluation by blocks -/

theorem sum_products3 {x y z u v w : QM31} (hx : x.Canonical) (hy : y.Canonical) (hz : z.Canonical) (hu : u.Canonical)
    (hv : v.Canonical) (hw : w.Canonical) : ∃ q, qm31SumProducts3 #v[x, y, z] #v[u, v, w] = some q ∧
      q.Denotes (x.value * u.value + y.value * v.value + z.value * w.value) := by
  have hkernel := @sumProductsSmall_exact 3 #v[x, y, z] #v[u, v, w] (by simp [hx, hy, hz]) (by simp [hu, hv, hw]) (by decide)
  refine ⟨_, hkernel, ?_⟩
  have hsum := ((QM31.denotes_zero.add (hx.denotes.mul hu.denotes)).add (hy.denotes.mul hv.denotes)).add
    (hz.denotes.mul hw.denotes)
  rw [zero_add] at hsum
  exact hsum

/-- The values of the coefficients, lowest first. -/
def coefficientValues {n : ℕ} (polynomial : Vector QM31 n) : List QuarticField := polynomial.toList.map QM31.value

section Evaluation
variable {polynomial : StateOnlySumcheckPolynomial} {challenge : QM31} {x : QuarticField}

theorem coefficient_at (hcanonical : ∀ c ∈ polynomial.toList, c.Canonical) {i : ℕ} (hi : i < 28) :
    ∃ c, polynomial[i]? = some c ∧ c.Canonical ∧
      (coefficientValues polynomial).drop i = c.value :: (coefficientValues polynomial).drop (i + 1) := by
  have hlen : i < polynomial.toList.length := by rw [Vector.length_toList]; exact hi
  have hlen' : i < (coefficientValues polynomial).length := by rw [coefficientValues, List.length_map]; exact hlen
  refine ⟨polynomial.toList[i], ?_, hcanonical _ (List.getElem_mem hlen), ?_⟩
  · rw [← Vector.getElem?_toList, List.getElem?_eq_getElem hlen]
  · rw [List.drop_eq_getElem_cons hlen']
    congr 1
    exact List.getElem_map _

/-- A block and the blocks above it. -/
theorem blockValue_denotes (hcanonical : ∀ c ∈ polynomial.toList, c.Canonical) (hx : challenge.Denotes x) {block : ℕ}
    (hblock : block < 7) :
    ∃ q, blockValue polynomial #v[challenge, challenge.square, challenge.mul challenge.square] block = some q ∧ q.Canonical ∧
      powerSum x ((coefficientValues polynomial).drop (4 * block)) =
        q.value + x ^ 4 * powerSum x ((coefficientValues polynomial).drop (4 * (block + 1))) := by
  obtain ⟨c0, hget0, hc0, hdrop0⟩ := coefficient_at hcanonical (show 4 * block < 28 by omega)
  obtain ⟨c1, hget1, hc1, hdrop1⟩ := coefficient_at hcanonical (show 4 * block + 1 < 28 by omega)
  obtain ⟨c2, hget2, hc2, hdrop2⟩ := coefficient_at hcanonical (show 4 * block + 2 < 28 by omega)
  obtain ⟨c3, hget3, hc3, hdrop3⟩ := coefficient_at hcanonical (show 4 * block + 3 < 28 by omega)
  obtain ⟨products, hproducts, hdenotes⟩ :=
    sum_products3 hx.canonical hx.square.canonical (hx.mul hx.square).canonical hc1 hc2 hc3
  have hsum := hc0.denotes.add hdenotes
  refine ⟨c0.add products, ?_, hsum.canonical, ?_⟩
  · rw [blockValue, hget0, hget1, hget2, hget3, Option.bind_eq_bind, Option.bind_some, Option.bind_some,
      Option.bind_some, Option.bind_some, hproducts]
    rfl
  · have hnext : 4 * (block + 1) = 4 * block + 3 + 1 := by omega
    rw [hnext, hdrop0, hdrop1, hdrop2, hdrop3, hsum.value_eq, hx.value_eq, hx.square.value_eq, (hx.mul hx.square).value_eq]
    simp only [powerSum_cons]
    ring

theorem horner_blocks (hcanonical : ∀ c ∈ polynomial.toList, c.Canonical) (hx : challenge.Denotes x) :
    ∀ (n : ℕ) {accumulator : QM31}, n < 7 →
      accumulator.Denotes (powerSum x ((coefficientValues polynomial).drop (4 * n))) →
      ∃ q, (List.range n).reverse.foldlM (fun accumulator block => do
        let value ← blockValue polynomial #v[challenge, challenge.square, challenge.mul challenge.square] block
        return ((PreparedQm31Multiplier.new challenge.square.square).mul accumulator).add value) accumulator = some q ∧
        q.Denotes (powerSum x (coefficientValues polynomial))
  | 0, accumulator, _, h => ⟨accumulator, rfl, h⟩
  | n + 1, accumulator, hn, h => by
    obtain ⟨value, hvalue, hcanonicalValue, hsum⟩ := blockValue_denotes hcanonical hx (show n < 7 by omega)
    have hnext := (prepared_mul_denotes hx.square.square h).add hcanonicalValue.denotes
    have heq : x * x * (x * x) * powerSum x ((coefficientValues polynomial).drop (4 * (n + 1))) + value.value =
        powerSum x ((coefficientValues polynomial).drop (4 * n)) := by
      rw [hsum]
      ring
    rw [heq] at hnext
    rw [List.range_succ, List.reverse_append, List.reverse_singleton, List.singleton_append, List.foldlM_cons, hvalue]
    exact horner_blocks hcanonical hx n (by omega) hnext

/-- The evaluation by blocks is the value of the polynomial. -/
theorem evaluateStateOnlyPolynomial_denotes (hcanonical : ∀ c ∈ polynomial.toList, c.Canonical) (hx : challenge.Denotes x) :
    ∃ q, evaluateStateOnlyPolynomial polynomial challenge = some q ∧
      q.Denotes (powerSum x (coefficientValues polynomial)) := by
  obtain ⟨top, htop, hcanonicalTop, hsum⟩ := blockValue_denotes hcanonical hx (show 6 < 7 by decide)
  have hend : (coefficientValues polynomial).drop (4 * (6 + 1)) = [] := by
    apply List.drop_eq_nil_of_le
    rw [coefficientValues, List.length_map, Vector.length_toList]
  rw [hend, powerSum_nil, mul_zero, add_zero] at hsum
  have hstart := hcanonicalTop.denotes
  rw [← hsum] at hstart
  obtain ⟨q, hq, hdenotes⟩ := horner_blocks hcanonical hx 6 (by decide) hstart
  refine ⟨q, ?_, hdenotes⟩
  rw [evaluateStateOnlyPolynomial, htop]
  exact hq

end Evaluation

/-! ### A round -/

/-- What a compact round guarantees about every true polynomial of the degree: with the boundary sum of the claim it is
rebuilt from its other coefficients, and with another one it meets the next claim at no more challenges than its degree. -/
structure RoundSound (d : ℕ) (boundary : Polynomial QuarticField → QuarticField) (omitted : ℕ) (sent : List QuarticField)
    (claim : QuarticField) (coefficients : List QuarticField) (next : QM31 → Option QM31) : Prop where
  rebuilt : ∀ p : Polynomial QuarticField, p.natDegree ≤ d → boundary p = claim →
    sent = ((List.range (d + 1)).map p.coeff).eraseIdx omitted → coefficients = (List.range (d + 1)).map p.coeff
  sound : ∀ p : Polynomial QuarticField, p.natDegree ≤ d → boundary p ≠ claim → ∀ challenges : Finset QM31,
    (∀ x ∈ challenges, x.Canonical ∧ (next x).map QM31.value = some (p.eval x.value)) → challenges.card ≤ d

section Round
variable {d omitted : ℕ} {boundary : Polynomial QuarticField → QuarticField} {sent coefficients : List QuarticField}
  {claim : QuarticField} {next : QM31 → Option QM31}

theorem natDegree_ofCoefficients_le (hlen : coefficients.length = d + 1) : (ofCoefficients coefficients).natDegree ≤ d := by
  have hne : coefficients ≠ [] := by
    rintro rfl
    cases hlen
  have hlt := natDegree_ofCoefficients_lt hne
  omega

theorem coeff_eq_of_eraseIdx (hlen : coefficients.length = d + 1) {p : Polynomial QuarticField} (hp : p.natDegree ≤ d)
    (h : coefficients.eraseIdx omitted = ((List.range (d + 1)).map p.coeff).eraseIdx omitted) {i : ℕ} (hi : i ≠ omitted) :
    (ofCoefficients coefficients).coeff i = p.coeff i := by
  rw [coeff_ofCoefficients]
  by_cases hlt : i < d + 1
  · have hget : coefficients[i]? = ((List.range (d + 1)).map p.coeff)[i]? := by
      by_cases hbelow : i < omitted
      · have hat := congrArg (fun l => l[i]?) h
        rwa [List.getElem?_eraseIdx, if_pos hbelow, List.getElem?_eraseIdx, if_pos hbelow] at hat
      · obtain ⟨j, rfl⟩ : ∃ j, i = j + 1 := ⟨i - 1, by omega⟩
        have hat := congrArg (fun l => l[j]?) h
        rwa [List.getElem?_eraseIdx, if_neg (by omega), List.getElem?_eraseIdx, if_neg (by omega)] at hat
    rw [List.getD_eq_getElem?_getD, hget, List.getElem?_map, List.getElem?_range hlt]
    rfl
  · rw [List.getD_eq_getElem?_getD, List.getElem?_eq_none (by omega), Polynomial.coeff_eq_zero_of_natDegree_lt (by omega)]
    rfl

/-- A round whose polynomial has the boundary sum of the claim, where the boundary sum fixes the omitted coefficient. -/
theorem roundSound_of (hlen : coefficients.length = d + 1) (hsent : coefficients.eraseIdx omitted = sent)
    (hboundary : boundary (ofCoefficients coefficients) = claim)
    (hunique : ∀ p q : Polynomial QuarticField, p.natDegree ≤ d → q.natDegree ≤ d →
      (∀ i, i ≠ omitted → p.coeff i = q.coeff i) → boundary p = boundary q → p = q)
    (hnext : ∀ x : QM31, x.Canonical → ∃ q, next x = some q ∧ q.Denotes (powerSum x.value coefficients)) :
    RoundSound d boundary omitted sent claim coefficients next := by
  have hdegree := natDegree_ofCoefficients_le hlen
  refine ⟨fun p hp hclaim hcoefficients => ?_, fun p hp hclaim challenges hchallenges => ?_⟩
  · rw [← hsent] at hcoefficients
    have heq : ofCoefficients coefficients = p := hunique _ _ hdegree hp
      (fun i hi => coeff_eq_of_eraseIdx hlen hp hcoefficients hi) (hboundary.trans hclaim.symm)
    apply List.ext_getElem (by rw [hlen, List.length_map, List.length_range])
    intro i hi hi'
    have hcoeff := coeff_ofCoefficients coefficients i
    rw [heq, List.getD_eq_getElem _ _ hi] at hcoeff
    rw [List.getElem_map, List.getElem_range, ← hcoeff]
  · have hne : ofCoefficients coefficients ≠ p := by
      rintro rfl
      exact hclaim hboundary
    have hinjective : Set.InjOn QM31.value challenges :=
      QM31.value_bijOn.injOn.mono fun x hx => (hchallenges x hx).1
    classical
    rw [← Finset.card_image_of_injOn hinjective]
    apply card_agreements_le hdegree hp hne
    intro v hv
    obtain ⟨x, hx, rfl⟩ := Finset.mem_image.mp hv
    obtain ⟨hcanonical, hmeets⟩ := hchallenges x hx
    obtain ⟨q, hq, hdenotes⟩ := hnext x hcanonical
    rw [hq, Option.map_some, hdenotes.value_eq] at hmeets
    rw [eval_ofCoefficients]
    exact Option.some.inj hmeets

end Round

/-! ### The two kinds of rounds -/

theorem toList_head_tail {n : ℕ} (v : Vector QM31 (n + 1)) : v.toList = v.head :: v.tail.toList := by
  rcases v with ⟨⟨l⟩, hl⟩
  cases l with
  | nil => cases hl
  | cons a l =>
    have hlen : l.length ≤ n := by
      rw [List.size_toArray, List.length_cons] at hl
      omega
    simp [Vector.head, Vector.tail, hlen]

section Semantic
variable {sent : Vector QM31 27} {runningClaim : QM31}

/-- The coefficients of the polynomial of a message. -/
theorem compactSemanticPolynomial_values (hsent : ∀ x ∈ sent.toList, x.Canonical) (hclaim : runningClaim.Canonical) :
    (∀ c ∈ (compactSemanticPolynomial sent runningClaim).toList, c.Canonical) ∧
    (compactSemanticPolynomial sent runningClaim).toList = (compactSemanticPolynomial sent runningClaim).head ::
      (compactSemanticPolynomial sent runningClaim).tail.toList ∧
    coefficientValues (compactSemanticPolynomial sent runningClaim) = sent.head.value ::
      (runningClaim.value - (sent.head.value + sent.head.value + (sent.tail.toList.map QM31.value).sum)) ::
        sent.tail.toList.map QM31.value := by
  have hparts := toList_head_tail sent
  rw [hparts] at hsent
  have hrest : ∀ x ∈ sent.tail.toList, x.Canonical := fun x hx => hsent x (List.mem_cons_of_mem _ hx)
  have hlen : sent.tail.toList.length + 2 ≤ 2 ^ 32 := by
    rw [Vector.length_toList]
    norm_num
  have hsum := boundaryLimbs_sumsTo (hsent _ List.mem_cons_self) hrest hlen
  have hlinear := hclaim.denotes.sub hsum
  have hlist : (compactSemanticPolynomial sent runningClaim).toList = sent.head ::
      runningClaim.sub (reduceLimbs (boundaryLimbs sent.head sent.tail.toList)) :: sent.tail.toList := by
    rw [compactSemanticPolynomial, Vector.toList_append]
    rfl
  refine ⟨fun c hc => ?_, toList_head_tail _, ?_⟩
  · rw [hlist] at hc
    rcases List.mem_cons.mp hc with rfl | hc
    · exact hsent _ List.mem_cons_self
    · rcases List.mem_cons.mp hc with rfl | hc
      · exact hlinear.canonical
      · exact hrest c hc
  · rw [coefficientValues, hlist, List.map_cons, List.map_cons, hlinear.value_eq]

theorem compactSemanticPolynomial_boundary (hsent : ∀ x ∈ sent.toList, x.Canonical) (hclaim : runningClaim.Canonical) :
    stateOnlyBoundarySum (compactSemanticPolynomial sent runningClaim) = runningClaim := by
  obtain ⟨hcanonical, hparts, hvalues⟩ := compactSemanticPolynomial_values hsent hclaim
  rw [hparts] at hcanonical
  have hlen : (compactSemanticPolynomial sent runningClaim).tail.toList.length + 2 ≤ 2 ^ 32 := by
    rw [Vector.length_toList]
    norm_num
  have hsum := boundaryLimbs_sumsTo (hcanonical _ List.mem_cons_self)
    (fun x hx => hcanonical x (List.mem_cons_of_mem _ hx)) hlen
  rw [coefficientValues, hparts, List.map_cons] at hvalues
  obtain ⟨hhead, htail⟩ := List.cons.inj hvalues
  rw [hhead, htail, List.sum_cons] at hsum
  have hclaimed : sent.head.value + sent.head.value + (runningClaim.value - (sent.head.value + sent.head.value +
      (sent.tail.toList.map QM31.value).sum) + (sent.tail.toList.map QM31.value).sum) = runningClaim.value := by ring
  rw [hclaimed] at hsum
  exact hsum.eq hclaim.denotes

theorem compactSemanticPolynomial_sound (hsent : ∀ x ∈ sent.toList, x.Canonical) (hclaim : runningClaim.Canonical) :
    RoundSound 27 lineBoundary 1 (sent.toList.map QM31.value) runningClaim.value
      (coefficientValues (compactSemanticPolynomial sent runningClaim))
      (evaluateStateOnlyPolynomial (compactSemanticPolynomial sent runningClaim)) := by
  obtain ⟨hcanonical, hparts, hvalues⟩ := compactSemanticPolynomial_values hsent hclaim
  apply roundSound_of
  · rw [coefficientValues, List.length_map, Vector.length_toList]
  · rw [hvalues, toList_head_tail sent]
    rfl
  · rw [lineBoundary, eval_ofCoefficients, eval_ofCoefficients, hvalues, powerSum_zero, powerSum_one, List.sum_cons,
      List.sum_cons]
    ring
  · exact fun p q _ _ hcoeff hsum => eq_of_lineBoundary hcoeff hsum
  · exact fun x hx => evaluateStateOnlyPolynomial_denotes hcanonical hx.denotes

end Semantic

section Relation
variable {sent : Vector QM31 6} {runningClaim : QM31}

theorem imaginary_square : imaginary * imaginary = -1 := by
  have hsquare := QM31_I_denotes.mul QM31_I_denotes
  have hword : QM31_I.mul QM31_I = QM31.one.neg := by decide
  rw [hword] at hsquare
  exact hsquare.value_eq.symm.trans QM31.denotes_one.neg.value_eq

/-- The coefficients of the polynomial of a message. -/
theorem decodeCompactRelationPolynomial_values (hsent : ∀ i, (sent.get i).Canonical) (hclaim : runningClaim.Canonical) :
    DenotesAll (decodeCompactRelationPolynomial sent runningClaim)
      ![(sent.get 0).value, (sent.get 1).value, (sent.get 2).value, (sent.get 3).value,
        runningClaim.value / 4 - (sent.get 0).value, (sent.get 4).value, (sent.get 5).value] := by
  have hquarter := denotes_mulM31 hclaim.denotes denotes_quarter_m31
  rw [lift_quarter, mul_one_div] at hquarter
  intro d
  fin_cases d
  · exact (hsent 0).denotes
  · exact (hsent 1).denotes
  · exact (hsent 2).denotes
  · exact (hsent 3).denotes
  · exact hquarter.sub (hsent 0).denotes
  · exact (hsent 4).denotes
  · exact (hsent 5).denotes

theorem coefficientValues_of_denotesAll {polynomial : SumcheckPolynomial} {f : Fin 7 → QuarticField}
    (h : DenotesAll polynomial f) : coefficientValues polynomial = List.ofFn f := by
  have hlen : (coefficientValues polynomial).length = 7 := by rw [coefficientValues, List.length_map, Vector.length_toList]
  apply List.ext_getElem (by rw [hlen, List.length_ofFn])
  intro i hi hi'
  rw [hlen] at hi
  have hentry := (h ⟨i, hi⟩).value_eq
  rw [List.getElem_ofFn, ← hentry]
  simp only [coefficientValues, List.getElem_map, Vector.getElem_toList]
  rfl

theorem decodeCompactRelationPolynomial_boundary (hsent : ∀ i, (sent.get i).Canonical) (hclaim : runningClaim.Canonical) :
    boundarySum (decodeCompactRelationPolynomial sent runningClaim) = runningClaim := by
  have hsum := boundarySum_denotes (decodeCompactRelationPolynomial_values hsent hclaim)
  have hclaimed : 4 * ((sent.get 0).value + (runningClaim.value / 4 - (sent.get 0).value)) = runningClaim.value := by
    rw [add_sub_cancel, mul_div_cancel₀ _ four_ne_zero_quartic]
  exact QM31.Denotes.eq (v := runningClaim.value) (hclaimed ▸ hsum) hclaim.denotes

theorem decodeCompactRelationPolynomial_sound (hsent : ∀ i, (sent.get i).Canonical) (hclaim : runningClaim.Canonical) :
    RoundSound 6 (circleBoundary imaginary) 4 (sent.toList.map QM31.value) runningClaim.value
      (coefficientValues (decodeCompactRelationPolynomial sent runningClaim))
      (fun x => some (evaluate (decodeCompactRelationPolynomial sent runningClaim) x)) := by
  have hall := decodeCompactRelationPolynomial_values hsent hclaim
  have hlen : (coefficientValues (decodeCompactRelationPolynomial sent runningClaim)).length = 6 + 1 := by
    rw [coefficientValues, List.length_map, Vector.length_toList]
  have hvalues := coefficientValues_of_denotesAll hall
  apply roundSound_of hlen
  · have hsentValues : sent.toList.map QM31.value = List.ofFn fun i : Fin 6 => (sent.get i).value := by
      apply List.ext_getElem (by rw [List.length_map, Vector.length_toList, List.length_ofFn])
      intro i hi hi'
      rw [List.getElem_ofFn, List.getElem_map, Vector.getElem_toList]
      rfl
    rw [hvalues, hsentValues]
    rfl
  · rw [circleBoundary_eq imaginary_square (Nat.lt_succ_of_le (natDegree_ofCoefficients_le hlen)), coeff_ofCoefficients,
      coeff_ofCoefficients, hvalues]
    show 4 * ((sent.get 0).value + (runningClaim.value / 4 - (sent.get 0).value)) = runningClaim.value
    rw [add_sub_cancel, mul_div_cancel₀ _ four_ne_zero_quartic]
  · exact fun p q hp hq hcoeff hsum =>
      eq_of_circleBoundary imaginary_square four_ne_zero_quartic (by omega) (by omega) hcoeff hsum
  · intro x hx
    refine ⟨_, rfl, ?_⟩
    have hvalue := evaluate_denotes hall hx.denotes
    rw [hvalues, powerSum_ofFn]
    exact hvalue

end Relation

/-! ### The run of the semantic rounds -/

/-- The claim after the messages and challenges of the rounds. -/
def claimAfter (initialClaim : QM31) (rounds : List (Vector QM31 27 × QM31)) : Option QM31 :=
  rounds.foldlM (fun claim round => evaluateStateOnlyPolynomial (compactSemanticPolynomial round.1 claim) round.2) initialClaim

theorem nextQm31_canonical {fields fields' : V6FixedFieldReader} {value : QM31}
    (h : V6FixedFieldReader.nextQm31 fields = .ok (value, fields')) : value.Canonical := by
  obtain ⟨_, _, h⟩ := except_bind_eq_ok.mp h
  obtain ⟨⟨found, packed⟩, _, h⟩ := except_bind_eq_ok.mp h
  obtain ⟨_, hcanonical, h⟩ := except_bind_eq_ok.mp h
  obtain ⟨rfl, _⟩ := Prod.mk.inj (Except.ok.inj h)
  obtain ⟨ha, hb, hc, hd⟩ := require_eq_ok.mp hcanonical
  exact ⟨⟨UInt32.lt_iff_toNat_lt.mp ha, UInt32.lt_iff_toNat_lt.mp hb⟩, UInt32.lt_iff_toNat_lt.mp hc, UInt32.lt_iff_toNat_lt.mp hd⟩

section Run
variable {F : Type} {nextQm31 : F → Except DecodeFailure (QM31 × F)}

theorem readSent_canonical (hnext : ∀ {f f' : F} {x : QM31}, nextQm31 f = .ok (x, f') → x.Canonical) :
    ∀ {count : ℕ} {fields : F} {sent : List QM31} {fields' : F},
      readSent nextQm31 count fields = .ok (sent, fields') → ∀ x ∈ sent, x.Canonical
  | 0, _, _, _, h => by
    obtain ⟨rfl, _⟩ := Prod.mk.inj (Except.ok.inj h)
    intro x hx
    cases hx
  | count + 1, fields, sent, fields', h => by
    obtain ⟨⟨value, next⟩, hvalue, h⟩ := except_bind_eq_ok.mp h
    obtain ⟨⟨rest, last⟩, hrest, h⟩ := except_bind_eq_ok.mp h
    obtain ⟨rfl, _⟩ := Prod.mk.inj (Except.ok.inj h)
    intro x hx
    rcases List.mem_cons.mp hx with rfl | hx
    · exact hnext (mapErr_eq_ok.mp hvalue)
    · exact readSent_canonical hnext hrest x hx

theorem readMessage_canonical (hnext : ∀ {f f' : F} {x : QM31}, nextQm31 f = .ok (x, f') → x.Canonical) {fields fields' : F}
    {sent : Vector QM31 27} (h : readMessage nextQm31 fields = .ok (sent, fields')) : ∀ x ∈ sent.toList, x.Canonical := by
  unfold readMessage at h
  split at h
  · cases h
  · rename_i found next hfound
    obtain ⟨rfl, _⟩ := Prod.mk.inj (Except.ok.inj h)
    exact readSent_canonical hnext hfound

/-- What a round does: it reads a message and draws a challenge, and the claim moves to the value there. -/
theorem semanticRound_ok (hnext : ∀ {f f' : F} {x : QM31}, nextQm31 f = .ok (x, f') → x.Canonical)
    {state state' : SemanticState F} {round : ℕ} (h : semanticRound nextQm31 state round = .ok state') :
    ∃ sent challenge, (∀ x ∈ (sent : Vector QM31 27).toList, x.Canonical) ∧ challenge.Canonical ∧
      evaluateStateOnlyPolynomial (compactSemanticPolynomial sent state.runningClaim) challenge = some state'.runningClaim ∧
      state'.point = state.point ++ [challenge] := by
  obtain ⟨⟨sent, fields⟩, hsent, h⟩ := except_bind_eq_ok.mp h
  dsimp only at h
  rcases hdraw : ((state.transcript.absorb Label.V6_COMPACT_SEMANTIC_ROUND
    (UInt8.ofNat round :: sent.toList.flatMap QM31.toLeBytes)).challengeQm31) with ⟨drawn, transcript⟩
  rw [hdraw] at h
  obtain ⟨challenge, hchallenge, h⟩ := except_bind_eq_ok.mp h
  obtain ⟨next, hvalue, h⟩ := except_bind_eq_ok.mp h
  obtain rfl := Except.ok.inj h
  have hdrawn : drawn = .ok challenge := mapErr_eq_ok.mp hchallenge
  rw [hdrawn] at hdraw
  exact ⟨sent, challenge, readMessage_canonical hnext hsent, challengeQm31_canonical hdraw, okOr_eq_ok.mp hvalue, rfl⟩

theorem semanticRounds_ok (hnext : ∀ {f f' : F} {x : QM31}, nextQm31 f = .ok (x, f') → x.Canonical) :
    ∀ {rounds : List ℕ} {state state' : SemanticState F}, rounds.foldlM (semanticRound nextQm31) state = .ok state' →
      ∃ messages : List (Vector QM31 27 × QM31), messages.length = rounds.length ∧
        (∀ m ∈ messages, (∀ x ∈ m.1.toList, x.Canonical) ∧ m.2.Canonical) ∧
        state'.point = state.point ++ messages.map Prod.snd ∧
        claimAfter state.runningClaim messages = some state'.runningClaim
  | [], state, state', h => by
    obtain rfl := Except.ok.inj h
    exact ⟨[], rfl, by simp, by simp, rfl⟩
  | round :: rounds, state, state', h => by
    rw [List.foldlM_cons] at h
    obtain ⟨next, hround, h⟩ := except_bind_eq_ok.mp h
    obtain ⟨sent, challenge, hsent, hchallenge, hclaim, hpoint⟩ := semanticRound_ok hnext hround
    obtain ⟨messages, hlen, hall, hpoints, hlast⟩ := semanticRounds_ok hnext h
    refine ⟨(sent, challenge) :: messages, by rw [List.length_cons, List.length_cons, hlen], ?_, ?_, ?_⟩
    · intro m hm
      rcases List.mem_cons.mp hm with rfl | hm
      · exact ⟨hsent, hchallenge⟩
      · exact hall m hm
    · rw [hpoints, hpoint, List.append_assoc]
      rfl
    · rw [claimAfter, List.foldlM_cons, hclaim]
      exact hlast

end Run

open Polynomial in
/-- Every compact round: the boundary sum of the rebuilt polynomial is the running claim, a true polynomial with that sum is
rebuilt exactly, and another one meets the next claim at no more challenges than its degree. In every accepted run over a stream
of canonical elements each claim is the value of the polynomial that its message and the claim before give. -/
theorem compact_rounds :
    (∀ (sent : Vector QM31 27) (runningClaim : QM31), (∀ x ∈ sent.toList, x.Canonical) → runningClaim.Canonical →
      stateOnlyBoundarySum (compactSemanticPolynomial sent runningClaim) = runningClaim ∧
      RoundSound 27 (fun p => p.eval 0 + p.eval 1) 1 (sent.toList.map QM31.value) runningClaim.value
        (coefficientValues (compactSemanticPolynomial sent runningClaim))
        (evaluateStateOnlyPolynomial (compactSemanticPolynomial sent runningClaim))) ∧
    (∀ (sent : Vector QM31 6) (runningClaim : QM31), (∀ i, (sent.get i).Canonical) → runningClaim.Canonical →
      boundarySum (decodeCompactRelationPolynomial sent runningClaim) = runningClaim ∧
      RoundSound 6 (fun p => p.eval 1 + p.eval imaginary + p.eval (-1) + p.eval (-imaginary)) 4
        (sent.toList.map QM31.value) runningClaim.value
        (coefficientValues (decodeCompactRelationPolynomial sent runningClaim))
        (fun x => some (evaluate (decodeCompactRelationPolynomial sent runningClaim) x))) ∧
    (∀ (fields fields' : V6FixedFieldReader) (x : QM31), fields.nextQm31 = .ok (x, fields') → x.Canonical) ∧
    ∀ (F : Type) (nextQm31 : F → Except DecodeFailure (QM31 × F)), (∀ f f' x, nextQm31 f = .ok (x, f') → x.Canonical) →
      ∀ (transcript : Transcript) (fields : F) (eta : QM31) (state : SemanticState F),
      verifyCompactSemanticSumcheck nextQm31 transcript fields = .ok (eta, state) →
      ∃ (initialClaim : QM31) (messages : List (Vector QM31 27 × QM31)), initialClaim.Canonical ∧ messages.length = 10 ∧
        (∀ m ∈ messages, (∀ x ∈ m.1.toList, x.Canonical) ∧ m.2.Canonical) ∧ state.point = messages.map Prod.snd ∧
        claimAfter initialClaim messages = some state.runningClaim := by
  refine ⟨fun sent runningClaim hsent hclaim => ⟨compactSemanticPolynomial_boundary hsent hclaim,
    compactSemanticPolynomial_sound hsent hclaim⟩, fun sent runningClaim hsent hclaim =>
    ⟨decodeCompactRelationPolynomial_boundary hsent hclaim, decodeCompactRelationPolynomial_sound hsent hclaim⟩,
    fun fields fields' x h => nextQm31_canonical h, fun F nextQm31 hnext transcript fields eta state h => ?_⟩
  obtain ⟨⟨initialClaim, next⟩, hinitial, h⟩ := except_bind_eq_ok.mp h
  dsimp only at h
  obtain ⟨found, _, h⟩ := except_bind_eq_ok.mp h
  obtain ⟨last, hrounds, h⟩ := except_bind_eq_ok.mp h
  obtain ⟨_, rfl⟩ := Prod.mk.inj (Except.ok.inj h)
  obtain ⟨messages, hlen, hall, hpoint, hclaim⟩ := semanticRounds_ok (fun h => hnext _ _ _ h) hrounds
  exact ⟨initialClaim, messages, hnext _ _ _ (mapErr_eq_ok.mp hinitial), hlen, hall, hpoint, hclaim⟩

/-! ### A run over a constant hash -/

/-- A hash of one block. -/
def onesHash : HashFn := HashFn.ofBytes fun _ => ⟨List.replicate 32 1, rfl⟩

theorem onesHash_absorb (state : FixedBytes 32) (label : UInt8) (data : Bytes) :
    (⟨state, onesHash⟩ : Transcript).absorb label data = ⟨⟨List.replicate 32 1, rfl⟩, onesHash⟩ := by
  unfold Transcript.absorb
  split
  · rfl
  · rfl

def onesChallenge : QM31 := ⟨⟨⟨16843009⟩, ⟨16843009⟩⟩, ⟨⟨16843009⟩, ⟨16843009⟩⟩⟩

/-- Every challenge of this hash is the same one. -/
theorem onesHash_challenge : (⟨⟨List.replicate 32 1, rfl⟩, onesHash⟩ : Transcript).challengeQm31 =
    (.ok onesChallenge, ⟨⟨List.replicate 32 1, rfl⟩, onesHash⟩) := rfl

theorem readMessage_ones : readMessage (fun fields : Unit => .ok (QM31.one, fields)) () =
    .ok (Vector.replicate 27 QM31.one, ()) := rfl

/-- A round over the stream of ones succeeds from every canonical claim. -/
theorem semanticRound_ones {state : SemanticState Unit} (hstate : state.transcript.hash = onesHash)
    (hclaim : state.runningClaim.Canonical) (round : ℕ) :
    ∃ state', semanticRound (fun fields : Unit => .ok (QM31.one, fields)) state round = .ok state' ∧
      state'.transcript.hash = onesHash ∧ state'.runningClaim.Canonical := by
  obtain ⟨⟨block, hash⟩, fields, runningClaim, point⟩ := state
  obtain rfl : hash = onesHash := hstate
  have hones : ∀ x ∈ (Vector.replicate 27 QM31.one).toList, x.Canonical := by decide
  obtain ⟨hcanonical, -⟩ := compactSemanticPolynomial_values hones hclaim
  have hchallenge : onesChallenge.Canonical := by decide
  obtain ⟨next, hnext, hdenotes⟩ := evaluateStateOnlyPolynomial_denotes hcanonical hchallenge.denotes
  refine ⟨⟨⟨⟨List.replicate 32 1, rfl⟩, onesHash⟩, (), next, point ++ [onesChallenge]⟩, ?_, rfl, hdenotes.canonical⟩
  rw [semanticRound, readMessage_ones, except_ok_bind]
  dsimp only
  rw [onesHash_absorb, onesHash_challenge]
  dsimp only [mapErr]
  rw [except_ok_bind, hnext]
  rfl

theorem semanticRounds_ones (rounds : List ℕ) {state : SemanticState Unit} (hstate : state.transcript.hash = onesHash)
    (hclaim : state.runningClaim.Canonical) :
    ∃ state', rounds.foldlM (semanticRound (fun fields : Unit => .ok (QM31.one, fields))) state = .ok state' := by
  induction rounds generalizing state with
  | nil => exact ⟨state, rfl⟩
  | cons round rounds ih =>
    obtain ⟨next, hround, hnext, hnextClaim⟩ := semanticRound_ones hstate hclaim round
    rw [List.foldlM_cons, hround]
    exact ih hnext hnextClaim

theorem verifyCompactSemanticSumcheck_ones : ∃ result,
    verifyCompactSemanticSumcheck (fun fields : Unit => .ok (QM31.one, fields)) (Transcript.new onesHash) () = .ok result := by
  have hdrawn : beginStateOnlyMaskedSumcheck (Transcript.new onesHash) QM31.one =
      (.ok onesChallenge, ⟨⟨List.replicate 32 1, rfl⟩, onesHash⟩) := by
    rw [beginStateOnlyMaskedSumcheck, Transcript.new, onesHash_absorb]
    rfl
  obtain ⟨state, hrounds⟩ := @semanticRounds_ones (List.range V6_SEMANTIC_ROUNDS)
    ⟨⟨⟨List.replicate 32 1, rfl⟩, onesHash⟩, (), QM31.one, []⟩ rfl (by decide)
  refine ⟨(onesChallenge, state), ?_⟩
  rw [verifyCompactSemanticSumcheck]
  dsimp only [mapErr]
  rw [except_ok_bind]
  dsimp only
  rw [hdrawn]
  dsimp only
  rw [except_ok_bind, hrounds]
  rfl

/-- A stream of ones over a hash of one block, with the polynomial zero as the true one. -/
theorem compact_rounds_ones :
    stateOnlyBoundarySum (compactSemanticPolynomial (Vector.replicate 27 QM31.one) QM31.one) = QM31.one ∧
    boundarySum (decodeCompactRelationPolynomial (Vector.replicate 6 QM31.one) QM31.one) = QM31.one ∧
    (∀ challenges : Finset QM31, (∀ x ∈ challenges, x.Canonical ∧ (evaluateStateOnlyPolynomial
      (compactSemanticPolynomial (Vector.replicate 27 QM31.one) QM31.one) x).map QM31.value = some 0) →
      challenges.card ≤ 27) ∧
    ∃ (eta : QM31) (state : SemanticState Unit) (initialClaim : QM31) (messages : List (Vector QM31 27 × QM31)),
      verifyCompactSemanticSumcheck (fun fields : Unit => .ok (QM31.one, fields))
        (Transcript.new (HashFn.ofBytes fun _ => ⟨List.replicate 32 1, rfl⟩)) () = .ok (eta, state) ∧
      messages.length = 10 ∧ claimAfter initialClaim messages = some state.runningClaim := by
  obtain ⟨hsemantic, hsound⟩ := compact_rounds.1 (Vector.replicate 27 QM31.one) QM31.one (by decide) (by decide)
  obtain ⟨hrelation, _⟩ := compact_rounds.2.1 (Vector.replicate 6 QM31.one) QM31.one (by decide) (by decide)
  obtain ⟨result, hrun⟩ := verifyCompactSemanticSumcheck_ones
  refine ⟨hsemantic, hrelation, fun challenges h => hsound.sound 0 (by simp) ?_ challenges ?_, ?_⟩
  · rw [Polynomial.eval_zero, Polynomial.eval_zero, add_zero, QM31.denotes_one.value_eq]
    exact zero_ne_one
  · intro x hx
    rw [Polynomial.eval_zero]
    exact h x hx
  · obtain ⟨initialClaim, messages, _, hlen, _, _, hclaim⟩ := compact_rounds.2.2.2 Unit _ (by
      rintro f f' x h
      obtain ⟨rfl, _⟩ := Prod.mk.inj (Except.ok.inj h)
      decide) _ _ result.1 result.2 hrun
    exact ⟨result.1, result.2, initialClaim, messages, hrun, hlen, hclaim⟩

end Aspis.Core
