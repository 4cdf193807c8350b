import Aspis.Core.CirclePoint
import Aspis.Core.LaneZeta
import Aspis.Core.SumcheckRounds

/-! The batch of the query checks. The sixteen line evaluations join the relation under powers of one
challenge; with the powers shifted by one, the discrepancy of the prior claim stays alone in degree zero. -/

namespace Aspis.Core

open Aspis.Lib Aspis.Lib.PowerSum Aspis.Lib.Accumulate Aspis.Lib.DualFold

def V6_QUERY_BATCH_COUNT : ℕ := 16
def V6_QUERY_BATCH_TREE_DEPTH : ℕ := 18

inductive V6QueryBatchError
  | invalidQuerySchedule
  | weightShape
  | overflow
  deriving DecidableEq, Repr

structure V6AuthenticatedQueryBatch where
  values : Vector QM31 16
  lineX : Vector M31 16

/-- Some query lies outside the line domain or occurs twice. -/
def invalidSchedule (queries : Vector UInt32 16) : Bool :=
  let sorted := queries.toList.mergeSort
  decide (2 ^ V6_QUERY_BATCH_TREE_DEPTH ≤ (sorted.getLastD 0).toNat) ||
    (sorted.zip sorted.tail).any fun pair => pair.1 == pair.2

/-- Scales from one on, each the challenge times the one before. -/
def queryScales (preparedRho : PreparedQm31Multiplier) : ℕ → QM31 → List QM31
  | 0, _ => []
  | count + 1, scale => scale :: queryScales preparedRho count (preparedRho.mul scale)

/-- The weights and the claim after the batch, and what it adds to the claim. -/
def addFinal256QueryBatchWithInitialScale (weights : WeightAccumulator) (runningClaim : QM31) (queries : Vector UInt32 16)
    (authenticated : V6AuthenticatedQueryBatch) (rho initialScale : QM31) :
    Except V6QueryBatchError (QM31 × WeightAccumulator × QM31) := do
  require (invalidSchedule queries = false) .invalidQuerySchedule
  let scales := queryScales (PreparedQm31Multiplier.new rho) V6_QUERY_BATCH_COUNT initialScale
  let weights ← mapErr (fun _ => V6QueryBatchError.weightShape) (weights.addLineM31Batch scales authenticated.lineX.toList)
  let claimIncrement ← okOr (qm31Dot scales authenticated.values.toList) .overflow
  return (claimIncrement, weights, runningClaim.add claimIncrement)

def addV6Final256QueryBatch (weights : WeightAccumulator) (runningClaim : QM31) (queries : Vector UInt32 16)
    (authenticated : V6AuthenticatedQueryBatch) (rho : QM31) : Except V6QueryBatchError (QM31 × WeightAccumulator × QM31) :=
  addFinal256QueryBatchWithInitialScale weights runningClaim queries authenticated rho QM31.one

def addV7Final256QueryBatchShifted (weights : WeightAccumulator) (runningClaim : QM31) (queries : Vector UInt32 16)
    (authenticated : V6AuthenticatedQueryBatch) (rho : QM31) : Except V6QueryBatchError (QM31 × WeightAccumulator × QM31) :=
  addFinal256QueryBatchWithInitialScale weights runningClaim queries authenticated rho rho

def v6Final256QueryBatchResidual (expectedValues authenticatedValues : Vector QM31 16) (rho : QM31) : QM31 :=
  ((expectedValues.toList.zip authenticatedValues.toList).foldl (fun (state : QM31 × QM31) pair =>
    (state.1.add (state.2.mul (pair.1.sub pair.2)), state.2.mul rho)) (QM31.zero, QM31.one)).1

def v7Final256QueryBatchShiftedResidual (expectedValues authenticatedValues : Vector QM31 16) (rho : QM31) : QM31 :=
  rho.mul (v6Final256QueryBatchResidual expectedValues authenticatedValues rho)

/-! ### The residual -/

/-- The differences of the pairs. -/
def differences (expected authenticated : List QM31) : List QuarticField :=
  List.zipWith (fun e a => e.value - a.value) expected authenticated

/-- What a challenge has to be a root of: the prior discrepancy, then the differences. -/
def residualPolynomial (prior : QuarticField) (expected authenticated : List QM31) : List QuarticField :=
  prior :: differences expected authenticated

theorem residual_denotes {expected authenticated : Vector QM31 16} {rho : QM31} (he : ∀ x ∈ expected.toList, x.Canonical)
    (ha : ∀ x ∈ authenticated.toList, x.Canonical) (hrho : rho.Canonical) :
    (v6Final256QueryBatchResidual expected authenticated rho).Denotes
      (powerSum rho.value (differences expected.toList authenticated.toList)) := by
  have hfold := @foldl_powers rho rho.value _ (fun power (pair : QM31 × QM31) => power.mul (pair.1.sub pair.2))
    (fun pair => pair.1.value - pair.2.value) hrho.denotes (expected.toList.zip authenticated.toList) _ _ _ _
    (fun pair hpair power p hp => hp.mul ((he _ (List.of_mem_zip hpair).1).denotes.sub (ha _ (List.of_mem_zip hpair).2).denotes))
    QM31.denotes_zero QM31.denotes_one
  rw [zero_add, one_mul, List.map_zip_eq_zipWith] at hfold
  exact hfold.1

theorem differences_ne_zero {expected authenticated : Vector QM31 16} (he : ∀ x ∈ expected.toList, x.Canonical)
    (ha : ∀ x ∈ authenticated.toList, x.Canonical) (hne : expected ≠ authenticated) :
    ∃ i, (differences expected.toList authenticated.toList).getD i 0 ≠ 0 := by
  by_contra hall
  push Not at hall
  apply hne
  apply Vector.ext
  intro i hi
  have hi1 : i < expected.toList.length := by rw [Vector.length_toList]; exact hi
  have hi2 : i < authenticated.toList.length := by rw [Vector.length_toList]; exact hi
  have hentry := hall i
  rw [differences, List.getD_eq_getElem?_getD, List.getElem?_zipWith, List.getElem?_eq_getElem hi1,
    List.getElem?_eq_getElem hi2] at hentry
  have hvalue : expected.toList[i].value = authenticated.toList[i].value := sub_eq_zero.mp hentry
  have hd := (he _ (List.getElem_mem hi1)).denotes
  rw [hvalue] at hd
  exact hd.eq (ha _ (List.getElem_mem hi2)).denotes

/-- The challenges that are roots, as elements of the code. -/
theorem card_challenges_le {prior : QuarticField} {expected authenticated : Vector QM31 16}
    (he : ∀ x ∈ expected.toList, x.Canonical) (ha : ∀ x ∈ authenticated.toList, x.Canonical)
    (hne : prior ≠ 0 ∨ expected ≠ authenticated) {challenges : Finset QM31}
    (hroots : ∀ rho ∈ challenges, rho.Canonical ∧
      powerSum rho.value (residualPolynomial prior expected.toList authenticated.toList) = 0) : challenges.card ≤ 16 := by
  classical
  have hlen : (residualPolynomial prior expected.toList authenticated.toList).length = 17 := by
    rw [residualPolynomial, differences, List.length_cons, List.length_zipWith, Vector.length_toList, Vector.length_toList]
    rfl
  have hentry : ∃ i, (residualPolynomial prior expected.toList authenticated.toList).getD i 0 ≠ 0 := by
    rcases hne with hprior | hpairs
    · exact ⟨0, hprior⟩
    · obtain ⟨i, hi⟩ := differences_ne_zero he ha hpairs
      exact ⟨i + 1, hi⟩
  obtain ⟨i, hi⟩ := hentry
  have hinjective : Set.InjOn QM31.value challenges := QM31.value_bijOn.injOn.mono fun x hx => (hroots x hx).1
  have hcard := @card_roots_lt QuarticField _ _ _ i hi (challenges.image QM31.value) (by
    intro v hv
    obtain ⟨x, hx, rfl⟩ := Finset.mem_image.mp hv
    exact (hroots x hx).2)
  rw [Finset.card_image_of_injOn hinjective, hlen] at hcard
  omega

/-! ### The batch -/

theorem queryScales_denotes {rho : QM31} (hrho : rho.Canonical) : ∀ (count : ℕ) {scale : QM31}, scale.Canonical →
    (∀ x ∈ queryScales (PreparedQm31Multiplier.new rho) count scale, x.Canonical) ∧
      (queryScales (PreparedQm31Multiplier.new rho) count scale).map QM31.value = geometric scale.value rho.value count
  | 0, _, _ => ⟨by simp [queryScales], rfl⟩
  | count + 1, scale, hscale => by
    have hnext := prepared_mul_denotes hrho.denotes hscale.denotes
    obtain ⟨hcanonical, hvalues⟩ := queryScales_denotes hrho count hnext.canonical
    rw [queryScales]
    refine ⟨fun x hx => ?_, ?_⟩
    · rcases List.mem_cons.mp hx with rfl | hx
      · exact hscale
      · exact hcanonical x hx
    · rw [List.map_cons, hvalues, hnext.value_eq, mul_comm, geometric]

theorem queryScales_length (prepared : PreparedQm31Multiplier) : ∀ (count : ℕ) (scale : QM31),
    (queryScales prepared count scale).length = count
  | 0, _ => rfl
  | count + 1, scale => by rw [queryScales, List.length_cons, queryScales_length]

theorem foldl_products_denotes : ∀ {weights values : List QM31} {total : QM31} {v : QuarticField}, (∀ w ∈ weights, w.Canonical) →
    (∀ v ∈ values, v.Canonical) → total.Denotes v →
    ((List.zipWith QM31.mul weights values).foldl QM31.add total).Denotes
      (v + (List.zipWith (· * ·) (weights.map QM31.value) (values.map QM31.value)).sum)
  | [], _, _, _, _, _, h => by
    rw [List.zipWith_nil_left, List.map_nil, List.zipWith_nil_left, List.sum_nil, add_zero]
    exact h
  | _ :: _, [], _, _, _, _, h => by
    rw [List.zipWith_nil_right, List.map_nil, List.zipWith_nil_right, List.sum_nil, add_zero]
    exact h
  | w :: weights, x :: values, _, _, hweights, hvalues, h => by
    have hproduct := (hweights w List.mem_cons_self).denotes.mul (hvalues x List.mem_cons_self).denotes
    rw [List.zipWith_cons_cons, List.foldl_cons, List.map_cons, List.map_cons, List.zipWith_cons_cons, List.sum_cons, ← add_assoc]
    exact foldl_products_denotes (fun w' hw' => hweights w' (List.mem_cons_of_mem w hw'))
      (fun x' hx' => hvalues x' (List.mem_cons_of_mem x hx')) (h.add hproduct)

/-- The value of a line at a vector, by the weights of that line alone. -/
def lineValue (logLen : ℕ) (values : List QM31) (x : M31) : Option QM31 :=
  (((WeightAccumulator.empty logLen).addLineM31Tensor QM31.one x).toOption).bind fun weights => weights.dot values

theorem covector_push (weights : WeightAccumulator) (component : WeightComponent) (i : ℕ) :
    (weights.push component).covector i = weights.covector i + component.covector weights.logLen i := by
  unfold WeightAccumulator.covector WeightAccumulator.push
  rw [List.map_append, List.sum_append, List.map_singleton, List.sum_singleton]

theorem pairing_push (weights : WeightAccumulator) (component : WeightComponent) (n : ℕ) (v : ℕ → QuarticField) :
    pairing n (weights.push component).covector v =
      pairing n weights.covector v + pairing n (component.covector weights.logLen) v := by
  unfold pairing
  rw [← Finset.sum_add_distrib]
  refine Finset.sum_congr rfl fun i _ => ?_
  rw [covector_push, mul_add]

theorem lineBatch_pairing {logLen : ℕ} {v : ℕ → QuarticField} : ∀ {scales : List QM31} {xs : List M31},
    (∀ line ∈ scales.zip xs, CanonicalLine line) →
    pairing (2 ^ logLen) (WeightComponent.covector logLen (.lineM31Batch scales xs 0)) v =
      (List.zipWith (· * ·) (scales.map QM31.value)
        (xs.map fun x => pairing (2 ^ logLen) (bitProduct (lineFactor x.value) logLen) v)).sum := by
  intro scales xs h
  have hrep := (@lineM31Batch_represents scales xs 0 logLen h).pairing_eq v
  have hlines : pairing (2 ^ logLen) (fun i => lineSum logLen (scales.zip xs) i / 2 ^ 0) v =
      ((scales.zip xs).map fun line => line.1.value * pairing (2 ^ logLen) (bitProduct (lineFactor line.2.value) logLen) v).sum := by
    have hone : (fun i => lineSum logLen (scales.zip xs) i / 2 ^ 0) = lineSum logLen (scales.zip xs) := by
      funext i
      rw [pow_zero, div_one]
    rw [hone]
    unfold lineSum
    rw [pairing_sum]
    congr 1
    refine List.map_congr_left fun line _ => ?_
    unfold pairing
    rw [Finset.mul_sum]
    refine Finset.sum_congr rfl fun i _ => ?_
    ring
  rw [hrep, hlines, List.zipWith_map, List.map_zip_eq_zipWith]
  rfl

theorem lineValue_denotes {logLen : ℕ} {values : List QM31} {x : M31} {expected : QM31} (hsmall : logLen < 32) (hx : x.Canonical)
    (hvalues : ∀ v ∈ values, v.Canonical) (hlen : values.length = 2 ^ logLen) (h : lineValue logLen values x = some expected) :
    expected.Denotes (pairing (2 ^ logLen) (bitProduct (lineFactor x.value) logLen) (entryAt values)) := by
  unfold lineValue WeightAccumulator.addLineM31Tensor at h
  split_ifs at h
  · cases h
  have hone := QM31.denotes_one.canonical
  have hshape : ((WeightAccumulator.empty logLen).push (.lineM31Tensor QM31.one x)).Shape :=
    WeightAccumulator.Shape.push ⟨hsmall, by simp [WeightAccumulator.empty]⟩ ⟨hone, hx⟩
  obtain ⟨q, hq, hd⟩ := hshape.dot_denotes hvalues hlen
  have hpairing : pairing (2 ^ logLen) ((WeightAccumulator.empty logLen).push (.lineM31Tensor QM31.one x)).covector
      (entryAt values) = pairing (2 ^ logLen) (bitProduct (lineFactor x.value) logLen) (entryAt values) := by
    have hempty : pairing (2 ^ logLen) (WeightAccumulator.empty logLen).covector (entryAt values) = 0 := by
      refine Finset.sum_eq_zero fun i _ => ?_
      exact mul_zero _
    have hline := (@lineM31Tensor_represents QM31.one x logLen hone hx).pairing_eq (entryAt values)
    have hplain : (fun i => QM31.one.value * bitProduct (lineFactor x.value) logLen i) =
        bitProduct (lineFactor x.value) logLen := by
      funext i
      rw [QM31.denotes_one.value_eq, one_mul]
    rw [hplain] at hline
    rw [pairing_push, hempty, zero_add]
    exact hline
  have hexpected : some expected = some q := h.symm.trans hq
  rw [Option.some.inj hexpected, ← hpairing]
  exact hd

/-- The values of the lines of a batch. -/
theorem lineValues_eq {logLen : ℕ} {values : List QM31} (hsmall : logLen < 32) (hvalues : ∀ v ∈ values, v.Canonical)
    (hlen : values.length = 2 ^ logLen) : ∀ {xs : List M31} {expected : List QM31}, (∀ x ∈ xs, x.Canonical) →
      xs.mapM (lineValue logLen values) = some expected →
      (∀ e ∈ expected, e.Canonical) ∧ expected.length = xs.length ∧
        xs.map (fun x => pairing (2 ^ logLen) (bitProduct (lineFactor x.value) logLen) (entryAt values)) = expected.map QM31.value
  | [], _, _, h => by
    obtain rfl := Option.some.inj h
    exact ⟨by simp, rfl, rfl⟩
  | x :: xs, expected, hxs, h => by
    rw [List.mapM_cons] at h
    obtain ⟨e, he, h⟩ := Option.bind_eq_some_iff.mp h
    obtain ⟨rest, hrest, h⟩ := Option.bind_eq_some_iff.mp h
    obtain rfl := Option.some.inj h
    have hd := lineValue_denotes hsmall (hxs x List.mem_cons_self) hvalues hlen he
    obtain ⟨hcanonical, hlength, hmap⟩ :=
      lineValues_eq hsmall hvalues hlen (fun y hy => hxs y (List.mem_cons_of_mem x hy)) hrest
    refine ⟨fun y hy => ?_, by rw [List.length_cons, List.length_cons, hlength], ?_⟩
    · rcases List.mem_cons.mp hy with rfl | hy
      · exact hd.canonical
      · exact hcanonical y hy
    · rw [List.map_cons, List.map_cons, hmap, hd.value_eq]

/-- What the shifted batch returns. -/
theorem addV7_ok {weights weights' : WeightAccumulator} {runningClaim runningClaim' increment rho : QM31}
    {queries : Vector UInt32 16} {authenticated : V6AuthenticatedQueryBatch} (hrho : rho.Canonical)
    (ha : ∀ x ∈ authenticated.values.toList, x.Canonical)
    (h : addV7Final256QueryBatchShifted weights runningClaim queries authenticated rho = .ok (increment, weights', runningClaim')) :
    weights' = weights.push (.lineM31Batch (queryScales (PreparedQm31Multiplier.new rho) 16 rho) authenticated.lineX.toList 0) ∧
      runningClaim' = runningClaim.add increment ∧
      increment.Denotes (rho.value * powerSum rho.value (authenticated.values.toList.map QM31.value)) := by
  obtain ⟨_, _, h⟩ := except_bind_eq_ok.mp h
  obtain ⟨pushed, hpushed, h⟩ := except_bind_eq_ok.mp h
  obtain ⟨dot, hdot, h⟩ := except_bind_eq_ok.mp h
  obtain ⟨rfl, hrest⟩ := Prod.mk.inj (Except.ok.inj h)
  obtain ⟨rfl, rfl⟩ := Prod.mk.inj hrest
  have hadd := mapErr_eq_ok.mp hpushed
  rw [WeightAccumulator.addLineM31Batch] at hadd
  split_ifs at hadd
  refine ⟨(Except.ok.inj hadd).symm, rfl, ?_⟩
  obtain ⟨hscales, hvalues⟩ := queryScales_denotes hrho 16 hrho
  have hlength : authenticated.values.toList.length = 16 := Vector.length_toList
  have hfactors : CanonicalFactors QM31.Canonical (queryScales (PreparedQm31Multiplier.new rho) 16 rho)
      authenticated.values.toList := ⟨hscales, ha, by rw [queryScales_length, hlength]⟩
  have hsum := foldl_products_denotes hscales ha QM31.denotes_zero
  have hgeometric := sum_zipWith_geometric rho.value (authenticated.values.toList.map QM31.value) rho.value
  rw [List.length_map, hlength] at hgeometric
  rw [zero_add, hvalues, hgeometric] at hsum
  have hkernel := (qm31Dot_exact hfactors).symm.trans (okOr_eq_ok.mp hdot)
  rw [← Option.some.inj hkernel]
  exact hsum

/-- A joint claim that holds makes the challenge a root of the residual. -/
theorem residual_root {weights weights' : WeightAccumulator} {runningClaim runningClaim' increment rho truePrior : QM31}
    {queries : Vector UInt32 16} {authenticated : V6AuthenticatedQueryBatch} {values expected : List QM31} (hshape : weights.Shape)
    (hclaim : runningClaim.Canonical) (hrho : rho.Canonical) (ha : ∀ x ∈ authenticated.values.toList, x.Canonical)
    (hx : ∀ x ∈ authenticated.lineX.toList, x.Canonical) (hvalues : ∀ v ∈ values, v.Canonical)
    (hlen : values.length = 2 ^ weights.logLen) (hprior : weights.dot values = some truePrior)
    (hexpected : authenticated.lineX.toList.mapM (lineValue weights.logLen values) = some expected)
    (h : addV7Final256QueryBatchShifted weights runningClaim queries authenticated rho = .ok (increment, weights', runningClaim'))
    (hjoint : weights'.dot values = some runningClaim') :
    powerSum rho.value (residualPolynomial (truePrior.value - runningClaim.value) expected authenticated.values.toList) = 0 := by
  obtain ⟨rfl, rfl, hincrement⟩ := addV7_ok hrho ha h
  obtain ⟨hscales, hscaleValues⟩ := queryScales_denotes hrho 16 hrho
  obtain ⟨_, hlength, hlines⟩ := lineValues_eq hshape.small hvalues hlen hx hexpected
  have hxlength : authenticated.lineX.toList.length = 16 := Vector.length_toList
  have halength : authenticated.values.toList.length = 16 := Vector.length_toList
  have hbatch : ∀ line ∈ (queryScales (PreparedQm31Multiplier.new rho) 16 rho).zip authenticated.lineX.toList,
      CanonicalLine line := fun line hline =>
    ⟨hscales _ (List.of_mem_zip hline).1, hx _ (List.of_mem_zip hline).2⟩
  have hpushed := @WeightAccumulator.Shape.push weights hshape (.lineM31Batch (queryScales (PreparedQm31Multiplier.new rho) 16
    rho) authenticated.lineX.toList 0) ⟨hbatch, by rw [queryScales_length, hxlength]⟩
  -- the inner product after the batch, in two ways
  obtain ⟨prior, hdot, hpriorDenotes⟩ := hshape.dot_denotes hvalues hlen
  rw [hprior] at hdot
  obtain rfl := Option.some.inj hdot
  obtain ⟨joint, hjointDot, hjointDenotes⟩ := hpushed.dot_denotes hvalues hlen
  rw [hjoint] at hjointDot
  obtain rfl := Option.some.inj hjointDot
  have hgeometric := sum_zipWith_geometric rho.value (expected.map QM31.value) rho.value
  rw [List.length_map, hlength, hxlength] at hgeometric
  have hsplit := pairing_push weights (.lineM31Batch (queryScales (PreparedQm31Multiplier.new rho) 16 rho)
    authenticated.lineX.toList 0) (2 ^ weights.logLen) (entryAt values)
  rw [lineBatch_pairing hbatch, hscaleValues, hlines, hgeometric] at hsplit
  have hequal : pairing (2 ^ weights.logLen) weights.covector (entryAt values) +
      rho.value * powerSum rho.value (expected.map QM31.value) = runningClaim.value +
        rho.value * powerSum rho.value (authenticated.values.toList.map QM31.value) := by
    rw [← hsplit]
    exact hjointDenotes.value_eq.symm.trans (hclaim.denotes.add hincrement).value_eq
  have hdifferences : differences expected authenticated.values.toList =
      List.zipWith (· - ·) (expected.map QM31.value) (authenticated.values.toList.map QM31.value) := by
    rw [List.zipWith_map]
    rfl
  rw [residualPolynomial, powerSum_cons, hdifferences,
    powerSum_zipWith_sub _ (by rw [List.length_map, List.length_map, hlength, hxlength, halength]), hpriorDenotes.value_eq]
  linear_combination hequal

/-- The accumulators that the constructors build, after any folds before the last round, keep their shape. -/
theorem shape_of_folds {logLen : ℕ} (hhigh : logLen < 32) {claim : Option (List QM31)} {start weights folded : WeightAccumulator}
    {ops : List WeightOp} (hclaim : ∀ z ∈ claim, ∀ x ∈ z, x.Canonical) (hstart : WeightAccumulator.fromClaim logLen claim = some start)
    (hops : ∀ op ∈ ops, op.Canonical) (hbuild : ops.foldlM (fun weights op => op.apply weights) start = .ok weights)
    {alphas : List QM31} (halphas : ∀ alpha ∈ alphas, alpha.Canonical) (hround : 2 * alphas.length + 2 ≤ logLen)
    (hfold : alphas.foldlM (fun weights alpha => weights.fold alpha) weights = some folded) : folded.Shape := by
  have hfirst := fromClaim_extends hhigh hclaim hstart
  have hbuilt := build_extends hfirst.shape hops hbuild
  have hzeros : ∀ v ∈ List.replicate (2 ^ logLen) QM31.zero, v.Canonical := by
    intro v hv
    rw [List.eq_of_mem_replicate hv]
    exact QM31.denotes_zero.canonical
  have hat : AtRound logLen weights (List.replicate (2 ^ logLen) QM31.zero) :=
    ⟨hbuilt.shape, hzeros, List.length_replicate, hbuilt.logLen.trans hfirst.logLen⟩
  obtain ⟨last, hlast, hround, _⟩ := hat.run halphas hround
  rw [hfold] at hlast
  obtain rfl := Option.some.inj hlast
  exact hround.shape

/-- Whatever the prior discrepancy and the sixteen pairs, unless all of them agree at most sixteen challenges make the
shifted residual vanish; and for every accumulator of the relation and every vector, at most sixteen challenges
make the inner product with the batched weights the batched claim. -/
theorem shifted_query_batch :
    (∀ (prior : QM31) (expected authenticated : Vector QM31 16), prior.Canonical → (∀ x ∈ expected.toList, x.Canonical) →
      (∀ x ∈ authenticated.toList, x.Canonical) → prior ≠ QM31.zero ∨ expected ≠ authenticated →
      ∀ challenges : Finset QM31, (∀ rho ∈ challenges, rho.Canonical ∧
        prior.add (v7Final256QueryBatchShiftedResidual expected authenticated rho) = QM31.zero) → challenges.card ≤ 16) ∧
    ∀ (logLen : ℕ) (claim : Option (List QM31)) (start weights folded : WeightAccumulator) (ops : List WeightOp)
      (alphas : List QM31), logLen < 32 → (∀ z ∈ claim, ∀ x ∈ z, x.Canonical) →
      WeightAccumulator.fromClaim logLen claim = some start → (∀ op ∈ ops, op.Canonical) →
      ops.foldlM (fun weights op => op.apply weights) start = .ok weights → (∀ alpha ∈ alphas, alpha.Canonical) →
      2 * alphas.length + 2 ≤ logLen → alphas.foldlM (fun weights alpha => weights.fold alpha) weights = some folded →
      ∀ (runningClaim truePrior : QM31) (queries : Vector UInt32 16) (authenticated : V6AuthenticatedQueryBatch)
        (values : List QM31) (expected : Vector QM31 16), runningClaim.Canonical →
        (∀ x ∈ authenticated.values.toList, x.Canonical) → (∀ x ∈ authenticated.lineX.toList, x.Canonical) →
        (∀ v ∈ values, v.Canonical) → values.length = 2 ^ folded.logLen → folded.dot values = some truePrior →
        authenticated.lineX.toList.mapM (lineValue folded.logLen values) = some expected.toList →
        truePrior ≠ runningClaim ∨ expected ≠ authenticated.values →
        ∀ challenges : Finset QM31, (∀ rho ∈ challenges, rho.Canonical ∧ ∃ increment weights' runningClaim',
          addV7Final256QueryBatchShifted folded runningClaim queries authenticated rho =
            .ok (increment, weights', runningClaim') ∧ weights'.dot values = some runningClaim') → challenges.card ≤ 16 := by
  constructor
  · intro prior expected authenticated hprior he ha hne challenges hroots
    have hnonzero : prior.value ≠ 0 ∨ expected ≠ authenticated := by
      refine hne.imp_left fun hp hzero => hp ?_
      exact (eq_zero_iff hprior.denotes).mpr hzero
    apply card_challenges_le he ha hnonzero
    intro rho hrho
    obtain ⟨hcanonical, hzero⟩ := hroots rho hrho
    have hsum := hprior.denotes.add (hcanonical.denotes.mul (residual_denotes he ha hcanonical))
    refine ⟨hcanonical, ?_⟩
    rw [residualPolynomial, powerSum_cons]
    exact (eq_zero_iff hsum).mp hzero
  · intro logLen claim start weights folded ops alphas hhigh hclaim hstart hops hbuild halphas hround hfold runningClaim
      truePrior queries authenticated values expected hrunning ha hx hvalues hlen hprior hexpected hne challenges hjoint
    have hshape := shape_of_folds hhigh hclaim hstart hops hbuild halphas hround hfold
    obtain ⟨prior, hdot, hpriorDenotes⟩ := hshape.dot_denotes hvalues hlen
    rw [hprior] at hdot
    obtain rfl := Option.some.inj hdot
    obtain ⟨he, _, _⟩ := lineValues_eq hshape.small hvalues hlen hx hexpected
    have hnonzero : truePrior.value - runningClaim.value ≠ 0 ∨ expected ≠ authenticated.values := by
      refine hne.imp_left fun hp hzero => hp ?_
      have hd := hpriorDenotes.canonical.denotes
      rw [sub_eq_zero.mp hzero] at hd
      exact hd.eq hrunning.denotes
    apply card_challenges_le he ha hnonzero
    intro rho hrho
    obtain ⟨hcanonical, increment, weights', runningClaim', hadd, hholds⟩ := hjoint rho hrho
    exact ⟨hcanonical, residual_root hshape hrunning hcanonical ha hx hvalues hlen hprior hexpected hadd hholds⟩

/-- Sixteen wrong values of the vector of ones, over no prior weights. -/
theorem shifted_query_batch_ones :
    (∀ challenges : Finset QM31, (∀ rho ∈ challenges, rho.Canonical ∧ QM31.one.add (v7Final256QueryBatchShiftedResidual
      (Vector.replicate 16 QM31.one) (Vector.replicate 16 QM31.zero) rho) = QM31.zero) → challenges.card ≤ 16) ∧
    ∀ challenges : Finset QM31, (∀ rho ∈ challenges, rho.Canonical ∧ ∃ increment weights' runningClaim',
      addV7Final256QueryBatchShifted (WeightAccumulator.empty 2) QM31.zero (Vector.ofFn fun i => UInt32.ofNat i.val)
        ⟨Vector.replicate 16 QM31.zero, Vector.replicate 16 M31.one⟩ rho = .ok (increment, weights', runningClaim') ∧
        weights'.dot (List.replicate 4 QM31.one) = some runningClaim') → challenges.card ≤ 16 := by
  have hline : (lineValue 2 (List.replicate 4 QM31.one) M31.one) = some ⟨⟨⟨4⟩, ⟨0⟩⟩, ⟨⟨0⟩, ⟨0⟩⟩⟩ := by decide +kernel
  have hlines : (Vector.replicate 16 M31.one).toList.mapM (lineValue 2 (List.replicate 4 QM31.one)) =
      some (Vector.replicate 16 (⟨⟨⟨4⟩, ⟨0⟩⟩, ⟨⟨0⟩, ⟨0⟩⟩⟩ : QM31)).toList := by
    rw [Vector.toList_replicate, Vector.toList_replicate]
    generalize 16 = n
    induction n with
    | zero => rfl
    | succ n ih =>
      rw [@List.replicate_succ _ M31.one, @List.replicate_succ _ (⟨⟨⟨4⟩, ⟨0⟩⟩, ⟨⟨0⟩, ⟨0⟩⟩⟩ : QM31), List.mapM_cons, hline, ih]
      rfl
  have hdot : (WeightAccumulator.empty 2).dot (List.replicate 4 QM31.one) = some QM31.zero := by decide +kernel
  refine ⟨shifted_query_batch.1 QM31.one _ _ (by decide) (by decide) (by decide) (Or.inl (by decide)), ?_⟩
  exact shifted_query_batch.2 2 none _ _ (WeightAccumulator.empty 2) [] [] (by decide) (by simp) rfl (by simp) rfl (by simp)
    (by decide) rfl QM31.zero QM31.zero _ ⟨Vector.replicate 16 QM31.zero, Vector.replicate 16 M31.one⟩
    (List.replicate 4 QM31.one) _ (by decide) (by decide) (by decide) (by decide) rfl hdot hlines (Or.inr (by decide))

end Aspis.Core
