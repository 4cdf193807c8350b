import Aspis.Core.FieldTower
import Aspis.Core.Transcript

/-! The rational map onto the circle. Over the field the map `t ↦ ((1 - t²) / (1 + t²), 2 t / (1 + t²))`
has the inverse `(x, y) ↦ y / (1 + x)`, which stays in any subfield; a point whose parameter lies
outside the complex subfield therefore has a coordinate outside it. -/

namespace Aspis.Core

open Aspis.Lib (FixedBytes)

/-! ### Over a field -/

section Field
variable {K : Type*} [Field K]

def circleX (t : K) : K := (1 - t * t) * (1 + t * t)⁻¹

def circleY (t : K) : K := (t + t) * (1 + t * t)⁻¹

theorem circle_on_circle {t : K} (ht : 1 + t * t ≠ 0) : circleX t * circleX t + circleY t * circleY t = 1 := by
  have hsquare : 1 + t ^ 2 ≠ 0 := by rwa [pow_two]
  unfold circleX circleY
  field_simp
  ring

theorem one_add_circleX {t : K} (ht : 1 + t * t ≠ 0) : 1 + circleX t = 2 * (1 + t * t)⁻¹ := by
  have hsquare : 1 + t ^ 2 ≠ 0 := by rwa [pow_two]
  unfold circleX
  field_simp
  ring

theorem circleX_ne_neg_one (h2 : (2 : K) ≠ 0) {t : K} (ht : 1 + t * t ≠ 0) : circleX t ≠ -1 := by
  intro h
  have hsum := one_add_circleX ht
  rw [h, add_neg_cancel] at hsum
  exact mul_ne_zero h2 (inv_ne_zero ht) hsum.symm

/-- The parameter from the point. -/
theorem parameter_of_point (h2 : (2 : K) ≠ 0) {t : K} (ht : 1 + t * t ≠ 0) : circleY t / (1 + circleX t) = t := by
  rw [one_add_circleX ht, circleY, ← two_mul, mul_assoc, mul_left_comm 2, mul_div_assoc, div_self, mul_one]
  exact mul_ne_zero h2 (inv_ne_zero ht)

end Field

/-- An element of the complex subfield. -/
def InComplex (v : QuarticField) : Prop := ∃ c : ComplexField, algebraMap ComplexField QuarticField c = v

theorem inComplex_iff {v : QuarticField} : InComplex v ↔ v.im = 0 := by
  constructor
  · rintro ⟨c, rfl⟩
    rfl
  · intro h
    exact ⟨v.re, QuadraticAlgebra.ext rfl h.symm⟩

theorem InComplex.div_one_add {x y : QuarticField} (hx : InComplex x) (hy : InComplex y) : InComplex (y / (1 + x)) := by
  obtain ⟨c, rfl⟩ := hx
  obtain ⟨d, rfl⟩ := hy
  exact ⟨d / (1 + c), by rw [map_div₀, map_add, map_one]⟩

/-! ### The code -/

theorem c1_eq_zero_iff {x : QM31} {v : QuarticField} (h : x.Denotes v) : x.c1 = CM31.zero ↔ InComplex v := by
  rw [inComplex_iff]
  constructor
  · intro hzero
    have hvalue := h.c1.value_eq
    rw [hzero, CM31.denotes_zero.value_eq] at hvalue
    exact hvalue.symm
  · intro hzero
    have hdenotes := h.c1
    rw [hzero] at hdenotes
    exact hdenotes.eq CM31.denotes_zero

theorem denominator_denotes {t : QM31} (ht : t.Canonical) :
    (QM31.one.add t.square).Denotes (1 + t.value * t.value) := QM31.denotes_one.add ht.denotes.square

theorem eq_zero_iff {x : QM31} {v : QuarticField} (h : x.Denotes v) : x = QM31.zero ↔ v = 0 := by
  constructor
  · rintro rfl
    exact h.value_eq.symm.trans QM31.denotes_zero.value_eq
  · rintro rfl
    exact h.eq QM31.denotes_zero

theorem secureCirclePointFromParameter_of_none {t : QM31} (h : (QM31.one.add t.square).tryInv = none) :
    secureCirclePointFromParameter t = .error .singularParameter := by
  -- the function alone is unfolded: with its argument the kernel would run the inversion on a variable
  conv_lhs => fun; delta secureCirclePointFromParameter
  dsimp only
  rw [h]

theorem secureCirclePointFromParameter_of_some {t inverse : QM31} (h : (QM31.one.add t.square).tryInv = some inverse) :
    secureCirclePointFromParameter t = .ok ⟨(QM31.one.sub t.square).mul inverse, (t.add t).mul inverse⟩ := by
  conv_lhs => fun; delta secureCirclePointFromParameter
  dsimp only
  rw [h]

/-- The map returns the rational point, except at a zero of the denominator. -/
theorem secureCirclePointFromParameter_cases {t : QM31} (ht : t.Canonical) :
    (1 + t.value * t.value = 0 ∧ secureCirclePointFromParameter t = .error .singularParameter) ∨
    (1 + t.value * t.value ≠ 0 ∧ ∃ point, secureCirclePointFromParameter t = .ok point ∧
      point.x.Denotes (circleX t.value) ∧ point.y.Denotes (circleY t.value)) := by
  have hd := denominator_denotes ht
  by_cases hzero : 1 + t.value * t.value = 0
  · have hnone : QM31.zero.tryInv = none := by decide
    rw [← (eq_zero_iff hd).mpr hzero] at hnone
    exact Or.inl ⟨hzero, secureCirclePointFromParameter_of_none hnone⟩
  · obtain ⟨inverse, hinverse, hinv⟩ := hd.tryInv hzero
    exact Or.inr ⟨hzero, _, secureCirclePointFromParameter_of_some hinverse,
      (QM31.denotes_one.sub ht.denotes.square).mul hinv, (ht.denotes.add ht.denotes).mul hinv⟩

/-- The point of a parameter, with the parameter it comes from. -/
theorem ok_cases {t : QM31} {point : SecureCirclePoint} (ht : t.Canonical)
    (h : secureCirclePointFromParameter t = .ok point) : 1 + t.value * t.value ≠ 0 ∧
      point.x.Denotes (circleX t.value) ∧ point.y.Denotes (circleY t.value) := by
  rcases secureCirclePointFromParameter_cases ht with ⟨_, herror⟩ | ⟨hne, found, hok, hx, hy⟩
  · rw [herror] at h
    cases h
  · rw [hok] at h
    obtain rfl := Except.ok.inj h
    exact ⟨hne, hx, hy⟩

theorem ok_of_secureOod {t : QM31} {point : SecureCirclePoint} (h : secureOodCirclePointFromParameter t = .ok point) :
    secureCirclePointFromParameter t = .ok point ∧ t.c1 ≠ CM31.zero := by
  unfold secureOodCirclePointFromParameter at h
  obtain ⟨p, hp, hrest⟩ := Lib.except_bind_eq_ok.mp h
  split_ifs at hrest with hc1
  rw [Except.ok.inj hrest] at hp
  exact ⟨hp, hc1⟩

/-- A point outside the complex subfield, and so outside every domain with coordinates in the base field. -/
structure OutsideDomains (point : SecureCirclePoint) : Prop where
  complex : ¬ (point.x.c1 = CM31.zero ∧ point.y.c1 = CM31.zero)
  base : ∀ x y : M31, point ≠ ⟨QM31.fromCm31 (CM31.fromM31 x), QM31.fromCm31 (CM31.fromM31 y)⟩

theorem outside_of_secureOod {t : QM31} {point : SecureCirclePoint} (ht : t.Canonical)
    (h : secureOodCirclePointFromParameter t = .ok point) : OutsideDomains point := by
  obtain ⟨hok, hc1⟩ := ok_of_secureOod h
  obtain ⟨hne, hx, hy⟩ := ok_cases ht hok
  have hcomplex : ¬ (point.x.c1 = CM31.zero ∧ point.y.c1 = CM31.zero) := by
    rintro ⟨hx1, hy1⟩
    have hparameter := ((c1_eq_zero_iff hx).mp hx1).div_one_add ((c1_eq_zero_iff hy).mp hy1)
    rw [parameter_of_point two_ne_zero hne] at hparameter
    exact hc1 ((c1_eq_zero_iff ht.denotes).mpr hparameter)
  refine ⟨hcomplex, ?_⟩
  rintro x y rfl
  exact hcomplex ⟨rfl, rfl⟩

/-! ### The sampler -/

section Sampler
variable {S : Type} {squeezeBlock : S → FixedBytes 32 × S}

theorem drawLimb_canonical : ∀ (retries : ℕ) (r : BlockReader S) {limb : M31},
    (drawLimb squeezeBlock retries r).1 = some limb → limb.Canonical
  | 0, _, _, h => by cases h
  | retries + 1, r, limb, h => by
    rw [drawLimb] at h
    split_ifs at h with hmasked
    · obtain rfl := Option.some.inj h
      have hle : ((r.nextWord squeezeBlock).1 &&& P).toNat ≤ 2147483647 := by
        rw [UInt32.toNat_and]
        exact Nat.and_le_right
      have hne : ((r.nextWord squeezeBlock).1 &&& P).toNat ≠ 2147483647 := fun heq => hmasked (UInt32.toNat_inj.mp heq)
      show ((r.nextWord squeezeBlock).1 &&& P).toNat < 2147483647
      omega
    · exact drawLimb_canonical retries _ h

theorem drawLimbs_canonical : ∀ (n : ℕ) (r : BlockReader S) {found : List M31},
    (drawLimbs squeezeBlock n r).1 = some found → ∀ limb ∈ found, limb.Canonical
  | 0, _, _, h => by
    obtain rfl := Option.some.inj h
    intro limb hlimb
    cases hlimb
  | n + 1, r, found, h => by
    rw [drawLimbs] at h
    rcases hdraw : drawLimb squeezeBlock CHALLENGE_RETRY_LIMIT r with ⟨first, next⟩
    rw [hdraw] at h
    cases first with
    | none => cases h
    | some limb =>
      obtain ⟨rest, hrest, rfl⟩ := Option.map_eq_some_iff.mp h
      have hfirst := @drawLimb_canonical _ squeezeBlock CHALLENGE_RETRY_LIMIT r limb (by rw [hdraw])
      intro other hother
      rcases List.mem_cons.mp hother with rfl | hmem
      · exact hfirst
      · exact drawLimbs_canonical n next hrest other hmem

theorem challengeQm31_canonical {s s' : S} {value : QM31} (h : challengeQm31 squeezeBlock s = (.ok value, s')) :
    value.Canonical := by
  rw [challengeQm31] at h
  rcases hdraw : drawLimbs squeezeBlock 4 ⟨(squeezeBlock s).1, 0, (squeezeBlock s).2⟩ with ⟨found, next⟩
  rw [hdraw] at h
  cases found with
  | none => cases h
  | some found =>
    have hall := @drawLimbs_canonical _ squeezeBlock 4 ⟨(squeezeBlock s).1, 0, (squeezeBlock s).2⟩ found (by rw [hdraw])
    have hget : ∀ i, (found.getD i M31.zero).Canonical := by
      intro i
      rw [List.getD_eq_getElem?_getD]
      cases hi : found[i]? with
      | none => exact M31.denotes_zero.canonical
      | some limb => exact hall limb (List.mem_of_getElem? hi)
    obtain rfl := Except.ok.inj (congrArg Prod.fst h)
    exact ⟨⟨hget 0, hget 1⟩, hget 2, hget 3⟩

theorem challengeAccepted_ok {α ε : Type} {accept : QM31 → Option α} {sampleExhausted retriesExhausted : ε} {a : α} :
    ∀ {limit : ℕ} {s s' : S},
      challengeAccepted squeezeBlock accept sampleExhausted retriesExhausted limit s = (.ok a, s') →
      ∃ value, value.Canonical ∧ accept value = some a
  | 0, _, _, h => by cases h
  | limit + 1, s, s', h => by
    rw [challengeAccepted] at h
    rcases hdraw : challengeQm31 squeezeBlock s with ⟨drawn, next⟩
    rw [hdraw] at h
    cases drawn with
    | error e => cases h
    | ok value =>
      dsimp only at h
      cases haccept : accept value with
      | none =>
        rw [haccept] at h
        exact challengeAccepted_ok h
      | some b =>
        rw [haccept] at h
        obtain rfl := Except.ok.inj (congrArg Prod.fst h)
        exact ⟨value, challengeQm31_canonical hdraw, haccept⟩

end Sampler

/-- The rational map of every parameter: it fails exactly at the zeros of `1 + t²`, and otherwise returns a point of the
circle other than `x = -1`; it is injective; and neither the out-of-domain map nor the sampler returns a point of
the complex subfield. -/
theorem circle_point_parameterization :
    (∀ t : QM31, t.Canonical →
      ((∃ e, secureCirclePointFromParameter t = .error e) ↔ QM31.one.add t.square = QM31.zero) ∧
      ∀ point, secureCirclePointFromParameter t = .ok point →
        point.x.square.add point.y.square = QM31.one ∧ point.x ≠ QM31.one.neg) ∧
    (∀ s t point, s.Canonical → t.Canonical → secureCirclePointFromParameter s = .ok point →
      secureCirclePointFromParameter t = .ok point → s = t) ∧
    (∀ t point, t.Canonical → secureOodCirclePointFromParameter t = .ok point → OutsideDomains point) ∧
    ∀ (S : Type) (squeezeBlock : S → FixedBytes 32 × S) (s s' : S) (point : SecureCirclePoint),
      challengeSecureCirclePoint squeezeBlock s = (.ok point, s') → OutsideDomains point := by
  refine ⟨fun t ht => ⟨?_, fun point hok => ?_⟩, fun s t point hs ht hsok htok => ?_, fun t point ht hok =>
    outside_of_secureOod ht hok, fun S squeezeBlock s s' point h => ?_⟩
  · rw [eq_zero_iff (denominator_denotes ht)]
    rcases secureCirclePointFromParameter_cases ht with ⟨hzero, herror⟩ | ⟨hne, found, hok, _⟩
    · exact ⟨fun _ => hzero, fun _ => ⟨_, herror⟩⟩
    · refine ⟨fun ⟨e, herror⟩ => ?_, fun hzero => absurd hzero hne⟩
      rw [hok] at herror
      cases herror
  · obtain ⟨hne, hx, hy⟩ := ok_cases ht hok
    have hcircle := hx.square.add hy.square
    rw [circle_on_circle hne] at hcircle
    refine ⟨hcircle.eq QM31.denotes_one, fun hminus => ?_⟩
    have hvalue := hx.value_eq
    rw [hminus, QM31.denotes_one.neg.value_eq] at hvalue
    exact circleX_ne_neg_one two_ne_zero hne hvalue.symm
  · obtain ⟨hsne, hsx, hsy⟩ := ok_cases hs hsok
    obtain ⟨htne, htx, hty⟩ := ok_cases ht htok
    have hparameter : s.value = t.value := by
      rw [← parameter_of_point two_ne_zero hsne, ← parameter_of_point two_ne_zero htne, ← hsx.value_eq, ← hsy.value_eq,
        htx.value_eq, hty.value_eq]
    have hsd := hs.denotes
    rw [hparameter] at hsd
    exact hsd.eq ht.denotes
  · obtain ⟨value, hvalue, haccept⟩ := challengeAccepted_ok h
    cases hood : secureOodCirclePointFromParameter value with
    | error e =>
      rw [hood] at haccept
      cases haccept
    | ok found =>
      rw [hood] at haccept
      obtain rfl := Option.some.inj haccept
      exact outside_of_secureOod hvalue hood

theorem circle_point_parameterization_sample :
    ∃ point, secureOodCirclePointFromParameter ⟨CM31.zero, CM31.one⟩ = .ok point ∧ OutsideDomains point := by
  have hcanonical : (⟨CM31.zero, CM31.one⟩ : QM31).Canonical := by decide
  have hreturns : (secureOodCirclePointFromParameter ⟨CM31.zero, CM31.one⟩).toOption.isSome = true := by decide +kernel
  cases h : secureOodCirclePointFromParameter ⟨CM31.zero, CM31.one⟩ with
  | error e =>
    rw [h] at hreturns
    cases hreturns
  | ok point => exact ⟨point, rfl, circle_point_parameterization.2.2.1 _ point hcanonical h⟩

end Aspis.Core
