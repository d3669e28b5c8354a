import Mathlib.AlgebraicGeometry.EllipticCurve.Affine.Point
import Mathlib.Tactic.LinearCombination
import Mathlib.Tactic.FieldSimp

/-!
# Coordinates of points on a Montgomery curve

A point is known by a fraction for its `x` coordinate. `Shows.double` and
`Shows.add_apart` are the two steps of a ladder: the double of a point, and the
sum of two points whose difference is known. Both hold at every point, also
where the coordinates of Mathlib's group law split into cases.
-/

namespace SealedStream.Cipher.X25519

open WeierstrassCurve.Affine (Point)

variable {K : Type} [Field K] {a : K}

/-- The curve `y² = x³ + a x² + x`. -/
abbrev curve (a : K) : WeierstrassCurve.Affine K := ⟨0, a, 0, 1, 0⟩

theorem equation_curve {x y : K} : (curve a).Equation x y ↔ y ^ 2 = x ^ 3 + a * x ^ 2 + x := by
  simp [WeierstrassCurve.Affine.equation_iff]

/-- The fraction `x / z` is the coordinate of a point; infinity has denominator zero. -/
def Shows (x z : K) : (curve a).Point → Prop
  | .zero => x ≠ 0 ∧ z = 0
  | .some u _ _ => z ≠ 0 ∧ x = u * z

/-- The coordinate of a point, zero for the one at infinity. -/
def coordinate : (curve a).Point → K
  | .zero => 0
  | .some u _ _ => u

theorem Shows.mul_inv {x z : K} {p : (curve a).Point} (h : Shows x z p) :
    x * z⁻¹ = coordinate p := by
  cases p with
  | zero => simp [coordinate, h.2]
  | some u y hu =>
    obtain ⟨hz, rfl⟩ := h
    simp [coordinate, hz]

/-- What a field must satisfy for the curve to be smooth over it. -/
structure Smooth (a : K) : Prop where
  two : (2 : K) ≠ 0
  square : a ^ 2 ≠ 4

namespace Smooth

theorem four (s : Smooth a) : (4 : K) ≠ 0 := by
  have h := mul_ne_zero s.two s.two
  norm_num at h
  exact h

/-- No point of order two has the coordinate of a point of order four. -/
theorem square_ne_one {u : K} (s : Smooth a) (h : u ^ 3 + a * u ^ 2 + u = 0) : u ^ 2 - 1 ≠ 0 := by
  intro hu
  have hne : u ≠ 0 := by
    rintro rfl
    simp at hu
  have hroot : u * (u ^ 2 + a * u + 1) = 0 := by linear_combination h
  have hau : a * u = -2 := by linear_combination (mul_eq_zero.mp hroot).resolve_left hne - hu
  refine s.square ?_
  linear_combination (a * u - 2) * hau - a ^ 2 * hu

end Smooth

variable [DecidableEq K]

theorem Shows.double {c x z : K} {p : (curve a).Point} (s : Smooth a) (hc : 4 * c = a - 2)
    (h : Shows x z p) :
    Shows ((x + z) ^ 2 * (x - z) ^ 2)
      (((x + z) ^ 2 - (x - z) ^ 2) * ((x + z) ^ 2 + c * ((x + z) ^ 2 - (x - z) ^ 2))) (p + p) := by
  cases p with
  | zero =>
    obtain ⟨hx, rfl⟩ := h
    exact ⟨by simpa using hx, by ring⟩
  | some u y hu =>
    obtain ⟨hz, rfl⟩ := h
    have hcurve := equation_curve.mp hu.1
    have hnum : (u * z + z) ^ 2 * (u * z - z) ^ 2 = (u ^ 2 - 1) ^ 2 * z ^ 4 := by ring
    have hden : ((u * z + z) ^ 2 - (u * z - z) ^ 2) *
        ((u * z + z) ^ 2 + c * ((u * z + z) ^ 2 - (u * z - z) ^ 2)) = (2 * y) ^ 2 * z ^ 4 := by
      linear_combination (4 * u ^ 2 * z ^ 4) * hc - 4 * z ^ 4 * hcurve
    rw [hnum, hden]
    have htwo := s.two
    by_cases hy : y = 0
    · have hneg : y = (curve a).negY u y := by simp [WeierstrassCurve.Affine.negY, hy]
      rw [Point.add_self_of_Y_eq hneg]
      subst hy
      have hne := s.square_ne_one (u := u) (by linear_combination -hcurve)
      exact ⟨mul_ne_zero (pow_ne_zero 2 hne) (pow_ne_zero 4 hz), by ring⟩
    · have htwice : y - (curve a).negY u y = 2 * y := by
        simp only [WeierstrassCurve.Affine.negY]
        ring
      have hneg : y ≠ (curve a).negY u y := by
        rw [← sub_ne_zero, htwice]
        exact mul_ne_zero s.two hy
      rw [Point.add_self_of_Y_ne hneg]
      refine ⟨mul_ne_zero (pow_ne_zero 2 (mul_ne_zero s.two hy)) (pow_ne_zero 4 hz), ?_⟩
      rw [WeierstrassCurve.Affine.slope_of_Y_ne rfl hneg, htwice]
      simp only [WeierstrassCurve.Affine.addX]
      field_simp
      linear_combination 4 * (a + 2 * u) * hcurve

omit [DecidableEq K] in
/-- The coordinates of the sum and the difference of two points have a product that does
without the ordinates. -/
theorem addX_mul_addX {u v u' v' : K} (hu : v ^ 2 = u ^ 3 + a * u ^ 2 + u)
    (hu' : v' ^ 2 = u' ^ 3 + a * u' ^ 2 + u') (hne : u - u' ≠ 0) :
    (((v - v') / (u - u')) ^ 2 - a - u - u') * (((v + v') / (u - u')) ^ 2 - a - u - u') *
      (u - u') ^ 2 = (u * u' - 1) ^ 2 := by
  field_simp
  linear_combination (v ^ 2 - v' ^ 2 + (u ^ 3 + a * u ^ 2 + u) - (u' ^ 3 + a * u' ^ 2 + u') -
      2 * (a + u + u') * (u - u') ^ 2) * hu +
    (-(v ^ 2 - v' ^ 2 + (u ^ 3 + a * u ^ 2 + u) - (u' ^ 3 + a * u' ^ 2 + u')) -
      2 * (a + u + u') * (u - u') ^ 2) * hu'

/-- From two points that lie a point with coordinate `base` apart, the coordinate of their sum. -/
theorem Shows.add_apart {c base x₁ z₁ x₂ z₂ y : K} {p q : (curve a).Point} (s : Smooth a)
    (hc : 4 * c = a - 2) {hd : (curve a).Nonsingular base y} (hbase : base ≠ 0)
    (hq : q = p + .some base y hd) (hp : Shows x₁ z₁ p) (hq' : Shows x₂ z₂ q) :
    Shows (((x₂ - z₂) * (x₁ + z₁) + (x₂ + z₂) * (x₁ - z₁)) ^ 2)
      (base * ((x₂ - z₂) * (x₁ + z₁) - (x₂ + z₂) * (x₁ - z₁)) ^ 2) (p + q) := by
  have hfour := s.four
  have hnum : ((x₂ - z₂) * (x₁ + z₁) + (x₂ + z₂) * (x₁ - z₁)) ^ 2 =
      4 * (x₁ * x₂ - z₁ * z₂) ^ 2 := by ring
  have hden : ((x₂ - z₂) * (x₁ + z₁) - (x₂ + z₂) * (x₁ - z₁)) ^ 2 =
      4 * (x₂ * z₁ - x₁ * z₂) ^ 2 := by ring
  rw [hnum, hden]
  clear hnum hden
  cases p with
  | zero =>
    obtain ⟨hx, rfl⟩ := hp
    obtain rfl : q = .some base y hd := hq.trans (zero_add _)
    obtain ⟨hz, rfl⟩ := hq'
    exact ⟨by simp [hbase, hfour, hx, hz], by ring⟩
  | some u v hu =>
    obtain ⟨hz₁, rfl⟩ := hp
    cases q with
    | zero =>
      obtain ⟨hx, rfl⟩ := hq'
      have hneg : Point.some u v hu = -.some base y hd := eq_neg_of_add_eq_zero_left hq.symm
      obtain rfl : u = base := Point.X_eq_iff.mpr (.inr hneg)
      exact ⟨by simp [hbase, hfour, hx, hz₁], by ring⟩
    | some u' v' hu' =>
      obtain ⟨hz₂, rfl⟩ := hq'
      have hdiff : Point.some base y hd = .some u' v' hu' + -.some u v hu := by
        rw [hq]
        abel
      by_cases hne : u = u'
      · -- The points differ, so each is the other's negative and the difference is a double.
        subst hne
        have hneg : Point.some u v' hu' = -.some u v hu := by
          refine (Point.X_eq_iff.mp rfl).resolve_left fun heq => ?_
          rw [heq, add_neg_cancel] at hdiff
          exact Point.some_ne_zero hd hdiff
        have hsum : Point.some u v hu + .some u v' hu' = 0 := by rw [hneg, add_neg_cancel]
        have hshow : Shows u 1 (-Point.some u v hu) := ⟨one_ne_zero, (mul_one u).symm⟩
        have hdouble := hshow.double s hc
        rw [← hneg, ← (hneg ▸ hdiff : Point.some base y hd = .some u v' hu' + .some u v' hu')]
          at hdouble
        obtain ⟨hz, hx⟩ := hdouble
        have hone : u ^ 2 - 1 ≠ 0 := by
          intro hu
          have hzero : (u + 1) ^ 2 * (u - 1) ^ 2 = 0 := by linear_combination (u ^ 2 - 1) * hu
          rw [hzero] at hx
          exact mul_ne_zero hbase hz hx.symm
        rw [hsum]
        refine ⟨?_, by ring⟩
        have : u * z₁ * (u * z₂) - z₁ * z₂ = (u ^ 2 - 1) * (z₁ * z₂) := by ring
        simp [this, hfour, hone, hz₁, hz₂]
      · have hsub : u - u' ≠ 0 := sub_ne_zero.mpr hne
        have hsub' : u' - u ≠ 0 := sub_ne_zero.mpr (Ne.symm hne)
        rw [Point.neg_some, Point.add_of_X_ne (Ne.symm hne), Point.some.injEq] at hdiff
        rw [Point.add_of_X_ne hne]
        refine ⟨?_, ?_⟩
        · have : u' * z₂ * z₁ - u * z₁ * z₂ = (u' - u) * (z₁ * z₂) := by ring
          simp [this, hbase, hfour, hz₁, hz₂, hsub']
        · have hproduct := addX_mul_addX (equation_curve.mp hu.1) (equation_curve.mp hu'.1) hsub
          have hbase' : base = ((v + v') / (u - u')) ^ 2 - a - u - u' := by
            rw [hdiff.1, WeierstrassCurve.Affine.slope_of_X_ne (Ne.symm hne)]
            simp only [WeierstrassCurve.Affine.addX, WeierstrassCurve.Affine.negY]
            field_simp
            ring
          rw [← hbase'] at hproduct
          rw [WeierstrassCurve.Affine.slope_of_X_ne hne]
          simp only [WeierstrassCurve.Affine.addX, zero_mul, add_zero]
          linear_combination (-4 * z₁ ^ 2 * z₂ ^ 2) * hproduct

end SealedStream.Cipher.X25519
