import Mathlib.Algebra.CharP.Frobenius
import Mathlib.FieldTheory.IsAlgClosed.AlgebraicClosure
import SealedStream.Proofs.Curve.Coordinates
import SealedStream.Proofs.Curve.Modulus

/-!
# Key agreement

The ladder over fractions is the multiplication of points: `cast_multiply` reads
`multiply` in any field of the curve's characteristic. Over an algebraically
closed one every coordinate belongs to a point, so multiples of multiples do not
depend on the order and both sides of an exchange come to one secret.
-/

namespace SealedStream.Bytes

theorem toNatLE_ofNatLE (length value : Nat) :
    toNatLE (ofNatLE length value) = value % 256 ^ length := by
  induction length generalizing value with
  | zero => simp [ofNatLE, toNatLE, Nat.mod_one]
  | succ length ih =>
    rw [ofNatLE, toNatLE, ih, Nat.pow_succ', Nat.mod_mul]
    simp

end SealedStream.Bytes

namespace SealedStream.Cipher.X25519

open WeierstrassCurve.Affine (Point)

instance : Fact modulus.Prime := ⟨modulus_prime⟩

section Arithmetic

variable {K : Type} [Field K] [CharP K modulus]

theorem cast_mod (n : Nat) : ((n % modulus : Nat) : K) = n := (CharP.cast_eq_mod K modulus n).symm

theorem cast_add (m n : Nat) : (add m n : K) = m + n := by
  rw [add, cast_mod, Nat.cast_add]

theorem cast_mul (m n : Nat) : (mul m n : K) = m * n := by
  rw [mul, cast_mod, Nat.cast_mul]

theorem cast_sub (m n : Nat) : (sub m n : K) = m - n := by
  have h : n % modulus ≤ modulus := (Nat.mod_lt n modulus_prime.pos).le
  rw [sub, cast_mod, Nat.cast_add, Nat.cast_sub h, cast_mod, CharP.cast_eq_zero K modulus]
  ring

theorem bitsOf_succ (count value : Nat) :
    bitsOf (count + 1) value = bitsOf count (value / 2) ++ [value.testBit 0] := by
  simp [bitsOf, List.range_succ_eq_map, Nat.testBit_succ, Function.comp_def]

theorem cast_power {base exponent : Nat} (h : exponent < 2 ^ 255) :
    (power base exponent : K) = (base : K) ^ exponent := by
  suffices hbits : ∀ count exponent, exponent < 2 ^ count →
      (((bitsOf count exponent).foldl
        (fun acc bit => if bit then mul (mul acc acc) base else mul acc acc) 1 : Nat) : K) =
        (base : K) ^ exponent from hbits 255 exponent h
  intro count
  induction count with
  | zero =>
    intro exponent h
    obtain rfl : exponent = 0 := by omega
    simp [bitsOf]
  | succ count ih =>
    intro exponent h
    have half := ih (exponent / 2) (by omega)
    rw [bitsOf_succ, List.foldl_append, List.foldl_cons, List.foldl_nil, Nat.testBit_zero]
    split
    · next odd =>
      rw [cast_mul, cast_mul, half, ← pow_add, ← pow_succ]
      congr 1
      simp only [decide_eq_true_eq] at odd
      omega
    · next even =>
      rw [cast_mul, half, ← pow_add]
      congr 1
      simp only [decide_eq_true_eq] at even
      omega

theorem cast_inverse (n : Nat) : (inverse n : K) = (n : K)⁻¹ := by
  rw [inverse, cast_power (by decide)]
  have fermat : (n : K) ^ modulus = n := by
    have h := map_natCast (frobenius K modulus) n
    rwa [frobenius_def] at h
  by_cases hn : (n : K) = 0
  · rw [hn, inv_zero, zero_pow (by decide)]
  · have hsplit : modulus = (modulus - 2) + 1 + 1 := by decide
    refine eq_inv_of_mul_eq_one_left ?_
    rw [hsplit, pow_succ, pow_succ] at fermat
    exact mul_right_cancel₀ hn (by rw [fermat, one_mul])

theorem cast_value (f : Fraction) : (f.value : K) = f.x * (f.z : K)⁻¹ := by
  rw [Fraction.value, cast_mul, cast_inverse]

theorem cast_inj {m n : Nat} (hm : m < modulus) (hn : n < modulus) (h : (m : K) = n) : m = n :=
  CharP.natCast_injOn_Iio K modulus hm hn h

end Arithmetic

theorem value_lt (f : Fraction) : f.value < modulus := Nat.mod_lt _ modulus_prime.pos

theorem multiply_lt (scalar base : Nat) : multiply scalar base < modulus := value_lt _

section Ladder

variable {K : Type} [Field K]

/-- The constant of the curve. -/
def curveConstant : Nat := 486662

theorem four_mul_constant : (4 : K) * (121665 : Nat) = (curveConstant : K) - 2 := by
  norm_num [curveConstant]

theorem coordinate_smul_of_zero [DecidableEq K] {y : K}
    {h : (curve (curveConstant : K)).Nonsingular 0 y} (n : Nat) :
    coordinate (n • Point.some 0 y h) = 0 := by
  have hy : y = 0 := by
    have := equation_curve.mp h.1
    simpa using this
  subst hy
  have htwo : Point.some 0 0 h + .some 0 0 h = 0 :=
    Point.add_self_of_Y_eq (by simp [WeierstrassCurve.Affine.negY])
  obtain hn | hn : n • Point.some 0 0 h = 0 ∨ n • Point.some 0 0 h = .some 0 0 h := by
    induction n with
    | zero => exact .inl (zero_smul ..)
    | succ n ih =>
      rw [succ_nsmul]
      obtain hn | hn := ih
      · exact .inr (by rw [hn, zero_add])
      · exact .inl (by rw [hn, htwo])
  · rw [hn]
    rfl
  · rw [hn]
    rfl

/-- The fraction is the coordinate of a point. -/
def Fraction.IsOf (f : Fraction) (p : (curve (curveConstant : K)).Point) : Prop :=
  Shows (f.x : K) f.z p

variable [CharP K modulus]

theorem smooth : Smooth (curveConstant : K) where
  two := by
    have h : ((2 : Nat) : K) ≠ 0 := by
      rw [Ne, CharP.cast_eq_zero_iff K modulus]
      decide
    exact_mod_cast h
  square := by
    intro h
    have h0 : ((curveConstant ^ 2 - 4 : Nat) : K) = 0 := by
      rw [Nat.cast_sub (by decide)]
      push_cast
      rw [h]
      norm_num
    rw [CharP.cast_eq_zero_iff K modulus] at h0
    revert h0
    decide

theorem Fraction.IsOf.value {f : Fraction} {p : (curve (curveConstant : K)).Point} (h : f.IsOf p) :
    (f.value : K) = coordinate p := by
  rw [cast_value, h.mul_inv]

/-- Over the coordinate zero every fraction of the ladder is zero or infinite. -/
theorem climb_of_zero {base : Nat} (hbase : (base : K) = 0) (bits : List Bool) :
    let pair := bits.foldl (climb base) (⟨1, 0⟩, ⟨base, 1⟩)
    (pair.1.x * pair.1.z : K) = 0 ∧ (pair.2.x * pair.2.z : K) = 0 := by
  induction bits using List.reverseRecOn with
  | nil => simp [hbase]
  | append_singleton bits bit ih =>
    obtain ⟨hlow, hhigh⟩ := ih
    have hsum (f g : Fraction) : ((Fraction.addDifferent base f g).z : K) = 0 := by
      simp [Fraction.addDifferent, cast_mul, hbase]
    have hdouble {f : Fraction} (h : (f.x * f.z : K) = 0) : (f.double.z : K) = 0 := by
      have he : ((f.x : K) + f.z) * (f.x + f.z) - (f.x - f.z) * (f.x - f.z) = 0 := by
        linear_combination 4 * h
      simp [Fraction.double, cast_mul, cast_sub, cast_add, he]
    rw [List.foldl_append, List.foldl_cons, List.foldl_nil, climb]
    cases bit
    · simp [hsum, hdouble hlow]
    · simp [hsum, hdouble hhigh]

variable [DecidableEq K]

namespace Fraction

theorem IsOf.double {f : Fraction} {p : (curve (curveConstant : K)).Point} (h : f.IsOf p) :
    f.double.IsOf (p + p) := by
  have hd := Shows.double smooth four_mul_constant h
  simp only [IsOf, Fraction.double, cast_mul, cast_add, cast_sub]
  convert hd using 1 <;> ring

theorem IsOf.addDifferent {f g : Fraction} {base : Nat} {y : K}
    {p q : (curve (curveConstant : K)).Point}
    {hd : (curve (curveConstant : K)).Nonsingular base y} (hbase : (base : K) ≠ 0)
    (hq : q = p + .some (base : K) y hd) (hf : f.IsOf p) (hg : g.IsOf q) :
    (Fraction.addDifferent base f g).IsOf (p + q) := by
  have hs := Shows.add_apart smooth four_mul_constant hbase hq hf hg
  simp only [IsOf, Fraction.addDifferent, cast_mul, cast_add, cast_sub]
  convert hs using 1 <;> ring

end Fraction

/-- The two fractions of the ladder are the coordinates of neighbouring multiples. -/
theorem climb_isOf {base : Nat} {y : K} {hd : (curve (curveConstant : K)).Nonsingular base y}
    (hbase : (base : K) ≠ 0) {count scalar : Nat} (h : scalar < 2 ^ count) :
    ((bitsOf count scalar).foldl (climb base) (⟨1, 0⟩, ⟨base, 1⟩)).1.IsOf
        (scalar • Point.some (base : K) y hd) ∧
      ((bitsOf count scalar).foldl (climb base) (⟨1, 0⟩, ⟨base, 1⟩)).2.IsOf
        ((scalar + 1) • Point.some (base : K) y hd) := by
  induction count generalizing scalar with
  | zero =>
    obtain rfl : scalar = 0 := by omega
    rw [zero_smul, zero_add, one_smul]
    constructor <;> simp [bitsOf, Fraction.IsOf, Shows]
  | succ count ih =>
    obtain ⟨hlow, hhigh⟩ := ih (show scalar / 2 < 2 ^ count by omega)
    rw [bitsOf_succ, List.foldl_append, List.foldl_cons, List.foldl_nil]
    have hsum := Fraction.IsOf.addDifferent hbase (succ_nsmul _ _) hlow hhigh
    rw [← add_nsmul] at hsum
    have hbit : scalar.testBit 0 = decide (scalar % 2 = 1) := Nat.testBit_zero scalar
    rw [climb, hbit]
    by_cases odd : scalar % 2 = 1
    · have hdouble := hhigh.double
      rw [← add_nsmul] at hdouble
      simp only [odd, decide_true, if_true]
      constructor
      · convert hsum using 2
        omega
      · convert hdouble using 2
        omega
    · have hdouble := hlow.double
      rw [← add_nsmul] at hdouble
      simp only [odd, decide_false, Bool.false_eq_true, if_false]
      constructor
      · convert hdouble using 2
        omega
      · convert hsum using 2
        omega

/-- The ladder multiplies the points that have its coordinate. -/
theorem cast_multiply {scalar base : Nat} (h : scalar < 2 ^ 255)
    {p : (curve (curveConstant : K)).Point} (hp : (base : K) = coordinate p) :
    (multiply scalar base : K) = coordinate (scalar • p) := by
  by_cases hbase : (base : K) = 0
  · have hvalue : (multiply scalar base : K) = 0 := by
      rw [multiply, cast_value]
      obtain hx | hz := mul_eq_zero.mp (climb_of_zero hbase (bitsOf 255 scalar)).1
      · rw [hx, zero_mul]
      · rw [hz, inv_zero, mul_zero]
    rw [hvalue]
    cases p with
    | zero =>
      have hzero : scalar • (.zero : (curve (curveConstant : K)).Point) = .zero := smul_zero scalar
      rw [hzero]
      rfl
    | some x y hx =>
      obtain rfl : x = 0 := hp.symm.trans hbase
      exact (coordinate_smul_of_zero scalar).symm
  · cases p with
    | zero => exact absurd hp hbase
    | some x y hx =>
      obtain rfl : (base : K) = x := hp
      exact (climb_isOf hbase h).1.value

end Ladder

section Agreement

theorem exists_ordinate {K : Type} [Field K] [IsAlgClosed K] [CharP K modulus] (x : K) :
    ∃ y, (curve (curveConstant : K)).Nonsingular x y := by
  classical
  obtain ⟨y, hy⟩ := IsAlgClosed.exists_pow_nat_eq (x ^ 3 + (curveConstant : K) * x ^ 2 + x)
    (n := 2) (by decide)
  refine ⟨y, (WeierstrassCurve.Affine.equation_iff_nonsingular_of_Δ_ne_zero ?_).mp
    (equation_curve.mpr hy)⟩
  have s : Smooth (curveConstant : K) := smooth
  have hdelta : (curve (curveConstant : K)).Δ = 4 * 4 * ((curveConstant : K) ^ 2 - 4) := by
    simp only [WeierstrassCurve.Δ, WeierstrassCurve.b₂, WeierstrassCurve.b₄, WeierstrassCurve.b₆,
      WeierstrassCurve.b₈]
    ring
  rw [hdelta]
  exact mul_ne_zero (mul_ne_zero s.four s.four) (sub_ne_zero.mpr s.square)

/-- Multiples of multiples do not depend on the order. -/
theorem multiply_comm {m n : Nat} (hm : m < 2 ^ 255) (hn : n < 2 ^ 255) (base : Nat) :
    multiply m (multiply n base) = multiply n (multiply m base) := by
  classical
  let K := AlgebraicClosure (ZMod modulus)
  have : CharP K modulus := charP_of_injective_algebraMap (algebraMap (ZMod modulus) K).injective _
  obtain ⟨y, hy⟩ := exists_ordinate (base : K)
  let p : (curve (curveConstant : K)).Point := .some base y hy
  have hp : (base : K) = coordinate p := rfl
  refine cast_inj (K := K) (multiply_lt _ _) (multiply_lt _ _) ?_
  rw [cast_multiply hm (cast_multiply hn hp), cast_multiply hn (cast_multiply hm hp),
    ← mul_smul, ← mul_smul, Nat.mul_comm]

theorem scalarOf_lt (secret : Bytes) : scalarOf secret < 2 ^ 255 :=
  (Nat.mod_lt _ (by decide)).trans (by decide)

theorem coordinateOf_ofNatLE {x : Nat} (h : x < modulus) :
    coordinateOf (Bytes.ofNatLE 32 x) = x := by
  have hlt : x < 2 ^ 255 := h.trans (by decide)
  rw [coordinateOf, Bytes.toNatLE_ofNatLE, Nat.mod_eq_of_lt (hlt.trans (by decide)), Nat.pow_eq,
    Nat.mod_eq_of_lt hlt, Nat.mod_eq_of_lt h]

/-- Both sides of an exchange of public keys come to the same secret. -/
theorem shared_publicKey (secret other : Bytes) :
    shared secret (publicKey other) = shared other (publicKey secret) := by
  simp only [shared, publicKey, coordinateOf_ofNatLE (multiply_lt _ _)]
  rw [multiply_comm (scalarOf_lt secret) (scalarOf_lt other)]

end Agreement

end SealedStream.Cipher.X25519
