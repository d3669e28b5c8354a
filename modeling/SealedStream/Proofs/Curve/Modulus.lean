import Mathlib.NumberTheory.LucasPrimality
import Mathlib.Data.List.Prime
import Mathlib.Tactic.NormNum.Prime
import SealedStream.Cipher.X25519

/-!
# The modulus of the curve's field is prime

By Lucas' test: some number has order `n - 1` modulo `n`. The powers that show
it are computed by repeated squaring; the prime factors of `n - 1` that are too
large for trial division are prime by the same test.
-/

namespace SealedStream.Cipher.X25519

/-- A power modulo `m` by the lowest `bits` bits of the exponent. -/
def powerMod (m : Nat) : (bits base exponent : Nat) → Nat
  | 0, _, _ => 1 % m
  | bits + 1, base, exponent =>
    let rest := powerMod m bits (base * base % m) (exponent / 2)
    if exponent % 2 = 1 then base * rest % m else rest

theorem powerMod_eq (m : Nat) {bits base exponent : Nat} (h : exponent < 2 ^ bits) :
    powerMod m bits base exponent = base ^ exponent % m := by
  induction bits generalizing base exponent with
  | zero =>
    obtain rfl : exponent = 0 := by omega
    simp [powerMod]
  | succ bits ih =>
    have half : exponent / 2 < 2 ^ bits := by omega
    have square : (base * base % m) ^ (exponent / 2) % m = base ^ (2 * (exponent / 2)) % m := by
      rw [← Nat.pow_mod, ← Nat.pow_two, Nat.pow_mul]
    simp only [powerMod, ih half, square]
    split
    · next odd =>
      rw [Nat.mul_mod_mod, ← Nat.pow_succ']
      congr 2
      omega
    · next even =>
      congr 2
      omega

/-- `n - 1` is the product of the factors, and `base` has order `n - 1` modulo `n`. -/
def generates (n base : Nat) (factors : List Nat) : Bool :=
  2 ≤ n ∧ n ≤ 2 ^ 255 ∧ factors.prod = n - 1 ∧ powerMod n 255 base (n - 1) = 1 ∧
    ∀ q ∈ factors, powerMod n 255 base ((n - 1) / q) ≠ 1

theorem natCast_pow_eq_one_iff {n : Nat} (h : 2 ≤ n) (base exponent : Nat) :
    (base : ZMod n) ^ exponent = 1 ↔ base ^ exponent % n = 1 := by
  rw [← Nat.cast_pow, ← Nat.cast_one, ZMod.natCast_eq_natCast_iff', Nat.mod_eq_of_lt (a := 1) h]

theorem prime_of_generates {n : Nat} (base : Nat) (factors : List Nat) (hp : ∀ q ∈ factors, q.Prime)
    (h : generates n base factors) : n.Prime := by
  simp only [generates, decide_eq_true_eq] at h
  obtain ⟨two, bound, product, whole, parts⟩ := h
  have fits {exponent : Nat} (he : exponent ≤ n - 1) : exponent < 2 ^ 255 := by omega
  refine lucas_primality n (base : ZMod n) ?_ fun q hq hd => ?_
  · rw [natCast_pow_eq_one_iff two, ← powerMod_eq n (fits le_rfl)]
    exact whole
  · rw [← product] at hd
    obtain ⟨r, hr, hqr⟩ := (Prime.dvd_prod_iff hq.prime).mp hd
    obtain rfl := (Nat.prime_dvd_prime_iff_eq hq (hp r hr)).mp hqr
    rw [ne_eq, natCast_pow_eq_one_iff two, ← powerMod_eq n (fits (Nat.div_le_self _ _))]
    exact parts q hr

theorem prime_2773320623 : Nat.Prime 2773320623 :=
  prime_of_generates 5 [2, 2437, 569003]
    (by simp; norm_num) (by decide +kernel)

theorem prime_72106336199 : Nat.Prime 72106336199 :=
  prime_of_generates 7 [2, 13, 2773320623]
    (by simp [prime_2773320623]; norm_num) (by decide +kernel)

theorem modulus_prime : modulus.Prime := by
  have h₁ : Nat.Prime 1919519569386763 :=
    prime_of_generates 2 [2, 3, 7, 19, 47, 47, 127, 8574133]
      (by simp; norm_num) (by decide +kernel)
  have h₂ : Nat.Prime 75445702479781427272750846543864801 :=
    prime_of_generates 7 [2, 2, 2, 2, 2, 3, 3, 5, 5, 75707, 72106336199, 1919519569386763]
      (by simp [prime_72106336199, h₁]; norm_num) (by decide +kernel)
  have h₃ : Nat.Prime 31757755568855353 :=
    prime_of_generates 10 [2, 2, 2, 3, 31, 107, 223, 4153, 430751]
      (by simp; norm_num) (by decide +kernel)
  have h₄ : Nat.Prime 74058212732561358302231226437062788676166966415465897661863160754340907 :=
    prime_of_generates 2 [2, 3, 353, 57467, 132049, 1923133, 31757755568855353,
        75445702479781427272750846543864801]
      (by simp [h₂, h₃]; norm_num) (by decide +kernel)
  exact prime_of_generates 2 [2, 2, 3, 65147,
      74058212732561358302231226437062788676166966415465897661863160754340907]
    (by simp [h₄]; norm_num) (by decide +kernel)

end SealedStream.Cipher.X25519
