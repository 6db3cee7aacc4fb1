/-
# Primes by their powers

A number is prime if the powers of some base show that its order is one less than
the number: the full power is 1, and no power to a quotient by a prime factor is.
The powers are computed by squaring, so a number of some hundred bits is proved
prime by a few hundred products for each factor.
-/

import Mathlib.NumberTheory.LucasPrimality
import Mathlib.Data.Nat.ModEq
import Mathlib.Data.List.Prime

namespace PrimeCertificate

/-- `acc * a ^ n` modulo `m`, for an exponent of `bits` bits, the lowest first. -/
def powMod (m : Nat) : Nat → Nat → Nat → Nat → Nat
  | 0, acc, _, _ => acc % m
  | bits + 1, acc, a, n =>
    powMod m bits (if n % 2 = 1 then acc * a % m else acc) (a * a % m) (n / 2)

theorem powMod_eq (m : Nat) {bits n : Nat} (h : n < 2 ^ bits) (acc a : Nat) :
    powMod m bits acc a n = acc * a ^ n % m := by
  induction bits generalizing n acc a with
  | zero =>
    obtain rfl : n = 0 := by omega
    rw [powMod, Nat.pow_zero, Nat.mul_one]
  | succ bits ih =>
    rw [powMod, ih (by omega)]
    have squared : (a * a % m) ^ (n / 2) ≡ a ^ (2 * (n / 2)) [MOD m] := by
      rw [Nat.pow_mul, Nat.pow_two]
      exact (Nat.mod_modEq (a * a) m).pow (n / 2)
    by_cases odd : n % 2 = 1
    · rw [if_pos odd]
      have whole : n = 2 * (n / 2) + 1 := by omega
      calc acc * a % m * (a * a % m) ^ (n / 2) % m
          = acc * a * a ^ (2 * (n / 2)) % m := ((Nat.mod_modEq (acc * a) m).mul squared)
        _ = acc * a ^ n % m := by
          conv_rhs => rw [whole, Nat.pow_succ, Nat.mul_comm (a ^ _), ← Nat.mul_assoc]
    · rw [if_neg odd]
      have whole : n = 2 * (n / 2) := by omega
      conv_rhs => rw [whole]
      exact squared.mul_left acc

/-- A number with a base of full order is prime; the factors of one less are given. -/
theorem prime_of_powMod {p : Nat} (a bits : Nat) (factors : List Nat) (large : 1 < p)
    (room : p ≤ 2 ^ bits) (product : factors.prod = p - 1) (primes : ∀ q ∈ factors, q.Prime)
    (full : powMod p bits 1 a (p - 1) = 1)
    (part : ∀ q ∈ factors, powMod p bits 1 a ((p - 1) / q) ≠ 1) : p.Prime := by
  have one (n : Nat) (hn : n < 2 ^ bits) : (a : ZMod p) ^ n = 1 ↔ powMod p bits 1 a n = 1 := by
    rw [powMod_eq p hn, Nat.one_mul, ← Nat.cast_pow, ← Nat.cast_one,
      ZMod.natCast_eq_natCast_iff', Nat.mod_eq_of_lt large]
  apply lucas_primality p (a : ZMod p)
  · rw [one (p - 1) (by omega)]
    exact full
  · intro q hq hdvd
    rw [← product] at hdvd
    obtain ⟨f, hf, hqf⟩ := (Prime.dvd_prod_iff hq.prime).mp hdvd
    obtain rfl : q = f := (Nat.prime_dvd_prime_iff_eq hq (primes f hf)).mp hqf
    rw [ne_eq, one _ (lt_of_le_of_lt (Nat.div_le_self _ _) (by omega))]
    exact part q hf

/-! ### Chains -/

/-- What shows a number to be prime: its length in bits, a base of full order, and the factors of
one less. -/
structure Row where
  prime : Nat
  bits : Nat
  base : Nat
  factors : List Nat

/-- The row shows its number to be prime, if the numbers known are. -/
def Row.Shows (known : List Nat) (r : Row) : Prop :=
  1 < r.prime ∧ r.prime ≤ 2 ^ r.bits ∧ r.factors.prod = r.prime - 1 ∧
    (∀ q ∈ r.factors, q ∈ known) ∧ powMod r.prime r.bits 1 r.base (r.prime - 1) = 1 ∧
    ∀ q ∈ r.factors, powMod r.prime r.bits 1 r.base ((r.prime - 1) / q) ≠ 1

instance (known : List Nat) (r : Row) : Decidable (r.Shows known) :=
  inferInstanceAs (Decidable (_ ∧ _))

/-- Every row may use the numbers of the rows in front of it. -/
def Chain : List Nat → List Row → Prop
  | _, [] => True
  | known, r :: rs => r.Shows known ∧ Chain (r.prime :: known) rs

instance decidableChain : (known : List Nat) → (rs : List Row) → Decidable (Chain known rs)
  | _, [] => inferInstanceAs (Decidable True)
  | known, r :: rs =>
    have := decidableChain (r.prime :: known) rs
    inferInstanceAs (Decidable (_ ∧ _))

/-- The numbers of a chain are prime. -/
theorem Chain.prime {known : List Nat} {rs : List Row} (h : Chain known rs)
    (primes : ∀ q ∈ known, q.Prime) : ∀ r ∈ rs, r.prime.Prime := by
  induction rs generalizing known with
  | nil =>
    intro r hr
    cases hr
  | cons first rs ih =>
    obtain ⟨⟨large, room, product, among, full, part⟩, rest⟩ := h
    have here : first.prime.Prime :=
      prime_of_powMod first.base first.bits first.factors large room product
        (fun q hq => primes q (among q hq)) full part
    intro r hr
    rcases List.mem_cons.mp hr with rfl | later
    · exact here
    · exact ih rest (List.forall_mem_cons.mpr ⟨here, primes⟩) r later

end PrimeCertificate
