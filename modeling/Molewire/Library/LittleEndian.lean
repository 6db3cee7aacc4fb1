/-
# Little-endian numbers

A number as its bytes, the least significant first.
-/

import Mathlib.Algebra.Group.Nat.Defs

namespace LittleEndian

/-- The `n` low bytes of a number. -/
def leBytes : Nat → Nat → List UInt8
  | 0, _ => []
  | n + 1, x => x.toUInt8 :: leBytes n (x / 256)

/-- The number that some bytes stand for. -/
def leVal : List UInt8 → Nat
  | [] => 0
  | b :: bs => b.toNat + 256 * leVal bs

@[simp] theorem length_leBytes (n x : Nat) : (leBytes n x).length = n := by
  induction n generalizing x with
  | zero => rfl
  | succ n ih => rw [leBytes, List.length_cons, ih]

/-- What is stored is read back, as far as it fits. -/
theorem leVal_leBytes (n x : Nat) : leVal (leBytes n x) = x % 256 ^ n := by
  induction n generalizing x with
  | zero => rw [leBytes, leVal, Nat.pow_zero, Nat.mod_one]
  | succ n ih =>
    have hbyte : x.toUInt8.toNat = x % 256 := rfl
    rw [leBytes, leVal, ih, hbyte, Nat.pow_succ', Nat.mod_mul]

theorem leVal_append (a b : List UInt8) : leVal (a ++ b) = leVal a + 256 ^ a.length * leVal b := by
  induction a with
  | nil => simp [leVal]
  | cons x a ih =>
    rw [List.cons_append, leVal, leVal, ih, List.length_cons, Nat.pow_succ']
    rw [Nat.mul_add, Nat.mul_assoc, Nat.add_assoc]

theorem leVal_lt (b : List UInt8) : leVal b < 256 ^ b.length := by
  induction b with
  | nil => exact Nat.one_pos
  | cons x b ih =>
    have hx := x.toNat_lt
    rw [leVal, List.length_cons, Nat.pow_succ']
    omega

theorem leVal_replicate_zero (n : Nat) : leVal (List.replicate n 0) = 0 := by
  induction n with
  | zero => rfl
  | succ n ih =>
    rw [List.replicate_succ, leVal, ih]
    rfl

theorem leVal_drop (b : List UInt8) (i : Nat) : leVal (b.drop i) = leVal b / 256 ^ i := by
  induction i generalizing b with
  | zero => rw [List.drop_zero, Nat.pow_zero, Nat.div_one]
  | succ i ih =>
    cases b with
    | nil => rw [List.drop_nil, leVal, Nat.zero_div]
    | cons x b =>
      have hx := x.toNat_lt
      rw [List.drop_succ_cons, ih, leVal, Nat.pow_succ', ← Nat.div_div_eq_div_mul,
        show (x.toNat + 256 * leVal b) / 256 = leVal b by omega]

theorem leVal_take (b : List UInt8) (n : Nat) : leVal (b.take n) = leVal b % 256 ^ n := by
  induction n generalizing b with
  | zero => rw [List.take_zero, Nat.pow_zero, Nat.mod_one, leVal]
  | succ n ih =>
    cases b with
    | nil => rw [List.take_nil, leVal, Nat.zero_mod]
    | cons x b =>
      have hx := x.toNat_lt
      rw [List.take_succ_cons, leVal, ih, leVal, Nat.pow_succ', Nat.mod_mul,
        show (x.toNat + 256 * leVal b) / 256 = leVal b by omega,
        show (x.toNat + 256 * leVal b) % 256 = x.toNat by omega]

theorem toNat_getD (b : List UInt8) (i : Nat) : (b.getD i 0).toNat = leVal b / 256 ^ i % 256 := by
  induction i generalizing b with
  | zero =>
    cases b with
    | nil => rfl
    | cons x b =>
      have hx := x.toNat_lt
      rw [List.getD_cons_zero, leVal, Nat.pow_zero, Nat.div_one]
      omega
  | succ i ih =>
    cases b with
    | nil => rw [List.getD_nil, leVal, Nat.zero_div, Nat.zero_mod, UInt8.toNat_zero]
    | cons x b =>
      have hx := x.toNat_lt
      rw [List.getD_cons_succ, ih, leVal, Nat.pow_succ', ← Nat.div_div_eq_div_mul,
        show (x.toNat + 256 * leVal b) / 256 = leVal b by omega]

/-- Only the low bytes are stored. -/
theorem leBytes_mod (n x : Nat) : leBytes n (x % 256 ^ n) = leBytes n x := by
  induction n generalizing x with
  | zero => rfl
  | succ n ih =>
    have low : (x % 256 ^ (n + 1)).toUInt8 = x.toUInt8 := by
      apply UInt8.toNat_inj.mp
      have split (y : Nat) : y.toUInt8.toNat = y % 256 := rfl
      rw [split, split, Nat.pow_succ', Nat.mod_mul]
      omega
    have high : x % 256 ^ (n + 1) / 256 = x / 256 % 256 ^ n := by
      rw [Nat.pow_succ', Nat.mod_mul]
      omega
    rw [leBytes, leBytes, low, high, ih]

theorem leBytes_add (m n x : Nat) : leBytes (m + n) x = leBytes m x ++ leBytes n (x / 256 ^ m) := by
  induction m generalizing x with
  | zero => rw [Nat.zero_add, Nat.pow_zero, Nat.div_one, leBytes, List.nil_append]
  | succ m ih =>
    rw [Nat.succ_add, leBytes, leBytes, ih, List.cons_append, Nat.pow_succ',
      ← Nat.div_div_eq_div_mul]

end LittleEndian
