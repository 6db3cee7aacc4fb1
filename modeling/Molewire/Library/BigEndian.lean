/-
# Big-endian fields

Numbers written most significant byte first. Two records of such fields compare
byte by byte, as `memcmp` does, the way their fields compare: the first field
that differs decides.
-/

import Mathlib.Algebra.Ring.Nat
import Mathlib.Data.List.Basic

namespace BigEndian

variable {α : Type*}

/-- The low `n` bytes of a number, most significant first. -/
def beBytes : Nat → Nat → List UInt8
  | 0, _ => []
  | n + 1, x => UInt8.ofNat (x / 256 ^ n) :: beBytes n x

@[simp] theorem beBytes_length (n x : Nat) : (beBytes n x).length = n := by
  induction n with
  | zero => rfl
  | succ n ih => rw [beBytes, List.length_cons, ih]

/-- The leading byte is worth more than all the bytes that follow it. -/
private theorem lead_lt_iff {m a b r s : Nat} (hr : r < m) (hs : s < m) :
    r + m * a < s + m * b ↔ a < b ∨ a = b ∧ r < s := by
  rcases Nat.lt_trichotomy a b with h | rfl | h
  · -- a smaller leading byte wins by a whole unit
    have step : m * a + m ≤ m * b := by
      calc m * a + m = m * (a + 1) := (Nat.mul_succ m a).symm
        _ ≤ m * b := Nat.mul_le_mul_left m h
    exact ⟨fun _ => .inl h, fun _ => by omega⟩
  · simp
  · have step : m * b + m ≤ m * a := by
      calc m * b + m = m * (b + 1) := (Nat.mul_succ m b).symm
        _ ≤ m * a := Nat.mul_le_mul_left m h
    exact ⟨fun _ => by omega, fun _ => by omega⟩

private theorem lead_eq_iff {m a b r s : Nat} (hr : r < m) (hs : s < m) :
    r + m * a = s + m * b ↔ a = b ∧ r = s := by
  have below := lead_lt_iff (a := a) (b := b) hr hs
  have above := lead_lt_iff (a := b) (b := a) hs hr
  omega

theorem beBytes_inj {n x y : Nat} :
    beBytes n x = beBytes n y ↔ x % 256 ^ n = y % 256 ^ n := by
  induction n with
  | zero => simp [beBytes, Nat.mod_one]
  | succ n ih =>
    have pos : 0 < 256 ^ n := Nat.pow_pos (by decide)
    rw [beBytes, beBytes, List.cons.injEq, ih, Nat.pow_succ, Nat.mod_mul, Nat.mod_mul,
      lead_eq_iff (Nat.mod_lt x pos) (Nat.mod_lt y pos), ← UInt8.toNat_inj,
      UInt8.toNat_ofNat', UInt8.toNat_ofNat']

/-- The lexicographic order of the bytes is the order of the numbers. -/
theorem beBytes_lt_iff {n x y : Nat} :
    beBytes n x < beBytes n y ↔ x % 256 ^ n < y % 256 ^ n := by
  induction n with
  | zero => simp [beBytes, Nat.mod_one]
  | succ n ih =>
    have pos : 0 < 256 ^ n := Nat.pow_pos (by decide)
    rw [beBytes, beBytes, List.cons_lt_cons_iff, ih, Nat.pow_succ, Nat.mod_mul, Nat.mod_mul,
      lead_lt_iff (Nat.mod_lt x pos) (Nat.mod_lt y pos), ← UInt8.toNat_inj, UInt8.lt_iff_toNat_lt,
      UInt8.toNat_ofNat', UInt8.toNat_ofNat']

/-- Of two records whose first fields have one width, the first field that differs decides. -/
theorem append_lt_append_iff [LT α] [Std.Irrefl (α := α) (· < ·)]
    {a b c d : List α} (width : a.length = b.length) :
    a ++ c < b ++ d ↔ a < b ∨ a = b ∧ c < d := by
  induction a generalizing b with
  | nil =>
    have : b = [] := List.length_eq_zero_iff.mp width.symm
    subst this
    simp
  | cons x xs ih =>
    cases b with
    | nil => cases width
    | cons y ys =>
      rw [List.cons_append, List.cons_append, List.cons_lt_cons_iff, List.cons_lt_cons_iff,
        ih (Nat.succ.inj width), List.cons.injEq]
      tauto

end BigEndian
