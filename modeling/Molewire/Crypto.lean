/-
# Bytes and words of the ciphers

The conversions of `crypto.h` between bytes and little-endian words, and the
comparison and the clearing of `crypto.c`.
-/

import Molewire.Library.ByteBuffer
import Molewire.Library.LittleEndian

namespace Molewire

open ByteBuffer LittleEndian

/-! ### Words -/

/-- `U8TO32_LITTLE`: the word that starts at an offset. -/
def u8to32Little (p : Bytes) (i : Nat) : UInt32 :=
  (byte p i).toUInt32 ||| (byte p (i + 1)).toUInt32 <<< 8 ||| (byte p (i + 2)).toUInt32 <<< 16 |||
    (byte p (i + 3)).toUInt32 <<< 24

/-- `U8TO64_LITTLE`. -/
def u8to64Little (p : Bytes) (i : Nat) : UInt64 :=
  (byte p i).toUInt64 ||| (byte p (i + 1)).toUInt64 <<< 8 ||| (byte p (i + 2)).toUInt64 <<< 16 |||
    (byte p (i + 3)).toUInt64 <<< 24 ||| (byte p (i + 4)).toUInt64 <<< 32 |||
    (byte p (i + 5)).toUInt64 <<< 40 ||| (byte p (i + 6)).toUInt64 <<< 48 |||
    (byte p (i + 7)).toUInt64 <<< 56

/-- `U32TO8_LITTLE`. -/
def u32to8Little (v : UInt32) : Bytes :=
  [v.toUInt8, (v >>> 8).toUInt8, (v >>> 16).toUInt8, (v >>> 24).toUInt8]

/-- `U64TO8_LITTLE`. -/
def u64to8Little (v : UInt64) : Bytes :=
  [v.toUInt8, (v >>> 8).toUInt8, (v >>> 16).toUInt8, (v >>> 24).toUInt8, (v >>> 32).toUInt8,
    (v >>> 40).toUInt8, (v >>> 48).toUInt8, (v >>> 56).toUInt8]

/-- A byte put above `k` bits that are taken. -/
private theorem or_shiftLeft {low high : Nat} (k : Nat) (h : low < 2 ^ k) :
    low ||| high * 2 ^ k = low + high * 2 ^ k := by
  rw [Nat.or_comm, Nat.mul_comm high, ← Nat.two_pow_add_eq_or_of_lt h, Nat.add_comm]

theorem u8to32Little_toNat (p : Bytes) (i : Nat) :
    (u8to32Little p i).toNat = leVal p / 256 ^ i % 2 ^ 32 := by
  have h0 := (byte p i).toNat_lt
  have h1 := (byte p (i + 1)).toNat_lt
  have h2 := (byte p (i + 2)).toNat_lt
  have h3 := (byte p (i + 3)).toNat_lt
  -- the four bytes stand in different places of the word
  have places : (u8to32Little p i).toNat = (byte p i).toNat + (byte p (i + 1)).toNat * 2 ^ 8 +
      (byte p (i + 2)).toNat * 2 ^ 16 + (byte p (i + 3)).toNat * 2 ^ 24 := by
    simp only [u8to32Little, UInt32.toNat_or, UInt32.toNat_shiftLeft, UInt8.toNat_toUInt32,
      UInt32.reduceToNat, Nat.shiftLeft_eq, Nat.reduceMod]
    rw [Nat.mod_eq_of_lt (by omega), Nat.mod_eq_of_lt (by omega), Nat.mod_eq_of_lt (by omega),
      or_shiftLeft 8 (by omega), or_shiftLeft 16 (by omega), or_shiftLeft 24 (by omega)]
  rw [places, byte, byte, byte, byte, toNat_getD, toNat_getD, toNat_getD, toNat_getD,
    Nat.pow_add, Nat.pow_add, Nat.pow_add, ← Nat.div_div_eq_div_mul, ← Nat.div_div_eq_div_mul,
    ← Nat.div_div_eq_div_mul]
  generalize leVal p / 256 ^ i = x
  omega

theorem u8to64Little_toNat (p : Bytes) (i : Nat) :
    (u8to64Little p i).toNat = leVal p / 256 ^ i % 2 ^ 64 := by
  have h (k : Nat) := (byte p (i + k)).toNat_lt
  have h0 := h 0
  have h1 := h 1
  have h2 := h 2
  have h3 := h 3
  have h4 := h 4
  have h5 := h 5
  have h6 := h 6
  have h7 := h 7
  rw [Nat.add_zero] at h0
  have places : (u8to64Little p i).toNat = (byte p i).toNat + (byte p (i + 1)).toNat * 2 ^ 8 +
      (byte p (i + 2)).toNat * 2 ^ 16 + (byte p (i + 3)).toNat * 2 ^ 24 +
      (byte p (i + 4)).toNat * 2 ^ 32 + (byte p (i + 5)).toNat * 2 ^ 40 +
      (byte p (i + 6)).toNat * 2 ^ 48 + (byte p (i + 7)).toNat * 2 ^ 56 := by
    simp only [u8to64Little, UInt64.toNat_or, UInt64.toNat_shiftLeft, UInt8.toNat_toUInt64,
      UInt64.reduceToNat, Nat.shiftLeft_eq, Nat.reduceMod]
    rw [Nat.mod_eq_of_lt (by omega), Nat.mod_eq_of_lt (by omega), Nat.mod_eq_of_lt (by omega),
      Nat.mod_eq_of_lt (by omega), Nat.mod_eq_of_lt (by omega), Nat.mod_eq_of_lt (by omega),
      Nat.mod_eq_of_lt (by omega), or_shiftLeft 8 (by omega), or_shiftLeft 16 (by omega),
      or_shiftLeft 24 (by omega), or_shiftLeft 32 (by omega), or_shiftLeft 40 (by omega),
      or_shiftLeft 48 (by omega), or_shiftLeft 56 (by omega)]
  have byteAt (k : Nat) : (byte p (i + k)).toNat = leVal p / 256 ^ i / 256 ^ k % 256 := by
    rw [byte, toNat_getD, Nat.pow_add, Nat.div_div_eq_div_mul]
  have byteHere := byteAt 0
  rw [Nat.add_zero] at byteHere
  rw [places, byteHere, byteAt 1, byteAt 2, byteAt 3, byteAt 4, byteAt 5, byteAt 6, byteAt 7]
  generalize leVal p / 256 ^ i = x
  omega

theorem u32to8Little_eq (v : UInt32) : u32to8Little v = leBytes 4 v.toNat := by
  simp only [u32to8Little, leBytes, Nat.div_div_eq_div_mul]
  simp [← UInt8.toNat_inj, Nat.shiftRight_eq_div_pow]

theorem u64to8Little_eq (v : UInt64) : u64to8Little v = leBytes 8 v.toNat := by
  simp only [u64to8Little, leBytes, Nat.div_div_eq_div_mul]
  simp [← UInt8.toNat_inj, Nat.shiftRight_eq_div_pow]

@[simp] theorem length_u32to8Little (v : UInt32) : (u32to8Little v).length = 4 := rfl

@[simp] theorem length_u64to8Little (v : UInt64) : (u64to8Little v).length = 8 := rfl

/-- A counter written into a header is the counter read from it. -/
theorem u8to64Little_u64to8Little (v : UInt64) (more : Bytes) :
    u8to64Little (u64to8Little v ++ more) 0 = v := by
  apply UInt64.toNat_inj.mp
  have small := v.toNat_lt
  rw [u8to64Little_toNat, u64to8Little_eq, leVal_append, leVal_leBytes, length_leBytes,
    Nat.pow_zero, Nat.div_one]
  omega

/-! ### States of sixteen words -/

/-- Both states of sixteen words have a word 0. -/
instance neZeroSixteen : NeZero 16 := ⟨Nat.succ_ne_zero 15⟩

/-- A word of a state is written. -/
def setWord {n : Nat} (state : Vector UInt32 n) (i : Fin n) (x : UInt32) : Vector UInt32 n :=
  state.set i x

/-! ### Comparison -/

/-- `crypto_equal`: every byte is looked at, the differences are collected. -/
def cryptoEqual (a b : Bytes) : Bool :=
  (List.zipWith (· ^^^ ·) a b).foldl (· ||| ·) 0 == 0

private theorem foldl_or_eq_zero (acc : UInt8) (l : Bytes) :
    l.foldl (· ||| ·) acc = 0 ↔ acc = 0 ∧ ∀ x ∈ l, x = 0 := by
  induction l generalizing acc with
  | nil => simp
  | cons x l ih =>
    rw [List.foldl_cons, ih]
    simp [and_assoc]

theorem cryptoEqual_iff {a b : Bytes} (h : a.length = b.length) : cryptoEqual a b ↔ a = b := by
  rw [cryptoEqual, beq_iff_eq, foldl_or_eq_zero]
  induction a generalizing b with
  | nil => simp [List.length_eq_zero_iff.mp h.symm]
  | cons x a ih =>
    cases b with
    | nil => cases h
    | cons y b =>
      have rest := ih (Nat.succ.inj h)
      simp only [true_and] at rest
      simp [rest]

end Molewire
