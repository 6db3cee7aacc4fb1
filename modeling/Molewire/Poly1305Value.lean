/-
# What Poly1305 computes

The limbs of `poly1305-donna` against numbers. A state is bounded when its
limbs are near their 26 bits; a block keeps that, overflows nowhere, and
changes the number as the polynomial modulo 2^130 - 5 says. The tag of a message
is that polynomial's value plus the second half of the key, however the message
is cut into calls of `poly1305_update`.
-/

import Mathlib.Data.Nat.ModEq
import Mathlib.Tactic.Ring
import Molewire.Poly1305

namespace Molewire

open ByteBuffer LittleEndian BlockBuffer

/-- The prime 2^130 - 5. -/
def polyPrime : Nat := 2 ^ 130 - 5

/-! ### Numbers -/

namespace Limbs

/-- The number that limbs stand for. -/
def val (h : Limbs) : Nat :=
  h.l0.toNat + 2 ^ 26 * h.l1.toNat + 2 ^ 52 * h.l2.toNat + 2 ^ 78 * h.l3.toNat +
    2 ^ 104 * h.l4.toNat

/-- Every limb has its 26 bits and no more. -/
structure Small (r : Limbs) : Prop where
  l0 : r.l0.toNat < 2 ^ 26
  l1 : r.l1.toNat < 2 ^ 26
  l2 : r.l2.toNat < 2 ^ 26
  l3 : r.l3.toNat < 2 ^ 26
  l4 : r.l4.toNat < 2 ^ 26

/-- What a partial reduction leaves: a last carry stands in the second limb. -/
structure Bounded (h : Limbs) : Prop where
  l0 : h.l0.toNat < 2 ^ 26
  l1 : h.l1.toNat < 2 ^ 26 + 2 ^ 7
  l2 : h.l2.toNat < 2 ^ 26
  l3 : h.l3.toNat < 2 ^ 26
  l4 : h.l4.toNat < 2 ^ 26

/-- Room for a block on top. -/
structure Roomy (h : Limbs) : Prop where
  l0 : h.l0.toNat < 2 ^ 27 + 2 ^ 7
  l1 : h.l1.toNat < 2 ^ 27 + 2 ^ 7
  l2 : h.l2.toNat < 2 ^ 27 + 2 ^ 7
  l3 : h.l3.toNat < 2 ^ 27 + 2 ^ 7
  l4 : h.l4.toNat < 2 ^ 27 + 2 ^ 7

end Limbs

/-! ### Reading limbs -/

theorem toNat_and_26 (x : UInt32) : (x &&& 0x3ffffff).toNat = x.toNat % 2 ^ 26 := by
  rw [UInt32.toNat_and]
  exact Nat.and_two_pow_sub_one_eq_mod x.toNat 26

theorem toNat_shiftRight_lit {x s : UInt32} {k : Nat} (hs : s.toNat = k) (hk : k < 32) :
    (x >>> s).toNat = x.toNat / 2 ^ k := by
  rw [UInt32.toNat_shiftRight, hs, Nat.mod_eq_of_lt hk, Nat.shiftRight_eq_div_pow]

/-- The limbs of a block of bytes. A limb of 26 bits begins inside a byte; it is read from the word
that starts there. -/
private theorem limbs_of_bytes (m : Bytes) :
    (u8to32Little m 0).toNat % 2 ^ 26 = leVal m % 2 ^ 26 ∧
    (u8to32Little m 3 >>> 2).toNat % 2 ^ 26 = leVal m / 2 ^ 26 % 2 ^ 26 ∧
    (u8to32Little m 6 >>> 4).toNat % 2 ^ 26 = leVal m / 2 ^ 52 % 2 ^ 26 ∧
    (u8to32Little m 9 >>> 6).toNat % 2 ^ 26 = leVal m / 2 ^ 78 % 2 ^ 26 ∧
    (u8to32Little m 12 >>> 8).toNat = leVal m / 2 ^ 104 % 2 ^ 24 := by
  rw [toNat_shiftRight_lit (s := 2) (k := 2) rfl (by decide),
    toNat_shiftRight_lit (s := 4) (k := 4) rfl (by decide),
    toNat_shiftRight_lit (s := 6) (k := 6) rfl (by decide),
    toNat_shiftRight_lit (s := 8) (k := 8) rfl (by decide)]
  simp only [u8to32Little_toNat]
  omega

namespace Limbs

/-- A block is added as a number, with the bit above it. -/
theorem addBlock_spec {h : Limbs} {hibit : UInt32} {m : Bytes} (hh : h.Bounded)
    (hm : m.length ≤ 16) (hbit : hibit = 0 ∨ hibit = (1 : UInt32) <<< 24) :
    (h.addBlock hibit m).Roomy ∧
      (h.addBlock hibit m).val = h.val + leVal m + 2 ^ 104 * hibit.toNat := by
  obtain ⟨w0, w1, w2, w3, w4⟩ := limbs_of_bytes m
  obtain ⟨b0, b1, b2, b3, b4⟩ := hh
  have small : leVal m < 2 ^ 128 := by
    refine lt_of_lt_of_le (leVal_lt m) ?_
    calc 256 ^ m.length ≤ 256 ^ 16 := Nat.pow_le_pow_right (by decide) hm
      _ = 2 ^ 128 := by decide
  -- the top limb of the block has 24 bits, the bit stands above them
  have top : (u8to32Little m 12 >>> 8 ||| hibit).toNat =
      (u8to32Little m 12 >>> 8).toNat + hibit.toNat := by
    rw [UInt32.toNat_or]
    rcases hbit with rfl | rfl
    · exact Nat.or_zero _
    · rw [w4, Nat.or_comm, show ((1 : UInt32) <<< 24).toNat = 2 ^ 24 * 1 from rfl,
        ← Nat.two_pow_add_eq_or_of_lt (Nat.mod_lt _ (by decide)), Nat.add_comm]
  have bit : hibit.toNat ≤ 2 ^ 24 := by
    rcases hbit with rfl | rfl
    · exact Nat.zero_le _
    · exact Nat.le_refl _
  have s0 : (h.addBlock hibit m).l0.toNat = h.l0.toNat + leVal m % 2 ^ 26 := by
    simp only [addBlock, UInt32.toNat_add, toNat_and_26, w0]
    omega
  have s1 : (h.addBlock hibit m).l1.toNat = h.l1.toNat + leVal m / 2 ^ 26 % 2 ^ 26 := by
    simp only [addBlock, UInt32.toNat_add, toNat_and_26, w1]
    omega
  have s2 : (h.addBlock hibit m).l2.toNat = h.l2.toNat + leVal m / 2 ^ 52 % 2 ^ 26 := by
    simp only [addBlock, UInt32.toNat_add, toNat_and_26, w2]
    omega
  have s3 : (h.addBlock hibit m).l3.toNat = h.l3.toNat + leVal m / 2 ^ 78 % 2 ^ 26 := by
    simp only [addBlock, UInt32.toNat_add, toNat_and_26, w3]
    omega
  have s4 : (h.addBlock hibit m).l4.toNat =
      h.l4.toNat + (leVal m / 2 ^ 104 % 2 ^ 24 + hibit.toNat) := by
    simp only [addBlock, UInt32.toNat_add, top, w4]
    omega
  refine ⟨⟨?_, ?_, ?_, ?_, ?_⟩, ?_⟩
  · omega
  · omega
  · omega
  · omega
  · omega
  · rw [val, val, s0, s1, s2, s3, s4]
    omega

end Limbs

/-! ### Products -/

/-- Five products of limbs fit 64 bits with room to spare. -/
private theorem dot5_toNat {A B : Nat} {a0 b0 a1 b1 a2 b2 a3 b3 a4 b4 : UInt32}
    (ha0 : a0.toNat ≤ A) (hb0 : b0.toNat ≤ B) (ha1 : a1.toNat ≤ A) (hb1 : b1.toNat ≤ B)
    (ha2 : a2.toNat ≤ A) (hb2 : b2.toNat ≤ B) (ha3 : a3.toNat ≤ A) (hb3 : b3.toNat ≤ B)
    (ha4 : a4.toNat ≤ A) (hb4 : b4.toNat ≤ B) (room : 5 * (A * B) < 2 ^ 64) :
    (dot5 a0 b0 a1 b1 a2 b2 a3 b3 a4 b4).toNat = a0.toNat * b0.toNat + a1.toNat * b1.toNat +
        a2.toNat * b2.toNat + a3.toNat * b3.toNat + a4.toNat * b4.toNat ∧
      (dot5 a0 b0 a1 b1 a2 b2 a3 b3 a4 b4).toNat ≤ 5 * (A * B) := by
  have p0 := Nat.mul_le_mul ha0 hb0
  have p1 := Nat.mul_le_mul ha1 hb1
  have p2 := Nat.mul_le_mul ha2 hb2
  have p3 := Nat.mul_le_mul ha3 hb3
  have p4 := Nat.mul_le_mul ha4 hb4
  have sum : (dot5 a0 b0 a1 b1 a2 b2 a3 b3 a4 b4).toNat = a0.toNat * b0.toNat +
      a1.toNat * b1.toNat + a2.toNat * b2.toNat + a3.toNat * b3.toNat + a4.toNat * b4.toNat := by
    simp only [dot5, UInt64.toNat_add, UInt64.toNat_mul, UInt32.toNat_toUInt64]
    omega
  exact ⟨sum, by omega⟩

/-- The carry of a sum and what stays, where the carry fits 32 bits. -/
private theorem carry_toNat {d : UInt64} (h : d.toNat < 2 ^ 58) :
    (d >>> 26).toUInt32.toNat = d.toNat / 2 ^ 26 ∧
      (d.toUInt32 &&& 0x3ffffff).toNat = d.toNat % 2 ^ 26 := by
  have shift : (d >>> 26).toNat = d.toNat / 2 ^ 26 := by
    rw [UInt64.toNat_shiftRight]
    exact Nat.shiftRight_eq_div_pow _ _
  constructor
  · rw [UInt64.toNat_toUInt32, shift]
    omega
  · rw [toNat_and_26, UInt64.toNat_toUInt32]
    omega

/-- A sum that takes a carry from the one below. -/
private theorem add_carry_toNat {d e : UInt64} (hd : d.toNat < 2 ^ 58) (he : e.toNat < 2 ^ 58) :
    (e + (d >>> 26).toUInt32.toUInt64).toNat = e.toNat + d.toNat / 2 ^ 26 := by
  rw [UInt64.toNat_add, UInt32.toNat_toUInt64, (carry_toNat hd).1]
  omega

/-- Passing the carries on takes a multiple of the prime away. -/
private theorem partialReduce_spec {d0 d1 d2 d3 d4 : UInt64}
    (h0 : d0.toNat < 2 ^ 58 - 2 ^ 32) (h1 : d1.toNat < 2 ^ 58 - 2 ^ 32)
    (h2 : d2.toNat < 2 ^ 58 - 2 ^ 32) (h3 : d3.toNat < 2 ^ 58 - 2 ^ 32)
    (h4 : d4.toNat < 2 ^ 55 + 2 ^ 53 + 2 ^ 50) :
    (partialReduce d0 d1 d2 d3 d4).Bounded ∧ ∃ c,
      (partialReduce d0 d1 d2 d3 d4).val + c * polyPrime =
        d0.toNat + 2 ^ 26 * d1.toNat + 2 ^ 52 * d2.toNat + 2 ^ 78 * d3.toNat +
          2 ^ 104 * d4.toNat := by
  obtain ⟨-, k0⟩ := carry_toNat (d := d0) (by omega)
  have s1 := add_carry_toNat (d := d0) (e := d1) (by omega) (by omega)
  generalize e1 : d1 + (d0 >>> 26).toUInt32.toUInt64 = t1 at s1
  obtain ⟨-, k1⟩ := carry_toNat (d := t1) (by omega)
  have s2 := add_carry_toNat (d := t1) (e := d2) (by omega) (by omega)
  generalize e2 : d2 + (t1 >>> 26).toUInt32.toUInt64 = t2 at s2
  obtain ⟨-, k2⟩ := carry_toNat (d := t2) (by omega)
  have s3 := add_carry_toNat (d := t2) (e := d3) (by omega) (by omega)
  generalize e3 : d3 + (t2 >>> 26).toUInt32.toUInt64 = t3 at s3
  obtain ⟨-, k3⟩ := carry_toNat (d := t3) (by omega)
  have s4 := add_carry_toNat (d := t3) (e := d4) (by omega) (by omega)
  generalize e4 : d4 + (t3 >>> 26).toUInt32.toUInt64 = t4 at s4
  obtain ⟨c4, k4⟩ := carry_toNat (d := t4) (by omega)
  -- five times the last carry still fits under the first limb
  have s5 : ((d0.toUInt32 &&& (0x3ffffff : UInt32)) + (t4 >>> 26).toUInt32 * 5).toNat =
      d0.toNat % 2 ^ 26 + t4.toNat / 2 ^ 26 * 5 := by
    rw [UInt32.toNat_add, UInt32.toNat_mul, k0, c4, show (5 : UInt32).toNat = 5 from rfl]
    omega
  generalize e5 : (d0.toUInt32 &&& (0x3ffffff : UInt32)) + (t4 >>> 26).toUInt32 * 5 = t5 at s5
  have low : (t5 &&& (0x3ffffff : UInt32)).toNat = t5.toNat % 2 ^ 26 := toNat_and_26 t5
  have second : ((t1.toUInt32 &&& (0x3ffffff : UInt32)) + t5 >>> 26).toNat =
      t1.toNat % 2 ^ 26 + t5.toNat / 2 ^ 26 := by
    rw [UInt32.toNat_add, k1, toNat_shiftRight_lit (s := 26) (k := 26) rfl (by decide)]
    omega
  have result : partialReduce d0 d1 d2 d3 d4 = ⟨t5 &&& (0x3ffffff : UInt32),
      (t1.toUInt32 &&& (0x3ffffff : UInt32)) + t5 >>> 26, t2.toUInt32 &&& (0x3ffffff : UInt32),
      t3.toUInt32 &&& (0x3ffffff : UInt32), t4.toUInt32 &&& (0x3ffffff : UInt32)⟩ := by
    simp only [partialReduce, e1, e2, e3, e4, e5]
  rw [result]
  refine ⟨⟨?_, ?_, ?_, ?_, ?_⟩, t4.toNat / 2 ^ 26, ?_⟩
  · rw [low]
    omega
  · rw [second]
    omega
  · rw [k2]
    omega
  · rw [k3]
    omega
  · rw [k4]
    omega
  · simp only [Limbs.val, low, second, k2, k3, k4, polyPrime]
    omega

/-- Numbers that are the same modulo the prime. -/
private theorem modEq_of_add {a b c : Nat} (h : a + c * polyPrime = b) : a ≡ b [MOD polyPrime] := by
  rw [← h, Nat.ModEq, Nat.add_mul_mod_self_right]

namespace Limbs

/-- The product of two numbers in limbs, column by column, the columns above the fifth folded. -/
private theorem val_mul_val (h r : Limbs) :
    h.val * r.val =
      (h.l0.toNat * r.l0.toNat + h.l1.toNat * (r.l4.toNat * 5) + h.l2.toNat * (r.l3.toNat * 5) +
          h.l3.toNat * (r.l2.toNat * 5) + h.l4.toNat * (r.l1.toNat * 5)) +
        2 ^ 26 * (h.l0.toNat * r.l1.toNat + h.l1.toNat * r.l0.toNat +
          h.l2.toNat * (r.l4.toNat * 5) + h.l3.toNat * (r.l3.toNat * 5) +
          h.l4.toNat * (r.l2.toNat * 5)) +
        2 ^ 52 * (h.l0.toNat * r.l2.toNat + h.l1.toNat * r.l1.toNat + h.l2.toNat * r.l0.toNat +
          h.l3.toNat * (r.l4.toNat * 5) + h.l4.toNat * (r.l3.toNat * 5)) +
        2 ^ 78 * (h.l0.toNat * r.l3.toNat + h.l1.toNat * r.l2.toNat + h.l2.toNat * r.l1.toNat +
          h.l3.toNat * r.l0.toNat + h.l4.toNat * (r.l4.toNat * 5)) +
        2 ^ 104 * (h.l0.toNat * r.l4.toNat + h.l1.toNat * r.l3.toNat + h.l2.toNat * r.l2.toNat +
          h.l3.toNat * r.l1.toNat + h.l4.toNat * r.l0.toNat) +
        ((h.l1.toNat * r.l4.toNat + h.l2.toNat * r.l3.toNat + h.l3.toNat * r.l2.toNat +
            h.l4.toNat * r.l1.toNat) +
          2 ^ 26 * (h.l2.toNat * r.l4.toNat + h.l3.toNat * r.l3.toNat +
            h.l4.toNat * r.l2.toNat) +
          2 ^ 52 * (h.l3.toNat * r.l4.toNat + h.l4.toNat * r.l3.toNat) +
          2 ^ 78 * (h.l4.toNat * r.l4.toNat)) * polyPrime := by
  have prime : polyPrime = 1361129467683753853853498429727072845819 := by decide
  rw [val, val, prime]
  ring

private theorem times5_toNat {x : UInt32} (h : x.toNat < 2 ^ 26) :
    (x * 5).toNat = x.toNat * 5 := by
  rw [UInt32.toNat_mul, show (5 : UInt32).toNat = 5 from rfl]
  omega

/-- Multiplying keeps the limbs bounded and multiplies the numbers. -/
theorem mul_spec {h r : Limbs} (hh : h.Roomy) (hr : r.Small) :
    (h.mul r).Bounded ∧ (h.mul r).val ≡ h.val * r.val [MOD polyPrime] := by
  obtain ⟨a0, a1, a2, a3, a4⟩ := hh
  obtain ⟨b0, b1, b2, b3, b4⟩ := hr
  have f1 := times5_toNat b1
  have f2 := times5_toNat b2
  have f3 := times5_toNat b3
  have f4 := times5_toNat b4
  -- the factors of the low columns are at most five limbs, those of the top one are limbs
  have dot := @dot5_toNat (2 ^ 27 + 2 ^ 7) (5 * 2 ^ 26)
  have dotTop := @dot5_toNat (2 ^ 27 + 2 ^ 7) (2 ^ 26)
  obtain ⟨e0, m0⟩ := @dot h.l0 r.l0 h.l1 (r.l4 * 5) h.l2 (r.l3 * 5) h.l3 (r.l2 * 5) h.l4 (r.l1 * 5)
    (by omega) (by omega) (by omega) (by omega) (by omega) (by omega) (by omega) (by omega)
    (by omega) (by omega) (by decide)
  obtain ⟨e1, m1⟩ := @dot h.l0 r.l1 h.l1 r.l0 h.l2 (r.l4 * 5) h.l3 (r.l3 * 5) h.l4 (r.l2 * 5)
    (by omega) (by omega) (by omega) (by omega) (by omega) (by omega) (by omega) (by omega)
    (by omega) (by omega) (by decide)
  obtain ⟨e2, m2⟩ := @dot h.l0 r.l2 h.l1 r.l1 h.l2 r.l0 h.l3 (r.l4 * 5) h.l4 (r.l3 * 5)
    (by omega) (by omega) (by omega) (by omega) (by omega) (by omega) (by omega) (by omega)
    (by omega) (by omega) (by decide)
  obtain ⟨e3, m3⟩ := @dot h.l0 r.l3 h.l1 r.l2 h.l2 r.l1 h.l3 r.l0 h.l4 (r.l4 * 5)
    (by omega) (by omega) (by omega) (by omega) (by omega) (by omega) (by omega) (by omega)
    (by omega) (by omega) (by decide)
  obtain ⟨e4, m4⟩ := @dotTop h.l0 r.l4 h.l1 r.l3 h.l2 r.l2 h.l3 r.l1 h.l4 r.l0
    (by omega) (by omega) (by omega) (by omega) (by omega) (by omega) (by omega) (by omega)
    (by omega) (by omega) (by decide)
  obtain ⟨bounded, c, value⟩ := partialReduce_spec (lt_of_le_of_lt m0 (by decide))
    (lt_of_le_of_lt m1 (by decide)) (lt_of_le_of_lt m2 (by decide))
    (lt_of_le_of_lt m3 (by decide)) (lt_of_le_of_lt m4 (by decide))
  refine ⟨bounded, ?_⟩
  rw [e0, e1, e2, e3, e4, f1, f2, f3, f4] at value
  rw [val_mul_val]
  exact (modEq_of_add value).trans (modEq_of_add rfl)

end Limbs

/-! ### The end of the computation -/

/-- A limb that takes a carry: what it passes on, and what stays. -/
private theorem limb_carry {x : UInt32} :
    (x >>> 26).toNat = x.toNat / 2 ^ 26 ∧ (x &&& 0x3ffffff).toNat = x.toNat % 2 ^ 26 :=
  ⟨toNat_shiftRight_lit (k := 26) rfl (by decide), toNat_and_26 x⟩

private theorem add_toNat {x y : UInt32} (h : x.toNat + y.toNat < 2 ^ 32) :
    (x + y).toNat = x.toNat + y.toNat := by
  rw [UInt32.toNat_add]
  exact Nat.mod_eq_of_lt h

namespace Limbs

/-- After the full carry every limb has its 26 bits. A carry out of the top limb needs one out of
the second, which then has room for what comes round. -/
theorem carry_spec {h : Limbs} (hh : h.Bounded) :
    h.carry.Small ∧ h.carry.val ≡ h.val [MOD polyPrime] := by
  obtain ⟨b0, b1, b2, b3, b4⟩ := hh
  obtain ⟨c1, k1⟩ := limb_carry (x := h.l1)
  have s2 := add_toNat (x := h.l2) (y := h.l1 >>> 26) (by omega)
  generalize e2 : h.l2 + h.l1 >>> 26 = t2 at s2
  obtain ⟨c2, k2⟩ := limb_carry (x := t2)
  have s3 := add_toNat (x := h.l3) (y := t2 >>> 26) (by omega)
  generalize e3 : h.l3 + t2 >>> 26 = t3 at s3
  obtain ⟨c3, k3⟩ := limb_carry (x := t3)
  have s4 := add_toNat (x := h.l4) (y := t3 >>> 26) (by omega)
  generalize e4 : h.l4 + t3 >>> 26 = t4 at s4
  obtain ⟨c4, k4⟩ := limb_carry (x := t4)
  have s5 : ((t4 >>> 26) * 5).toNat = t4.toNat / 2 ^ 26 * 5 := by
    rw [UInt32.toNat_mul, c4, show (5 : UInt32).toNat = 5 from rfl]
    omega
  have s0 := add_toNat (x := h.l0) (y := (t4 >>> 26) * 5) (by omega)
  generalize e0 : h.l0 + (t4 >>> 26) * 5 = t0 at s0
  obtain ⟨c0, k0⟩ := limb_carry (x := t0)
  have s1 := add_toNat (x := h.l1 &&& 0x3ffffff) (y := t0 >>> 26) (by omega)
  have result : h.carry = ⟨t0 &&& 0x3ffffff, (h.l1 &&& (0x3ffffff : UInt32)) + t0 >>> 26,
      t2 &&& 0x3ffffff, t3 &&& 0x3ffffff, t4 &&& 0x3ffffff⟩ := by
    simp only [carry, e2, e3, e4, e0]
  rw [result]
  refine ⟨⟨?_, ?_, ?_, ?_, ?_⟩, modEq_of_add (c := t4.toNat / 2 ^ 26) ?_⟩
  · rw [k0]
    omega
  · rw [s1]
    omega
  · rw [k2]
    omega
  · rw [k3]
    omega
  · rw [k4]
    omega
  · simp only [val, k0, s1, k2, k3, k4, polyPrime]
    omega

theorem Small.val_lt {h : Limbs} (hh : h.Small) : h.val < 2 ^ 130 := by
  obtain ⟨b0, b1, b2, b3, b4⟩ := hh
  rw [val]
  omega

/-- The mask keeps one of two words. -/
private theorem masked (x y : UInt32) :
    x &&& ~~~(0 : UInt32) ||| y &&& (0 : UInt32) = x ∧
      x &&& ~~~(0 - 1 : UInt32) ||| y &&& (0 - 1 : UInt32) = y := by
  constructor
  · rw [UInt32.and_zero, UInt32.or_zero]
    exact UInt32.and_neg_one
  · rw [show ~~~(0 - 1 : UInt32) = 0 from rfl, UInt32.and_zero, UInt32.zero_or]
    exact UInt32.and_neg_one

/-- The subtraction is taken where it does not go below zero. -/
theorem select_spec {h : Limbs} (hh : h.Small) :
    h.select.Small ∧ h.select.val = h.val % polyPrime := by
  have below := hh.val_lt
  have hprime : polyPrime = 2 ^ 130 - 5 := rfl
  obtain ⟨b0, b1, b2, b3, b4⟩ := hh
  have s0 := add_toNat (x := h.l0) (y := 5) (by
    rw [show (5 : UInt32).toNat = 5 from rfl]
    omega)
  rw [show (5 : UInt32).toNat = 5 from rfl] at s0
  generalize e0 : h.l0 + 5 = g0 at s0
  obtain ⟨c0, k0⟩ := limb_carry (x := g0)
  have s1 := add_toNat (x := h.l1) (y := g0 >>> 26) (by omega)
  generalize e1 : h.l1 + g0 >>> 26 = g1 at s1
  obtain ⟨c1, k1⟩ := limb_carry (x := g1)
  have s2 := add_toNat (x := h.l2) (y := g1 >>> 26) (by omega)
  generalize e2 : h.l2 + g1 >>> 26 = g2 at s2
  obtain ⟨c2, k2⟩ := limb_carry (x := g2)
  have s3 := add_toNat (x := h.l3) (y := g2 >>> 26) (by omega)
  generalize e3 : h.l3 + g2 >>> 26 = g3 at s3
  obtain ⟨c3, k3⟩ := limb_carry (x := g3)
  have s4 := add_toNat (x := h.l4) (y := g3 >>> 26) (by omega)
  have top : (h.l4 + g3 >>> 26 - (1 : UInt32) <<< 26).toNat =
      (h.l4.toNat + g3.toNat / 2 ^ 26 + (2 ^ 32 - 2 ^ 26)) % 2 ^ 32 := by
    rw [UInt32.toNat_sub, s4, c3, show ((1 : UInt32) <<< 26).toNat = 2 ^ 26 from rfl]
    omega
  generalize e4 : h.l4 + g3 >>> 26 - (1 : UInt32) <<< 26 = g4 at top
  have sign : (g4 >>> 31).toNat = g4.toNat / 2 ^ 31 :=
    toNat_shiftRight_lit (k := 31) rfl (by decide)
  have value : h.val + 5 = g0.toNat % 2 ^ 26 + 2 ^ 26 * (g1.toNat % 2 ^ 26) +
      2 ^ 52 * (g2.toNat % 2 ^ 26) + 2 ^ 78 * (g3.toNat % 2 ^ 26) +
        2 ^ 104 * (h.l4.toNat + g3.toNat / 2 ^ 26) := by
    rw [val]
    omega
  rcases Nat.lt_or_ge (h.l4.toNat + g3.toNat / 2 ^ 26) (2 ^ 26) with less | more
  · -- the number is below the prime: the sign bit is set and the mask empty
    have mask : g4 >>> 31 = 1 := by
      apply UInt32.toNat_inj.mp
      rw [sign, show (1 : UInt32).toNat = 1 from rfl]
      omega
    have result : h.select = h := by
      simp only [select, e0, e1, e2, e3, e4, mask]
      rw [show (1 - 1 : UInt32) = 0 from rfl, (masked _ _).1, (masked _ _).1, (masked _ _).1,
        (masked _ _).1, (masked _ _).1]
    rw [result]
    exact ⟨⟨b0, b1, b2, b3, b4⟩, (Nat.mod_eq_of_lt (by omega)).symm⟩
  · have mask : g4 >>> 31 = 0 := by
      apply UInt32.toNat_inj.mp
      rw [sign, show (0 : UInt32).toNat = 0 from rfl]
      omega
    have result : h.select = ⟨g0 &&& 0x3ffffff, g1 &&& 0x3ffffff, g2 &&& 0x3ffffff,
        g3 &&& 0x3ffffff, g4⟩ := by
      simp only [select, e0, e1, e2, e3, e4, mask]
      rw [(masked _ _).2, (masked _ _).2, (masked _ _).2, (masked _ _).2, (masked _ _).2]
    have difference : h.select.val = h.val - polyPrime := by
      simp only [result, val, k0, k1, k2, k3, top] at value ⊢
      omega
    refine ⟨?_, ?_⟩
    · rw [result]
      refine ⟨?_, ?_, ?_, ?_, ?_⟩
      · rw [k0]
        omega
      · rw [k1]
        omega
      · rw [k2]
        omega
      · rw [k3]
        omega
      · rw [top]
        omega
    · rw [difference, Nat.mod_eq_sub_mod (by omega), Nat.mod_eq_of_lt (by omega)]

/-- Two words side by side, the upper one cut off at 32 bits. -/
private theorem beside {x y s : UInt32} {k : Nat} (hs : s.toNat = k) (hk : k < 32)
    (hx : x.toNat < 2 ^ k) :
    (x ||| y <<< s).toNat = x.toNat + y.toNat % 2 ^ (32 - k) * 2 ^ k := by
  have cut : y.toNat * 2 ^ k % 2 ^ 32 = 2 ^ k * (y.toNat % 2 ^ (32 - k)) := by
    conv_lhs => rw [show (2 : Nat) ^ 32 = 2 ^ k * 2 ^ (32 - k) by
      rw [← Nat.pow_add]
      congr 1
      omega]
    rw [Nat.mul_comm y.toNat, Nat.mul_mod_mul_left]
  rw [UInt32.toNat_or, UInt32.toNat_shiftLeft, hs, Nat.mod_eq_of_lt hk, Nat.shiftLeft_eq, cut,
    Nat.or_comm, ← Nat.two_pow_add_eq_or_of_lt hx, Nat.add_comm, Nat.mul_comm (2 ^ k)]

/-- The number that the words of `pad` stand for. -/
def padVal (pad : UInt32 × UInt32 × UInt32 × UInt32) : Nat :=
  pad.1.toNat + 2 ^ 32 * pad.2.1.toNat + 2 ^ 64 * pad.2.2.1.toNat + 2 ^ 96 * pad.2.2.2.toNat

/-- One word of the sum, and what it passes on. -/
private theorem word_sum {x y : UInt32} {f : UInt64} (hf : f.toNat < 2 ^ 34) :
    (x.toUInt64 + y.toUInt64 + (f >>> 32)).toNat = x.toNat + y.toNat + f.toNat / 2 ^ 32 := by
  have hx := x.toNat_lt
  have hy := y.toNat_lt
  have shift : (f >>> 32).toNat = f.toNat / 2 ^ 32 := by
    rw [UInt64.toNat_shiftRight]
    exact Nat.shiftRight_eq_div_pow _ _
  simp only [UInt64.toNat_add, UInt32.toNat_toUInt64, shift]
  omega

/-- The tag is the number plus the pad, as far as sixteen bytes go. -/
theorem tagBytes_eq {h : Limbs} (hh : h.Small) (pad : UInt32 × UInt32 × UInt32 × UInt32) :
    h.tagBytes pad = leBytes 16 (h.val + padVal pad) := by
  obtain ⟨b0, b1, b2, b3, b4⟩ := hh
  have p0 := pad.1.toNat_lt
  have p1 := pad.2.1.toNat_lt
  have p2 := pad.2.2.1.toNat_lt
  have p3 := pad.2.2.2.toNat_lt
  have q1 : (h.l1 >>> 6).toNat = h.l1.toNat / 2 ^ 6 :=
    toNat_shiftRight_lit (k := 6) rfl (by decide)
  have q2 : (h.l2 >>> 12).toNat = h.l2.toNat / 2 ^ 12 :=
    toNat_shiftRight_lit (k := 12) rfl (by decide)
  have q3 : (h.l3 >>> 18).toNat = h.l3.toNat / 2 ^ 18 :=
    toNat_shiftRight_lit (k := 18) rfl (by decide)
  have w0 := beside (y := h.l1) (s := 26) (k := 26) rfl (by decide) b0
  have w1 := beside (x := h.l1 >>> 6) (y := h.l2) (s := 20) (k := 20) rfl (by decide) (by omega)
  have w2 := beside (x := h.l2 >>> 12) (y := h.l3) (s := 14) (k := 14) rfl (by decide) (by omega)
  have w3 := beside (x := h.l3 >>> 18) (y := h.l4) (s := 8) (k := 8) rfl (by decide) (by omega)
  -- the words of the number modulo 2^128
  have number : (h.l0 ||| h.l1 <<< 26).toNat + 2 ^ 32 * (h.l1 >>> 6 ||| h.l2 <<< 20).toNat +
      2 ^ 64 * (h.l2 >>> 12 ||| h.l3 <<< 14).toNat +
        2 ^ 96 * (h.l3 >>> 18 ||| h.l4 <<< 8).toNat = h.val % 2 ^ 128 := by
    rw [w0, w1, w2, w3, q1, q2, q3, val]
    omega
  have low (x : UInt64) : x.toUInt32.toNat = x.toNat % 2 ^ 32 := UInt64.toNat_toUInt32 x
  simp only [tagBytes]
  generalize h.l0 ||| h.l1 <<< 26 = x0 at *
  generalize h.l1 >>> 6 ||| h.l2 <<< 20 = x1 at *
  generalize h.l2 >>> 12 ||| h.l3 <<< 14 = x2 at *
  generalize h.l3 >>> 18 ||| h.l4 <<< 8 = x3 at *
  have r0 := x0.toNat_lt
  have r1 := x1.toNat_lt
  have r2 := x2.toNat_lt
  have r3 := x3.toNat_lt
  have f0 : (x0.toUInt64 + pad.1.toUInt64).toNat = x0.toNat + pad.1.toNat := by
    simp only [UInt64.toNat_add, UInt32.toNat_toUInt64]
    omega
  generalize x0.toUInt64 + pad.1.toUInt64 = t0 at *
  have f1 := word_sum (x := x1) (y := pad.2.1) (f := t0) (by omega)
  generalize x1.toUInt64 + pad.2.1.toUInt64 + (t0 >>> 32) = t1 at *
  have f2 := word_sum (x := x2) (y := pad.2.2.1) (f := t1) (by omega)
  generalize x2.toUInt64 + pad.2.2.1.toUInt64 + (t1 >>> 32) = t2 at *
  have f3 := word_sum (x := x3) (y := pad.2.2.2) (f := t2) (by omega)
  generalize x3.toUInt64 + pad.2.2.2.toUInt64 + (t2 >>> 32) = t3 at *
  have word (x : UInt64) (y : Nat) (hxy : x.toNat % 2 ^ 32 = y % 2 ^ 32) :
      u32to8Little x.toUInt32 = leBytes 4 y := by
    rw [u32to8Little_eq, low, hxy]
    exact leBytes_mod 4 y
  rw [show (16 : Nat) = 4 + (4 + (4 + 4)) from rfl, leBytes_add, leBytes_add, leBytes_add,
    word t0 (h.val + padVal pad) (by rw [padVal]; omega),
    word t1 ((h.val + padVal pad) / 256 ^ 4) (by rw [padVal]; omega),
    word t2 ((h.val + padVal pad) / 256 ^ 4 / 256 ^ 4) (by rw [padVal]; omega),
    word t3 ((h.val + padVal pad) / 256 ^ 4 / 256 ^ 4 / 256 ^ 4) (by rw [padVal]; omega)]
  simp only [List.append_assoc]

end Limbs

/-! ### The key -/

/-- `r &= 0xffffffc0ffffffc0ffffffc0fffffff`, as the comment in `poly1305_init` has it. -/
def polyClamp : Nat := 0xffffffc0ffffffc0ffffffc0fffffff

private theorem and_of_lt {x m : Nat} (h : m < 2 ^ 26) : x &&& m = x % 2 ^ 26 &&& m := by
  calc x &&& m = (x &&& m) % 2 ^ 26 :=
        (Nat.mod_eq_of_lt (lt_of_le_of_lt Nat.and_le_right h)).symm
    _ = x % 2 ^ 26 &&& m := by rw [Nat.and_mod_two_pow, Nat.mod_eq_of_lt h]

private theorem and_split (x m : Nat) :
    x &&& m = (x % 2 ^ 26 &&& m % 2 ^ 26) + 2 ^ 26 * (x / 2 ^ 26 &&& m / 2 ^ 26) := by
  rw [← Nat.and_mod_two_pow, ← Nat.and_div_two_pow, Nat.mod_add_div]

theorem poly1305Init_r (key : Bytes) :
    (poly1305Init key).r.Small ∧
      (poly1305Init key).r.val = leVal (key.take 16) &&& polyClamp := by
  obtain ⟨w0, w1, w2, w3, w4⟩ := limbs_of_bytes key
  have l0 : (poly1305Init key).r.l0.toNat = leVal key % 2 ^ 26 &&& 0x3ffffff := by
    simp only [poly1305Init, UInt32.toNat_and]
    rw [and_of_lt (by decide), w0]
    rfl
  have l1 : (poly1305Init key).r.l1.toNat = leVal key / 2 ^ 26 % 2 ^ 26 &&& 0x3ffff03 := by
    simp only [poly1305Init, UInt32.toNat_and]
    rw [and_of_lt (by decide), w1]
    rfl
  have l2 : (poly1305Init key).r.l2.toNat = leVal key / 2 ^ 52 % 2 ^ 26 &&& 0x3ffc0ff := by
    simp only [poly1305Init, UInt32.toNat_and]
    rw [and_of_lt (by decide), w2]
    rfl
  have l3 : (poly1305Init key).r.l3.toNat = leVal key / 2 ^ 78 % 2 ^ 26 &&& 0x3f03fff := by
    simp only [poly1305Init, UInt32.toNat_and]
    rw [and_of_lt (by decide), w3]
    rfl
  have l4 : (poly1305Init key).r.l4.toNat = leVal key / 2 ^ 104 % 2 ^ 24 &&& 0x00fffff := by
    simp only [poly1305Init, UInt32.toNat_and, w4]
    rfl
  have bound (x m : Nat) (hm : m < 2 ^ 26) : x &&& m < 2 ^ 26 :=
    lt_of_le_of_lt Nat.and_le_right hm
  refine ⟨⟨?_, ?_, ?_, ?_, ?_⟩, ?_⟩
  · rw [l0]
    exact bound _ _ (by decide)
  · rw [l1]
    exact bound _ _ (by decide)
  · rw [l2]
    exact bound _ _ (by decide)
  · rw [l3]
    exact bound _ _ (by decide)
  · rw [l4]
    exact bound _ _ (by decide)
  · -- the masks are the limbs of the one mask
    have d1 : leVal key % 256 ^ 16 / 2 ^ 26 % 2 ^ 26 = leVal key / 2 ^ 26 % 2 ^ 26 := by omega
    have d2 : leVal key % 256 ^ 16 / 2 ^ 26 / 2 ^ 26 % 2 ^ 26 = leVal key / 2 ^ 52 % 2 ^ 26 := by
      omega
    have d3 : leVal key % 256 ^ 16 / 2 ^ 26 / 2 ^ 26 / 2 ^ 26 % 2 ^ 26 =
        leVal key / 2 ^ 78 % 2 ^ 26 := by omega
    have d4 : leVal key % 256 ^ 16 / 2 ^ 26 / 2 ^ 26 / 2 ^ 26 / 2 ^ 26 =
        leVal key / 2 ^ 104 % 2 ^ 24 := by omega
    have d0 : leVal key % 256 ^ 16 % 2 ^ 26 = leVal key % 2 ^ 26 := by omega
    rw [Limbs.val, l0, l1, l2, l3, l4, leVal_take, and_split _ polyClamp,
      and_split _ (polyClamp / 2 ^ 26),
      and_split _ (polyClamp / 2 ^ 26 / 2 ^ 26),
      and_split _ (polyClamp / 2 ^ 26 / 2 ^ 26 / 2 ^ 26), d0, d1, d2, d3, d4,
      show polyClamp % 2 ^ 26 = 0x3ffffff from rfl,
      show polyClamp / 2 ^ 26 % 2 ^ 26 = 0x3ffff03 from rfl,
      show polyClamp / 2 ^ 26 / 2 ^ 26 % 2 ^ 26 = 0x3ffc0ff from rfl,
      show polyClamp / 2 ^ 26 / 2 ^ 26 / 2 ^ 26 % 2 ^ 26 = 0x3f03fff from rfl,
      show polyClamp / 2 ^ 26 / 2 ^ 26 / 2 ^ 26 / 2 ^ 26 = 0x00fffff from rfl]
    ring

theorem padVal_poly1305Init {key : Bytes} (hkey : key.length = 32) :
    Limbs.padVal (poly1305Init key).pad = leVal (key.drop 16) := by
  have bound := leVal_lt key
  rw [hkey] at bound
  simp only [Limbs.padVal, poly1305Init, u8to32Little_toNat, leVal_drop]
  omega

/-! ### The message -/

/-- The value of the message's polynomial: each chunk is a coefficient, with a one above its last
byte. -/
def polyEval (r : Nat) (m : Bytes) : Nat :=
  (chunks 16 m).foldl (fun acc chunk => (acc + leVal (chunk ++ [1])) * r % polyPrime) 0

/-- Poly1305 on numbers. -/
def polyTag (key m : Bytes) : Bytes :=
  leBytes 16 (polyEval (leVal (key.take 16) &&& polyClamp) m + leVal (key.drop 16))

private theorem sixteen_pos : 0 < 16 := Nat.succ_pos 15

/-- The rule of `poly1305_update`: a full block is taken at once. -/
def polyRule : Rule 16 := eager 16 sixteen_pos

/-- With nothing left over, an update takes whole blocks and keeps the rest. -/
private theorem poly1305Update_fresh {st : Poly1305State} (m : Bytes) (h : st.buffer = []) :
    poly1305Update st m =
      { st with
        h := (polyRule.feed (st.r.block ((1 : UInt32) <<< 24)) (st.h, []) m).1
        buffer := (polyRule.feed (st.r.block ((1 : UInt32) <<< 24)) (st.h, []) m).2 } := by
  have within := Nat.mul_div_le m.length 16
  have front : (m.take (m.length / 16 * 16)).length / 16 = m.length / 16 := by
    rw [List.length_take]
    omega
  -- the blocks that are passed on are the ones that the rule takes
  have taken := takeBlocks_append (st.r.block ((1 : UInt32) <<< 24)) (n := 16)
    (k := m.length / 16) (x := st.h) (a := m.take (m.length / 16 * 16))
    (b := m.drop (m.length / 16 * 16)) (by rw [List.length_take]; omega)
  rw [List.take_append_drop] at taken
  have kept : (polyRule.feed (st.r.block ((1 : UInt32) <<< 24)) (st.h, []) m).2 =
      m.drop (m.length / 16 * 16) := by
    rw [Rule.feed, List.nil_append, takeBlocks_eq, Nat.mul_comm]
    rfl
  have count : polyRule.count m.length = m.length / 16 := rfl
  rw [kept, Rule.feed, List.nil_append, count, taken]
  simp only [poly1305Update, poly1305Blocks, h, List.length_nil, ne_eq, not_true_eq_false,
    false_and, if_false, List.nil_append, front]
  by_cases full : 16 ≤ m.length
  · simp only [full, if_true]
    by_cases rest : (m.drop (m.length / 16 * 16)).length = 0
    · rw [if_neg (by simp only [rest, not_true_eq_false, not_false_eq_true]),
        List.length_eq_zero_iff.mp rest]
    · rw [if_pos rest, List.nil_append]
  · have none : m.length / 16 = 0 := by omega
    simp only [full, if_false, none, Nat.zero_mul, List.drop_zero, takeBlocks]
    by_cases rest : m.length = 0
    · rw [if_neg (by simp only [rest, not_true_eq_false, not_false_eq_true]),
        List.length_eq_zero_iff.mp rest, ← h]
    · rw [if_pos rest, h, List.nil_append]

/-- An update feeds the message to the buffered blocks. -/
theorem poly1305Update_eq {st : Poly1305State} (hst : st.buffer.length < 16) (m : Bytes) :
    poly1305Update st m =
      { st with
        h := (polyRule.feed (st.r.block ((1 : UInt32) <<< 24)) (st.h, st.buffer) m).1
        buffer := (polyRule.feed (st.r.block ((1 : UInt32) <<< 24)) (st.h, st.buffer) m).2 } := by
  by_cases empty : st.buffer = []
  · rw [poly1305Update_fresh m empty, empty]
  have left : st.buffer.length ≠ 0 := fun none => empty (List.length_eq_zero_iff.mp none)
  by_cases short : m.length < 16 - st.buffer.length
  · -- not enough for a block
    have want : min (16 - st.buffer.length) m.length = m.length := Nat.min_eq_right (by omega)
    have all : (st.buffer ++ m).length < 16 := by
      rw [List.length_append]
      omega
    have none : polyRule.count (st.buffer ++ m).length = 0 := Nat.div_eq_of_lt all
    rw [Rule.feed, none, takeBlocks, poly1305Update]
    simp only [want, List.take_length]
    rw [if_pos ⟨left, all⟩]
  · -- the buffer is filled and taken, and what follows starts afresh
    have want : min (16 - st.buffer.length) m.length = 16 - st.buffer.length :=
      Nat.min_eq_left (by omega)
    have filled : (st.buffer ++ m.take (16 - st.buffer.length)).length = 16 := by
      rw [List.length_append, List.length_take]
      omega
    have first : poly1305Update st m = poly1305Update
        { poly1305Blocks st ((1 : UInt32) <<< 24) (st.buffer ++ m.take (16 - st.buffer.length)) with
          buffer := [] } (m.drop (16 - st.buffer.length)) := by
      rw [poly1305Update, poly1305Update]
      simp only [want, left, ne_eq, not_false_eq_true, true_and, filled, Nat.lt_irrefl, if_false,
        if_true, List.length_nil, not_true_eq_false, false_and]
    have one : polyRule.feed (st.r.block ((1 : UInt32) <<< 24)) (st.h, st.buffer)
          (m.take (16 - st.buffer.length)) =
        ((poly1305Blocks st ((1 : UInt32) <<< 24)
          (st.buffer ++ m.take (16 - st.buffer.length))).h, []) := by
      have count : polyRule.count (st.buffer ++ m.take (16 - st.buffer.length)).length = 1 := by
        rw [filled]
        rfl
      rw [Rule.feed, count, poly1305Blocks, filled, takeBlocks_eq]
      rw [List.drop_eq_nil_of_le (by rw [filled])]
    conv_rhs => rw [← List.take_append_drop (16 - st.buffer.length) m]
    rw [first, poly1305Update_fresh _ rfl, ← Rule.feed_feed, one]
    rfl

/-- All pieces of a message, fed one after the other. -/
private theorem foldl_poly1305Update {st : Poly1305State} (hst : st.buffer.length < 16)
    (pieces : List Bytes) :
    pieces.foldl poly1305Update st =
      { st with
        h := (polyRule.feed (st.r.block ((1 : UInt32) <<< 24)) (st.h, st.buffer) pieces.flatten).1
        buffer :=
          (polyRule.feed (st.r.block ((1 : UInt32) <<< 24)) (st.h, st.buffer) pieces.flatten).2 } := by
  have settled : polyRule.Settled (st.h, st.buffer) := Nat.div_eq_of_lt hst
  rw [← Rule.foldl_feed _ _ settled]
  induction pieces generalizing st with
  | nil => rfl
  | cons m pieces ih =>
    have next := Rule.settled_feed (st.r.block ((1 : UInt32) <<< 24)) polyRule (st.h, st.buffer) m
    have room : (polyRule.feed (st.r.block ((1 : UInt32) <<< 24)) (st.h, st.buffer) m).2.length <
        16 := by
      have := Nat.div_eq_zero_iff.mp next
      omega
    rw [List.foldl_cons, List.foldl_cons, poly1305Update_eq hst, ih room next]

namespace Limbs

/-- A block adds a coefficient and multiplies. -/
private theorem block_spec {r h : Limbs} {b : UInt32} {m : Bytes} {acc c : Nat}
    (hr : r.Small) (hh : h.Bounded) (hm : m.length ≤ 16)
    (hbit : b = 0 ∨ b = (1 : UInt32) <<< 24) (hacc : h.val ≡ acc [MOD polyPrime])
    (hc : leVal m + 2 ^ 104 * b.toNat = c) :
    (r.block b h m).Bounded ∧
      (r.block b h m).val ≡ (acc + c) * r.val % polyPrime [MOD polyPrime] := by
  obtain ⟨roomy, sum⟩ := addBlock_spec hh hm hbit
  obtain ⟨bounded, product⟩ := mul_spec roomy hr
  refine ⟨bounded, product.trans ?_⟩
  rw [sum, Nat.add_assoc, hc]
  exact ((hacc.add_right c).mul_right r.val).trans (Nat.mod_modEq _ _).symm

private theorem blocks_spec {r h : Limbs} {l : List Bytes} {acc : Nat} (hr : r.Small)
    (hh : h.Bounded) (hacc : h.val ≡ acc [MOD polyPrime]) (hms : ∀ m ∈ l, m.length = 16) :
    (l.foldl (r.block ((1 : UInt32) <<< 24)) h).Bounded ∧
      (l.foldl (r.block ((1 : UInt32) <<< 24)) h).val ≡
        l.foldl (fun acc chunk => (acc + leVal (chunk ++ [1])) * r.val % polyPrime) acc
          [MOD polyPrime] := by
  induction l generalizing h acc with
  | nil => exact ⟨hh, hacc⟩
  | cons m ms ih =>
    have full : m.length = 16 := hms m (List.mem_cons_self ..)
    have coefficient : leVal m + 2 ^ 104 * ((1 : UInt32) <<< 24).toNat = leVal (m ++ [1]) := by
      rw [leVal_append, full]
      rfl
    obtain ⟨bounded, value⟩ := block_spec hr hh (Nat.le_of_eq full) (.inr rfl) hacc coefficient
    exact ih bounded value fun m' hm' => hms m' (List.mem_cons_of_mem _ hm')

end Limbs

/-- The padding of the last block is the one above its bytes. -/
private theorem leVal_padded (m : Bytes) (k : Nat) :
    leVal (m ++ 1 :: List.replicate k 0) = leVal (m ++ [1]) := by
  rw [leVal_append, leVal_append, leVal, leVal_replicate_zero]
  rfl

/-- From a fresh state, the end of the computation is the polynomial's value plus the pad. -/
theorem poly1305Finish_of_fresh {st : Poly1305State} (small : st.r.Small)
    (zero : st.h = ⟨0, 0, 0, 0, 0⟩) (start : st.buffer = []) (pieces : List Bytes) :
    poly1305Finish (pieces.foldl poly1305Update st) =
      leBytes 16 (polyEval st.r.val pieces.flatten + Limbs.padVal st.pad) := by
  generalize hm : pieces.flatten = m
  rw [foldl_poly1305Update (by rw [start]; exact Nat.succ_pos 15), hm]
  have count : polyRule.count m.length = m.length / 16 := rfl
  have zero : st.h.Bounded ∧ st.h.val ≡ 0 [MOD polyPrime] := by
    rw [zero]
    exact ⟨⟨Nat.two_pow_pos 26, Nat.add_pos_left (Nat.two_pow_pos 26) _, Nat.two_pow_pos 26,
      Nat.two_pow_pos 26, Nat.two_pow_pos 26⟩, rfl⟩
  -- the whole blocks
  obtain ⟨bounded, value⟩ := Limbs.blocks_spec (l := blocks 16 (m.length / 16) m) small zero.1
    zero.2 fun b hb => length_of_mem_blocks (Nat.mul_div_le m.length 16) hb
  rw [Rule.feed, start, List.nil_append, count, takeBlocks_eq]
  generalize (blocks 16 (m.length / 16) m).foldl
    (st.r.block ((1 : UInt32) <<< 24)) st.h = h at *
  -- the end, from limbs that stand for the polynomial's value
  have finish {h' : Limbs} (hb : h'.Bounded)
      (hv : h'.val ≡ polyEval st.r.val m [MOD polyPrime])
      (hlt : polyEval st.r.val m < polyPrime) :
      h'.carry.select.tagBytes st.pad = leBytes 16 (polyEval st.r.val m + Limbs.padVal st.pad) := by
    obtain ⟨carried, same⟩ := Limbs.carry_spec hb
    obtain ⟨selected, reduced⟩ := Limbs.select_spec carried
    have number : h'.carry.select.val = polyEval st.r.val m := by
      rw [reduced, ← Nat.mod_eq_of_lt hlt]
      exact same.trans hv
    rw [Limbs.tagBytes_eq selected, number]
  have below (ms : List Bytes) {r acc : Nat} (hacc : acc < polyPrime) :
      ms.foldl (fun acc chunk => (acc + leVal (chunk ++ [1])) * r % polyPrime) acc <
        polyPrime := by
    induction ms generalizing acc with
    | nil => exact hacc
    | cons m ms ih => exact ih (Nat.mod_lt _ (by decide))
  rw [poly1305Finish]
  by_cases whole : m.length % 16 = 0
  · have none : (m.drop (16 * (m.length / 16))).length = 0 := by
      rw [List.length_drop]
      omega
    simp only [none, ne_eq, not_true_eq_false, if_false]
    apply finish bounded
    · rw [polyEval, chunks, if_pos whole, List.append_nil]
      exact value
    · exact below _ (by decide)
  · have some : (m.drop (16 * (m.length / 16))).length ≠ 0 := by
      rw [List.length_drop]
      omega
    have short : (m.drop (16 * (m.length / 16))).length ≤ 15 := by
      rw [List.length_drop]
      omega
    simp only [some, ne_eq, not_false_eq_true, if_true]
    obtain ⟨last, sum⟩ := Limbs.block_spec (r := st.r) (b := 0)
      (m := m.drop (16 * (m.length / 16)) ++
        1 :: List.replicate (15 - (m.drop (16 * (m.length / 16))).length) 0)
      small bounded (by simp only [List.length_append, List.length_cons, List.length_replicate]
                        omega)
      (.inl rfl) value (Nat.add_zero _)
    rw [leVal_padded] at sum
    apply finish last
    · rw [polyEval, chunks, if_neg whole, List.foldl_append]
      exact sum
    · exact below _ (by decide)

/-- In whatever pieces a message is given, the tag is the one of its polynomial. -/
theorem poly1305_pieces {key : Bytes} (hkey : key.length = 32) (pieces : List Bytes) :
    poly1305Finish (pieces.foldl poly1305Update (poly1305Init key)) =
      polyTag key pieces.flatten := by
  obtain ⟨small, clamped⟩ := poly1305Init_r key
  rw [poly1305Finish_of_fresh small rfl rfl, clamped, padVal_poly1305Init hkey, polyTag]

/-- For instance three bytes in two calls, under a key of ones. -/
theorem poly1305_two_pieces :
    poly1305Finish ([[1, 2], [3]].foldl poly1305Update (poly1305Init (List.replicate 32 1))) =
      polyTag (List.replicate 32 1) [1, 2, 3] :=
  poly1305_pieces (by decide) [[1, 2], [3]]

end Molewire
