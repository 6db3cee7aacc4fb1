/-
# X25519: the order of the base point

The base point generates a group of prime order. A clamped scalar is a multiple of
eight below eight times that order, and not zero, so it is no multiple of the order: a
private key always has a public key, and the key exchange of two such keys never
comes out zero. The zero that the handshake refuses can only come from a public key
that no private key belongs to.
-/

import Mathlib.GroupTheory.OrderOfElement
import Molewire.X25519Value

namespace Molewire

open ByteBuffer LittleEndian MontgomeryLadder PrimeCertificate

/-! ### The order -/

/-- The order of the base point. -/
def curveOrder : Nat := 2 ^ 252 + 27742317777372353535851937790883648493

/-- The primes that show it to be one. -/
def curveOrderChain : List Row := [
  ⟨3, 2, 2, [2]⟩, ⟨5, 3, 2, [2, 2]⟩, ⟨7, 3, 3, [2, 3]⟩, ⟨11, 4, 2, [2, 5]⟩, ⟨13, 4, 2, [2, 2, 3]⟩,
  ⟨17, 5, 3, [2, 2, 2, 2]⟩, ⟨19, 5, 2, [2, 3, 3]⟩, ⟨23, 5, 5, [2, 11]⟩, ⟨41, 6, 6, [2, 2, 2, 5]⟩,
  ⟨43, 6, 3, [2, 3, 7]⟩, ⟨47, 6, 5, [2, 23]⟩, ⟨67, 7, 2, [2, 3, 11]⟩, ⟨73, 7, 5, [2, 2, 2, 3, 3]⟩,
  ⟨79, 7, 3, [2, 3, 13]⟩, ⟨113, 7, 3, [2, 2, 2, 2, 7]⟩, ⟨269, 9, 2, [2, 2, 67]⟩,
  ⟨307, 9, 5, [2, 3, 3, 17]⟩, ⟨1361, 11, 3, [2, 2, 2, 2, 5, 17]⟩, ⟨1723, 11, 3, [2, 3, 7, 41]⟩,
  ⟨2551, 12, 6, [2, 3, 5, 5, 17]⟩, ⟨2851, 12, 2, [2, 3, 5, 5, 19]⟩, ⟨2939, 12, 2, [2, 13, 113]⟩,
  ⟨3797, 12, 2, [2, 2, 13, 73]⟩, ⟨5879, 13, 11, [2, 2939]⟩, ⟨17231, 15, 13, [2, 5, 1723]⟩,
  ⟨22111, 15, 6, [2, 3, 5, 11, 67]⟩, ⟨30703, 15, 3, [2, 3, 7, 17, 43]⟩,
  ⟨34123, 16, 2, [2, 3, 11, 11, 47]⟩, ⟨41081, 16, 3, [2, 2, 2, 5, 13, 79]⟩,
  ⟨82163, 17, 2, [2, 41081]⟩, ⟨132667, 18, 5, [2, 3, 22111]⟩, ⟨137849, 18, 3, [2, 2, 2, 17231]⟩,
  ⟨409477, 19, 2, [2, 2, 3, 34123]⟩, ⟨531581, 20, 2, [2, 2, 5, 7, 3797]⟩,
  ⟨1224481, 21, 13, [2, 2, 2, 2, 2, 3, 5, 2551]⟩, ⟨14741173, 24, 2, [2, 2, 3, 3, 409477]⟩,
  ⟨58964693, 26, 2, [2, 2, 14741173]⟩, ⟨292386187, 29, 2, [2, 3, 3, 3, 3, 307, 5879]⟩,
  ⟨213441916511, 38, 13, [2, 5, 73, 292386187]⟩,
  ⟨1257559732178653, 51, 2, [2, 2, 3, 7, 23, 531581, 1224481]⟩,
  ⟨4434155615661930479, 62, 17, [2, 41, 43, 1257559732178653]⟩,
  ⟨3044861653679985063343, 72, 5, [2, 3, 11, 30703, 82163, 132667, 137849]⟩,
  ⟨172054593956031949258510691, 88, 2, [2, 5, 1361, 2851, 4434155615661930479]⟩,
  ⟨198211423230930754013084525763697, 108, 5,
    [2, 2, 2, 2, 3, 23, 58964693, 3044861653679985063343]⟩,
  ⟨19757330305831588566944191468367130476339, 134, 2,
    [2, 269, 213441916511, 172054593956031949258510691]⟩,
  ⟨276602624281642239937218680557139826668747, 138, 2,
    [2, 7, 19757330305831588566944191468367130476339]⟩,
  ⟨curveOrder, 253, 2,
   [2, 2, 3, 11, 198211423230930754013084525763697,
     276602624281642239937218680557139826668747]⟩]

theorem prime_curveOrder : Nat.Prime curveOrder := by
  have chain : Chain [2] curveOrderChain := by decide +kernel
  have two : ∀ q ∈ [2], q.Prime := List.forall_mem_singleton.mpr Nat.prime_two
  exact chain.prime two ⟨curveOrder, 253, 2, _⟩ (List.mem_of_getLast? rfl)

instance fact_curveOrder : Fact curveOrder.Prime := ⟨prime_curveOrder⟩

/-- The base point. -/
def basePoint : (curve (121665 : ZMod curvePrime) 1).Point := .some _ _ nonsingular_basepoint

theorem coordinate_basePoint : coordinate basePoint = leVal basepoint := by
  rw [show leVal basepoint = 9 from rfl]
  exact (div_one 9).trans Nat.cast_ofNat.symm

theorem basePoint_ne_zero : basePoint ≠ 0 := by
  intro h
  cases h

/-- The bits of the order, over which the ladder ends at a pair with the bottom zero. -/
theorem exists_curveOrder_bits :
    ∃ bits, ofBits bits = curveOrder ∧ (pairsMod curvePrime 121665 9 bits).1.2 = 0 := by
  have residue : (pairsMod curvePrime 121665 9
      ((List.range 253).reverse.map curveOrder.testBit)).1.2 = 0 := by decide +kernel
  refine ⟨(List.range 253).reverse.map curveOrder.testBit, ?_, residue⟩
  rw [ofBits_testBit]
  exact Nat.mod_eq_of_lt (by decide)

/-- The ladder over the order ends at the zero of the curve. -/
theorem curveOrder_smul : curveOrder • basePoint = 0 := by
  obtain ⟨bits, order, residue⟩ := exists_curveOrder_bits
  have start : Represents (((9 : Nat) : ZMod curvePrime), 1) basePoint := by
    refine ⟨one_ne_zero, ?_⟩
    rw [one_mul, mul_one]
    exact Nat.cast_ofNat
  have nine : ((9 : Nat) : ZMod curvePrime) ≠ 0 := natCast_ne_zero (by decide) (by decide)
  have multiple : Represents (pairs (121665 : ZMod curvePrime) ((9 : Nat) : ZMod curvePrime)
      bits).1 (ofBits bits • basePoint) :=
    (pairs_represent smooth_curve one_ne_zero nine start bits).1
  have bottom :
      (pairs (121665 : ZMod curvePrime) ((9 : Nat) : ZMod curvePrime) bits).1.2 = 0 := by
    have factor : ((121665 : Nat) : ZMod curvePrime) = 121665 := Nat.cast_ofNat
    rw [← factor, ← residues_pairsMod]
    dsimp only [residues]
    rw [residue, Nat.cast_zero]
  rw [order] at multiple
  generalize curveOrder • basePoint = point at multiple ⊢
  match point, multiple with
  | .zero, _ => rfl
  | .some x y _, multiple => exact absurd bottom multiple.1

/-- A multiple has the coordinate zero only where the scalar is a multiple of the order. -/
theorem coordinate_smul_basePoint {m : Nat} (h : ¬ curveOrder ∣ m) :
    coordinate (m • basePoint) ≠ 0 := by
  intro zero
  have double := add_self_of_coordinate one_ne_zero zero
  rw [← add_smul, ← two_mul] at double
  have order : addOrderOf basePoint = curveOrder :=
    addOrderOf_eq_prime curveOrder_smul basePoint_ne_zero
  have divides := addOrderOf_dvd_of_nsmul_eq_zero double
  rw [order] at divides
  rcases prime_curveOrder.dvd_mul.mp divides with two | here
  · exact absurd (Nat.le_of_dvd (by decide) two) (by decide)
  · exact h here

/-! ### Clamped scalars -/

theorem length_clamp {k : Bytes} (h : k.length = 32) :
    (wireguardClampPrivateKey k).length = 32 := by
  rw [wireguardClampPrivateKey, List.length_set, List.length_set, h]

/-- The low three bits are cleared, the highest is cleared and the one below it set. -/
theorem leVal_clamp {k : Bytes} (h : k.length = 32) :
    leVal (wireguardClampPrivateKey k) % 8 = 0 ∧
      2 ^ 254 ≤ leVal (wireguardClampPrivateKey k) ∧
      leVal (wireguardClampPrivateKey k) < 2 ^ 255 := by
  have lowBits : ∀ v : BitVec 8, (v &&& 248#8).toNat % 8 = 0 := by decide
  have highBits : ∀ v : BitVec 8, 64 ≤ (v &&& 127#8 ||| 64#8).toNat ∧
      (v &&& 127#8 ||| 64#8).toNat < 128 := by decide
  have first := toNat_getD (wireguardClampPrivateKey k) 0
  have last := toNat_getD (wireguardClampPrivateKey k) 31
  have bound := leVal_lt (wireguardClampPrivateKey k)
  have length := length_clamp h
  have low : ((wireguardClampPrivateKey k).getD 0 0).toNat % 8 = 0 := by
    have byte0 : (wireguardClampPrivateKey k).getD 0 0 = byte k 0 &&& 248 := byte_clamp_zero h
    rw [byte0]
    exact lowBits (byte k 0).toBitVec
  have high : 64 ≤ ((wireguardClampPrivateKey k).getD 31 0).toNat ∧
      ((wireguardClampPrivateKey k).getD 31 0).toNat < 128 := by
    have byte31 : (wireguardClampPrivateKey k).getD 31 0 = byte k 31 &&& 127 ||| 64 :=
      byte_clamp_last h
    rw [byte31]
    exact highBits (byte k 31).toBitVec
  rw [length] at bound
  generalize leVal (wireguardClampPrivateKey k) = n at first last bound ⊢
  omega

/-- A clamped scalar is no multiple of the order. -/
theorem not_dvd_clamp {k : Bytes} (h : k.length = 32) :
    ¬ curveOrder ∣ leVal (wireguardClampPrivateKey k) := by
  obtain ⟨eighth, low, high⟩ := leVal_clamp h
  generalize leVal (wireguardClampPrivateKey k) = n at eighth low high ⊢
  intro divides
  have product : n = 8 * (n / 8) := by omega
  rw [product] at divides
  rcases prime_curveOrder.dvd_mul.mp divides with eight | here
  · exact absurd (Nat.le_of_dvd (by decide) eight) (by decide)
  · have large := Nat.le_of_dvd (by omega) here
    have order : curveOrder = 2 ^ 252 + 27742317777372353535851937790883648493 := rfl
    omega

/-- Clamping is done once and for all. -/
theorem clamp_clamp {k : Bytes} (h : k.length = 32) :
    wireguardClampPrivateKey (wireguardClampPrivateKey k) = wireguardClampPrivateKey k := by
  have lowBits : ∀ v : BitVec 8, v &&& 248#8 &&& 248#8 = v &&& 248#8 := by decide
  have highBits : ∀ v : BitVec 8, (v &&& 127#8 ||| 64#8) &&& 127#8 ||| 64#8 =
      v &&& 127#8 ||| 64#8 := by decide
  have byte0 : byte (wireguardClampPrivateKey k) 0 = byte k 0 &&& 248 := byte_clamp_zero h
  have byte31 : byte (wireguardClampPrivateKey k) 31 = byte k 31 &&& 127 ||| 64 :=
    byte_clamp_last h
  have low : byte k 0 &&& 248 &&& 248 = byte k 0 &&& 248 :=
    UInt8.toBitVec_inj.mp (lowBits (byte k 0).toBitVec)
  have high : (byte k 31 &&& 127 ||| 64) &&& 127 ||| 64 = byte k 31 &&& 127 ||| 64 :=
    UInt8.toBitVec_inj.mp (highBits (byte k 31).toBitVec)
  conv_lhs => rw [wireguardClampPrivateKey, byte0, byte31, low, high]
  rw [wireguardClampPrivateKey, List.set_comm _ _ (show 31 ≠ 0 by decide), List.set_set,
    List.set_set]

theorem clamp_ne_zeroKey {k : Bytes} (h : k.length = 32) :
    wireguardClampPrivateKey k ≠ zeroKey := by
  intro zero
  have value := (leVal_clamp h).2.1
  rw [zero] at value
  exact absurd value (by decide)

/-! ### Generated keys -/

/-- The public key of a scalar is the coordinate of a multiple of the base point. -/
theorem wireguardX25519_basepoint {k : Bytes} (h : k.length = 32) :
    wireguardX25519 k basepoint =
      (leBytes 32 (coordinate (leVal (wireguardClampPrivateKey k) • basePoint)).val, false) := by
  rw [wireguardX25519_eq_multiple rfl h one_ne_zero coordinate_basePoint]
  exact congrArg _ (beq_false_of_ne (coordinate_smul_basePoint (not_dvd_clamp h)))

theorem leVal_publicKey {k : Bytes} (h : k.length = 32) :
    coordinate (leVal (wireguardClampPrivateKey k) • basePoint) =
      leVal (wireguardX25519 k basepoint).1 := by
  rw [wireguardX25519_basepoint h, leVal_leBytes_val, ZMod.natCast_zmod_val]

/-- The key exchange of two scalars never comes out zero. -/
theorem wireguardX25519_shared {own k : Bytes} (hown : own.length = 32) (h : k.length = 32) :
    (wireguardX25519 own (wireguardX25519 k basepoint).1).1 ≠ zeroKey ∧
      (wireguardX25519 own (wireguardX25519 k basepoint).1).2 = false := by
  have length := @length_wireguardX25519 basepoint rfl k
  have nonzero : coordinate (leVal (wireguardClampPrivateKey own) •
      leVal (wireguardClampPrivateKey k) • basePoint) ≠ 0 := by
    rw [smul_smul]
    apply coordinate_smul_basePoint
    rw [prime_curveOrder.dvd_mul, not_or]
    exact ⟨not_dvd_clamp hown, not_dvd_clamp h⟩
  rw [wireguardX25519_eq_multiple length hown one_ne_zero (leVal_publicKey h)]
  refine ⟨fun zero => nonzero ?_, beq_false_of_ne nonzero⟩
  have value := congrArg leVal zero
  rw [leVal_leBytes_val] at value
  exact (ZMod.val_eq_zero _).mp (value.trans rfl)

/-- Every private key but zeros has a public key. -/
theorem wireguardGeneratePublicKey_eq {k : Bytes} (h : k.length = 32) :
    wireguardGeneratePublicKey k =
      if k = zeroKey then none else some (wireguardX25519 k basepoint).1 := by
  have defined : (wireguardX25519 k basepoint).2 = false := by rw [wireguardX25519_basepoint h]
  rw [wireguardGeneratePublicKey]
  dsimp only
  rw [defined]
  rfl

/-- The clamped key has the public key of the one it was made from. -/
theorem wireguardGeneratePublicKey_clamp {k : Bytes} (h : k.length = 32) :
    wireguardGeneratePublicKey (wireguardClampPrivateKey k) =
      some (wireguardX25519 k basepoint).1 := by
  rw [wireguardGeneratePublicKey_eq (length_clamp h), if_neg (clamp_ne_zeroKey h),
    wireguardX25519_basepoint (length_clamp h), clamp_clamp h, wireguardX25519_basepoint h]

/-- Every private key but zeros has a public key, and no private key at all has zeros as its shared
secret with a key so generated. -/
theorem wireguardGeneratePublicKey_total {k : Bytes} (h : k.length = 32) :
    (wireguardGeneratePublicKey k = none ↔ k = zeroKey) ∧
      ∀ key, wireguardGeneratePublicKey k = some key →
        ∀ own : Bytes, own.length = 32 →
          (wireguardX25519 own key).1 ≠ zeroKey ∧ (wireguardX25519 own key).2 = false := by
  constructor
  · rw [wireguardGeneratePublicKey_eq h]
    split
    case isTrue zero => exact iff_of_true rfl zero
    case isFalse other => exact iff_of_false (Option.some_ne_none _) other
  · intro key generated own hown
    rw [generated_eq generated]
    exact wireguardX25519_shared hown h

/-- The private key that is one. -/
theorem wireguardGeneratePublicKey_total_one :
    ∃ key, wireguardGeneratePublicKey (1 :: List.replicate 31 0) = some key ∧
      (wireguardX25519 zeroKey key).1 ≠ zeroKey ∧ (wireguardX25519 zeroKey key).2 = false := by
  have ⟨total, shared⟩ := @wireguardGeneratePublicKey_total (1 :: List.replicate 31 0) rfl
  have other : (1 :: List.replicate 31 0 : Bytes) ≠ zeroKey := by decide
  obtain ⟨key, generated⟩ := Option.ne_none_iff_exists'.mp (mt total.mp other)
  exact ⟨key, generated, shared key generated zeroKey rfl⟩

end Molewire
