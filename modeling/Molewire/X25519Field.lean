/-
# X25519: the field

The limbs of `x25519.c` stand for numbers, and the operations on them for those of
the integers modulo 2^255 - 19, which is prime. Sums, differences and products come
out below 2^255 + 2^32; a difference needs what is taken away to be that small, which
all it is ever used on is. The last step finds the least residue.
-/

import Mathlib.Data.ZMod.Basic
import Mathlib.Tactic.LinearCombination
import Molewire.Library.PrimeCertificate
import Molewire.X25519

namespace Molewire

open PrimeCertificate

/-! ### The prime -/

/-- The order of the field. -/
def curvePrime : Nat := 2 ^ 255 - 19

/-- The primes that show it to be one. -/
def curvePrimeChain : List Row := [
  ⟨3, 2, 2, [2]⟩, ⟨5, 3, 2, [2, 2]⟩, ⟨7, 3, 3, [2, 3]⟩, ⟨11, 4, 2, [2, 5]⟩, ⟨13, 4, 2, [2, 2, 3]⟩,
  ⟨17, 5, 3, [2, 2, 2, 2]⟩, ⟨19, 5, 2, [2, 3, 3]⟩, ⟨23, 5, 5, [2, 11]⟩, ⟨29, 5, 2, [2, 2, 7]⟩,
  ⟨31, 5, 3, [2, 3, 5]⟩, ⟨37, 6, 2, [2, 2, 3, 3]⟩, ⟨41, 6, 6, [2, 2, 2, 5]⟩,
  ⟨43, 6, 3, [2, 3, 7]⟩, ⟨47, 6, 5, [2, 23]⟩, ⟨53, 6, 2, [2, 2, 13]⟩, ⟨59, 6, 2, [2, 29]⟩,
  ⟨83, 7, 2, [2, 41]⟩, ⟨97, 7, 5, [2, 2, 2, 2, 2, 3]⟩, ⟨103, 7, 5, [2, 3, 17]⟩,
  ⟨107, 7, 2, [2, 53]⟩, ⟨127, 7, 3, [2, 3, 3, 7]⟩, ⟨131, 8, 2, [2, 5, 13]⟩,
  ⟨173, 8, 2, [2, 2, 43]⟩, ⟨223, 8, 3, [2, 3, 37]⟩, ⟨239, 8, 7, [2, 7, 17]⟩,
  ⟨353, 9, 3, [2, 2, 2, 2, 2, 11]⟩, ⟨419, 9, 2, [2, 11, 19]⟩, ⟨479, 9, 13, [2, 239]⟩,
  ⟨487, 9, 3, [2, 3, 3, 3, 3, 3]⟩, ⟨991, 10, 6, [2, 3, 3, 5, 11]⟩, ⟨1723, 11, 3, [2, 3, 7, 41]⟩,
  ⟨2437, 12, 2, [2, 2, 3, 7, 29]⟩, ⟨3727, 12, 3, [2, 3, 3, 3, 3, 23]⟩,
  ⟨4153, 13, 5, [2, 2, 2, 3, 173]⟩, ⟨9463, 14, 3, [2, 3, 19, 83]⟩,
  ⟨32573, 15, 2, [2, 2, 17, 479]⟩, ⟨37853, 16, 2, [2, 2, 9463]⟩, ⟨57467, 16, 2, [2, 59, 487]⟩,
  ⟨65147, 16, 2, [2, 32573]⟩, ⟨75707, 17, 2, [2, 37853]⟩,
  ⟨132049, 18, 26, [2, 2, 2, 2, 3, 3, 7, 131]⟩, ⟨430751, 19, 17, [2, 5, 5, 5, 1723]⟩,
  ⟨569003, 20, 2, [2, 7, 97, 419]⟩, ⟨1923133, 21, 2, [2, 2, 3, 43, 3727]⟩,
  ⟨8574133, 24, 2, [2, 2, 3, 7, 103, 991]⟩, ⟨2773320623, 32, 5, [2, 2437, 569003]⟩,
  ⟨72106336199, 37, 7, [2, 13, 2773320623]⟩,
  ⟨1919519569386763, 51, 2, [2, 3, 7, 19, 47, 47, 127, 8574133]⟩,
  ⟨31757755568855353, 55, 10, [2, 2, 2, 3, 31, 107, 223, 4153, 430751]⟩,
  ⟨75445702479781427272750846543864801, 116, 7,
    [2, 2, 2, 2, 2, 3, 3, 5, 5, 75707, 72106336199, 1919519569386763]⟩,
  ⟨74058212732561358302231226437062788676166966415465897661863160754340907, 236, 2,
    [2, 3, 353, 57467, 132049, 1923133, 31757755568855353, 75445702479781427272750846543864801]⟩,
  ⟨curvePrime, 255, 2,
    [2, 2, 3, 65147, 74058212732561358302231226437062788676166966415465897661863160754340907]⟩]

theorem prime_curvePrime : Nat.Prime curvePrime := by
  have chain : Chain [2] curvePrimeChain := by decide +kernel
  have two : ∀ q ∈ [2], q.Prime := List.forall_mem_singleton.mpr Nat.prime_two
  exact chain.prime two ⟨curvePrime, 255, 2, _⟩ (List.mem_of_getLast? rfl)

instance fact_curvePrime : Fact curvePrime.Prime := ⟨prime_curvePrime⟩

/-! ### Limbs -/

/-- The number of the limbs, the lowest first. -/
def limbsVal : List UInt32 → Nat
  | [] => 0
  | x :: xs => x.toNat + 2 ^ 32 * limbsVal xs

/-- One limb more. -/
private theorem two_pow_limbs (n m : Nat) :
    2 ^ (32 * (n + 1)) * m = 2 ^ 32 * (2 ^ (32 * n) * m) := by
  rw [Nat.mul_succ, Nat.add_comm, Nat.pow_add, Nat.mul_assoc]

theorem limbsVal_lt (xs : List UInt32) : limbsVal xs < 2 ^ (32 * xs.length) := by
  induction xs with
  | nil => exact Nat.one_pos
  | cons x xs ih =>
    have hx := x.toNat_lt
    have more := two_pow_limbs xs.length 1
    rw [Nat.mul_one, Nat.mul_one] at more
    rw [limbsVal, List.length_cons, more]
    omega

theorem limbsVal_append (xs ys : List UInt32) :
    limbsVal (xs ++ ys) = limbsVal xs + 2 ^ (32 * xs.length) * limbsVal ys := by
  induction xs with
  | nil => simp [limbsVal]
  | cons x xs ih =>
    rw [List.cons_append, limbsVal, ih, limbsVal, List.length_cons, two_pow_limbs]
    omega

theorem limbsVal_replicate_zero (n : Nat) : limbsVal (List.replicate n 0) = 0 := by
  induction n with
  | zero => rfl
  | succ n ih =>
    rw [List.replicate_succ, limbsVal, ih]
    rfl

/-- The two words of a sum that fits in 64 bits. -/
private theorem words_toNat {total : UInt64} {n : Nat} (h : total.toNat = n) :
    total.toUInt32.toNat + 2 ^ 32 * (total >>> 32).toUInt32.toNat = n := by
  have limit := total.toNat_lt
  rw [UInt64.toNat_toUInt32, UInt64.toNat_toUInt32, UInt64.toNat_shiftRight]
  simp only [UInt64.reduceToNat, Nat.reduceMod, Nat.shiftRight_eq_div_pow]
  omega

theorem adc0_toNat (carry acc : UInt32) :
    (adc0 carry acc).1.toNat + 2 ^ 32 * (adc0 carry acc).2.toNat = carry.toNat + acc.toNat := by
  have hc := carry.toNat_lt
  have ha := acc.toNat_lt
  apply words_toNat
  rw [UInt64.toNat_add, UInt32.toNat_toUInt64, UInt32.toNat_toUInt64]
  exact Nat.mod_eq_of_lt (by omega)

theorem adc_toNat (carry acc mand : UInt32) :
    (adc carry acc mand).1.toNat + 2 ^ 32 * (adc carry acc mand).2.toNat =
      carry.toNat + acc.toNat + mand.toNat := by
  have hc := carry.toNat_lt
  have ha := acc.toNat_lt
  have hm := mand.toNat_lt
  apply words_toNat
  rw [UInt64.toNat_add, UInt64.toNat_add, UInt32.toNat_toUInt64, UInt32.toNat_toUInt64,
    UInt32.toNat_toUInt64, Nat.mod_eq_of_lt (show carry.toNat + acc.toNat < 2 ^ 64 by omega)]
  exact Nat.mod_eq_of_lt (by omega)

theorem umaal_toNat (carry acc mand mier : UInt32) :
    (umaal carry acc mand mier).1.toNat + 2 ^ 32 * (umaal carry acc mand mier).2.toNat =
      mand.toNat * mier.toNat + acc.toNat + carry.toNat := by
  have hc := carry.toNat_lt
  have ha := acc.toNat_lt
  have product : mand.toNat * mier.toNat ≤ (2 ^ 32 - 1) * (2 ^ 32 - 1) :=
    Nat.mul_le_mul (Nat.le_sub_one_of_lt mand.toNat_lt) (Nat.le_sub_one_of_lt mier.toNat_lt)
  apply words_toNat
  rw [UInt64.toNat_add, UInt64.toNat_add, UInt64.toNat_mul, UInt32.toNat_toUInt64,
    UInt32.toNat_toUInt64, UInt32.toNat_toUInt64, UInt32.toNat_toUInt64]
  generalize mand.toNat * mier.toNat = m at product ⊢
  omega

/-! ### Loops over the limbs -/

theorem adc0Loop_spec (carry : UInt32) (xs : List UInt32) :
    (adc0Loop carry xs).1.length = xs.length ∧
      limbsVal (adc0Loop carry xs).1 + 2 ^ (32 * xs.length) * (adc0Loop carry xs).2.toNat =
        limbsVal xs + carry.toNat := by
  induction xs generalizing carry with
  | nil => simp [adc0Loop, limbsVal]
  | cons x xs ih =>
    obtain ⟨length, value⟩ := ih (adc0 carry x).2
    have word := adc0_toNat carry x
    refine ⟨congrArg (· + 1) length, ?_⟩
    rw [adc0Loop]
    dsimp only
    rw [limbsVal, limbsVal, List.length_cons, two_pow_limbs]
    omega

theorem adcLoop_spec (carry : UInt32) (as bs : List UInt32) (h : as.length = bs.length) :
    (adcLoop carry as bs).1.length = as.length ∧
      limbsVal (adcLoop carry as bs).1 + 2 ^ (32 * as.length) * (adcLoop carry as bs).2.toNat =
        limbsVal as + limbsVal bs + carry.toNat := by
  induction as generalizing carry bs with
  | nil =>
    obtain rfl := List.length_eq_zero_iff.mp h.symm
    simp [adcLoop, limbsVal]
  | cons a as ih =>
    cases bs with
    | nil => cases h
    | cons b bs =>
      obtain ⟨length, value⟩ := ih (adc carry a b).2 bs (Nat.succ.inj h)
      have word := adc_toNat carry a b
      refine ⟨congrArg (· + 1) length, ?_⟩
      rw [adcLoop]
      dsimp only
      rw [limbsVal, limbsVal, limbsVal, List.length_cons, two_pow_limbs]
      omega

theorem umaalLoop_spec (mand carry : UInt32) (accs as : List UInt32)
    (h : accs.length = as.length) :
    (umaalLoop mand carry accs as).1.length = accs.length ∧
      limbsVal (umaalLoop mand carry accs as).1 +
          2 ^ (32 * accs.length) * (umaalLoop mand carry accs as).2.toNat =
        limbsVal accs + mand.toNat * limbsVal as + carry.toNat := by
  induction accs generalizing carry as with
  | nil =>
    obtain rfl := List.length_eq_zero_iff.mp h.symm
    simp [umaalLoop, limbsVal]
  | cons acc accs ih =>
    cases as with
    | nil => cases h
    | cons a as =>
      obtain ⟨length, value⟩ := ih (umaal carry acc mand a).2 as (Nat.succ.inj h)
      have word := umaal_toNat carry acc mand a
      refine ⟨congrArg (· + 1) length, ?_⟩
      rw [umaalLoop]
      dsimp only
      rw [limbsVal, limbsVal, limbsVal, List.length_cons, two_pow_limbs, Nat.mul_add,
        Nat.mul_left_comm mand.toNat]
      omega

theorem subLoop_spec (carry : Int) (as bs : List UInt32) (h : as.length = bs.length) :
    (subLoop carry as bs).1.length = as.length ∧
      (limbsVal (subLoop carry as bs).1 : Int) +
          (2 ^ (32 * as.length) : Nat) * (subLoop carry as bs).2 =
        limbsVal as - limbsVal bs + carry := by
  induction as generalizing carry bs with
  | nil =>
    obtain rfl := List.length_eq_zero_iff.mp h.symm
    simp [subLoop, limbsVal]
  | cons a as ih =>
    cases bs with
    | nil => cases h
    | cons b bs =>
      obtain ⟨length, value⟩ := ih ((carry + a.toNat - b.toNat) / 2 ^ 32) bs (Nat.succ.inj h)
      refine ⟨congrArg (· + 1) length, ?_⟩
      have word : ((UInt32.ofNat ((carry + a.toNat - b.toNat) % 2 ^ 32).toNat).toNat : Int) =
          (carry + a.toNat - b.toNat) % 2 ^ 32 := by
        rw [UInt32.toNat_ofNat']
        omega
      have more := two_pow_limbs as.length 1
      rw [Nat.mul_one, Nat.mul_one] at more
      rw [subLoop]
      dsimp only
      rw [limbsVal, limbsVal, limbsVal, List.length_cons, more, Nat.cast_add, word, Nat.cast_mul,
        Nat.cast_mul, mul_assoc]
      push_cast at value ⊢
      omega

/-! ### Folding -/

/-- The limbs, the top one apart. -/
private theorem limbsVal_top {x : Fe} (h : x.length = 8) :
    limbsVal x = limbsVal (x.take 7) + 2 ^ 224 * (x.getD 7 0).toNat := by
  have top : x.drop 7 = [x.getD 7 0] := by
    rw [List.drop_eq_getElem_cons (by omega), List.drop_eq_nil_iff.mpr (by omega),
      List.getD_eq_getElem?_getD, List.getElem?_eq_getElem (by omega), Option.getD_some]
  conv_lhs => rw [← List.take_append_drop 7 x]
  rw [limbsVal_append, List.length_take, h, top, limbsVal, limbsVal]
  rfl

/-- What stands above 2^255 comes back 19 times. -/
theorem propagate_spec {x : Fe} {overflow : UInt32} (h : x.length = 8)
    (small : overflow.toNat ≤ 38) :
    (propagate x overflow).length = 8 ∧
      limbsVal (propagate x overflow) =
        (limbsVal x + 2 ^ 256 * overflow.toNat) % 2 ^ 255 +
          19 * ((limbsVal x + 2 ^ 256 * overflow.toNat) / 2 ^ 255) := by
  have hlow : (x.take 7).length = 7 := by
    rw [List.length_take, h]
    rfl
  have low := limbsVal_lt (x.take 7)
  have top := (x.getD 7 0).toNat_lt
  have fold : (x.getD 7 0 >>> 31 ||| overflow <<< 1).toNat =
      (x.getD 7 0).toNat / 2 ^ 31 + 2 * overflow.toNat := by
    have bit : (x.getD 7 0).toNat / 2 ^ 31 < 2 ^ 1 := by omega
    rw [UInt32.toNat_or, UInt32.toNat_shiftRight, UInt32.toNat_shiftLeft]
    simp only [UInt32.reduceToNat, Nat.reduceMod, Nat.shiftRight_eq_div_pow, Nat.shiftLeft_eq]
    rw [Nat.mod_eq_of_lt (by omega), Nat.mul_comm overflow.toNat, Nat.or_comm,
      ← Nat.two_pow_add_eq_or_of_lt bit, Nat.add_comm]
  have rest : (x.getD 7 0 &&& 0x7fffffff).toNat = (x.getD 7 0).toNat % 2 ^ 31 :=
    Nat.and_two_pow_sub_one_eq_mod _ 31
  obtain ⟨length, value⟩ := adc0Loop_spec ((x.getD 7 0 >>> 31 ||| overflow <<< 1) * 19)
    (x.take 7 ++ [x.getD 7 0 &&& 0x7fffffff])
  rw [List.length_append, hlow] at length value
  rw [limbsVal_append, hlow, limbsVal, limbsVal, rest, UInt32.toNat_mul, fold] at value
  rw [hlow] at low
  refine ⟨length, ?_⟩
  rw [limbsVal_top h, propagate]
  generalize limbsVal (adc0Loop _ _).1 = out at value ⊢
  generalize (adc0Loop _ _).2.toNat = carry at value
  generalize limbsVal (x.take 7) = below at low value ⊢
  generalize (x.getD 7 0).toNat = word at top value ⊢
  have nineteen : (19 : UInt32).toNat = 19 := rfl
  rw [nineteen] at value
  have short : (word / 2 ^ 31 + 2 * overflow.toNat) * 19 ≤ 19 * 77 := by omega
  rw [Nat.mod_eq_of_lt (lt_of_le_of_lt short (by decide))] at value
  have high : (below + 2 ^ 224 * word + 2 ^ 256 * overflow.toNat) / 2 ^ 255 =
      word / 2 ^ 31 + 2 * overflow.toNat := by omega
  simp only [List.length_cons, List.length_nil, Nat.reduceAdd, Nat.reduceMul] at value
  have done : carry = 0 := by omega
  subst done
  omega

/-- Below 2^255 and a word more. -/
structure Fe.Reduced (x : Fe) : Prop where
  length : x.length = 8
  small : limbsVal x < 2 ^ 255 + 2 ^ 32

/-- The residue of the limbs. -/
def Fe.val (x : Fe) : ZMod curvePrime := limbsVal x

theorem two_pow_255 : (2 ^ 255 : ZMod curvePrime) = 19 := by
  have sum : curvePrime + 19 = 2 ^ 255 := rfl
  have cast := congrArg (Nat.cast (R := ZMod curvePrime)) sum
  rw [Nat.cast_add, ZMod.natCast_self, zero_add, Nat.cast_pow] at cast
  exact cast.symm

theorem propagate_reduced {x : Fe} {overflow : UInt32} (h : x.length = 8)
    (small : overflow.toNat ≤ 38) :
    Fe.Reduced (propagate x overflow) ∧
      (propagate x overflow).val = limbsVal x + 2 ^ 256 * overflow.toNat := by
  obtain ⟨length, value⟩ := propagate_spec h small
  have bound := limbsVal_lt x
  rw [h] at bound
  refine ⟨⟨length, by omega⟩, ?_⟩
  have whole := Nat.mod_add_div (limbsVal x + 2 ^ 256 * overflow.toNat) (2 ^ 255)
  generalize (limbsVal x + 2 ^ 256 * overflow.toNat) / 2 ^ 255 = high at value whole
  generalize (limbsVal x + 2 ^ 256 * overflow.toNat) % 2 ^ 255 = low at value whole
  rw [Fe.val, value]
  have cast := congrArg (Nat.cast (R := ZMod curvePrime)) whole
  rw [Nat.cast_add, Nat.cast_mul, Nat.cast_add, Nat.cast_mul, Nat.cast_pow, Nat.cast_pow] at cast
  rw [Nat.cast_add, Nat.cast_mul]
  linear_combination cast - (high : ZMod curvePrime) * two_pow_255

/-! ### Arithmetic -/

namespace Fe

theorem add_spec {a b : Fe} (ha : a.length = 8) (hb : b.length = 8) :
    Reduced (a.add b) ∧ (a.add b).val = a.val + b.val := by
  obtain ⟨length, value⟩ := adcLoop_spec 0 a b (ha.trans hb.symm)
  have low := limbsVal_lt a
  have high := limbsVal_lt b
  rw [ha] at length value low
  rw [hb] at high
  have zero : (0 : UInt32).toNat = 0 := rfl
  rw [zero, Nat.add_zero] at value
  obtain ⟨reduced, residue⟩ := propagate_reduced length
    (show (adcLoop 0 a b).2.toNat ≤ 38 by omega)
  refine ⟨reduced, ?_⟩
  have cast := congrArg (Nat.cast (R := ZMod curvePrime)) value
  rw [Nat.cast_add, Nat.cast_mul, Nat.cast_add, Nat.cast_pow] at cast
  exact residue.trans cast

/-- The difference is made positive by twice the prime. -/
theorem sub_spec {a b : Fe} (ha : a.length = 8) (hb : Reduced b) :
    Reduced (a.sub b) ∧ (a.sub b).val = a.val - b.val := by
  obtain ⟨length, value⟩ := subLoop_spec (-38) a b (ha.trans hb.length.symm)
  have low := limbsVal_lt a
  have bound := limbsVal_lt (subLoop (-38) a b).1
  have small := hb.small
  rw [ha] at length value low
  rw [length] at bound
  have borrow : ((UInt32.ofNat ((1 + (subLoop (-38) a b).2) % 2 ^ 32).toNat).toNat : Int) =
      1 + (subLoop (-38) a b).2 := by
    rw [UInt32.toNat_ofNat']
    omega
  obtain ⟨reduced, residue⟩ := propagate_reduced length
    (show (UInt32.ofNat ((1 + (subLoop (-38) a b).2) % 2 ^ 32).toNat).toNat ≤ 38 by omega)
  refine ⟨reduced, residue.trans ?_⟩
  generalize (UInt32.ofNat ((1 + (subLoop (-38) a b).2) % 2 ^ 32).toNat).toNat = top at borrow ⊢
  generalize (subLoop (-38) a b).2 = carry at value borrow
  generalize limbsVal (subLoop (-38) a b).1 = out at value ⊢
  have total : limbsVal b + (out + 2 ^ 256 * top) = limbsVal a + 2 * curvePrime := by
    have double : 2 * curvePrime = 2 ^ 256 - 38 := rfl
    omega
  have cast := congrArg (Nat.cast (R := ZMod curvePrime)) total
  rw [Nat.cast_add, Nat.cast_add, Nat.cast_mul, Nat.cast_add, Nat.cast_mul, Nat.cast_pow,
    ZMod.natCast_self, mul_zero, add_zero] at cast
  exact eq_sub_of_add_eq' cast

theorem mulRows_spec {a : Fe} (ha : a.length = 8) (bs : List UInt32) {window : List UInt32}
    (h : window.length = 8) :
    (mulRows a bs window).length = 8 + bs.length ∧
      limbsVal (mulRows a bs window) = limbsVal window + limbsVal a * limbsVal bs := by
  induction bs generalizing window with
  | nil => exact ⟨h, rfl⟩
  | cons mand bs ih =>
    obtain ⟨length, value⟩ := umaalLoop_spec mand 0 window a (h.trans ha.symm)
    rw [mulRows]
    generalize umaalLoop mand 0 window a = row at length value ⊢
    obtain ⟨row, carry⟩ := row
    dsimp only at length value ⊢
    cases row with
    | nil =>
      rw [h] at length
      cases length
    | cons low rest =>
      rw [h, List.length_cons] at length
      obtain ⟨length', value'⟩ := @ih (rest ++ [carry]) (by
        rw [List.length_append, List.length_singleton]
        omega)
      have seven : rest.length = 7 := by omega
      have zero : (0 : UInt32).toNat = 0 := rfl
      rw [limbsVal_append, seven, limbsVal, limbsVal] at value'
      rw [h, limbsVal, zero] at value
      refine ⟨?_, ?_⟩
      · rw [List.length_cons, length', List.length_cons]
        omega
      · dsimp only
        rw [limbsVal, value', limbsVal, Nat.mul_add (limbsVal a), Nat.mul_left_comm (limbsVal a),
          Nat.mul_comm (limbsVal a) mand.toNat]
        omega

theorem mul_spec {a : Fe} {b : List UInt32} (ha : a.length = 8) (hb : b.length ≤ 8) :
    Reduced (a.mul b) ∧ (a.mul b).val = a.val * val b := by
  obtain ⟨length, value⟩ := @mulRows_spec a ha b (List.replicate 8 0) List.length_replicate
  rw [limbsVal_replicate_zero, Nat.zero_add] at value
  generalize haccum : mulRows a b (List.replicate 8 0) ++ List.replicate (8 - b.length) 0 = accum
  have sixteen : accum.length = 16 := by
    rw [← haccum, List.length_append, length, List.length_replicate]
    omega
  have product : limbsVal accum = limbsVal a * limbsVal b := by
    rw [← haccum, limbsVal_append, limbsVal_replicate_zero, value, Nat.mul_zero, Nat.add_zero]
  have lower : (accum.take 8).length = 8 := by
    rw [List.length_take, sixteen]
    rfl
  have upper : (accum.drop 8).length = 8 := by rw [List.length_drop, sixteen]
  have split : limbsVal (accum.take 8) + 2 ^ 256 * limbsVal (accum.drop 8) = limbsVal accum := by
    conv_rhs => rw [← List.take_append_drop 8 accum, limbsVal_append, lower]
  have low := limbsVal_lt (accum.take 8)
  have high := limbsVal_lt (accum.drop 8)
  obtain ⟨length', folded⟩ := umaalLoop_spec 38 0 _ _ (lower.trans upper.symm)
  have factor : (38 : UInt32).toNat = 38 := rfl
  have zero : (0 : UInt32).toNat = 0 := rfl
  rw [lower] at length' folded low
  rw [upper] at high
  rw [factor, zero, Nat.add_zero] at folded
  rw [mul, haccum]
  obtain ⟨reduced, residue⟩ := propagate_reduced length'
    (show (umaalLoop 38 0 (accum.take 8) (accum.drop 8)).2.toNat ≤ 38 by omega)
  refine ⟨reduced, residue.trans ?_⟩
  have cast := congrArg (Nat.cast (R := ZMod curvePrime)) folded
  have whole := congrArg (Nat.cast (R := ZMod curvePrime)) (split.trans product)
  rw [Nat.cast_add, Nat.cast_mul, Nat.cast_add, Nat.cast_mul, Nat.cast_pow] at cast
  rw [Nat.cast_add, Nat.cast_mul, Nat.cast_mul, Nat.cast_pow] at whole
  rw [val, val]
  linear_combination cast + whole -
    2 * (limbsVal (accum.drop 8) : ZMod curvePrime) * two_pow_255

/-- The or of the limbs is zero where all of them are. -/
private theorem foldl_or_limbs (acc : UInt32) (x : List UInt32) :
    x.foldl (· ||| ·) acc = 0 ↔ acc = 0 ∧ limbsVal x = 0 := by
  induction x generalizing acc with
  | nil => simp [limbsVal]
  | cons a x ih =>
    rw [List.foldl_cons, ih, UInt32.or_eq_zero_iff, limbsVal, Nat.add_eq_zero_iff, and_assoc]
    simp [← UInt32.toNat_inj]

/-- Nineteen is added, so that what reaches the prime passes 2^255 and is folded, and taken away
again. -/
theorem canon_spec {x : Fe} (h : Reduced x) :
    x.canon.1.length = 8 ∧ limbsVal x.canon.1 = x.val.val ∧ x.canon.2 = (x.val == 0) := by
  obtain ⟨length, value⟩ := adc0Loop_spec 19 x
  have small := h.small
  have nineteen : (19 : UInt32).toNat = 19 := rfl
  rw [h.length] at length value
  rw [nineteen] at value
  obtain ⟨length', folded⟩ := propagate_spec length
    (show (adc0Loop 19 x).2.toNat ≤ 38 by omega)
  rw [value] at folded
  obtain ⟨length'', result⟩ := subLoop_spec (-19)
    (propagate (adc0Loop 19 x).1 (adc0Loop 19 x).2) (List.replicate 8 0)
    (length'.trans List.length_replicate.symm)
  have bound := limbsVal_lt (subLoop (-19) (propagate (adc0Loop 19 x).1 (adc0Loop 19 x).2)
    (List.replicate 8 0)).1
  rw [length'] at length'' result
  rw [length''] at bound
  rw [limbsVal_replicate_zero] at result
  have least : limbsVal x.canon.1 = limbsVal x % curvePrime := by
    show limbsVal (subLoop (-19) (propagate (adc0Loop 19 x).1 (adc0Loop 19 x).2)
      (List.replicate 8 0)).1 = _
    have prime : curvePrime = 2 ^ 255 - 19 := rfl
    rcases Nat.lt_or_ge (limbsVal x) curvePrime with below | above
    · rw [Nat.mod_eq_of_lt below]
      have quotient : (limbsVal x + 19) / 2 ^ 255 = 0 := by omega
      omega
    · have quotient : (limbsVal x + 19) / 2 ^ 255 = 1 := by omega
      rw [Nat.mod_eq_sub_mod above, Nat.mod_eq_of_lt (by omega)]
      omega
  have residue : x.val.val = limbsVal x % curvePrime := ZMod.val_natCast _ _
  refine ⟨length'', least.trans residue.symm, ?_⟩
  rw [Bool.eq_iff_iff, beq_iff_eq, ← ZMod.val_eq_zero, residue, ← least]
  rw [canon]
  dsimp only
  rw [beq_iff_eq, foldl_or_limbs]
  exact and_iff_right rfl

end Fe

end Molewire
