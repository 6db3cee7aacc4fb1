/-
# Sixteen-bit one's-complement sums

The internet checksum adds big-endian 16-bit words with end-around carry and
stores the complement. Up to the two spellings of zero this is arithmetic
modulo `65535`: folding the carries keeps the residue, a sum verifies when it
is a positive multiple of `65535`, and replacing words while correcting the
checksum incrementally keeps the residue of the whole.
-/

import Mathlib.Data.Nat.ModEq
import Mathlib.Tactic.Ring

namespace OnesComplement

/-- Fold the carries back in until the sum fits sixteen bits. -/
def carryFold (sum : Nat) : Nat :=
  if sum / 65536 = 0 then sum else carryFold (sum % 65536 + sum / 65536)
termination_by sum
decreasing_by omega

theorem carryFold_lt (sum : Nat) : carryFold sum < 65536 := by
  induction sum using carryFold.induct with
  | case1 sum h =>
    rw [carryFold, if_pos h]
    omega
  | case2 sum h ih =>
    rw [carryFold, if_neg h]
    exact ih

theorem carryFold_modEq (sum : Nat) : carryFold sum ≡ sum [MOD 65535] := by
  induction sum using carryFold.induct with
  | case1 sum h => rw [carryFold, if_pos h]
  | case2 sum h ih =>
    rw [carryFold, if_neg h]
    -- 65536 is 1 modulo 65535, so the carries count where they are folded in
    have hsplit : sum = 65535 * (sum / 65536) + (sum % 65536 + sum / 65536) := by omega
    refine ih.trans (Nat.ModEq.symm ?_)
    conv_lhs => rw [hsplit]
    simp [Nat.ModEq]

theorem carryFold_eq_zero_iff (sum : Nat) : carryFold sum = 0 ↔ sum = 0 := by
  induction sum using carryFold.induct with
  | case1 sum h => rw [carryFold, if_pos h]
  | case2 sum h ih =>
    rw [carryFold, if_neg h, ih]
    omega

/-- The checksum a sender stores for a sum. -/
def finish (sum : Nat) : Nat := 65535 - carryFold sum

theorem finish_lt (sum : Nat) : finish sum < 65536 := by
  unfold finish
  omega

/-- A sum verifies exactly when it is a positive multiple of `65535`. -/
theorem finish_eq_zero_iff (sum : Nat) : finish sum = 0 ↔ 0 < sum ∧ sum ≡ 0 [MOD 65535] := by
  have hlt := carryFold_lt sum
  have hmod : carryFold sum % 65535 = sum % 65535 := carryFold_modEq sum
  have hzero := carryFold_eq_zero_iff sum
  simp only [finish, Nat.ModEq, Nat.zero_mod]
  omega

/-- Storing the complement makes the whole a multiple of `65535`. -/
theorem add_finish_modEq (sum : Nat) : sum + finish sum ≡ 0 [MOD 65535] := by
  have hlt := carryFold_lt sum
  have hmod : carryFold sum % 65535 = sum % 65535 := carryFold_modEq sum
  simp only [finish, Nat.ModEq, Nat.zero_mod]
  omega

/-- A freshly stored checksum verifies, whatever the sum. -/
theorem finish_add_finish (sum : Nat) : finish (sum + finish sum) = 0 := by
  rw [finish_eq_zero_iff]
  refine ⟨?_, add_finish_modEq sum⟩
  have hzero := carryFold_eq_zero_iff sum
  unfold finish
  omega

/-- The all-ones spelling of a zero checksum verifies as well. -/
theorem finish_add_ones {sum : Nat} (h : finish sum = 0) : finish (sum + 65535) = 0 := by
  rw [finish_eq_zero_iff] at h ⊢
  simp only [Nat.ModEq, Nat.zero_mod] at h ⊢
  omega

/-- Complementing the old words, adding the new ones and complementing the
folded result corrects a checksum for the replacement of the words. -/
theorem adjust_modEq (csum old new sum : Nat) (hsum : sum + csum + old ≡ new [MOD 65535]) :
    finish sum + new ≡ csum + old [MOD 65535] := by
  have hfin : sum + finish sum ≡ 0 [MOD 65535] := add_finish_modEq sum
  have hleft : sum + (finish sum + new) ≡ new [MOD 65535] := by
    simpa [add_assoc] using hfin.add_right new
  have hright : sum + (csum + old) ≡ new [MOD 65535] := by simpa [add_assoc] using hsum
  exact Nat.ModEq.add_left_cancel' sum (hleft.trans hright.symm)

/-- The big-endian word of two bytes. -/
def word (hi lo : UInt8) : Nat := hi.toNat * 256 + lo.toNat

theorem word_lt (hi lo : UInt8) : word hi lo < 65536 := by
  have := hi.toNat_lt
  have := lo.toNat_lt
  unfold word
  omega

theorem word_eq_zero_iff (hi lo : UInt8) : word hi lo = 0 ↔ hi = 0 ∧ lo = 0 := by
  simp only [word, ← UInt8.toNat_inj, UInt8.toNat_zero]
  omega

/-- Swapping the bytes of a word multiplies it by 256, modulo 65535. -/
theorem word_swap_modEq (hi lo : UInt8) : word lo hi ≡ 256 * word hi lo [MOD 65535] := by
  have hturn : 256 * word hi lo = 65535 * hi.toNat + word lo hi := by
    unfold word
    omega
  rw [Nat.ModEq, hturn, Nat.mul_add_mod]

/-- The high and the low byte of a word. -/
def bytes (w : Nat) : List UInt8 := [(w / 256).toUInt8, w.toUInt8]

theorem word_bytes {w : Nat} (h : w < 65536) :
    word (w / 256).toUInt8 w.toUInt8 = w := by
  have hhi : w / 256 % 256 = w / 256 := Nat.mod_eq_of_lt (by omega)
  simp only [word, Nat.toUInt8_eq, UInt8.toNat_ofNat', hhi]
  omega

/-- The sum of the words of a byte string; an odd last byte is a high byte. -/
def wordSum : List UInt8 → Nat
  | [] => 0
  | [x] => x.toNat * 256
  | x :: y :: rest => word x y + wordSum rest

@[simp] theorem wordSum_nil : wordSum [] = 0 := rfl

@[simp] theorem wordSum_pair (x y : UInt8) : wordSum [x, y] = word x y := by
  simp [wordSum]

/-- Sums add over a split at a word boundary. -/
theorem wordSum_append (xs ys : List UInt8) (h : xs.length % 2 = 0) :
    wordSum (xs ++ ys) = wordSum xs + wordSum ys := by
  induction xs using wordSum.induct with
  | case1 => simp
  | case2 x => simp at h
  | case3 x y rest ih =>
    have hrest : rest.length % 2 = 0 := by simp at h; omega
    simp only [List.cons_append, wordSum, ih hrest]
    ring

end OnesComplement
