/-
# A 32-bit millisecond clock

Code that keeps time in 32 bits sees the real time modulo a turn of the clock.
Differences of two readings are exact within a turn. Deadlines that are computed
once and compared later are not: the comparison agrees with real time only
where no turn begins between the reading and the deadline.
-/

import Mathlib.Logic.Basic

namespace Clock32

/-- One turn of the clock, in milliseconds. -/
def turn : Nat := 4294967296

theorem toNat_ofNat (t : Nat) : (UInt32.ofNat t).toNat = t % turn :=
  UInt32.toNat_ofNat'

/-- The age that a difference of readings gives. -/
theorem toNat_sub {s t : Nat} (hst : s ≤ t) :
    (UInt32.ofNat t - UInt32.ofNat s).toNat = (t - s) % turn := by
  simp only [UInt32.toNat_sub, UInt32.toNat_ofNat', turn]
  omega

theorem ofNat_eq_zero {t : Nat} : UInt32.ofNat t = 0 ↔ t % turn = 0 := by
  rw [← UInt32.toNat_inj, toNat_ofNat]
  exact Iff.rfl

theorem ofNat_le_ofNat {s t : Nat} : UInt32.ofNat s ≤ UInt32.ofNat t ↔ s % turn ≤ t % turn := by
  rw [UInt32.le_iff_toNat_le, toNat_ofNat, toNat_ofNat]

/-- A stored deadline has come, where zero stores that there is none. -/
def due (deadline now : UInt32) : Bool := deadline != 0 && decide (deadline ≤ now)

theorem due_ofNat {deadline t : Nat} :
    due (UInt32.ofNat deadline) (UInt32.ofNat t) ↔
      deadline % turn ≠ 0 ∧ deadline % turn ≤ t % turn := by
  simp only [due, Bool.and_eq_true, bne_iff_ne, decide_eq_true_eq, ne_eq, ofNat_eq_zero,
    ofNat_le_ofNat]

/-- At `t` the clock stands to the deadline as the time does. Before the deadline, they are in one
turn, or the deadline is stored as none at all; from the deadline on, it is stored, and the clock
does not show less than it. -/
def Agrees (deadline t : Nat) : Prop :=
  (t < deadline → t / turn = deadline / turn ∨ deadline % turn = 0) ∧
    (deadline ≤ t → deadline % turn ≠ 0 ∧ deadline % turn ≤ t % turn)

instance (deadline t : Nat) : Decidable (Agrees deadline t) :=
  inferInstanceAs (Decidable ((t < deadline → _) ∧ (deadline ≤ t → _)))

/-- Where it does, and only there, the comparison is right, for deadlines less than a turn away. -/
theorem due_iff_le_iff {deadline t : Nat} (hnear : deadline < t + turn) :
    (due (UInt32.ofNat deadline) (UInt32.ofNat t) ↔ deadline ≤ t) ↔ Agrees deadline t := by
  rw [due_ofNat, Agrees]
  have hd := Nat.div_add_mod deadline turn
  have ht := Nat.div_add_mod t turn
  have hdlt := Nat.mod_lt deadline (show turn > 0 by decide)
  have htlt := Nat.mod_lt t (show turn > 0 by decide)
  simp only [turn] at *
  rcases Nat.lt_or_ge t deadline with hlt | hle
  · omega
  · omega

/-- In the first turn they agree about every deadline in it but zero. -/
theorem agrees_of_lt {deadline t : Nat} (hpos : 0 < deadline) (hd : deadline < turn)
    (ht : t < turn) : Agrees deadline t := by
  rw [Agrees, Nat.div_eq_of_lt hd, Nat.div_eq_of_lt ht, Nat.mod_eq_of_lt hd, Nat.mod_eq_of_lt ht]
  exact ⟨fun _ => .inl rfl, fun hle => ⟨by omega, hle⟩⟩

end Clock32
