/-
# The boot counter and power loss

Every boot reads the counter, adds one and writes it back by erasing the sector
and programming it. A boot that loses its power on the way leaves the sector
old, erased or new. An erased sector is taken for one that was never written,
so the next boot counts from one again.
-/

import Molewire.HandshakeTime
import Molewire.Library.Transition

namespace Molewire

open Transition

/-! ### Boots -/

/-- The sector as an erase leaves it. -/
def erasedRecord : BootRecord := ⟨0xFFFFFFFF, 0xFFFFFFFF⟩

/-- Where the power may go during `bootcount_flash_write`. -/
inductive PowerLoss
  | beforeErase
  | betweenEraseAndProgram
  | afterProgram
  deriving DecidableEq

/-- What the next boot then finds. -/
def PowerLoss.sector (rec : BootRecord) : PowerLoss → BootRecord
  | .beforeErase => rec
  | .betweenEraseAndProgram => erasedRecord
  | .afterProgram => (wgTimeInit rec true).2

/-- How a boot ends `wg_time_init`: it goes on, with the write run or refused by
`flash_safe_execute`, or its power is lost during the write. -/
inductive Boot
  | goesOn (written : Bool)
  | ends (p : PowerLoss)
  deriving DecidableEq

/-- The sector, and the `boot_count` of every boot that went on and may have created handshakes,
the latest first. -/
structure BootHistory where
  sector : BootRecord
  counts : List UInt32 := []

namespace BootHistory

/-- One boot more. -/
def step (s : BootHistory) : Boot → BootHistory
  | .goesOn written =>
    ⟨(wgTimeInit s.sector written).2, (wgTimeInit s.sector written).1 :: s.counts⟩
  | .ends p => { s with sector := p.sector s.sector }

/-- The boots that do no harm. Once a boot has gone on, none may lose its power on the erased
sector and the counter must have a next value; and the write is run. -/
def Harmless (s : BootHistory) (b : Boot) : Prop :=
  (s.counts ≠ [] → b ≠ .ends .betweenEraseAndProgram ∧
    (s.sector.magic = bootcountMagic → s.sector.count.toNat + 1 < 2 ^ 32)) ∧
    b ≠ .goesOn false

instance (s : BootHistory) (b : Boot) : Decidable (s.Harmless b) :=
  inferInstanceAs (Decidable (_ ∧ _))

/-- Some boots from a sector with any content. -/
def Reached : BootHistory → Prop := Reach (fun s => s.counts = []) Harmless step

/-- As soon as a boot has gone on, the sector holds a count that no boot has exceeded. -/
structure Recorded (s : BootHistory) : Prop where
  increasing : s.counts.Pairwise (· > ·)
  magic : s.counts ≠ [] → s.sector.magic = bootcountMagic
  le : ∀ c ∈ s.counts, c ≤ s.sector.count

/-- With a record that has a next value, the counter is that value. -/
theorem wgTimeInit_count {rec : BootRecord} (hmagic : rec.magic = bootcountMagic)
    (hroom : rec.count.toNat + 1 < 2 ^ 32) (written : Bool) :
    (wgTimeInit rec written).1.toNat = rec.count.toNat + 1 := by
  rw [wgTimeInit]
  dsimp only
  rw [if_pos hmagic, UInt32.toNat_add]
  exact Nat.mod_eq_of_lt hroom

theorem Recorded.step {s : BootHistory} (h : s.Recorded) {b : Boot} (hb : s.Harmless b) :
    (s.step b).Recorded := by
  obtain ⟨hsafe, hwritten⟩ := hb
  -- the count of this boot is above all before it
  have habove : ∀ c ∈ s.counts, c < (wgTimeInit s.sector true).1 := by
    intro c hc
    have hne : s.counts ≠ [] := List.ne_nil_of_mem hc
    have hcount := wgTimeInit_count (h.magic hne) ((hsafe hne).2 (h.magic hne)) true
    have hle := UInt32.le_iff_toNat_le.mp (h.le c hc)
    rw [UInt32.lt_iff_toNat_lt]
    omega
  cases b with
  | goesOn written =>
    obtain rfl : written = true := by
      cases written with
      | false => exact absurd rfl hwritten
      | true => rfl
    refine ⟨List.pairwise_cons.mpr ⟨habove, h.increasing⟩, fun _ => rfl, fun c hc => ?_⟩
    rcases List.mem_cons.mp hc with rfl | hc
    · exact UInt32.le_refl _
    · exact UInt32.le_of_lt (habove c hc)
  | ends p =>
    refine ⟨h.increasing, fun hne => ?_, fun c hc => ?_⟩
    · cases p with
      | beforeErase => exact h.magic hne
      | betweenEraseAndProgram => exact absurd rfl (hsafe hne).1
      | afterProgram => rfl
    · have hne : s.counts ≠ [] := List.ne_nil_of_mem hc
      cases p with
      | beforeErase => exact h.le c hc
      | betweenEraseAndProgram => exact absurd rfl (hsafe hne).1
      | afterProgram => exact UInt32.le_of_lt (habove c hc)

/-- **The boot counter grows.** Through any harmless boots, each boot that went on used a count
above that of every boot that went on before it. -/
theorem counts_increase {s : BootHistory} (h : s.Reached) : s.counts.Pairwise (· > ·) := by
  have hrec : s.Recorded := h.invariant
    (fun s hs => ⟨by rw [hs]; exact .nil, fun hne => absurd hs hne, fun c hc => by
      rw [hs] at hc
      exact absurd hc List.not_mem_nil⟩)
    fun _ _ _ hb hs => hs.step hb
  exact hrec.increasing

/-- A boot that goes on, two that lose their power before the erase and behind the program, and
another that goes on. -/
theorem counts_increase_two :
    ([Boot.goesOn true, .ends .beforeErase, .ends .afterProgram, .goesOn true].foldl step
      ⟨erasedRecord, []⟩).counts.Pairwise (· > ·) := by
  have hstart : Reached ⟨erasedRecord, []⟩ := .start rfl
  exact counts_increase (hstart.foldl (by decide))

/-- After the erase alone the next boot counts from one: no earlier count is below it. -/
theorem interrupted_restarts (s : BootHistory) (written : Bool) {c : UInt32} (hc : c ∈ s.counts)
    (h1 : 1 ≤ c) :
    ¬((s.step (.ends .betweenEraseAndProgram)).step (.goesOn written)).counts.Pairwise
      (· > ·) := by
  intro hpair
  have hlt : c < (wgTimeInit erasedRecord written).1 := (List.pairwise_cons.mp hpair).1 c hc
  rw [show (wgTimeInit erasedRecord written).1 = 1 by cases written <;> rfl] at hlt
  exact absurd hlt (UInt32.not_lt.mpr h1)

/-- A second boot loses its power on the erased sector, and the third has the count of the
first. -/
theorem counts_restart :
    ¬([Boot.goesOn true, .ends .betweenEraseAndProgram, .goesOn true].foldl step
      ⟨erasedRecord, []⟩).counts.Pairwise (· > ·) := by
  decide

end BootHistory

end Molewire
