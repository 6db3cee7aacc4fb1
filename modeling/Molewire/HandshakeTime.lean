/-
# Handshake timestamps

The TAI64N clock of `wg.c`, built from a boot counter in flash and from the
milliseconds since boot. A timestamp is ordered by its boot window first and by
the millisecond clock inside it. Both are 32 bits wide, so the timestamps of a
boot go back when the millisecond clock wraps after 2^32 ms of uptime, and those
of different boots when the counter does.
-/

import Molewire.Library.BigEndian

namespace Molewire

open BigEndian

/-! ### The boot counter -/

/-- `BOOTCOUNT_MAGIC`. -/
def bootcountMagic : UInt32 := 0x43424757

/-- The two words at `BOOTCOUNT_FLASH_OFFSET`. -/
structure BootRecord where
  magic : UInt32
  count : UInt32

/-- `bootcount_flash_write`. -/
def bootcountFlashWrite (bootCount : UInt32) : BootRecord := ⟨bootcountMagic, bootCount⟩

/-- `wg_time_init`, given whether the flash write runs: the counter of this boot and the record
the next boot finds. -/
def wgTimeInit (rec : BootRecord) (written : Bool) : UInt32 × BootRecord :=
  let bootCount := if rec.magic = bootcountMagic then rec.count + 1 else 1
  (bootCount, if written then bootcountFlashWrite bootCount else rec)

/-- The record in flash before boot number `k`, when every write succeeded. -/
def recordBefore (rec : BootRecord) : Nat → BootRecord
  | 0 => rec
  | k + 1 => (wgTimeInit (recordBefore rec k) true).2

/-- `boot_count` during boot number `k`. -/
def bootCountAt (rec : BootRecord) (k : Nat) : UInt32 := (wgTimeInit (recordBefore rec k) true).1

/-! ### The clock -/

/-- `wireguard_sys_now`: the 64-bit microsecond timer in milliseconds, cut to 32 bits. -/
def wireguardSysNow (us : Nat) : UInt32 := UInt32.ofNat (us % 2 ^ 64 / 1000)

/-- `wireguard_tai64n_now`. -/
def wireguardTai64nNow (bootCount sysNow : UInt32) : List UInt8 :=
  let millis : UInt64 := sysNow.toUInt64
  let window : UInt64 := bootCount.toUInt64 <<< 25
  let seconds : UInt64 := 0x400000000000000a + window + millis / 1000
  let nanos : UInt32 := (millis % 1000).toUInt32 * 1000000
  (List.range 8).map (fun i => (seconds >>> (56 - 8 * i).toUInt64).toUInt8) ++
    (List.range 4).map (fun i => (nanos >>> (24 - 8 * i).toUInt32).toUInt8)

/-! ### A timestamp as two fields -/

theorem map_range_eight (x : UInt64) :
    (List.range 8).map (fun i => (x >>> (56 - 8 * i).toUInt64).toUInt8) = beBytes 8 x.toNat := by
  simp only [List.range_succ, List.range_zero, List.map_append, beBytes]
  simp [← UInt8.toNat_inj, Nat.shiftRight_eq_div_pow]

theorem map_range_four (x : UInt32) :
    (List.range 4).map (fun i => (x >>> (24 - 8 * i).toUInt32).toUInt8) = beBytes 4 x.toNat := by
  simp only [List.range_succ, List.range_zero, List.map_append, beBytes]
  simp [← UInt8.toNat_inj, Nat.shiftRight_eq_div_pow]

/-- Neither the seconds nor the nanoseconds overflow, so a timestamp is two big-endian numbers. -/
theorem wireguardTai64nNow_eq (bootCount sysNow : UInt32) :
    wireguardTai64nNow bootCount sysNow =
      beBytes 8 (0x400000000000000a + bootCount.toNat * 2 ^ 25 + sysNow.toNat / 1000) ++
        beBytes 4 (sysNow.toNat % 1000 * 1000000) := by
  have hboot := bootCount.toNat_lt
  have hnow := sysNow.toNat_lt
  -- 57 bits are enough for the window, and 64 for its sum with the base
  have hwindow : (bootCount.toUInt64 <<< (25 : UInt64)).toNat = bootCount.toNat * 2 ^ 25 := by
    rw [UInt64.toNat_shiftLeft, Nat.shiftLeft_eq]
    simp
    omega
  have hseconds : ((0x400000000000000a : UInt64) + bootCount.toUInt64 <<< (25 : UInt64) +
      sysNow.toUInt64 / 1000).toNat =
      0x400000000000000a + bootCount.toNat * 2 ^ 25 + sysNow.toNat / 1000 := by
    rw [UInt64.toNat_add, UInt64.toNat_add, hwindow]
    simp
    omega
  -- a thousand millions fit 32 bits
  have hnanos : ((sysNow.toUInt64 % 1000).toUInt32 * 1000000).toNat =
      sysNow.toNat % 1000 * 1000000 := by
    rw [UInt32.toNat_mul]
    simp
    omega
  rw [wireguardTai64nNow, map_range_eight, map_range_four, hseconds, hnanos]

/-- 2^32 ms are fewer seconds than the 2^25 of a window, so a carry never reaches the counter. -/
private theorem window_lt_iff {c c' n n' : Nat} (hn : n < 2 ^ 32) (hn' : n' < 2 ^ 32) :
    c * 2 ^ 25 + n / 1000 < c' * 2 ^ 25 + n' / 1000 ∨
        c * 2 ^ 25 + n / 1000 = c' * 2 ^ 25 + n' / 1000 ∧
          n % 1000 * 1000000 < n' % 1000 * 1000000 ↔
      c < c' ∨ c = c' ∧ n < n' := by
  rcases Nat.lt_trichotomy c c' with h | rfl | h <;> omega

/-- The counter of a boot decides, then the millisecond clock. -/
theorem wireguardTai64nNow_lt_iff {c c' n n' : UInt32} :
    wireguardTai64nNow c n < wireguardTai64nNow c' n' ↔ c < c' ∨ c = c' ∧ n < n' := by
  have seconds (c n : UInt32) : (0x400000000000000a + c.toNat * 2 ^ 25 + n.toNat / 1000) % 256 ^ 8 =
      0x400000000000000a + (c.toNat * 2 ^ 25 + n.toNat / 1000) := by
    have hc := c.toNat_lt
    have hn := n.toNat_lt
    rw [Nat.mod_eq_of_lt (by omega), Nat.add_assoc]
  have nanos (n : UInt32) : n.toNat % 1000 * 1000000 % 256 ^ 4 = n.toNat % 1000 * 1000000 :=
    Nat.mod_eq_of_lt (by omega)
  -- both fields have their full width, so the bytes compare as the pairs of numbers do
  rw [wireguardTai64nNow_eq, wireguardTai64nNow_eq,
    append_lt_append_iff (by rw [beBytes_length, beBytes_length]), beBytes_inj, beBytes_lt_iff,
    beBytes_lt_iff, seconds, seconds, nanos, nanos, Nat.add_lt_add_iff_left,
    Nat.add_left_cancel_iff, window_lt_iff n.toNat_lt n'.toNat_lt, UInt32.lt_iff_toNat_lt,
    UInt32.lt_iff_toNat_lt, ← UInt32.toNat_inj]

/-! ### The counter over the boots -/

/-- The counter of the first boot. -/
def firstCount (rec : BootRecord) : UInt32 := bootCountAt rec 0

theorem recordBefore_succ (rec : BootRecord) (k : Nat) :
    recordBefore rec (k + 1) = ⟨bootcountMagic, bootCountAt rec k⟩ := rfl

/-- Each boot counts on from the record of the one before. -/
theorem bootCountAt_succ (rec : BootRecord) (k : Nat) :
    bootCountAt rec (k + 1) = bootCountAt rec k + 1 := by
  rw [bootCountAt, recordBefore_succ]
  rfl

theorem bootCountAt_toNat (rec : BootRecord) (k : Nat) :
    (bootCountAt rec k).toNat = ((firstCount rec).toNat + k) % 2 ^ 32 := by
  induction k with
  | zero => exact (Nat.mod_eq_of_lt (firstCount rec).toNat_lt).symm
  | succ k ih =>
    rw [bootCountAt_succ, UInt32.toNat_add, ih]
    simp
    omega

/-! ### Calls of the handshake -/

/-- A call of `wireguard_tai64n_now`: the boot it is in and the microseconds since that boot. -/
structure Stamp where
  boot : Nat
  us : Nat

namespace Stamp

/-- The second call is in a later boot, or a millisecond or more later in the same one. -/
def Precedes (a b : Stamp) : Prop := a.boot < b.boot ∨ a.boot = b.boot ∧ a.us + 1000 ≤ b.us

/-- The twelve bytes the call writes. -/
def output (rec : BootRecord) (a : Stamp) : List UInt8 :=
  wireguardTai64nNow (bootCountAt rec a.boot) (wireguardSysNow a.us)

/-- The number of the boot's window, as far as 32 bits count. -/
def window (rec : BootRecord) (a : Stamp) : Nat := ((firstCount rec).toNat + a.boot) % 2 ^ 32

/-- The uptime in milliseconds, as far as the timer and 32 bits count. -/
def millis (a : Stamp) : Nat := a.us % 2 ^ 64 / 1000 % 2 ^ 32

theorem output_lt_iff (rec : BootRecord) (a b : Stamp) :
    a.output rec < b.output rec ↔
      a.window rec < b.window rec ∨ a.window rec = b.window rec ∧ a.millis < b.millis := by
  have now (a : Stamp) : (wireguardSysNow a.us).toNat = a.millis := UInt32.toNat_ofNat'
  rw [output, output, wireguardTai64nNow_lt_iff, UInt32.lt_iff_toNat_lt, UInt32.lt_iff_toNat_lt,
    ← UInt32.toNat_inj, bootCountAt_toNat, bootCountAt_toNat, now, now]
  rfl

/-- Of two calls in order, the timestamps are in order exactly when, in one boot, the millisecond
clock has not come round between them, and in different boots, the counter has not. -/
theorem output_increases_iff {a b : Stamp} (rec : BootRecord) (h : a.Precedes b) :
    a.output rec < b.output rec ↔
      a.boot = b.boot ∧ a.millis < b.millis ∨
        a.boot < b.boot ∧ (a.window rec < b.window rec ∨
          a.window rec = b.window rec ∧ a.millis < b.millis) := by
  rw [output_lt_iff]
  -- in one boot the windows are the same; in different ones the clock starts over
  rcases h with later | ⟨same, _⟩
  · have other : a.boot ≠ b.boot := Nat.ne_of_lt later
    simp only [later, other, true_and, false_and, false_or]
  · have windows : a.window rec = b.window rec := by rw [window, window, same]
    simp only [same, windows, Nat.lt_irrefl, true_and, false_and, false_or, or_false]

theorem output_increases_one_ms :
    output ⟨0, 0⟩ ⟨0, 0⟩ < output ⟨0, 0⟩ ⟨0, 1000⟩ := by
  have later : Precedes ⟨0, 0⟩ ⟨0, 1000⟩ := .inr ⟨rfl, by decide⟩
  exact (output_increases_iff ⟨0, 0⟩ later).mpr (.inl ⟨rfl, by decide⟩)

/-- After 49.7 days of uptime the next timestamp is below the one a second before. -/
theorem output_not_increasing :
    ¬ ∀ (rec : BootRecord) (a b : Stamp), a.Precedes b → a.output rec < b.output rec := by
  intro increases
  -- the first second after the wrap, against the last one before it
  have h := increases ⟨0xFFFFFFFF, 0xFFFFFFFF⟩ ⟨0, 4294967295000⟩ ⟨0, 4294968295000⟩
    (.inr ⟨rfl, by decide⟩)
  rw [output_lt_iff] at h
  exact absurd h (by decide)

end Stamp

end Molewire
