/-
# The scheduled replug

After the subnet of the USB link changes, the host has to drop its lease. A
replug is scheduled for that, which every further change postpones, and the main
loop carries it out: a disconnect when the delay has passed, a connect shortly
after. The deadlines are points of the 32-bit clock, and zero says that there is
none.

A run remembers when the last replug not carried out was scheduled, and since
when the device is detached. On time means by that memory, in real time.
-/

import Mathlib.Tactic.Common
import Molewire.Library.Clock32
import Molewire.Library.Transition

namespace Molewire

open Clock32 Transition

/-! ### The timers -/

/-- The calls that leave `usb_net_update` for the USB stack. -/
inductive TudCall | disconnect | connect
  deriving DecidableEq, Repr

/-- The two deadlines of `usb_net.c`. Zero is idle. -/
structure UsbReplug where
  bounceAtMs : UInt32 := 0
  reconnectAtMs : UInt32 := 0
  deriving DecidableEq, Repr

/-- `BOUNCE_DELAY_MS`. -/
def bounceDelayMs : Nat := 5000

/-- How long the device stays detached. -/
def reconnectDelayMs : Nat := 300

/-- The clock as `to_ms_since_boot` reads it. -/
def toMsSinceBoot (t : Nat) : UInt32 := UInt32.ofNat t

def usbNetScheduleBounce (u : UsbReplug) (now : UInt32) : UsbReplug :=
  { u with bounceAtMs := now + UInt32.ofNat bounceDelayMs }

def usbNetBouncePending (u : UsbReplug) : Bool := u.bounceAtMs != 0

/-- The replug's part of `usb_net_update`. -/
def usbNetUpdate (u : UsbReplug) (now : UInt32) : UsbReplug × List TudCall :=
  let (u, calls) :=
    if due u.bounceAtMs now then
      ({ bounceAtMs := 0, reconnectAtMs := now + UInt32.ofNat reconnectDelayMs },
        [TudCall.disconnect])
    else (u, [])
  if due u.reconnectAtMs now then ({ u with reconnectAtMs := 0 }, calls ++ [.connect])
  else (u, calls)

/-! ### Runs -/

inductive BounceOp | schedule | update
  deriving DecidableEq, Repr

/-- The timers with what an observer remembers: the time of the last call, when the replug that is
still to come was last scheduled, and when the device was detached. -/
structure BounceRun where
  usb : UsbReplug := {}
  clock : Nat := 0
  scheduled : Option Nat := none
  detached : Option Nat := none
  deriving DecidableEq, Repr

namespace BounceRun

/-- What the update at `t` asks of the USB stack. -/
def calls (r : BounceRun) (t : Nat) : List TudCall := (usbNetUpdate r.usb (toMsSinceBoot t)).2

/-- Since when the device is detached once the update at `t` has disconnected it, if it does. -/
def detachedAt (r : BounceRun) (t : Nat) (disconnects : Prop) [Decidable disconnects] :
    Option Nat :=
  if disconnects then some t else r.detached

/-- One call at a point in time. -/
def step (r : BounceRun) : Nat × BounceOp → BounceRun
  | (t, .schedule) =>
    { r with usb := usbNetScheduleBounce r.usb (toMsSinceBoot t), clock := t, scheduled := some t }
  | (t, .update) =>
    { usb := (usbNetUpdate r.usb (toMsSinceBoot t)).1
      clock := t
      scheduled := if .disconnect ∈ r.calls t then none else r.scheduled
      detached :=
        if .connect ∈ r.calls t then none else r.detachedAt t (.disconnect ∈ r.calls t) }

/-- Time does not go back. -/
def Later (r : BounceRun) (a : Nat × BounceOp) : Prop := r.clock ≤ a.1

instance (r : BounceRun) (a : Nat × BounceOp) : Decidable (r.Later a) :=
  inferInstanceAs (Decidable (r.clock ≤ a.1))

/-- The runs from power-up. -/
def Reachable (r : BounceRun) : Prop := Reach (· = {}) Later step r

/-! ### On time -/

/-- A replug is pending exactly while one that was scheduled is still to come. -/
def PendingRight (r : BounceRun) : Prop := usbNetBouncePending r.usb ↔ r.scheduled.isSome

/-- A delay that began at `start` has passed. -/
def Passed (delay : Nat) (start : Option Nat) (t : Nat) : Prop :=
  ∃ s, start = some s ∧ s + delay ≤ t

instance (delay : Nat) (start : Option Nat) (t : Nat) : Decidable (Passed delay start t) :=
  match start with
  | none => .isFalse fun ⟨_, h, _⟩ => nomatch h
  | some s => decidable_of_iff (s + delay ≤ t)
      ⟨fun h => ⟨s, rfl, h⟩, fun ⟨_, h, hle⟩ => Option.some.inj h ▸ hle⟩

/-- The update at `t` disconnects the device when the delay since the last schedule call has
passed, and then only, and connects it when the delay since the disconnect has. -/
def UpdateRight (r : BounceRun) (t : Nat) : Prop :=
  (.disconnect ∈ r.calls t ↔ Passed bounceDelayMs r.scheduled t) ∧
    (.connect ∈ r.calls t ↔
      Passed reconnectDelayMs (r.detachedAt t (.disconnect ∈ r.calls t)) t)

/-- The call does what it has to, at its time, and leaves the right answer about what is pending. -/
def OnTime (r : BounceRun) (a : Nat × BounceOp) : Prop :=
  (r.step a).PendingRight ∧
    match a with
    | (_, .schedule) => True
    | (t, .update) => r.UpdateRight t

/-! ### What that takes of the clock -/

/-- The delay that began at `start`, if one did, ends where the clock and the time agree about
it. -/
def DelayAgrees (delay : Nat) (start : Option Nat) (t : Nat) : Prop :=
  ∀ s, start = some s → Agrees (s + delay) t

/-- The delay that began at `start`, if one did, does not end with a turn of the clock. -/
def EndsInTurn (start : Option Nat) : Prop :=
  ∀ s, start = some s → (s + bounceDelayMs) % turn ≠ 0

/-- The call comes at a time where the clock can be read for the time. -/
def Readable (r : BounceRun) : Nat × BounceOp → Prop
  | (t, .schedule) => EndsInTurn (some t)
  | (t, .update) =>
    EndsInTurn r.scheduled ∧ DelayAgrees bounceDelayMs r.scheduled t ∧
      DelayAgrees reconnectDelayMs (r.detachedAt t (Passed bounceDelayMs r.scheduled t)) t

/-! ### The deadlines -/

/-- A stored deadline: the end of the delay, where there is one. -/
def stored (delay : Nat) (start : Option Nat) : UInt32 :=
  start.elim 0 fun s => UInt32.ofNat (s + delay)

theorem toMsSinceBoot_add (t delay : Nat) :
    toMsSinceBoot t + UInt32.ofNat delay = stored delay (some t) :=
  (UInt32.ofNat_add t delay).symm

/-- The timers hold the deadlines of what is remembered, and that is past. -/
structure Synced (r : BounceRun) : Prop where
  bounce : r.usb.bounceAtMs = stored bounceDelayMs r.scheduled
  reconnect : r.usb.reconnectAtMs = stored reconnectDelayMs r.detached
  scheduled_le : ∀ s, r.scheduled = some s → s ≤ r.clock
  detached_le : ∀ d, r.detached = some d → d ≤ r.clock

/-- The test of a stored deadline is right exactly where the clock agrees with the time about it. -/
theorem due_stored_iff {delay : Nat} (hdelay : delay < turn) {start : Option Nat} {t : Nat}
    (hstart : ∀ s, start = some s → s ≤ t) :
    (due (stored delay start) (toMsSinceBoot t) ↔ Passed delay start t) ↔
      DelayAgrees delay start t := by
  cases start with
  | none =>
    have hnot : ¬Passed delay none t := fun ⟨_, h, _⟩ => nomatch h
    refine iff_of_true (iff_of_false ?_ hnot) (fun s h => nomatch h)
    simp [stored, due]
  | some s =>
    have hpassed : Passed delay (some s) t ↔ s + delay ≤ t :=
      ⟨fun ⟨_, h, hle⟩ => Option.some.inj h ▸ hle, fun hle => ⟨s, rfl, hle⟩⟩
    have hagrees : DelayAgrees delay (some s) t ↔ Agrees (s + delay) t :=
      ⟨fun h => h s rfl, fun h s' hs' => Option.some.inj hs' ▸ h⟩
    have hs := hstart s rfl
    rw [hpassed, hagrees]
    exact due_iff_le_iff (by omega)

/-- What an update calls, and what it leaves in the timers. -/
theorem usbNetUpdate_cases (u : UsbReplug) (now : UInt32) :
    (.disconnect ∈ (usbNetUpdate u now).2 ↔ due u.bounceAtMs now) ∧
      (.connect ∈ (usbNetUpdate u now).2 ↔
        due (if due u.bounceAtMs now then now + UInt32.ofNat reconnectDelayMs
          else u.reconnectAtMs) now) ∧
      (usbNetUpdate u now).1.bounceAtMs = (if due u.bounceAtMs now then 0 else u.bounceAtMs) ∧
      (usbNetUpdate u now).1.reconnectAtMs =
        if .connect ∈ (usbNetUpdate u now).2 then 0
        else if due u.bounceAtMs now then now + UInt32.ofNat reconnectDelayMs
        else u.reconnectAtMs := by
  unfold usbNetUpdate
  by_cases hbounce : due u.bounceAtMs now <;> simp only [hbounce, if_true, if_false,
    Bool.false_eq_true]
  · by_cases hreconnect : due (now + UInt32.ofNat reconnectDelayMs) now <;> simp [hreconnect]
  · by_cases hreconnect : due u.reconnectAtMs now <;> simp [hreconnect]

/-- The timers of a run follow what is remembered, whatever the clock shows. -/
theorem Synced.step {r : BounceRun} (h : r.Synced) {a : Nat × BounceOp} (ha : r.Later a) :
    (r.step a).Synced := by
  obtain ⟨t, op⟩ := a
  have ht : r.clock ≤ t := ha
  cases op with
  | schedule =>
    have hstep : r.step (t, .schedule) =
        { r with
          usb := usbNetScheduleBounce r.usb (toMsSinceBoot t)
          clock := t
          scheduled := some t } := rfl
    rw [hstep]
    refine {
      bounce := ?_
      reconnect := ?_
      scheduled_le := fun s hs => ?_
      detached_le := fun d hd => Nat.le_trans (h.detached_le d hd) ht }
    · exact toMsSinceBoot_add t bounceDelayMs
    · dsimp only [usbNetScheduleBounce]
      exact h.reconnect
    · exact Nat.le_of_eq (Option.some.inj hs).symm
  | update =>
    obtain ⟨hdisconnect, hconnect, hbounceAt, hreconnectAt⟩ :=
      usbNetUpdate_cases r.usb (toMsSinceBoot t)
    refine ⟨?_, ?_, ?_, ?_⟩
    · change (usbNetUpdate r.usb (toMsSinceBoot t)).1.bounceAtMs =
        stored bounceDelayMs (if .disconnect ∈ r.calls t then none else r.scheduled)
      rw [hbounceAt, calls]
      by_cases hdue : due r.usb.bounceAtMs (toMsSinceBoot t)
      · rw [if_pos hdue, if_pos (hdisconnect.mpr hdue)]
        rfl
      · rw [if_neg hdue, if_neg (mt hdisconnect.mp hdue), h.bounce]
    · change (usbNetUpdate r.usb (toMsSinceBoot t)).1.reconnectAtMs =
        stored reconnectDelayMs (if .connect ∈ r.calls t then none
          else if .disconnect ∈ r.calls t then some t else r.detached)
      rw [hreconnectAt, calls]
      split_ifs with hcon hdue hdis hdis
      · rfl
      · exact toMsSinceBoot_add t reconnectDelayMs
      · exact absurd (hdisconnect.mpr hdue) hdis
      · exact absurd (hdisconnect.mp hdis) hdue
      · exact h.reconnect
    · intro s hs
      change (if _ then none else r.scheduled) = some s at hs
      rw [Option.ite_none_left_eq_some] at hs
      exact Nat.le_trans (h.scheduled_le s hs.2) ht
    · intro d hd
      change (if _ then none else if _ then some t else r.detached) = some d at hd
      rw [Option.ite_none_left_eq_some] at hd
      have hd := hd.2
      split_ifs at hd
      · exact Nat.le_of_eq (Option.some.inj hd).symm
      · exact Nat.le_trans (h.detached_le d hd) ht

theorem Reachable.synced {r : BounceRun} (hr : r.Reachable) : r.Synced := by
  refine Reach.invariant ?_ (fun s a _ ha hs => hs.step ha) hr
  rintro s rfl
  exact ⟨rfl, rfl, fun s h => (nomatch h), fun d h => (nomatch h)⟩

theorem Synced.pendingRight_iff {r : BounceRun} (h : r.Synced) :
    r.PendingRight ↔ EndsInTurn r.scheduled := by
  unfold PendingRight usbNetBouncePending
  rw [h.bounce]
  cases hsched : r.scheduled with
  | none => simp [stored, EndsInTurn]
  | some s =>
    simp only [stored, EndsInTurn, Option.elim_some, bne_iff_ne, ne_eq, ofNat_eq_zero,
      Option.isSome_some, iff_true, Option.some.injEq, forall_eq']

/-- A deadline that has come was stored. -/
theorem endsInTurn_of_due {start : Option Nat} {t : Nat}
    (h : due (stored bounceDelayMs start) (toMsSinceBoot t)) : EndsInTurn start := by
  rintro s rfl
  exact (due_ofNat.mp h).1

/-! ### One call -/

theorem Synced.mem_disconnect {r : BounceRun} (h : r.Synced) (t : Nat) :
    .disconnect ∈ r.calls t ↔ due (stored bounceDelayMs r.scheduled) (toMsSinceBoot t) := by
  rw [← h.bounce]
  exact (usbNetUpdate_cases r.usb (toMsSinceBoot t)).1

theorem Synced.mem_connect {r : BounceRun} (h : r.Synced) (t : Nat) :
    .connect ∈ r.calls t ↔
      due (stored reconnectDelayMs (r.detachedAt t (.disconnect ∈ r.calls t)))
        (toMsSinceBoot t) := by
  obtain ⟨hdisconnect, hconnect, -⟩ := usbNetUpdate_cases r.usb (toMsSinceBoot t)
  refine hconnect.trans ?_
  unfold detachedAt
  by_cases hdue : due r.usb.bounceAtMs (toMsSinceBoot t)
  · have hcall : .disconnect ∈ r.calls t := hdisconnect.mpr hdue
    rw [if_pos hdue, if_pos hcall, toMsSinceBoot_add]
  · have hcall : .disconnect ∉ r.calls t := mt hdisconnect.mp hdue
    rw [if_neg hdue, if_neg hcall, h.reconnect]

theorem Synced.le_of_detachedAt {r : BounceRun} (h : r.Synced) {t : Nat} (ht : r.clock ≤ t)
    {p : Prop} [Decidable p] {d : Nat} (hd : r.detachedAt t p = some d) : d ≤ t := by
  unfold detachedAt at hd
  split_ifs at hd
  · exact Nat.le_of_eq (Option.some.inj hd).symm
  · exact Nat.le_trans (h.detached_le d hd) ht

/-- One call is on time exactly where the clock can be read for the time. -/
theorem Synced.onTime_iff {r : BounceRun} (h : r.Synced) {a : Nat × BounceOp} (ha : r.Later a) :
    r.OnTime a ↔ r.Readable a := by
  have hpending := (h.step ha).pendingRight_iff
  obtain ⟨t, op⟩ := a
  have ht : r.clock ≤ t := ha
  cases op with
  | schedule => exact (and_iff_left trivial).trans hpending
  | update =>
    have hdelay : bounceDelayMs < turn := by decide
    have hbounce := due_stored_iff hdelay fun s hs => Nat.le_trans (h.scheduled_le s hs) ht
    rw [← h.mem_disconnect] at hbounce
    -- a replug carried out leaves nothing pending, and was not lost
    have hleft : EndsInTurn (r.step (t, .update)).scheduled ↔ EndsInTurn r.scheduled := by
      change EndsInTurn (if .disconnect ∈ r.calls t then none else r.scheduled) ↔ _
      split_ifs with hcall
      · exact iff_of_true (fun s hs => nomatch hs)
          (endsInTurn_of_due ((h.mem_disconnect t).mp hcall))
      · exact Iff.rfl
    change _ ∧ (_ ∧ _) ↔ _ ∧ _ ∧ _
    rw [hpending, hleft, hbounce]
    refine and_congr_right fun _ => and_congr_right fun hagrees => ?_
    have hsame : r.detachedAt t (.disconnect ∈ r.calls t) =
        r.detachedAt t (Passed bounceDelayMs r.scheduled t) :=
      if_congr (hbounce.mpr hagrees) rfl rfl
    rw [h.mem_connect, hsame]
    exact due_stored_iff (by decide) fun d hd => h.le_of_detachedAt ht hd

/-! ### Whole runs -/

/-- From every state of every run: the calls that follow are all on time exactly when each comes
at a time where the clock can be read for the time. -/
theorem usb_replug_on_time_iff {r : BounceRun} (hr : r.Reachable) {ops : List (Nat × BounceOp)}
    (hops : AdmitsAll Later step r ops) :
    AdmitsAll OnTime step r ops ↔ AdmitsAll Readable step r ops := by
  induction ops generalizing r with
  | nil => exact Iff.rfl
  | cons a rest ih =>
    obtain ⟨hlater, hrest⟩ := hops
    exact and_congr (hr.synced.onTime_iff hlater) (ih (hr.step hlater) hrest)

/-- The calls whose delays end in the first turn of the clock, which takes 49 days. -/
def InFirstTurn (r : BounceRun) (a : Nat × BounceOp) : Prop :=
  r.Later a ∧ a.1 + bounceDelayMs < turn

instance (r : BounceRun) (a : Nat × BounceOp) : Decidable (r.InFirstTurn a) :=
  inferInstanceAs (Decidable (r.clock ≤ a.1 ∧ a.1 + bounceDelayMs < turn))

theorem delayAgrees_of_lt {delay : Nat} {start : Option Nat} {t : Nat} (hpos : 0 < delay)
    (ht : t + delay < turn) (hstart : ∀ s, start = some s → s ≤ t) :
    DelayAgrees delay start t := by
  intro s hs
  have hle := hstart s hs
  exact agrees_of_lt (by omega) (by omega) (by omega)

theorem Synced.readable_of_first_turn {r : BounceRun} (h : r.Synced) {a : Nat × BounceOp}
    (ha : r.InFirstTurn a) : r.Readable a := by
  obtain ⟨t, op⟩ := a
  obtain ⟨hlater, hturn⟩ := ha
  have ht : r.clock ≤ t := hlater
  dsimp only at hturn
  have hends : ∀ s ≤ t, (s + bounceDelayMs) % turn ≠ 0 := by
    intro s hs
    rw [Nat.mod_eq_of_lt (by omega)]
    exact Nat.ne_of_gt (Nat.add_pos_right s (by decide))
  cases op with
  | schedule => exact fun s hs => hends s (Nat.le_of_eq (Option.some.inj hs).symm)
  | update =>
    have hscheduled : ∀ s, r.scheduled = some s → s ≤ t := fun s hs =>
      Nat.le_trans (h.scheduled_le s hs) ht
    have hshort : t + reconnectDelayMs < turn :=
      Nat.lt_of_le_of_lt (Nat.add_le_add_left (by decide) t) hturn
    refine ⟨fun s hs => hends s (hscheduled s hs), ?_, ?_⟩
    · exact delayAgrees_of_lt (by decide) hturn hscheduled
    · exact delayAgrees_of_lt (by decide) hshort fun d hd => h.le_of_detachedAt ht hd

/-- Up to then every call of every run can be read. -/
theorem readable_first_turn {r : BounceRun} (hr : r.Reachable) {ops : List (Nat × BounceOp)}
    (hops : AdmitsAll InFirstTurn step r ops) : AdmitsAll Readable step r ops := by
  induction ops generalizing r with
  | nil => exact trivial
  | cons a rest ih =>
    obtain ⟨hfirst, hrest⟩ := hops
    exact ⟨hr.synced.readable_of_first_turn hfirst, ih (hr.step hfirst.1) hrest⟩

/-- A replug that is postponed once, carried out late, and reconnected. -/
def onePostponed : List (Nat × BounceOp) :=
  [(1000, .schedule), (4000, .schedule), (6500, .update), (9200, .update), (9600, .update)]

theorem usb_replug_on_time_onePostponed : AdmitsAll OnTime step {} onePostponed := by
  have hlater : AdmitsAll Later step {} onePostponed :=
    ⟨by decide, by decide, by decide, by decide, by decide, trivial⟩
  exact (usb_replug_on_time_iff (.start rfl) hlater).mpr
    (readable_first_turn (.start rfl) (by decide +kernel))

/-- A second before a turn ends a replug is carried out in the next millisecond, and one whose delay
ends with the turn is not pending at all. -/
theorem usb_replug_not_on_time :
    .disconnect ∈ (({} : BounceRun).step (4294966296, .schedule)).calls 4294966297 ∧
      ¬AdmitsAll OnTime step {} [(4294966296, .schedule), (4294966297, .update)] ∧
      usbNetBouncePending (({} : BounceRun).step (4294962296, .schedule)).usb = false ∧
      ¬AdmitsAll OnTime step {} [(4294962296, .schedule)] := by
  have hearly : .disconnect ∈ (({} : BounceRun).step (4294966296, .schedule)).calls 4294966297 := by
    decide +kernel
  have hlost : usbNetBouncePending (({} : BounceRun).step (4294962296, .schedule)).usb = false := by
    decide +kernel
  refine ⟨hearly, ?_, hlost, ?_⟩
  · rintro ⟨-, ⟨-, hright, -⟩, -⟩
    obtain ⟨s, hs, hle⟩ := hright.mp hearly
    obtain rfl : 4294966296 = s := Option.some.inj hs
    simp [bounceDelayMs] at hle
  · rintro ⟨⟨hright, -⟩, -⟩
    rw [PendingRight, hlost] at hright
    exact absurd (hright.mpr rfl) Bool.false_ne_true

/-- A replug whose delay ends with a turn of the clock is lost, however often the main loop looks
for it. -/
theorem never_disconnects {r : BounceRun} (h : r.Synced) (hlost : ¬EndsInTurn r.scheduled)
    {ops : List (Nat × BounceOp)} (hops : AdmitsAll Later step r ops)
    (hupdates : ∀ a ∈ ops, a.2 = .update) :
    AdmitsAll (fun r a => .disconnect ∉ r.calls a.1) step r ops := by
  induction ops generalizing r with
  | nil => exact trivial
  | cons a rest ih =>
    obtain ⟨t, op⟩ := a
    obtain ⟨hlater, hrest⟩ := hops
    obtain rfl : op = .update := hupdates _ List.mem_cons_self
    have hcall : .disconnect ∉ r.calls t :=
      mt (fun hcall => endsInTurn_of_due ((h.mem_disconnect t).mp hcall)) hlost
    have hkept : (r.step (t, .update)).scheduled = r.scheduled := if_neg hcall
    exact ⟨hcall, ih (h.step hlater) (hkept ▸ hlost) hrest fun a ha =>
      hupdates a (List.mem_cons_of_mem _ ha)⟩

end BounceRun

end Molewire
