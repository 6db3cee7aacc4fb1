/-
# Expiry under a wrapping clock

The age of an entry is computed when a packet comes, as a difference of 32-bit
times, and nothing ever clears an entry that has expired. Over real time the
age is therefore read modulo a turn of the clock: an entry idle for longer than
its timeout is dead as long as no packet comes within a timeout of a full turn
since its last use, and alive again where one does.
-/

import Molewire.NaptMapping

namespace Molewire

open ByteBuffer OnesComplement Transition

namespace NaptRun

/-! ### Runs over unbounded time -/

/-- One turn of the 32-bit clock, in milliseconds. -/
def clockTurn : Nat := 4294967296

/-- A call may come at any time that is not before the last one. -/
def Comes (r : NaptRun) : Nat × NaptOp → Prop
  | (t, .outbound pkt avail) => r.clock ≤ t ∧ avail ≤ pkt.length
  | (t, .inbound pkt avail) => r.clock ≤ t ∧ avail ≤ pkt.length
  | (t, _) => r.clock ≤ t

/-- The runs from power-up, over any time. -/
def Ran (r : NaptRun) : Prop := Reach (· = {}) Comes step r

theorem Comes.clock_le {r : NaptRun} {a : Nat × NaptOp} (h : r.Comes a) : r.clock ≤ a.1 := by
  obtain ⟨t, op⟩ := a
  cases op with
  | outbound pkt avail => exact h.1
  | inbound pkt avail => exact h.1
  | setExtIp ip => exact h
  | setMssClamp mss => exact h
  | reset => exact h

/-- An entry carries the time of its last use. -/
structure Stamped (r : NaptRun) : Prop where
  stamp : ∀ i, (r.napt.table i).proto ≠ 0 → (r.napt.table i).lastMs = clock32 (r.lastUse i)
  past : ∀ i, (r.napt.table i).proto ≠ 0 → r.lastUse i ≤ r.clock

/-- The slot's entry and its last use are what they were. -/
def KeepsSlot (r r' : NaptRun) (i : Fin naptMax) : Prop :=
  r'.napt.table i = r.napt.table i ∧ r'.lastUse i = r.lastUse i

/-- Every slot is kept, or has just been used. -/
theorem Stamped.of_slots {r r' : NaptRun} (h : r.Stamped) (hclock : r.clock ≤ r'.clock)
    (hslots : ∀ i, r.KeepsSlot r' i ∨ (r'.napt.table i).proto = 0 ∨
      ((r'.napt.table i).lastMs = clock32 r'.clock ∧ r'.lastUse i = r'.clock)) : r'.Stamped where
  stamp i hi := by
    rcases hslots i with ⟨htable, huse⟩ | h0 | ⟨hms, huse⟩
    · rw [htable] at hi ⊢
      rw [huse]
      exact h.stamp i hi
    · exact absurd h0 hi
    · rw [hms, huse]
  past i hi := by
    rcases hslots i with ⟨htable, huse⟩ | h0 | ⟨-, huse⟩
    · rw [htable] at hi
      rw [huse]
      exact (h.past i hi).trans hclock
    · exact absurd h0 hi
    · rw [huse]

/-- The age that the firmware computes, over any time. -/
theorem clock32_sub_mod {s t : Nat} (hst : s ≤ t) :
    (clock32 t - clock32 s).toNat = (t - s) % clockTurn :=
  Clock32.toNat_sub hst

/-- An entry is live where its age is below its timeout modulo a turn of the clock. -/
theorem Stamped.live_iff {r : NaptRun} (h : r.Stamped) {t : Nat} (ht : r.clock ≤ t)
    (i : Fin naptMax) :
    r.Live t i ↔ (r.napt.table i).proto ≠ 0 ∧
      (t - r.lastUse i) % clockTurn < (timeoutMs (r.napt.table i)).toNat := by
  unfold Live entryLive
  simp only [Bool.and_eq_true, bne_iff_ne, decide_eq_true_eq]
  refine and_congr_right fun hproto => ?_
  rw [h.stamp i hproto, UInt32.lt_iff_toNat_lt, clock32_sub_mod ((h.past i hproto).trans ht)]

/-! ### What a call does to a slot -/

/-- A packet goes through the slot's entry as it is: an outbound packet finds it, or an inbound
packet is translated with it. -/
def Uses (r : NaptRun) (a : Nat × NaptOp) (i : Fin naptMax) : Prop :=
  match a with
  | (t, .outbound pkt avail) => ∃ v, parse pkt avail = some v ∧
      (naptOutbound r.napt pkt avail (clock32 t)).translated ∧
      (searchTable r.napt.table (clock32 t) (outboundKey pkt v)
        (List.finRange naptMax) none).1 = some i
  | (t, .inbound pkt avail) => ∃ v, parse pkt avail = some v ∧
      (naptInbound r.napt pkt avail (clock32 t)).translated ∧
      be16 pkt (keyfield v false) = natPort i
  | _ => False

/-- The slot is given away afresh: an outbound packet takes it as a free one, or the table is
cleared. -/
def Renews (r : NaptRun) (a : Nat × NaptOp) (i : Fin naptMax) : Prop :=
  match a with
  | (t, .outbound pkt avail) => ∃ v, parse pkt avail = some v ∧
      (naptOutbound r.napt pkt avail (clock32 t)).translated ∧
      searchTable r.napt.table (clock32 t) (outboundKey pkt v)
        (List.finRange naptMax) none = (none, some i)
  | (_, .reset) => True
  | _ => False

/-- Only a live entry is used. -/
theorem Uses.live {r : NaptRun} {a : Nat × NaptOp} {i : Fin naptMax} (h : r.Uses a i) :
    r.Live a.1 i := by
  obtain ⟨t, op⟩ := a
  cases op with
  | outbound pkt avail =>
    obtain ⟨v, -, -, hfound⟩ := h
    generalize hs : searchTable r.napt.table (clock32 t) (outboundKey pkt v)
      (List.finRange naptMax) none = found at hfound
    obtain ⟨slot, free⟩ := found
    obtain rfl : slot = some i := hfound
    exact (searchTable_found hs).1
  | inbound pkt avail =>
    obtain ⟨v, hparse, htr, hport⟩ := h
    obtain ⟨v', j, -, hparse', -, -, hport', hlive, -, -⟩ | hres :=
      naptInbound_cases r.napt pkt avail (clock32 t)
    · obtain rfl : v = v' := Option.some.inj (hparse.symm.trans hparse')
      obtain rfl : i = j := natPort_inj.mp (hport.symm.trans hport')
      exact hlive
    · simp [hres] at htr
  | setExtIp ip => exact h.elim
  | setMssClamp mss => exact h.elim
  | reset => exact h.elim

/-- A call uses a slot, gives it away, or keeps it; and what it uses or gives away it stamps. -/
theorem step_slot (r : NaptRun) {a : Nat × NaptOp} (ha : r.Comes a) (i : Fin naptMax) :
    (r.step a).clock = a.1 ∧ (r.KeepsSlot (r.step a) i ∨ (r.Uses a i ∨ r.Renews a i) ∧
      (((r.step a).napt.table i).proto = 0 ∨
        ((r.step a).napt.table i).lastMs = clock32 a.1 ∧ (r.step a).lastUse i = a.1)) := by
  obtain ⟨t, op⟩ := a
  cases op with
  | outbound pkt avail =>
    obtain ⟨v, j, e, hp, hparse, hext, hecho, hentry, hres⟩ | hres :=
      naptOutbound_cases r.napt pkt avail (clock32 t)
    · have hport := portSlot_translated r.napt hp ha.2 j
      have hstep : r.step (t, .outbound pkt avail) =
          { napt := r.napt.setEntry j (e.touch (byte pkt (v.ihl + 13)) (clock32 t))
            clock := t
            lastUse := Function.update r.lastUse j t
            owner := Function.update r.owner j (some (outboundKey pkt v)) } := by
        simp only [step, stepOutbound, hparse, slotOf, hres, if_true, hport]
      rw [hstep]
      refine ⟨rfl, ?_⟩
      by_cases hij : i = j
      · subst hij
        refine .inr ⟨?_, .inr ⟨by simp [Napt.setEntry], Function.update_self ..⟩⟩
        -- the entry was found, or is a free slot
        unfold outboundEntry at hentry
        split at hentry
        next i' free heq =>
          obtain ⟨rfl, -⟩ := Prod.mk.inj (Option.some.inj hentry)
          exact .inl ⟨v, hparse, by rw [hres], congrArg Prod.fst heq⟩
        next i' heq =>
          obtain ⟨rfl, -⟩ := Prod.mk.inj (Option.some.inj hentry)
          exact .inr ⟨v, hparse, by rw [hres], heq⟩
        next => cases hentry
      · exact .inl ⟨by simp [Napt.setEntry, Function.update_of_ne hij],
          Function.update_of_ne hij ..⟩
    · have hstep : r.step (t, .outbound pkt avail) =
          { r with napt := { r.napt with gDrops := r.napt.gDrops + 1 }, clock := t } := by
        simp only [step, stepOutbound, hres, slotOf]
        split <;> rfl
      rw [hstep]
      exact ⟨rfl, .inl ⟨rfl, rfl⟩⟩
  | inbound pkt avail =>
    obtain ⟨v, j, hp, hparse, hdst, hecho, hport, hlive, hproto, hres⟩ | hres :=
      naptInbound_cases r.napt pkt avail (clock32 t)
    · have hstep : r.step (t, .inbound pkt avail) =
          { r with
            napt := r.napt.setEntry j
              ((r.napt.table j).touch (byte pkt (v.ihl + 13)) (clock32 t))
            clock := t
            lastUse := Function.update r.lastUse j t } := by
        simp only [step, stepInbound, hparse, slotOf, hres, if_true, portSlot_eq_some.mpr hport]
      rw [hstep]
      refine ⟨rfl, ?_⟩
      by_cases hij : i = j
      · subst hij
        exact .inr ⟨.inl ⟨v, hparse, by rw [hres], hport⟩,
          .inr ⟨by simp [Napt.setEntry], Function.update_self ..⟩⟩
      · exact .inl ⟨by simp [Napt.setEntry, Function.update_of_ne hij],
          Function.update_of_ne hij ..⟩
    · have hstep : r.step (t, .inbound pkt avail) = { r with clock := t } := by
        simp only [step, stepInbound, hres, slotOf]
        split <;> rfl
      rw [hstep]
      exact ⟨rfl, .inl ⟨rfl, rfl⟩⟩
  | setExtIp ip => exact ⟨rfl, .inl ⟨rfl, rfl⟩⟩
  | setMssClamp mss => exact ⟨rfl, .inl ⟨rfl, rfl⟩⟩
  | reset => exact ⟨rfl, .inr ⟨.inr trivial, .inl rfl⟩⟩

theorem Stamped.step {r : NaptRun} (h : r.Stamped) {a : Nat × NaptOp} (ha : r.Comes a) :
    (r.step a).Stamped := by
  have hclock : (r.step a).clock = a.1 := (r.step_slot ha ⟨0, by decide⟩).1
  refine h.of_slots (by rw [hclock]; exact ha.clock_le) fun i => ?_
  rcases (r.step_slot ha i).2 with hkeeps | ⟨-, h0 | hstamp⟩
  · exact .inl hkeeps
  · exact .inr (.inl h0)
  · rw [hclock]
    exact .inr (.inr hstamp)

theorem Ran.stamped {r : NaptRun} (hr : r.Ran) : r.Stamped := by
  refine Reach.invariant ?_ (fun s a _ ha hs => hs.step ha) hr
  rintro s rfl
  exact ⟨fun i hi => absurd rfl hi, fun i hi => absurd rfl hi⟩

/-! ### An expired entry -/

/-- The slot's entry has been idle for its timeout, in real time. -/
def Expired (r : NaptRun) (t : Nat) (i : Fin naptMax) : Prop :=
  (r.napt.table i).proto ≠ 0 ∧ (timeoutMs (r.napt.table i)).toNat ≤ t - r.lastUse i

/-- The time is not within the entry's timeout of a full turn of the clock since its last use. -/
def OffTurn (r : NaptRun) (t : Nat) (i : Fin naptMax) : Prop :=
  (timeoutMs (r.napt.table i)).toNat ≤ (t - r.lastUse i) % clockTurn

/-- Calls from `t₀` on, each at a time off the turns, none of which gives the slot away afresh. -/
def Idles (t₀ : Nat) (i : Fin naptMax) (r r' : NaptRun) : Prop :=
  Reach (· = r) (fun s a => s.Comes a ∧ t₀ ≤ a.1 ∧ s.OffTurn a.1 i ∧ ¬s.Renews a i) step r'

theorem KeepsSlot.expired {r r' : NaptRun} {i : Fin naptMax} (h : r.KeepsSlot r' i) {t₀ t : Nat}
    (hexp : r.Expired t₀ i) (ht : t₀ ≤ t) : r'.Expired t i := by
  obtain ⟨hproto, hage⟩ := hexp
  rw [Expired, h.1, h.2]
  exact ⟨hproto, by omega⟩

/-- Off the turns of the clock an expired entry is not used. -/
theorem not_uses {r : NaptRun} (hr : r.Ran) {a : Nat × NaptOp} (ha : r.Comes a)
    {i : Fin naptMax} (hoff : r.OffTurn a.1 i) : ¬r.Uses a i := by
  intro huse
  obtain ⟨-, hage⟩ := (hr.stamped.live_iff ha.clock_le i).mp huse.live
  exact absurd hage (Nat.not_lt.mpr hoff)

/-- Idling keeps the entry as it is. -/
theorem Idles.keeps {r₀ r : NaptRun} {t₀ : Nat} {i : Fin naptMax} (hr : r₀.Ran)
    (h : Idles t₀ i r₀ r) : r.Ran ∧ r₀.KeepsSlot r i := by
  induction h with
  | start hs =>
    obtain rfl := hs
    exact ⟨hr, rfl, rfl⟩
  | @step s a _ ha ih =>
    obtain ⟨hcomes, -, hoff, hrenews⟩ := ha
    obtain ⟨hran, hkeeps⟩ := ih
    refine ⟨hran.step hcomes, ?_⟩
    rcases (s.step_slot hcomes i).2 with hslot | ⟨huses | hrenews', -⟩
    · exact ⟨hslot.1.trans hkeeps.1, hslot.2.trans hkeeps.2⟩
    · exact absurd huses (not_uses hran hcomes hoff)
    · exact absurd hrenews' hrenews

/-- An entry that has expired stays expired and as it is, and no packet goes through it, until
the slot is given away afresh, in every run whose calls come off the turns of the clock. -/
theorem expired_stays {r₀ r : NaptRun} {t₀ : Nat} {i : Fin naptMax} (hr : r₀.Ran)
    (hexp : r₀.Expired t₀ i) (hrun : Idles t₀ i r₀ r) {a : Nat × NaptOp} (ha : r.Comes a)
    (ht : t₀ ≤ a.1) (hoff : r.OffTurn a.1 i) :
    r.napt.table i = r₀.napt.table i ∧ r.Expired a.1 i ∧ ¬r.Uses a i := by
  obtain ⟨hran, hkeeps⟩ := hrun.keeps hr
  exact ⟨hkeeps.1, hkeeps.expired hexp ht, not_uses hran ha hoff⟩

/-- A datagram for the port of slot zero. -/
def slotZeroReply : NaptOp :=
  .inbound (udpDatagram ⟨8, 8, 8, 8⟩ ⟨10, 0, 0, 1⟩ (0, 53) (0xEA, 0x60)) 28

theorem oneClient_ran : oneClient.Ran := by
  have h0 : ({} : NaptRun).Ran := .start rfl
  have hext : (({} : NaptRun).step (0, .setExtIp ⟨10, 0, 0, 1⟩)).Ran := h0.step (Nat.le_refl 0)
  exact hext.step ⟨Nat.zero_le 5, by decide⟩

theorem oneClient_expired : oneClient.Expired 120005 0 := by
  unfold Expired
  decide +kernel

theorem expired_stays_oneClient : ¬oneClient.Uses (120005, slotZeroReply) 0 :=
  (expired_stays oneClient_ran oneClient_expired (.start rfl)
    (a := (120005, slotZeroReply)) ⟨by decide +kernel, by decide⟩ (Nat.le_refl _)
    (by unfold OffTurn; decide +kernel)).2.2

/-- A turn of the clock behind its last use an expired entry translates a packet. -/
theorem expired_revives :
    oneClient.Ran ∧ oneClient.Expired 120005 0 ∧
      oneClient.Comes (4294967310, slotZeroReply) ∧
      oneClient.Uses (4294967310, slotZeroReply) 0 :=
  ⟨oneClient_ran, oneClient_expired, ⟨by decide +kernel, by decide⟩, ⟨20, 17, 8⟩, by decide,
    by decide +kernel, by decide⟩

end NaptRun

end Molewire
