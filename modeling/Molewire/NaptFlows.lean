/-
# TCP connections through a mapping

A mapping is shared by every connection of one inner port, and so is the TCP
state kept in its entry. A run remembers beside the table how far each
connection has come, judged by its own segments alone. The entry agrees with
them as long as no connection ends while another one is established and none
starts on an entry that is already closing.
-/

import Molewire.NaptMapping

namespace Molewire

open ByteBuffer Transition

/-! ### Connections -/

/-- The far end of a connection. -/
structure Remote where
  ip : Ip4
  port : Nat
  deriving DecidableEq, Repr

inductive TcpPhase | closed | handshake | established
  deriving DecidableEq, Repr

/-- How far a connection has come, and when a packet of it was last translated. -/
structure TcpConn where
  phase : TcpPhase := .closed
  lastAt : Nat := 0
  deriving DecidableEq, Repr

/-- A segment of the connection: FIN or RST ends it, SYN starts it, and it is established by the
next ACK without SYN. -/
def TcpConn.track (c : TcpConn) (flags : UInt8) (t : Nat) : TcpConn where
  phase :=
    if flags &&& 0x05 ≠ 0 then .closed
    else if flags &&& 0x12 = 0x10 then
      if c.phase = .handshake then .established else c.phase
    else if flags &&& 0x02 ≠ 0 ∧ c.phase = .closed then .handshake
    else c.phase
  lastAt := t

/-- After which segment a connection is established. -/
theorem TcpConn.track_established {c : TcpConn} {flags : UInt8} {t : Nat}
    (h : (c.track flags t).phase = .established) :
    flags &&& 0x05 = 0 ∧
      (c.phase = .established ∨ c.phase = .handshake ∧ flags &&& 0x12 = 0x10) := by
  unfold TcpConn.track at h
  dsimp only at h
  -- a segment that ends the connection, the ACK, a SYN, and anything else
  split_ifs at h with hend hack hsyn hstart
  · exact ⟨not_not.mp hend, .inr ⟨hsyn, hack⟩⟩
  · exact ⟨not_not.mp hend, .inl h⟩
  · exact ⟨not_not.mp hend, .inl h⟩

/-- The entry follows the ACK too, unless it is closing. -/
theorem tcpTrack_established {state : NaptSt} {flags : UInt8} (hend : flags &&& 0x05 = 0)
    (h : state = .established ∨ flags &&& 0x12 = 0x10 ∧ state ≠ .closing) :
    tcpTrack state flags = .established := by
  unfold tcpTrack
  rw [if_neg (not_not.mpr hend)]
  -- an established entry stays so, and a new one follows the ACK
  rcases h with rfl | ⟨hack, hopen⟩
  · simp
  · cases state with
    | new => rw [if_pos ⟨hack, rfl⟩]
    | established => simp
    | closing => exact absurd rfl hopen

/-! ### Segments -/

/-- A translated packet: the slot it went through and what the core sees of its transport. -/
structure Segment where
  slot : Fin naptMax
  proto : UInt8
  remote : Remote
  flags : UInt8
  deriving DecidableEq, Repr

namespace NaptRun

/-- The packet a call is about to translate, and the slot it will go through: found by the lookups
both directions make. -/
def segment (r : NaptRun) : Nat × NaptOp → Option Segment
  | (t, .outbound pkt avail) =>
    (parse pkt avail).bind fun v =>
      if r.napt.gExt = Ip4.any ∨ v.proto = 1 ∧ byte pkt v.ihl ≠ 8 then none
      else
        (outboundEntry r.napt.table (clock32 t) (outboundKey pkt v)).map fun found =>
          ⟨found.1, v.proto, ⟨ipDst pkt, be16 pkt (keyfield v false)⟩, byte pkt (v.ihl + 13)⟩
  | (t, .inbound pkt avail) =>
    (parse pkt avail).bind fun v =>
      if ipDst pkt ≠ r.napt.gExt ∨ v.proto = 1 ∧ byte pkt v.ihl ≠ 0 then none
      else
        (portSlot (be16 pkt (keyfield v false))).bind fun i =>
          if r.Live t i ∧ (r.napt.table i).proto = v.proto then
            some ⟨i, v.proto, ⟨ipSrc pkt, be16 pkt (keyfield v true)⟩, byte pkt (v.ihl + 13)⟩
          else none
  | _ => none

/-- What a call does to the table: its packet touches the entry of its slot, which is the live one
that was there or a new one. Without a packet only a reset changes anything. -/
inductive TableStep (r : NaptRun) (a : Nat × NaptOp) : Prop
  | touched {s : Segment} {e : NaptEntry} (hseg : r.segment a = some s) (hproto : e.proto = s.proto)
      (hentry : r.Live a.1 s.slot → e = r.napt.table s.slot)
      (htable : (r.step a).napt.table =
        Function.update r.napt.table s.slot (e.touch s.flags (clock32 a.1)))
      (huse : (r.step a).lastUse = Function.update r.lastUse s.slot a.1)
  | cleared (hseg : r.segment a = none) (hreset : a.2 = .reset)
  | kept (hseg : r.segment a = none) (hreset : a.2 ≠ .reset)
      (htable : (r.step a).napt.table = r.napt.table)
      (huse : (r.step a).lastUse = r.lastUse)

theorem segment_outbound_of_refused {r : NaptRun} {t : Nat} {pkt : Bytes} {avail : Nat}
    (hres : ¬(naptOutbound r.napt pkt avail (clock32 t)).translated) :
    r.segment (t, .outbound pkt avail) = none := by
  apply Option.eq_none_iff_forall_ne_some.mpr
  -- a segment would have all that a translation asks for
  intro s hs
  obtain ⟨v, hparse, hs⟩ := Option.bind_eq_some_iff.mp hs
  split_ifs at hs with hrefused
  obtain ⟨hext, hecho⟩ := not_or.mp hrefused
  obtain ⟨found, hentry, -⟩ := Option.map_eq_some_iff.mp hs
  apply hres
  rw [naptOutbound_translated_iff]
  exact ⟨hext, v, hparse, fun hicmp => by_contra fun hother => hecho ⟨hicmp, hother⟩,
    Option.isSome_of_eq_some hentry⟩

theorem segment_inbound_of_refused {r : NaptRun} {t : Nat} {pkt : Bytes} {avail : Nat}
    (hres : ¬(naptInbound r.napt pkt avail (clock32 t)).translated) :
    r.segment (t, .inbound pkt avail) = none := by
  apply Option.eq_none_iff_forall_ne_some.mpr
  -- a segment would have all that a translation asks for
  intro s hs
  obtain ⟨v, hparse, hs⟩ := Option.bind_eq_some_iff.mp hs
  split_ifs at hs with hrefused
  obtain ⟨hdst, hecho⟩ := not_or.mp hrefused
  obtain ⟨i, hslot, hs⟩ := Option.bind_eq_some_iff.mp hs
  split_ifs at hs with hmatch
  apply hres
  rw [naptInbound_translated_iff]
  exact ⟨v, i, hparse, not_not.mp hdst,
    fun hicmp => by_contra fun hother => hecho ⟨hicmp, hother⟩,
    portSlot_eq_some.mp hslot, hmatch.1, hmatch.2⟩

theorem tableStep_outbound (r : NaptRun) (t : Nat) {pkt : Bytes} {avail : Nat}
    (havail : avail ≤ pkt.length) : r.TableStep (t, .outbound pkt avail) := by
  obtain ⟨v, i, e, hp, hparse, hext, hecho, hentry, hres⟩ | hres :=
    naptOutbound_cases r.napt pkt avail (clock32 t)
  · have hport := portSlot_translated r.napt hp havail i
    -- the packet passed the guards that come before the lookup
    have hgo : ¬(r.napt.gExt = Ip4.any ∨ v.proto = 1 ∧ byte pkt v.ihl ≠ 8) := by
      rintro (hany | ⟨hicmp, hother⟩)
      · exact hext hany
      · exact hother (hecho hicmp)
    refine .touched (s := ⟨i, v.proto, ⟨ipDst pkt, be16 pkt (keyfield v false)⟩,
      byte pkt (v.ihl + 13)⟩) (e := e) ?_ ?_ ?_ ?_ ?_
    · simp only [segment, hparse, Option.bind_some, if_neg hgo, hentry, Option.map_some]
    · obtain ⟨-, hk, rfl⟩ | ⟨-, hk, -⟩ := outboundEntry_cases hentry <;>
        exact congrArg NaptKey.proto hk
    · intro hlive
      obtain ⟨-, -, he⟩ | ⟨hfree, -⟩ := outboundEntry_cases hentry
      · exact he
      · exact absurd hlive hfree
    · simp only [step, stepOutbound, hparse, slotOf, hres, if_true, hport]
      rfl
    · simp only [step, stepOutbound, hparse, slotOf, hres, if_true, hport]
  · -- a refused packet only counts as a drop
    refine .kept (segment_outbound_of_refused (by simp [hres])) (by simp) ?_ ?_
    · simp only [step, stepOutbound, hres, slotOf]
      split <;> rfl
    · simp only [step, stepOutbound, hres, slotOf]
      split <;> rfl

theorem tableStep_inbound (r : NaptRun) (t : Nat) (pkt : Bytes) (avail : Nat) :
    r.TableStep (t, .inbound pkt avail) := by
  obtain ⟨v, i, -, hparse, hdst, hecho, hport, hlive, hproto, hres⟩ | hres :=
    naptInbound_cases r.napt pkt avail (clock32 t)
  · have hslot := portSlot_eq_some.mpr hport
    have hgo : ¬(ipDst pkt ≠ r.napt.gExt ∨ v.proto = 1 ∧ byte pkt v.ihl ≠ 0) := by
      rintro (hother | ⟨hicmp, hother⟩)
      · exact hother hdst
      · exact hother (hecho hicmp)
    have hmatch : r.Live t i ∧ (r.napt.table i).proto = v.proto := ⟨hlive, hproto⟩
    refine .touched (s := ⟨i, v.proto, ⟨ipSrc pkt, be16 pkt (keyfield v true)⟩,
      byte pkt (v.ihl + 13)⟩) (e := r.napt.table i) ?_ hproto (fun _ => rfl) ?_ ?_
    · simp only [segment, hparse, Option.bind_some, if_neg hgo, hslot, if_pos hmatch]
    · simp only [step, stepInbound, hparse, slotOf, hres, if_true, hslot]
      rfl
    · simp only [step, stepInbound, hparse, slotOf, hres, if_true, hslot]
  · refine .kept (segment_inbound_of_refused (by simp [hres])) (by simp) ?_ ?_
    · simp only [step, stepInbound, hres, slotOf]
      split <;> rfl
    · simp only [step, stepInbound, hres, slotOf]
      split <;> rfl

theorem tableStep (r : NaptRun) {a : Nat × NaptOp} (ha : r.admits a) : r.TableStep a := by
  obtain ⟨t, op⟩ := a
  cases op with
  | outbound pkt avail => exact tableStep_outbound r t ha.2
  | inbound pkt avail => exact tableStep_inbound r t pkt avail
  | setExtIp ip => exact .kept rfl (by simp) rfl rfl
  | setMssClamp mss => exact .kept rfl (by simp) rfl rfl
  | reset => exact .cleared rfl rfl

end NaptRun

/-! ### Runs with their connections -/

/-- A run that remembers the connections of the mapping each slot holds, or held last. -/
structure FlowRun where
  run : NaptRun := {}
  conn : Fin naptMax → Remote → TcpConn := fun _ _ => {}

namespace FlowRun

/-- The connections of the mapping a segment goes through, before it: those of the live one, or none
yet of a new one. -/
def mapped (r : FlowRun) (t : Nat) (i : Fin naptMax) : Remote → TcpConn :=
  if r.run.Live t i then r.conn i else fun _ => {}

/-- The connections of that mapping after the segment. Only TCP has any. -/
def tracked (r : FlowRun) (t : Nat) (s : Segment) : Remote → TcpConn :=
  let conns := r.mapped t s.slot
  if s.proto = 6 then Function.update conns s.remote ((conns s.remote).track s.flags t)
  else conns

/-- One call. A reset drops every mapping with its connections. -/
def step (r : FlowRun) (a : Nat × NaptOp) : FlowRun where
  run := r.run.step a
  conn :=
    match a.2, r.run.segment a with
    | .reset, _ => fun _ _ => {}
    | _, some s => Function.update r.conn s.slot (r.tracked a.1 s)
    | _, none => r.conn

/-- A segment of one connection that leaves the others of its mapping alone: it ends its own only
when no other is established, and establishes it only on an entry that is not closing. -/
structure Undisturbed (r : FlowRun) (a : Nat × NaptOp) (s : Segment) : Prop where
  ends : s.flags &&& 0x05 ≠ 0 → ∀ ρ, ρ ≠ s.remote → (r.mapped a.1 s.slot ρ).phase ≠ .established
  starts : s.flags &&& 0x05 = 0 → s.flags &&& 0x12 = 0x10 →
    (r.mapped a.1 s.slot s.remote).phase = .handshake →
      (r.run.napt.table s.slot).state ≠ .closing

/-- A call of the runs considered: at an admitted time, and undisturbing if it is TCP. -/
def admits (r : FlowRun) (a : Nat × NaptOp) : Prop :=
  r.run.admits a ∧ ∀ s ∈ r.run.segment a, s.proto = 6 → r.Undisturbed a s

/-- The runs from power-up. -/
def Reachable (r : FlowRun) : Prop := Reach (· = {}) admits step r

/-- The entry of an established connection says so, and was in use as late as the connection. -/
structure Inv (r : FlowRun) : Prop where
  table : r.run.Inv
  entry : ∀ i ρ, (r.conn i ρ).phase = .established →
    (r.run.napt.table i).proto = 6 ∧ (r.run.napt.table i).state = .established
  recent : ∀ i ρ, (r.conn i ρ).phase = .established → (r.conn i ρ).lastAt ≤ r.run.lastUse i

section Step

variable {r : FlowRun} {a : Nat × NaptOp} {s : Segment} {e : NaptEntry} {ρ : Remote}

theorem conn_of_segment (hseg : r.run.segment a = some s) :
    (r.step a).conn = Function.update r.conn s.slot (r.tracked a.1 s) := by
  obtain ⟨t, op⟩ := a
  unfold step
  cases op with
  | reset => cases hseg
  | outbound => simp only [hseg]
  | inbound => simp only [hseg]
  | setExtIp => cases hseg
  | setMssClamp => cases hseg

theorem conn_of_kept (hseg : r.run.segment a = none) (hreset : a.2 ≠ .reset) :
    (r.step a).conn = r.conn := by
  obtain ⟨t, op⟩ := a
  unfold step
  cases op with
  | reset => exact absurd rfl hreset
  | outbound => simp only [hseg]
  | inbound => simp only [hseg]
  | setExtIp => rfl
  | setMssClamp => rfl

/-- A connection of the mapping that was established before. -/
theorem mapped_established {t : Nat} {i : Fin naptMax}
    (h : (r.mapped t i ρ).phase = .established) :
    r.run.Live t i ∧ (r.conn i ρ).phase = .established := by
  unfold mapped at h
  split_ifs at h with hlive
  exact ⟨hlive, h⟩

theorem mapped_handshake {t : Nat} {i : Fin naptMax}
    (h : (r.mapped t i ρ).phase = .handshake) : r.run.Live t i := by
  unfold mapped at h
  split_ifs at h with hlive
  exact hlive

/-- The segment leaves the entry established for every connection that is. -/
theorem Inv.touched_state (h : r.Inv) (hproto : e.proto = s.proto)
    (hentry : r.run.Live a.1 s.slot → e = r.run.napt.table s.slot)
    (hquiet : s.proto = 6 → r.Undisturbed a s)
    (hest : (r.tracked a.1 s ρ).phase = .established) :
    (e.touch s.flags (clock32 a.1)).proto = 6 ∧
      (e.touch s.flags (clock32 a.1)).state = .established := by
  unfold tracked at hest
  by_cases htcp : s.proto = 6
  · rw [if_pos htcp] at hest
    have hstate : (e.touch s.flags (clock32 a.1)).state = tcpTrack e.state s.flags := by
      unfold NaptEntry.touch
      rw [if_pos (hproto.trans htcp)]
    refine ⟨hproto.trans htcp, ?_⟩
    rw [hstate]
    by_cases hself : ρ = s.remote
    · -- its own segment: the connection was established, or is from now on
      rw [hself, Function.update_self] at hest
      obtain ⟨hend, hbefore | ⟨hstart, hack⟩⟩ := TcpConn.track_established hest
      · obtain ⟨hlive, hconn⟩ := mapped_established hbefore
        have hes := (h.entry s.slot s.remote hconn).2
        exact tcpTrack_established hend (.inl (hentry hlive ▸ hes))
      · have hlive := mapped_handshake hstart
        have hopen := (hquiet htcp).starts hend hack hstart
        exact tcpTrack_established hend (.inr ⟨hack, hentry hlive ▸ hopen⟩)
    · -- a segment of another one, which may not end anything now
      rw [Function.update_of_ne hself] at hest
      have hend : s.flags &&& 0x05 = 0 := by
        by_contra hend
        exact (hquiet htcp).ends hend ρ hself hest
      obtain ⟨hlive, hconn⟩ := mapped_established hest
      have hes := (h.entry s.slot ρ hconn).2
      exact tcpTrack_established hend (.inl (hentry hlive ▸ hes))
  · rw [if_neg htcp] at hest
    obtain ⟨hlive, hconn⟩ := mapped_established hest
    have hsix := (h.entry s.slot ρ hconn).1
    rw [← hentry hlive, hproto] at hsix
    exact absurd hsix htcp

theorem Inv.tracked_lastAt (h : r.Inv) (ht : r.run.Ticks a.1)
    (hest : (r.tracked a.1 s ρ).phase = .established) : (r.tracked a.1 s ρ).lastAt ≤ a.1 := by
  -- a connection that was there before had its last packet before now
  have hmapped : (r.mapped a.1 s.slot ρ).phase = .established →
      (r.mapped a.1 s.slot ρ).lastAt ≤ a.1 := by
    intro hbefore
    obtain ⟨hlive, hconn⟩ := mapped_established hbefore
    have hproto := (h.entry s.slot ρ hconn).1
    have huse := (h.recent s.slot ρ hconn).trans
      ((h.table.past s.slot (by rw [hproto]; decide)).trans ht.1)
    unfold mapped
    rwa [if_pos hlive]
  unfold tracked at hest ⊢
  split_ifs at hest ⊢ with htcp
  · by_cases hself : ρ = s.remote
    · rw [hself, Function.update_self]
      exact le_rfl
    · rw [Function.update_of_ne hself] at hest ⊢
      exact hmapped hest
  · exact hmapped hest

/-- A packet changes one entry and the connections of its mapping. -/
theorem Inv.touched (h : r.Inv) (ha : r.admits a) (hseg : r.run.segment a = some s)
    (hproto : e.proto = s.proto) (hentry : r.run.Live a.1 s.slot → e = r.run.napt.table s.slot)
    (hnew : (r.run.step a).napt.table =
      Function.update r.run.napt.table s.slot (e.touch s.flags (clock32 a.1)))
    (huse : (r.run.step a).lastUse = Function.update r.run.lastUse s.slot a.1) :
    (r.step a).Inv := by
  -- either part looks at the touched slot and at the others, which are as they were
  have hconn := conn_of_segment hseg
  have hrun : (r.step a).run = r.run.step a := rfl
  refine ⟨h.table.step ha.1, ?_, ?_⟩
  · intro i ρ hest
    rw [hconn] at hest
    rw [hrun, hnew]
    by_cases hi : i = s.slot
    · subst hi
      rw [Function.update_self] at hest ⊢
      exact h.touched_state hproto hentry (ha.2 s hseg) hest
    · rw [Function.update_of_ne hi] at hest ⊢
      exact h.entry i ρ hest
  · intro i ρ hest
    rw [hconn] at hest ⊢
    rw [hrun, huse]
    by_cases hi : i = s.slot
    · subst hi
      rw [Function.update_self] at hest ⊢
      rw [Function.update_self]
      exact h.tracked_lastAt ha.1.ticks hest
    · rw [Function.update_of_ne hi] at hest ⊢
      rw [Function.update_of_ne hi]
      exact h.recent i ρ hest

/-- One call keeps the invariant. -/
theorem Inv.step (h : r.Inv) (ha : r.admits a) : (r.step a).Inv := by
  have htable := h.table.step ha.1
  have hrun : (r.step a).run = r.run.step a := rfl
  obtain ⟨hseg, hproto, hentry, hnew, huse⟩ | ⟨-, hreset⟩ | ⟨hseg, hreset, hnew, huse⟩ :=
    r.run.tableStep ha.1
  · exact h.touched ha hseg hproto hentry hnew huse
  · -- a reset leaves no connection to speak of
    have hnone : ∀ i ρ, ((r.step a).conn i ρ).phase ≠ .established := by
      intro i ρ
      unfold FlowRun.step
      rw [hreset]
      exact TcpPhase.noConfusion
    exact ⟨htable, fun i ρ hest => absurd hest (hnone i ρ),
      fun i ρ hest => absurd hest (hnone i ρ)⟩
  · have hconn := conn_of_kept hseg hreset
    refine ⟨htable, ?_, ?_⟩
    · intro i ρ hest
      rw [hconn] at hest
      rw [hrun, hnew]
      exact h.entry i ρ hest
    · intro i ρ hest
      rw [hconn] at hest ⊢
      rw [hrun, huse]
      exact h.recent i ρ hest

end Step

theorem Reachable.inv {r : FlowRun} (hr : r.Reachable) : r.Inv := by
  apply Reach.invariant _ _ hr
  · rintro r rfl
    have hnone : ∀ i ρ, (({} : FlowRun).conn i ρ).phase ≠ .established :=
      fun _ _ => TcpPhase.noConfusion
    exact ⟨NaptRun.Reachable.inv (.start rfl), fun i ρ hest => absurd hest (hnone i ρ),
      fun i ρ hest => absurd hest (hnone i ρ)⟩
  · intro r a _ ha h
    exact h.step ha

/-- A packet from port 80 of a remote to the NAT port of slot zero. -/
def reply (src : Ip4) (flags : UInt8) : NaptOp :=
  .inbound (tcpSegment src ⟨10, 0, 0, 1⟩ (0, 80) (0xEA, 0x60) flags) 40

end FlowRun

end Molewire
