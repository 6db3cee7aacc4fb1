/-
# Replies to the device itself

In exit mode the station has two users behind one address: the tunnel's hosts,
whose ports the NAT numbers from a fixed base, and the device, whose ports lwIP
draws from a range of its own. The hook that looks for the NAT's packets sees
only protocol and destination port, and the second range contains the first.
-/

import Molewire.ExitMode

namespace Molewire

open ByteBuffer Transition

namespace Device

/-! ### Exchanges -/

/-- What lwIP draws local ports from. -/
def EphemeralPort (port : Nat) : Prop := 49152 ≤ port ∧ port ≤ 65535

instance (port : Nat) : Decidable (EphemeralPort port) := inferInstanceAs (Decidable (_ ∧ _))

/-- A UDP or TCP packet that the device itself sends from the station's address. -/
structure OwnRequest (d : Device) (req : Bytes) (v : PktView) : Prop where
  parsed : parse req req.length = some v
  transport : v.proto = 6 ∨ v.proto = 17
  source : ipSrc req = (d.stack.netif .sta).addr
  own : d.isOwnAddr (ipSrc req)
  port : EphemeralPort (be16 req (keyfield v true))

/-- The same flow the other way. -/
structure ReplyTo (req : Bytes) (v : PktView) (rep : Bytes) : Prop where
  proto : byte rep 9 = v.proto
  source : ipSrc rep = ipDst req
  dest : ipDst rep = ipSrc req
  sourcePort : be16 rep (ipHeaderLen rep) = be16 req (keyfield v false)
  destPort : be16 rep (ipHeaderLen rep + 2) = be16 req (keyfield v true)

/-- The hook changes neither the packet nor the NAT. -/
def Untouched (d : Device) (pkt : Bytes) (now : UInt32) : Prop :=
  d.wgIp4InputHook .sta pkt now = ⟨false, d.napt, pkt⟩

/-- A host behind the tunnel has the port at that time. -/
def PortTaken (n : Napt) (proto : UInt8) (port : Nat) (now : UInt32) : Prop :=
  ∃ i, port = natPort i ∧ entryLive (n.table i) now ∧ (n.table i).proto = proto

section Hook

variable {d : Device} {req rep pkt : Bytes} {v : PktView} {now : UInt32}

/-- The request itself leaves as it is. -/
theorem OwnRequest.sent (h : d.OwnRequest req v) (now : UInt32) :
    d.staOutput req now = (d, some ⟨req, false⟩) := by
  unfold staOutput exitStaOutput
  simp [h.own]

/-- In exit mode the hook is `napt_inbound`, which leaves alone what it does not translate. -/
theorem untouched_iff (hsta : d.wg.staNetif) (hexit : d.wg.exitOn) :
    d.Untouched pkt now ↔ ¬(naptInbound d.napt pkt pkt.length now).translated := by
  have hhook : d.wgIp4InputHook .sta pkt now = naptInbound d.napt pkt pkt.length now := by
    unfold wgIp4InputHook
    rw [if_pos ⟨hexit, rfl, hsta⟩]
  rw [Untouched, hhook]
  obtain ⟨v, i, -, -, -, -, -, -, -, hres⟩ | hres :=
    naptInbound_cases d.napt pkt pkt.length now
  · rw [hres]
    simp
  · rw [hres]
    simp

/-- A reply matches a mapping by its protocol and port alone. -/
theorem ReplyTo.translated_iff (hreq : d.OwnRequest req v) (hrep : ReplyTo req v rep) (n : Napt) :
    (naptInbound n rep rep.length now).translated ↔
      (parse rep rep.length).isSome ∧ ipSrc req = n.gExt ∧
        PortTaken n v.proto (be16 req (keyfield v true)) now := by
  -- an answer is TCP or UDP as the request was, so the port is its destination port
  have hicmp : v.proto ≠ 1 := by
    rcases hreq.transport with h | h <;> simp [h]
  have hfield {w : PktView} (hw : parse rep rep.length = some w) :
      w.proto = v.proto ∧ keyfield w false = ipHeaderLen rep + 2 := by
    have hparsed := parsed_of_parse hw
    have hproto := hparsed.proto.trans hrep.proto
    refine ⟨hproto, ?_⟩
    rw [keyfield, if_neg (hproto ▸ hicmp), hparsed.ihl]
    rfl
  rw [naptInbound_translated_iff, hrep.dest]
  constructor
  · rintro ⟨w, i, hw, hdst, -, hport, hlive, hproto⟩
    obtain ⟨hsame, hkey⟩ := hfield hw
    rw [hkey, hrep.destPort] at hport
    exact ⟨Option.isSome_of_eq_some hw, hdst, i, hport, hlive, hproto.trans hsame⟩
  · rintro ⟨hparse, hdst, i, hport, hlive, hproto⟩
    obtain ⟨w, hw⟩ := Option.isSome_iff_exists.mp hparse
    obtain ⟨hsame, hkey⟩ := hfield hw
    refine ⟨w, i, hw, hdst, fun hone => absurd (hsame.symm.trans hone) hicmp, ?_, hlive,
      hproto.trans hsame.symm⟩
    rw [hkey, hrep.destPort, hport]

end Hook

/-! ### Runs -/

/-- In every run, after any events since the request, a reply that arrives in exit mode is left
alone exactly if no tunnel host holds the local port, as far as the NAT would look. -/
theorem own_reply_untouched_iff {d : Device} (hd : d.Reachable) {req rep : Bytes} {v : PktView}
    (hreq : d.OwnRequest req v) (hrep : ReplyTo req v rep) (sent : UInt32) (events : List Event)
    (hexit : (events.foldl step (d.step (.staOutput req sent))).wg.exitOn) (now : UInt32) :
    (d.staOutput req sent).2 = some ⟨req, false⟩ ∧
      ((events.foldl step (d.step (.staOutput req sent))).Untouched rep now ↔
        ((parse rep rep.length).isSome →
          ipSrc req = (events.foldl step (d.step (.staOutput req sent))).napt.gExt →
            ¬PortTaken (events.foldl step (d.step (.staOutput req sent))).napt v.proto
              (be16 req (keyfield v true)) now)) := by
  refine ⟨by rw [hreq.sent], ?_⟩
  have hrun : Reachable (events.foldl step (d.step (.staOutput req sent))) :=
    Reachable.run (hd.step trivial) events
  generalize events.foldl step (d.step (.staOutput req sent)) = d' at hexit hrun ⊢
  -- in exit mode the hook of the station is in place
  have hsta := (hrun.inv.wrapped (.inr hexit)).1
  rw [untouched_iff hsta hexit, hrep.translated_iff hreq]
  constructor
  · intro hmiss hparse hext htaken
    exact hmiss ⟨hparse, hext, htaken⟩
  · rintro hfree ⟨hparse, hext, htaken⟩
    exact hfree hparse hext htaken

/-! ### A collision -/

/-- A peer behind the tunnel has asked a host on the internet something, which gave it the first
port of the NAT. -/
def exitNodeInUse : Device :=
  exitNode.step (.staOutput (udpDatagram ⟨10, 9, 0, 5⟩ ⟨8, 8, 8, 8⟩ (0x12, 0x34) (0, 53)) 3000)

/-- A question of the device to its resolver. -/
def ownQuestion (sport : UInt8 × UInt8) : Bytes :=
  udpDatagram ⟨192, 168, 1, 66⟩ ⟨192, 168, 1, 1⟩ sport (0, 53)

def answer (dport : UInt8 × UInt8) : Bytes :=
  udpDatagram ⟨192, 168, 1, 1⟩ ⟨192, 168, 1, 66⟩ (0, 53) dport

/-- Asked from port 50000. -/
theorem own_reply_untouched_low :
    (exitNodeInUse.step (.staOutput (ownQuestion (0xC3, 0x50)) 3500)).Untouched
      (answer (0xC3, 0x50)) 4000 := by
  have hreq : exitNodeInUse.OwnRequest (ownQuestion (0xC3, 0x50)) ⟨20, 17, 8⟩ :=
    ⟨by decide, by decide, by decide +kernel, by decide +kernel, by decide⟩
  have hrep : ReplyTo (ownQuestion (0xC3, 0x50)) ⟨20, 17, 8⟩ (answer (0xC3, 0x50)) :=
    ⟨by decide, by decide, by decide, by decide, by decide⟩
  refine ((own_reply_untouched_iff (exitNode_reachable.step trivial) hreq hrep 3500 []
    (by decide +kernel) 4000).2.mpr ?_)
  -- the ports of the NAT start above it
  rintro - - ⟨i, hport, -⟩
  have hlow : be16 (ownQuestion (0xC3, 0x50)) (keyfield ⟨20, 17, 8⟩ true) = 50000 := by decide
  rw [hlow, natPort, naptPortBase] at hport
  omega

/-- Asked from port 60000 the answer is readdressed to the peer. -/
theorem own_reply_stolen :
    exitNodeInUse.Reachable ∧ exitNodeInUse.wg.exitOn ∧
      exitNodeInUse.OwnRequest (ownQuestion (0xEA, 0x60)) ⟨20, 17, 8⟩ ∧
        ReplyTo (ownQuestion (0xEA, 0x60)) ⟨20, 17, 8⟩ (answer (0xEA, 0x60)) ∧
          ipDst ((exitNodeInUse.step (.staOutput (ownQuestion (0xEA, 0x60)) 3500)).wgIp4InputHook
            .sta (answer (0xEA, 0x60)) 4000).pkt = ⟨10, 9, 0, 5⟩ := by
  refine ⟨exitNode_reachable.step trivial, by decide +kernel, ?_, ?_, by decide +kernel⟩
  · exact ⟨by decide, by decide, by decide +kernel, by decide +kernel, by decide⟩
  · exact ⟨by decide, by decide, by decide, by decide, by decide⟩

end Device

end Molewire
