/-
# The NAT without an external address

An external address of zero stands for a station without a lease, and disables
translation. The outbound path tests for it. The inbound path does not: it
compares the destination with the external address, whatever that is, and
mappings outlive a change of address. Without an external address a packet to
0.0.0.0 that hits a mapping is therefore still translated, and it is the only
kind that is.
-/

import Molewire.NaptExpiry

namespace Molewire

open ByteBuffer Transition

/-- Without an external address nothing leaves translated. -/
theorem naptOutbound_of_disabled {n : Napt} (h : n.gExt = Ip4.any) (pkt : Bytes) (avail : Nat)
    (now : UInt32) : ¬(naptOutbound n pkt avail now).translated := by
  rw [naptOutbound_translated_iff]
  rintro ⟨hext, -⟩
  exact hext h

namespace NaptRun

/-! ### Translation in a run -/

/-- The call translates its packet. -/
def Translates (r : NaptRun) : Nat × NaptOp → Prop
  | (t, .outbound pkt avail) => (naptOutbound r.napt pkt avail (clock32 t)).translated
  | (t, .inbound pkt avail) => (naptInbound r.napt pkt avail (clock32 t)).translated
  | _ => False

/-- There is no external address, `0 disables translation`. -/
def Disabled (r : NaptRun) : Prop := r.napt.gExt = Ip4.any

/-- The packet's port or echo id is that of a live slot of its protocol. An echo id counts in a
reply only. -/
def Hits (r : NaptRun) (t : Nat) (pkt : Bytes) (avail : Nat) : Prop :=
  ∃ v i, parse pkt avail = some v ∧ (v.proto = 1 → byte pkt v.ihl = 0) ∧
    be16 pkt (keyfield v false) = natPort i ∧ r.Live t i ∧ (r.napt.table i).proto = v.proto

/-- The call hands in an inbound packet to 0.0.0.0 that hits a live slot. -/
def HitsUnset (r : NaptRun) : Nat × NaptOp → Prop
  | (t, .inbound pkt avail) => ipDst pkt = Ip4.any ∧ r.Hits t pkt avail
  | _ => False

/-- One call, without an external address. -/
theorem Disabled.translates_iff {r : NaptRun} (h : r.Disabled) (a : Nat × NaptOp) :
    r.Translates a ↔ r.HitsUnset a := by
  obtain ⟨t, op⟩ := a
  cases op with
  | outbound pkt avail => exact iff_of_false (naptOutbound_of_disabled h pkt avail _) id
  | inbound pkt avail =>
    have hext : r.napt.gExt = Ip4.any := h
    refine (naptInbound_translated_iff ..).trans ?_
    rw [hext]
    constructor
    · rintro ⟨v, i, hparse, hdst, hecho, hport, hlive, hproto⟩
      exact ⟨hdst, v, i, hparse, hecho, hport, hlive, hproto⟩
    · rintro ⟨hdst, v, i, hparse, hecho, hport, hlive, hproto⟩
      exact ⟨v, i, hparse, hdst, hecho, hport, hlive, hproto⟩
  | setExtIp ip => exact Iff.rfl
  | setMssClamp mss => exact Iff.rfl
  | reset => exact Iff.rfl

/-! ### Whole runs -/

/-- No call of the run translates a packet while there is no external address. -/
def SilentWhileDisabled : NaptRun → List (Nat × NaptOp) → Prop :=
  AdmitsAll (fun r a => r.Disabled → ¬r.Translates a) step

/-- No call of the run hands in a packet to 0.0.0.0 that hits a live slot, while there is no
external address. -/
def MissesWhileDisabled : NaptRun → List (Nat × NaptOp) → Prop :=
  AdmitsAll (fun r a => r.Disabled → ¬r.HitsUnset a) step

/-- In every run, from any state: nothing is translated in either direction while the address is
zero exactly when no packet hits a mapping under 0.0.0.0 then. -/
theorem napt_disabled_iff (r : NaptRun) (calls : List (Nat × NaptOp)) :
    r.SilentWhileDisabled calls ↔ r.MissesWhileDisabled calls := by
  induction calls generalizing r with
  | nil => exact Iff.rfl
  | cons a rest ih =>
    refine and_congr ?_ (ih (r.step a))
    exact forall_congr' fun h => not_congr (h.translates_iff a)

/-- The lease is lost while the mapping of slot zero lives. -/
def leaseLost : NaptRun := oneClient.step (10, .setExtIp Ip4.any)

/-- A datagram to 0.0.0.0 for the port of slot zero. -/
def unsetReply : NaptOp :=
  .inbound (udpDatagram ⟨8, 8, 8, 8⟩ Ip4.any (0, 53) (0xEA, 0x60)) 28

/-- With the lease lost, a datagram to 0.0.0.0 is translated to the client of the mapping. -/
theorem napt_translates_disabled :
    leaseLost.Ran ∧ leaseLost.Disabled ∧ leaseLost.Comes (20, unsetReply) ∧
      leaseLost.Translates (20, unsetReply) ∧
      ¬oneClient.SilentWhileDisabled [(10, .setExtIp Ip4.any), (20, unsetReply)] := by
  have hcomes : oneClient.clock ≤ 10 := by decide +kernel
  have htranslates : (naptInbound leaseLost.napt
      (udpDatagram ⟨8, 8, 8, 8⟩ Ip4.any (0, 53) (0xEA, 0x60)) 28 (clock32 20)).translated := by
    decide +kernel
  refine ⟨oneClient_ran.step hcomes, rfl, ⟨by decide +kernel, by decide⟩, htranslates, ?_⟩
  rintro ⟨-, hsilent, -⟩
  exact hsilent rfl htranslates

end NaptRun

end Molewire
