/-
# The capture ring

`pcap.c`: frames seen on the client links, kept as native pcap records in a
ring of 64 KiB. A record is contiguous: one that would straddle the end goes to
offset 0, and `high` remembers where the records at the top end. A download
takes the records in place, as one or two spans, and until it lets go nothing
is captured.
-/

import Molewire.Library.ByteBuffer
import Mathlib.Data.Bool.Basic

namespace Molewire

open ByteBuffer

/-- `RING_SIZE`. -/
def ringSize : Nat := 64 * 1024

/-- `SNAPLEN`. -/
def snaplen : Nat := 256

/-- `REC_HDR`. -/
def recHdr : Nat := 16

/-- `PCAP_GLOBAL_HDR_LEN`. -/
def pcapGlobalHdrLen : Nat := 24

/-- A `uint32_t` in memory. -/
def le32 (n : Nat) : Bytes :=
  [n.toUInt8, (n / 2 ^ 8).toUInt8, (n / 2 ^ 16).toUInt8, (n / 2 ^ 24).toUInt8]

/-- The statics of `pcap.c`. -/
structure Pcap where
  ring : Nat → UInt8 := fun _ => 0
  head : Nat := 0
  tail : Nat := 0
  high : Nat := 0
  wrapped : Bool := false
  enabled : Bool := false
  paused : Bool := false
  nPackets : Nat := 0

namespace Pcap

/-- `memcpy(ring + off, bs, ..)`. -/
def store (p : Pcap) (off : Nat) (bs : Bytes) : Pcap :=
  { p with ring := fun i => if off ≤ i ∧ i < off + bs.length then byte bs (i - off) else p.ring i }

/-- `rec_len_at`. -/
def recLenAt (p : Pcap) (off : Nat) : Nat :=
  (recHdr + (p.ring (off + 8)).toNat + 2 ^ 8 * (p.ring (off + 9)).toNat +
    2 ^ 16 * (p.ring (off + 10)).toNat + 2 ^ 24 * (p.ring (off + 11)).toNat) % 2 ^ 32

/-- The loop of `evict`. Every round drops a record, of at least a header. -/
def evictLoop (start need : Nat) : Nat → Pcap → Pcap
  | 0, p => p
  | fuel + 1, p =>
    if ¬p.wrapped then p
    else
      let next := (p.tail + p.recLenAt p.tail) % 2 ^ 32
      -- the oldest record is clear of the place of the new one
      if start + need ≤ p.tail ∨ next ≤ start then p
      -- the lap before is used up, and the log is in one piece again
      else if p.high ≤ next then { p with tail := 0, high := p.head, wrapped := false }
      else evictLoop start need fuel { p with tail := next }

/-- `evict`. -/
def evict (p : Pcap) (start need : Nat) : Pcap :=
  evictLoop start need (ringSize / recHdr + 1) p

/-- The record's place moves to the start of the ring when it would straddle the end. -/
def wrap (p : Pcap) (need : Nat) : Pcap :=
  if ringSize < p.head + need then
    { p with
      -- the oldest records are those at the top, and are given up together
      tail := if p.wrapped ∧ p.head ≤ p.tail then 0 else p.tail
      high := p.head
      head := 0
      wrapped := true }
  else p

/-- The record of a frame: the header, with the time in seconds and microseconds, and the bytes
kept. -/
def record (us : UInt64) (frame : Bytes) (len : UInt16) : Bytes :=
  let incl := min len.toNat snaplen
  le32 (us.toNat / 1000000) ++ le32 (us.toNat % 1000000) ++ le32 incl ++ le32 len.toNat ++
    frame.take incl

/-- `pcap_capture`, at `us` microseconds since boot. -/
def capture (p : Pcap) (us : UInt64) (frame : Bytes) (len : UInt16) : Pcap :=
  if ¬p.enabled ∨ p.paused ∨ len = 0 then p
  else
    let need := recHdr + min len.toNat snaplen
    let p := p.wrap need
    -- only a wrapped ring has older records in front of the head
    let p := if p.wrapped then p.evict p.head need else p
    let p := p.store p.head (record us frame len)
    let p := { p with head := p.head + need }
    { p with
      high := if p.high < p.head ∧ ¬p.wrapped then p.head else p.high
      nPackets := (p.nPackets + 1) % 2 ^ 32 }

/-- `pcap_set_enabled`. -/
def setEnabled (p : Pcap) (on : Bool) : Pcap := { p with enabled := on }

/-- `pcap_clear`. -/
def clear (p : Pcap) : Pcap :=
  { p with head := 0, tail := 0, high := 0, wrapped := false, nPackets := 0 }

/-- `pcap_stats`: the packets and the bytes used. -/
def stats (p : Pcap) : Nat × Nat :=
  (p.nPackets, if p.wrapped then (p.high - p.tail) + p.head else p.head - p.tail)

/-- The offset and the length of the two spans `pcap_freeze` gives. -/
def spans (p : Pcap) : (Nat × Nat) × (Nat × Nat) :=
  if p.wrapped then ((p.tail, p.high - p.tail), (0, p.head))
  else ((p.tail, p.head - p.tail), (0, 0))

/-- `pcap_freeze`, what it leaves behind. -/
def freeze (p : Pcap) : Pcap := { p with paused := true }

/-- `pcap_resume`. -/
def resume (p : Pcap) : Pcap := { p with paused := false }

/-- `pcap_global_header`. -/
def globalHeader : Bytes :=
  le32 0xA1B2C3D4 ++ le32 0x00040002 ++ le32 0 ++ le32 0 ++ le32 snaplen ++ le32 1

/-- While paused nothing is captured. -/
theorem capture_paused {p : Pcap} (h : p.paused = true) (us : UInt64) (frame : Bytes)
    (len : UInt16) : p.capture us frame len = p := by
  rw [capture, if_pos (.inr (.inl h))]

end Pcap

end Molewire
