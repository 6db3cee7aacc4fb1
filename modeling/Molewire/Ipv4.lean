/-
# IPv4 addresses and headers

Addresses are kept as the four octets that travel on the wire. Arithmetic on
them (subnet tests, prefix masks) is done on the 32-bit value with the first
octet most significant; the firmware holds the same value byte-swapped, which
no comparison can tell apart.
-/

import Molewire.Library.ByteBuffer

namespace Molewire

open ByteBuffer

/-- An `ip4_addr_t`, as its octets in wire order. -/
structure Ip4 where
  o0 : UInt8
  o1 : UInt8
  o2 : UInt8
  o3 : UInt8
  deriving DecidableEq, Repr, Inhabited

namespace Ip4

/-- `0.0.0.0`, which the firmware reads as "unset". -/
def any : Ip4 := ⟨0, 0, 0, 0⟩

/-- The bytes of an address in memory and on the wire. -/
def octets (a : Ip4) : Bytes := [a.o0, a.o1, a.o2, a.o3]

@[simp] theorem length_octets (a : Ip4) : a.octets.length = 4 := rfl

/-- The address value in host order. -/
def toUInt32 (a : Ip4) : UInt32 :=
  a.o0.toUInt32 <<< 24 ||| a.o1.toUInt32 <<< 16 ||| a.o2.toUInt32 <<< 8 ||| a.o3.toUInt32

/-- The address of a value in host order. -/
def ofUInt32 (h : UInt32) : Ip4 :=
  ⟨(h >>> 24).toUInt8, (h >>> 16).toUInt8, (h >>> 8).toUInt8, h.toUInt8⟩

/-- `ip4_addr_net_eq`: the two addresses agree under the mask. -/
def netEq (a b mask : Ip4) : Bool :=
  a.toUInt32 &&& mask.toUInt32 == b.toUInt32 &&& mask.toUInt32

/-- The mask of a prefix length, `0xFFFFFFFF << (32 - prefix)`, with prefix `0` for no mask. -/
def prefixMask (plen : Nat) : Ip4 :=
  if plen = 0 then any else ofUInt32 (0xFFFFFFFF <<< (UInt32.ofNat (32 - plen)))

/-- The address stored at an offset of a packet. -/
def atOffset (b : Bytes) (off : Nat) : Ip4 :=
  ⟨byte b off, byte b (off + 1), byte b (off + 2), byte b (off + 3)⟩

theorem atOffset_congr {b b' : Bytes} {off : Nat}
    (h : ∀ k < 4, byte b (off + k) = byte b' (off + k)) : atOffset b off = atOffset b' off := by
  have h0 := h 0 (by omega)
  have h1 := h 1 (by omega)
  have h2 := h 2 (by omega)
  have h3 := h 3 (by omega)
  simp only [atOffset, h1, h2, h3, Nat.add_zero] at h0 ⊢
  rw [h0]

theorem atOffset_splice_self {b : Bytes} {off : Nat} (a : Ip4) (h : off + 4 ≤ b.length) :
    atOffset (splice b off a.octets) off = a := by
  unfold atOffset
  rw [byte_splice_of_mem (by omega) (by simp) (by omega),
    byte_splice_of_mem (by omega) (by simp) (by omega),
    byte_splice_of_mem (by omega) (by simp) (by omega),
    byte_splice_of_mem (by omega) (by simp) (by omega)]
  simp [octets]

end Ip4

/-- The source address of an IPv4 packet. -/
def ipSrc (pkt : Bytes) : Ip4 := Ip4.atOffset pkt 12

/-- The destination address of an IPv4 packet. -/
def ipDst (pkt : Bytes) : Ip4 := Ip4.atOffset pkt 16

/-- The version nibble. -/
def ipVersion (pkt : Bytes) : Nat := (byte pkt 0).toNat / 16

/-- The header length in bytes. -/
def ipHeaderLen (pkt : Bytes) : Nat := (byte pkt 0).toNat % 16 * 4

/-- The total-length field. -/
def ipTotalLen (pkt : Bytes) : Nat := be16 pkt 2

theorem ipHeaderLen_even (pkt : Bytes) : ipHeaderLen pkt % 2 = 0 := by
  unfold ipHeaderLen
  omega

/-- More fragments follow, or this one does not start at offset zero. -/
def isFragment (pkt : Bytes) : Bool := byte pkt 6 &&& 0x3F != 0 || byte pkt 7 != 0

/-- A UDP header pair without payload. -/
def udpDatagram (src dst : Ip4) (sport dport : UInt8 × UInt8) : Bytes :=
  [0x45, 0, 0, 28, 0, 0, 0, 0, 64, 17, 0, 0] ++ src.octets ++ dst.octets ++
    [sport.1, sport.2, dport.1, dport.2, 0, 8, 0, 0]

/-- A TCP header pair without options or payload. -/
def tcpSegment (src dst : Ip4) (sport dport : UInt8 × UInt8) (flags : UInt8) : Bytes :=
  [0x45, 0, 0, 40, 0, 0, 0, 0, 64, 6, 0, 0] ++ src.octets ++ dst.octets ++
    [sport.1, sport.2, dport.1, dport.2, 0, 0, 0, 0, 0, 0, 0, 0, 0x50, flags, 16, 0, 0, 0, 0, 0]

end Molewire
