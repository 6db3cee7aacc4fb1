/-
# Egress checksum restoration

Packets the device originates leave the stack with zero checksums, and the
forwarding path zeroes the IP header checksum of the rest. The last hop before
each link recomputes every checksum field it finds zero: `eth_csum.c` on the
radio links, `wireguardif.c` into the tunnel.

Every access is checked against the buffer, so a function that touches a byte
outside it has no result.
-/

import Molewire.Ipv4

namespace Molewire

open ByteBuffer OnesComplement

/-! ### Sums -/

/-- `csum_add`: add the words of a span to a running sum. -/
def csumAdd : Nat → Bytes → Nat
  | sum, x :: y :: rest => csumAdd (sum + word x y) rest
  | sum, [x] => sum + x.toNat * 256
  | sum, [] => sum

theorem csumAdd_eq (sum : Nat) (d : Bytes) : csumAdd sum d = sum + wordSum d := by
  induction d using wordSum.induct generalizing sum with
  | case1 => simp [csumAdd]
  | case2 x => simp [csumAdd, wordSum]
  | case3 x y rest ih =>
    rw [csumAdd, ih, wordSum]
    omega

/-- `csum_finish`: fold the carries and complement. -/
def csumFinish (sum : Nat) : Nat := finish sum

/-! ### Checked accesses -/

/-- Read `n` bytes, all of which must lie inside the buffer. -/
def readSpan (f : Bytes) (off n : Nat) : Option Bytes :=
  if off + n ≤ f.length then some (span f off n) else none

/-- Store a big-endian word inside the buffer. -/
def write16 (f : Bytes) (off w : Nat) : Option Bytes :=
  if off + 2 ≤ f.length then some (splice f off (bytes w)) else none

/-- `p[0] == 0 && p[1] == 0`; the second byte is only read when the first is zero. -/
def isZero16 (f : Bytes) (off : Nat) : Option Bool := do
  let hi ← f[off]?
  if hi != 0 then return false
  let lo ← f[off + 1]?
  return lo == 0

/-- The transport sum of `len` bytes at `l4` with the pseudo header of the IP header at `ip`. -/
def pseudoSum (f : Bytes) (ip l4 len : Nat) (proto : UInt8) : Option Nat := do
  let addrs ← readSpan f (ip + 12) 8
  let seg ← readSpan f l4 len
  return csumAdd (csumAdd 0 addrs + (proto.toNat + len)) seg

/-! ### Restorers -/

/-- Store a checksum where the field is zero; it is only computed then. -/
def restoreAt (f : Bytes) (off : Nat) (csum : Option Nat) : Option Bytes := do
  if ← isZero16 f off then
    let c ← csum
    write16 f off c
  else return f

/-- The header checksum of the IP header at `ip`. -/
def restoreHeader (f : Bytes) (ip ihl : Nat) : Option Bytes :=
  restoreAt f (ip + 10) do
    let hdr ← readSpan f ip ihl
    return csumFinish (csumAdd 0 hdr)

/-- The transport checksum, unless the packet is a fragment: then no header here covers it. -/
def restoreTransport (f : Bytes) (ip ihl tot : Nat) : Option Bytes := do
  let fragHi ← f[ip + 6]?
  if fragHi &&& 0x3F != 0 then return f
  let fragLo ← f[ip + 7]?
  if fragLo != 0 then return f
  let proto ← f[ip + 9]?
  let l4 := ip + ihl
  let l4len := tot - ihl
  if proto = 1 ∧ 8 ≤ l4len then
    restoreAt f (l4 + 2) do
      let seg ← readSpan f l4 l4len
      return csumFinish (csumAdd 0 seg)
  else if proto = 6 ∧ 20 ≤ l4len then
    restoreAt f (l4 + 16) do
      let sum ← pseudoSum f ip l4 l4len proto
      return csumFinish sum
  else if proto = 17 ∧ 8 ≤ l4len then
    restoreAt f (l4 + 6) do
      let sum ← pseudoSum f ip l4 l4len proto
      -- a computed zero would read as "no checksum", so the other zero is sent
      return if csumFinish sum = 0 then 0xFFFF else csumFinish sum
  else return f

/-- What both restorers do once the lengths have been checked. -/
def restoreFields (f : Bytes) (ip ihl tot : Nat) : Option Bytes := do
  let f ← restoreHeader f ip ihl
  restoreTransport f ip ihl tot

/-- `eth_csum_restore` on the flat frame of a single pbuf (`p->next == NULL`; a chain passes
through). The frame length is a 16-bit value, and so is the sum it is compared with. -/
def ethCsumRestore (f : Bytes) : Option Bytes := do
  if f.length < 34 then return f
  let ty ← readSpan f 12 2
  if ty ≠ [0x08, 0x00] then return f
  let hdr ← readSpan f 14 4
  let ihl := ipHeaderLen hdr
  let tot := ipTotalLen hdr
  if ipVersion hdr ≠ 4 ∨ ihl < 20 ∨ tot < ihl ∨ f.length < (14 + tot) % 65536 then return f
  restoreFields f 14 ihl tot

/-- `wireguardif_fix_checksums` on an IP packet about to be encrypted. -/
def wireguardifFixChecksums (pkt : Bytes) : Option Bytes := do
  if pkt.length < 20 ∨ ipVersion pkt ≠ 4 then return pkt
  let ihl := ipHeaderLen pkt
  let tot := ipTotalLen pkt
  if ihl < 20 ∨ tot < ihl ∨ pkt.length < tot then return pkt
  restoreFields pkt 0 ihl tot

/-! ### The restorers see the packet only -/

section Frame

variable (eth f : Bytes)

theorem getElem?_frame (i : Nat) : (eth ++ f)[eth.length + i]? = f[i]? := by
  rw [List.getElem?_append_right (by omega), Nat.add_sub_cancel_left]

theorem span_frame (off n : Nat) : span (eth ++ f) (eth.length + off) n = span f off n := by
  apply List.ext_getElem?
  intro i
  simp only [getElem?_span, Nat.add_assoc, getElem?_frame]

theorem readSpan_frame (off n : Nat) :
    readSpan (eth ++ f) (eth.length + off) n = readSpan f off n := by
  unfold readSpan
  rw [span_frame, List.length_append]
  simp only [show eth.length + off + n ≤ eth.length + f.length ↔ off + n ≤ f.length by omega]

theorem splice_frame (off : Nat) (xs : Bytes) :
    splice (eth ++ f) (eth.length + off) xs = eth ++ splice f off xs := by
  apply List.ext_getElem?
  intro i
  -- a byte of the Ethernet header, or one of the packet
  rcases Nat.lt_or_ge i eth.length with hi | hi
  · rw [getElem?_splice_of_not_mem (by omega), List.getElem?_append_left hi,
      List.getElem?_append_left hi]
  · obtain ⟨k, rfl⟩ := Nat.exists_eq_add_of_le hi
    rw [getElem?_splice, getElem?_frame, getElem?_frame, getElem?_splice]
    simp [Nat.add_sub_add_left]

theorem write16_frame (off w : Nat) :
    write16 (eth ++ f) (eth.length + off) w = (write16 f off w).map (eth ++ ·) := by
  unfold write16
  rw [splice_frame, List.length_append]
  simp only [show eth.length + off + 2 ≤ eth.length + f.length ↔ off + 2 ≤ f.length by omega]
  split <;> rfl

theorem isZero16_frame (off : Nat) :
    isZero16 (eth ++ f) (eth.length + off) = isZero16 f off := by
  simp only [isZero16, Nat.add_assoc, getElem?_frame]

theorem restoreAt_frame (off : Nat) (csum : Option Nat) :
    restoreAt (eth ++ f) (eth.length + off) csum = (restoreAt f off csum).map (eth ++ ·) := by
  unfold restoreAt
  rw [isZero16_frame]
  cases isZero16 f off with
  | none => rfl
  | some z =>
    cases z with
    | false => rfl
    | true => cases csum <;> simp [write16_frame]

theorem restoreHeader_frame (ihl : Nat) :
    restoreHeader (eth ++ f) eth.length ihl = (restoreHeader f 0 ihl).map (eth ++ ·) := by
  have hspan := readSpan_frame eth f 0 ihl
  rw [Nat.add_zero] at hspan
  rw [restoreHeader, restoreHeader, hspan, restoreAt_frame, Nat.zero_add]

theorem restoreTransport_frame (ihl tot : Nat) :
    restoreTransport (eth ++ f) eth.length ihl tot =
      (restoreTransport f 0 ihl tot).map (eth ++ ·) := by
  unfold restoreTransport pseudoSum
  simp only [Nat.add_assoc, Nat.zero_add, getElem?_frame, readSpan_frame, restoreAt_frame]
  rw [Option.bind_eq_bind, Option.bind_eq_bind, Option.map_bind]
  -- each read in turn, past the Ethernet header
  congr 1
  funext hi
  rw [Function.comp_apply]
  split
  · rfl
  rw [Option.map_bind]
  congr 1
  funext lo
  rw [Function.comp_apply]
  split
  · rfl
  rw [Option.map_bind]
  congr 1
  funext proto
  rw [Function.comp_apply]
  split_ifs <;> rfl

/-- On an Ethernet frame the restorer does to the packet what it does to the packet alone. -/
theorem restoreFields_frame (ihl tot : Nat) :
    restoreFields (eth ++ f) eth.length ihl tot = (restoreFields f 0 ihl tot).map (eth ++ ·) := by
  rw [restoreFields, restoreFields, restoreHeader_frame]
  cases restoreHeader f 0 ihl with
  | none => rfl
  | some q => exact restoreTransport_frame eth q ihl tot

end Frame

/-! ### What the frame restorers check -/

/-- The first four bytes tell the version and both lengths. -/
theorem ipFields_span (pkt : Bytes) :
    ipVersion (span pkt 0 4) = ipVersion pkt ∧ ipHeaderLen (span pkt 0 4) = ipHeaderLen pkt ∧
      ipTotalLen (span pkt 0 4) = ipTotalLen pkt := by
  have hbyte : ∀ k < 4, byte (span pkt 0 4) k = byte pkt k := by
    intro k hk
    simp only [byte, List.getD_eq_getElem?_getD, getElem?_span, if_pos hk, Nat.zero_add]
  refine ⟨?_, ?_, ?_⟩
  · rw [ipVersion, ipVersion, hbyte 0 (by omega)]
  · rw [ipHeaderLen, ipHeaderLen, hbyte 0 (by omega)]
  · rw [ipTotalLen, ipTotalLen, be16, be16, hbyte 2 (by omega), hbyte 3 (by omega)]

theorem span_drop (f : Bytes) (n s k : Nat) : span (f.drop n) s k = span f (n + s) k := by
  rw [span, span, List.drop_drop]

/-- The checks both frame restorers begin with. -/
def frameGuard (f : Bytes) (rest : Nat → Nat → Option Bytes) : Option Bytes := do
  if f.length < 34 then return f
  let ty ← readSpan f 12 2
  if ty ≠ [0x08, 0x00] then return f
  let hdr ← readSpan f 14 4
  if ipVersion hdr ≠ 4 ∨ ipHeaderLen hdr < 20 ∨ ipTotalLen hdr < ipHeaderLen hdr ∨
      f.length < (14 + ipTotalLen hdr) % 65536 then return f
  rest (ipHeaderLen hdr) (ipTotalLen hdr)

theorem ethCsumRestore_eq_guard (f : Bytes) :
    ethCsumRestore f = frameGuard f (restoreFields f 14) := rfl

/-- What passes them. -/
structure Accepted (f : Bytes) : Prop where
  long : 34 ≤ f.length
  type : span f 12 2 = [0x08, 0x00]
  version : ipVersion (f.drop 14) = 4
  twenty_le : 20 ≤ ipHeaderLen (f.drop 14)
  header_le : ipHeaderLen (f.drop 14) ≤ ipTotalLen (f.drop 14)
  fits : (14 + ipTotalLen (f.drop 14)) % 65536 ≤ f.length

section Guard

variable {f : Bytes} {rest : Nat → Nat → Option Bytes}

/-- Of a frame that is long enough, the guard looks at the type and the fields of the packet. -/
theorem frameGuard_of_long (hlong : 34 ≤ f.length) :
    frameGuard f rest =
      if span f 12 2 ≠ [0x08, 0x00] ∨ ipVersion (f.drop 14) ≠ 4 ∨ ipHeaderLen (f.drop 14) < 20 ∨
          ipTotalLen (f.drop 14) < ipHeaderLen (f.drop 14) ∨
          f.length < (14 + ipTotalLen (f.drop 14)) % 65536 then some f
      else rest (ipHeaderLen (f.drop 14)) (ipTotalLen (f.drop 14)) := by
  have hty : readSpan f 12 2 = some (span f 12 2) := if_pos (by omega)
  have hhdr : readSpan f 14 4 = some (span f 14 4) := if_pos (by omega)
  obtain ⟨hver, hihl, htot⟩ := ipFields_span (f.drop 14)
  rw [span_drop] at hver hihl htot
  rw [frameGuard, if_neg (by omega), hty]
  simp only [Option.bind_eq_bind, Option.bind_some, hhdr, hver, hihl, htot]
  by_cases htype : span f 12 2 ≠ [0x08, 0x00]
  · rw [if_pos htype, if_pos (.inl htype)]
    rfl
  · rw [if_neg htype]
    simp only [htype, false_or]
    rfl

theorem frameGuard_accepted (h : Accepted f) :
    frameGuard f rest = rest (ipHeaderLen (f.drop 14)) (ipTotalLen (f.drop 14)) := by
  rw [frameGuard_of_long h.long, if_neg]
  simp only [not_or, not_not, Nat.not_lt]
  exact ⟨h.type, h.version, h.twenty_le, h.header_le, h.fits⟩

/-- Every other frame passes through. -/
theorem frameGuard_rejected (h : ¬Accepted f) : frameGuard f rest = some f := by
  by_cases hlong : 34 ≤ f.length
  · rw [frameGuard_of_long hlong, if_pos]
    by_contra hc
    simp only [not_or, not_not, Nat.not_lt] at hc
    exact h ⟨hlong, hc.1, hc.2.1, hc.2.2.1, hc.2.2.2.1, hc.2.2.2.2⟩
  · rw [frameGuard, if_pos (by omega)]
    rfl

/-- An IPv4 packet behind an Ethernet header of that type. -/
theorem frameGuard_frame {eth pkt : Bytes} (heth : eth.length = 14)
    (htype : span eth 12 2 = [0x08, 0x00]) (hver : ipVersion pkt = 4)
    (hihl : 20 ≤ ipHeaderLen pkt) (hle : ipHeaderLen pkt ≤ ipTotalLen pkt)
    (hfits : ipTotalLen pkt ≤ pkt.length) (hlen : 14 + ipTotalLen pkt < 65536) :
    frameGuard (eth ++ pkt) rest = rest (ipHeaderLen pkt) (ipTotalLen pkt) := by
  have hdrop : (eth ++ pkt).drop 14 = pkt := List.drop_left' heth
  have hframe : (eth ++ pkt).length = 14 + pkt.length := by rw [List.length_append, heth]
  have hacc : Accepted (eth ++ pkt) := by
    refine ⟨by omega, ?_, by rw [hdrop]; exact hver, by rw [hdrop]; exact hihl,
      by rw [hdrop]; exact hle, ?_⟩
    · rw [span_append (by omega), htype]
    · rw [hdrop, Nat.mod_eq_of_lt hlen]
      omega
  rw [frameGuard_accepted hacc, hdrop]

end Guard

end Molewire
