/-
# The header checksum behind an inbound translation

Towards the stack there is no egress hop: `ip4_input` runs the hook and then
drops a packet whose header checksum does not verify. An update of a checksum
that is present keeps it verifying. A field of zero is taken for the mark and
left as it is, also where it is the checksum of a header that verifies, and
then only the two addresses decide.
-/

import Molewire.NaptChecksum
import Molewire.NaptMapping

namespace Molewire

open ByteBuffer OnesComplement

/-- The inner address of the slot whose port a packet is for. -/
def mappedIp (n : Napt) (pkt : Bytes) (avail : Nat) : Option Ip4 := do
  let v ← parse pkt avail
  let i ← portSlot (be16 pkt (keyfield v false))
  return (n.table i).innerIp

/-- The address at an offset is the four bytes there. -/
theorem span_address {pkt : Bytes} {off : Nat} (h : off + 4 ≤ pkt.length) :
    span pkt off 4 = (Ip4.atOffset pkt off).octets := by
  rw [show (4 : Nat) = 2 + 2 from rfl, span_add, span_two (by omega), span_two (by omega)]
  rfl

/-- What translation does to the sum over the header and to the field in it. -/
theorem translate_headerSum {pkt : Bytes} {avail : Nat} {v : PktView} (hp : Parsed pkt avail v)
    (havail : avail ≤ pkt.length) (mss : UInt16) {addr : Nat} (haddr : addr = 12 ∨ addr = 16)
    (srcSide : Bool) (ip : Ip4) (port : UInt8 × UInt8) {q : Bytes}
    (hq : q = translate mss pkt v addr (keyfield v srcSide) ip port) :
    headerSum v.ihl q + (be16 pkt 10 + wordSum (span pkt addr 4)) =
        headerSum v.ihl pkt + (be16 q 10 + wordSum ip.octets) ∧
      (be16 pkt 10 = 0 → be16 q 10 = 0) ∧
      (be16 pkt 10 ≠ 0 →
        be16 q 10 + wordSum ip.octets ≡ be16 pkt 10 + wordSum (span pkt addr 4) [MOD 65535]) := by
  have hihl := hp.twenty_le
  have hl4 := hp.l4avail
  have hroom := hp.room
  have hoff : v.ihl + l4CsumOff v.proto + 2 ≤ pkt.length := by
    unfold l4CsumOff
    split_ifs at hroom ⊢ <;> omega
  obtain ⟨p1, p2, hrw, f1, a2, -⟩ := rewriteAddr_writes pkt ip hp.supported haddr hihl hoff
  have hlen1 : p1.length = pkt.length := f1.agree.length_eq
  have hlen2 : p2.length = pkt.length := a2.length_eq.trans hlen1
  have a3 : AgreeOff p2 (splice p2 addr ip.octets) addr 4 := agreeOff_splice p2 addr ip.octets
  -- the second half of the translation is behind the header
  have hkept (k : Nat) (hk : k < v.ihl) : byte q k = byte (splice p2 addr ip.octets) k := by
    rw [hq, translate, byte_rewritePort_of_lt hk (le_keyfield v srcSide), hrw]
  have hfield : be16 q 10 = be16 p1 10 := by
    rw [be16, hkept 10 (by omega), hkept 11 (by omega), ← be16, a3.be16_eq (by omega),
      a2.be16_eq (by omega)]
  have hspan : span q 0 v.ihl = span (splice p2 addr ip.octets) 0 v.ihl := by
    have hlenq : q.length = pkt.length := by rw [hq, length_translate]
    apply List.ext_getElem?
    intro k
    rw [getElem?_span, getElem?_span, Nat.zero_add]
    split_ifs with hk
    · have hbyte := hkept k hk
      have hlt : k < q.length := by omega
      have hlt' : k < (splice p2 addr ip.octets).length := by rw [length_splice]; omega
      simpa [byte, List.getD_eq_getElem?_getD, List.getElem?_eq_getElem hlt,
        List.getElem?_eq_getElem hlt'] using hbyte
    · rfl
  refine ⟨?_, fun h0 => hfield.trans (f1.zero h0), fun h0 => ?_⟩
  · have hsum := a3.wordSum_span (s := 0) (n := v.ihl) (by omega) (by omega) (by omega) rfl
      (by omega)
    have hnew : span (splice p2 addr ip.octets) addr 4 = ip.octets :=
      span_splice_self (by rw [Ip4.length_octets]; omega)
    rw [hnew, a2.span_eq (.inl (by omega)),
      a2.span_eq (.inl (by omega)), f1.agree.span_eq (by omega)] at hsum
    have hword := f1.agree.wordSum_word (s := 0) (n := v.ihl) (by omega) (by omega) rfl (by omega)
    rw [headerSum, headerSum, hspan, hfield]
    omega
  · rw [hfield]
    exact f1.adjusted h0

/-- A header is never all zero: its version is in it. -/
theorem headerSum_pos {pkt : Bytes} {ihl : Nat} (hver : ipVersion pkt = 4) (hihl : 2 ≤ ihl)
    (hlen : ihl ≤ pkt.length) : 0 < headerSum ihl pkt := by
  have hle : be16 pkt 0 ≤ headerSum ihl pkt :=
    be16_le_wordSum_span (Nat.le_refl 0) (by omega) rfl (by omega)
  have hpos : 0 < be16 pkt 0 := by
    rw [ipVersion] at hver
    rw [be16, word]
    omega
  omega

/-- Behind an inbound translation the header checksum verifies as it did before, unless the field
is a zero that verifies: then only where both addresses have the same sum. -/
theorem naptInbound_header_iff {n : Napt} {pkt : Bytes} {avail : Nat} {now : UInt32}
    (havail : avail ≤ pkt.length) (hver : HeaderVerifies pkt)
    (htr : (naptInbound n pkt avail now).translated) :
    HeaderVerifies (naptInbound n pkt avail now).pkt ↔
      be16 pkt 10 ≠ 0 ∨ ∀ ip, mappedIp n pkt avail = some ip →
        wordSum ip.octets ≡ wordSum (ipDst pkt).octets [MOD 65535] := by
  obtain ⟨v, i, hp, hparse, -, -, hport, -, -, hres⟩ | hres := naptInbound_cases n pkt avail now
  · have hmapped : mappedIp n pkt avail = some (n.table i).innerIp := by
      simp [mappedIp, hparse, portSlot_eq_some.mpr hport]
    have hihl := hp.twenty_le
    have hl4 := hp.l4avail
    have hkept (k : Nat) (hk : k < 10) :
        byte (naptInbound n pkt avail now).pkt k = byte pkt k := by
      rw [hres]
      dsimp only
      rw [translate, byte_rewritePort_of_lt (by omega) (le_keyfield v false),
        byte_rewriteAddr (by omega) (by omega) (by omega)]
    have hihlq : ipHeaderLen (naptInbound n pkt avail now).pkt = v.ihl := by
      rw [hp.ihl, ipHeaderLen, ipHeaderLen, hkept 0 (by omega)]
    have hlenq : (naptInbound n pkt avail now).pkt.length = pkt.length := by
      rw [hres]
      exact length_translate
    have hverq : ipVersion (naptInbound n pkt avail now).pkt = 4 := by
      rw [ipVersion, hkept 0 (by omega)]
      exact hp.version
    have hpos : 0 < headerSum v.ihl (naptInbound n pkt avail now).pkt :=
      headerSum_pos hverq (by omega) (by omega)
    obtain ⟨hsum, hzero, hadj⟩ := translate_headerSum hp havail n.gMss (.inr rfl) false
      (n.table i).innerIp (n.table i).innerPort
      (q := (naptInbound n pkt avail now).pkt) (by rw [hres])
    rw [span_address (by omega)] at hsum hadj
    have hver' : headerSum v.ihl pkt ≡ 0 [MOD 65535] := by
      rw [HeaderVerifies, finish_eq_zero_iff, ← hp.ihl] at hver
      exact hver.2
    rw [HeaderVerifies, hihlq, finish_eq_zero_iff, hmapped]
    simp only [Option.some.injEq, forall_eq', ipDst]
    by_cases h0 : be16 pkt 10 = 0
    · -- nothing is updated, and what was written shows in the sum
      rw [hzero h0, h0, Nat.zero_add, Nat.zero_add] at hsum
      simp only [h0, ne_eq, not_true_eq_false, false_or, hpos, true_and]
      simp only [Nat.ModEq] at hver' ⊢
      omega
    · have hres' := hadj h0
      refine ⟨fun _ => .inl h0, fun _ => ⟨hpos, ?_⟩⟩
      simp only [Nat.ModEq] at hver' hres' ⊢
      omega
  · simp [hres] at htr

/-- A datagram from `8.8.8.8` for slot zero, with an identification and a header checksum. -/
def replyDatagram (ident csum : UInt8 × UInt8) : Bytes :=
  [0x45, 0, 0, 28, ident.1, ident.2, 0, 0, 64, 17, csum.1, csum.2, 8, 8, 8, 8, 10, 0, 0, 1,
    0, 53, 0xEA, 0x60, 0, 8, 0, 0]

theorem naptInbound_header_iff_reply :
    HeaderVerifies
      (naptInbound NaptRun.oneClient.napt (replyDatagram (0, 0) (0x60, 0xC1)) 28 10).pkt := by
  have hver : HeaderVerifies (replyDatagram (0, 0) (0x60, 0xC1)) := by
    unfold HeaderVerifies
    decide +kernel
  exact (naptInbound_header_iff (by decide) hver (by decide +kernel)).mpr (.inl (by decide))

/-- A reply whose identification makes its header checksum zero is translated to a header that no
longer verifies. -/
theorem naptInbound_header_fails :
    HeaderVerifies (replyDatagram (0x60, 0xC1) (0, 0)) ∧
      (naptInbound NaptRun.oneClient.napt (replyDatagram (0x60, 0xC1) (0, 0)) 28 10).translated ∧
      ¬HeaderVerifies
        (naptInbound NaptRun.oneClient.napt (replyDatagram (0x60, 0xC1) (0, 0)) 28 10).pkt := by
  unfold HeaderVerifies
  refine ⟨by decide +kernel, by decide +kernel, by decide +kernel⟩

end Molewire
