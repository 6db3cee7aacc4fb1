/-
# The three restorers

What all three copies do to a packet with consistent lengths is one function of
the packet: the header checksum is written where it is zero, and that of a
whole transport header that is no fragment's is too. Doing it again changes
nothing, for a field that is zero still is one that verifies.
-/

import Molewire.HostCsum

namespace Molewire

open ByteBuffer OnesComplement

/-! ### What is restored -/

/-- The lengths of an IPv4 packet agree with each other and with the buffer. -/
structure Consistent (pkt : Bytes) : Prop where
  version : ipVersion pkt = 4
  twenty_le : 20 ≤ ipHeaderLen pkt
  header_le : ipHeaderLen pkt ≤ ipTotalLen pkt
  fits : ipTotalLen pkt ≤ pkt.length
  udpLen : isFragment pkt = false → byte pkt 9 = 17 → 8 ≤ ipTotalLen pkt - ipHeaderLen pkt →
    be16 pkt (ipHeaderLen pkt + 4) = ipTotalLen pkt - ipHeaderLen pkt

/-- The packet is no fragment and has a whole header of a transport with a checksum. -/
def WholeTransport (pkt : Bytes) : Prop :=
  isFragment pkt = false ∧ (byte pkt 9 = 6 ∨ byte pkt 9 = 17 ∨ byte pkt 9 = 1) ∧
    (if byte pkt 9 = 6 then 20 else 8) ≤ ipTotalLen pkt - ipHeaderLen pkt

instance (pkt : Bytes) : Decidable (WholeTransport pkt) :=
  inferInstanceAs (Decidable (_ ∧ _ ∧ _))

/-- The header checksum is computed where it is zero. -/
def restoredHeader (pkt : Bytes) : Bytes :=
  if be16 pkt 10 = 0 then
    splice pkt 10 (bytes (finish (headerSum (ipHeaderLen pkt) pkt)))
  else pkt

/-- And so is the transport checksum. -/
def restoredTransport (pkt : Bytes) : Bytes :=
  if WholeTransport pkt ∧ be16 pkt (l4Csum pkt) = 0 then
    splice pkt (l4Csum pkt) (bytes (restoredCsum (byte pkt 9)
      (l4Sum (ipHeaderLen pkt) (ipTotalLen pkt - ipHeaderLen pkt) (byte pkt 9) pkt)))
  else pkt

/-- What the restorers make of a packet. -/
def restored (pkt : Bytes) : Bytes := restoredTransport (restoredHeader pkt)

theorem Consistent.complete {pkt : Bytes} (h : Consistent pkt) (hw : WholeTransport pkt) :
    Complete pkt where
  version := h.version
  twenty_le := h.twenty_le
  whole := hw.1
  supported := hw.2.1
  header := by
    have hroom := hw.2.2
    have hle := h.header_le
    omega
  fits := h.fits
  udpLen h17 := by
    have hroom := hw.2.2
    rw [h17, if_neg (by decide)] at hroom
    exact h.udpLen hw.1 h17 hroom

theorem WholeTransport.l4Csum_le {pkt : Bytes} (hw : WholeTransport pkt) (h : Consistent pkt) :
    20 ≤ ipHeaderLen pkt ∧ ipHeaderLen pkt + 2 ≤ l4Csum pkt ∧ l4Csum pkt + 2 ≤ ipTotalLen pkt := by
  have hc := (h.complete hw).l4Csum_le
  have hle := h.header_le
  refine ⟨h.twenty_le, ?_, ?_⟩
  · rw [l4Csum, l4CsumOff]
    split_ifs <;> omega
  · rw [l4Csum]
    omega

/-! ### What changes -/

theorem agreeOff_restoredHeader (pkt : Bytes) : AgreeOff pkt (restoredHeader pkt) 10 2 := by
  rw [restoredHeader]
  split_ifs
  · exact agreeOff_splice _ _ _
  · exact .refl _ _ _

theorem agreeOff_restoredTransport (pkt : Bytes) :
    AgreeOff pkt (restoredTransport pkt) (l4Csum pkt) 2 := by
  rw [restoredTransport]
  split_ifs
  · exact agreeOff_splice _ _ _
  · exact .refl _ _ _

/-- Whatever leaves the lengths, the fragment fields and the protocol alone keeps a packet
consistent. -/
theorem Consistent.of_bytes {pkt out : Bytes} (h : Consistent pkt) (hlen : out.length = pkt.length)
    (hfix : ∀ k < 10, byte out k = byte pkt k)
    (hudp : WholeTransport pkt → byte pkt 9 = 17 →
      be16 out (ipHeaderLen pkt + 4) = be16 pkt (ipHeaderLen pkt + 4)) :
    Consistent out ∧ ipHeaderLen out = ipHeaderLen pkt ∧ ipTotalLen out = ipTotalLen pkt ∧
      byte out 9 = byte pkt 9 ∧ (WholeTransport out ↔ WholeTransport pkt) ∧
      l4Csum out = l4Csum pkt := by
  have hihl : ipHeaderLen out = ipHeaderLen pkt := by
    rw [ipHeaderLen, ipHeaderLen, hfix 0 (by omega)]
  have htot : ipTotalLen out = ipTotalLen pkt := by
    rw [ipTotalLen, ipTotalLen, be16, be16, hfix 2 (by omega), hfix 3 (by omega)]
  have hproto : byte out 9 = byte pkt 9 := hfix 9 (by omega)
  have hfrag : isFragment out = isFragment pkt := by
    rw [isFragment, isFragment, hfix 6 (by omega), hfix 7 (by omega)]
  refine ⟨?_, hihl, htot, hproto, ?_, by rw [l4Csum, l4Csum, hihl, hproto]⟩
  · exact {
      version := by rw [ipVersion, hfix 0 (by omega)]; exact h.version
      twenty_le := by rw [hihl]; exact h.twenty_le
      header_le := by rw [hihl, htot]; exact h.header_le
      fits := by rw [htot, hlen]; exact h.fits
      udpLen := by
        rw [hfrag, hproto, hihl, htot]
        intro hf h17 h8
        rw [hudp ⟨hf, .inr (.inl h17), by rw [h17, if_neg (by decide)]; exact h8⟩ h17]
        exact h.udpLen hf h17 h8 }
  · rw [WholeTransport, WholeTransport, hfrag, hproto, hihl, htot]

theorem Consistent.restoredHeader {pkt : Bytes} (h : Consistent pkt) :
    Consistent (restoredHeader pkt) ∧ ipHeaderLen (restoredHeader pkt) = ipHeaderLen pkt ∧
      ipTotalLen (restoredHeader pkt) = ipTotalLen pkt ∧
      byte (restoredHeader pkt) 9 = byte pkt 9 ∧
      (WholeTransport (restoredHeader pkt) ↔ WholeTransport pkt) ∧
      l4Csum (restoredHeader pkt) = l4Csum pkt := by
  have hagree := agreeOff_restoredHeader pkt
  have hihl := h.twenty_le
  exact h.of_bytes hagree.length_eq (fun k hk => hagree.byte_eq k (.inl hk))
    fun _ _ => hagree.be16_eq (.inr (by omega))

theorem Consistent.restoredTransport {pkt : Bytes} (h : Consistent pkt) :
    Consistent (restoredTransport pkt) ∧ ipHeaderLen (restoredTransport pkt) = ipHeaderLen pkt ∧
      ipTotalLen (restoredTransport pkt) = ipTotalLen pkt ∧
      byte (restoredTransport pkt) 9 = byte pkt 9 ∧
      (WholeTransport (restoredTransport pkt) ↔ WholeTransport pkt) ∧
      l4Csum (restoredTransport pkt) = l4Csum pkt := by
  have hagree := agreeOff_restoredTransport pkt
  have hihl := h.twenty_le
  have hoff : ipHeaderLen pkt + 2 ≤ l4Csum pkt := by
    rw [l4Csum, l4CsumOff]
    split_ifs <;> omega
  refine h.of_bytes hagree.length_eq (fun k hk => hagree.byte_eq k (.inl (by omega)))
    fun _ h17 => hagree.be16_eq (.inl ?_)
  rw [l4Csum, h17]
  exact Nat.le_refl _

/-! ### The copies compute it -/

/-- Storing under a mark. -/
theorem restoreAt_eq {f : Bytes} {c : Nat} (hc : c + 2 ≤ f.length) (w : Nat) :
    restoreAt f c (some w) = some (if be16 f c = 0 then splice f c (bytes w) else f) := by
  rw [restoreAt, isZero16_eq hc]
  by_cases h0 : be16 f c = 0
  · simp [h0, write16, hc]
  · simp [h0]

theorem Consistent.restoreHeader_eq {pkt : Bytes} (h : Consistent pkt) :
    restoreHeader pkt 0 (ipHeaderLen pkt) = some (Molewire.restoredHeader pkt) := by
  have hihl := h.twenty_le
  have hle := h.header_le
  have hfits := h.fits
  rw [restoreHeader, readSpan, if_pos (by omega)]
  simp only [Option.bind_eq_bind, Option.bind_some, Option.pure_def, csumAdd_eq, csumFinish,
    Nat.zero_add]
  exact restoreAt_eq (by omega) _

/-- A packet without a whole transport header is left alone. -/
theorem restoreTransport_skips {pkt : Bytes} (h : Consistent pkt) (hw : ¬WholeTransport pkt) :
    restoreTransport pkt 0 (ipHeaderLen pkt) (ipTotalLen pkt) = some pkt := by
  have hihl := h.twenty_le
  have hle := h.header_le
  have hfits := h.fits
  rw [restoreTransport, Nat.zero_add, Nat.zero_add, Nat.zero_add, getElem?_eq_byte (by omega),
    getElem?_eq_byte (by omega), getElem?_eq_byte (by omega)]
  simp only [Option.bind_eq_bind, Option.bind_some]
  by_cases hhi : byte pkt 6 &&& 0x3F != 0
  · exact if_pos hhi
  rw [if_neg hhi]
  by_cases hlo : byte pkt 7 != 0
  · exact if_pos hlo
  rw [if_neg hlo]
  have hwhole : isFragment pkt = false := by
    rw [isFragment, Bool.or_eq_false_iff]
    exact ⟨by simpa using hhi, by simpa using hlo⟩
  -- each protocol is known, and then its header is not whole
  have hshort : ∀ p len, (p = 6 ∨ p = 17 ∨ p = 1) → len = (if p = 6 then 20 else 8) →
      ¬(byte pkt 9 = p ∧ len ≤ ipTotalLen pkt - ipHeaderLen pkt) := by
    rintro p len hp rfl ⟨rfl, hroom⟩
    exact hw ⟨hwhole, hp, hroom⟩
  rw [if_neg (hshort 1 8 (by decide) rfl), if_neg (hshort 6 20 (by decide) rfl),
    if_neg (hshort 17 8 (by decide) rfl)]
  rfl

theorem Consistent.restoreTransport_eq {pkt : Bytes} (h : Consistent pkt) :
    restoreTransport pkt 0 (ipHeaderLen pkt) (ipTotalLen pkt) =
      some (Molewire.restoredTransport pkt) := by
  by_cases hw : WholeTransport pkt
  · have hc := hw.l4Csum_le h
    have hfits := h.fits
    rw [Molewire.restoreTransport_eq (h.complete hw), restoreAt_eq (by omega),
      Molewire.restoredTransport]
    simp only [hw, true_and]
  · rw [restoreTransport_skips h hw, Molewire.restoredTransport, if_neg fun hc => hw hc.1]

/-- Both restorers' common part is `restored`. -/
theorem Consistent.restoreFields_eq {pkt : Bytes} (h : Consistent pkt) :
    restoreFields pkt 0 (ipHeaderLen pkt) (ipTotalLen pkt) = some (restored pkt) := by
  obtain ⟨hq, hihl, htot, -⟩ := h.restoredHeader
  have hrest := hq.restoreTransport_eq
  rw [hihl, htot] at hrest
  rw [restoreFields, h.restoreHeader_eq]
  exact hrest

theorem Consistent.wireguardif_eq {pkt : Bytes} (h : Consistent pkt) :
    wireguardifFixChecksums pkt = some (restored pkt) := by
  have hihl := h.twenty_le
  have hle := h.header_le
  have hfits := h.fits
  rw [wireguardifFixChecksums, if_neg (by rw [h.version]; omega)]
  dsimp only
  rw [if_neg (by omega)]
  exact h.restoreFields_eq

theorem Consistent.frameGuard_eq {eth pkt : Bytes} (h : Consistent pkt) (heth : eth.length = 14)
    (htype : span eth 12 2 = [0x08, 0x00]) (hlen : 14 + ipTotalLen pkt < 65536)
    {rest : Nat → Nat → Option Bytes} :
    frameGuard (eth ++ pkt) rest = rest (ipHeaderLen pkt) (ipTotalLen pkt) :=
  frameGuard_frame heth htype h.version h.twenty_le h.header_le h.fits hlen

/-- The frame's restorer, behind an Ethernet header of type IPv4. -/
theorem Consistent.ethCsumRestore_eq {eth pkt : Bytes} (h : Consistent pkt)
    (heth : eth.length = 14) (htype : span eth 12 2 = [0x08, 0x00])
    (hlen : 14 + ipTotalLen pkt < 65536) :
    ethCsumRestore (eth ++ pkt) = some (eth ++ restored pkt) := by
  have hfields := restoreFields_frame eth pkt (ipHeaderLen pkt) (ipTotalLen pkt)
  rw [heth, h.restoreFields_eq] at hfields
  rw [ethCsumRestore_eq_guard, h.frameGuard_eq heth htype hlen, hfields]
  rfl

/-! ### What was restored verifies -/

theorem restoredHeader_verifies {pkt : Bytes} (h : Consistent pkt) (h0 : be16 pkt 10 = 0) :
    HeaderVerifies (restoredHeader pkt) := by
  have hihl := h.twenty_le
  have hle := h.header_le
  have hfits := h.fits
  have hwin := headerSum_window hihl (by omega) (agreeOff_restoredHeader pkt)
  have hword : be16 (restoredHeader pkt) 10 = finish (headerSum (ipHeaderLen pkt) pkt) := by
    rw [restoredHeader, if_pos h0, bytes, be16_splice_self (by omega), word_bytes (finish_lt _)]
  rw [h0, hword, Nat.add_zero] at hwin
  rw [HeaderVerifies, h.restoredHeader.2.1, hwin]
  exact finish_add_finish _

/-- And the stored value is never the mark in UDP. -/
theorem restoredTransport_verifies {pkt : Bytes} (h : Consistent pkt) (hw : WholeTransport pkt)
    (h0 : be16 pkt (l4Csum pkt) = 0) :
    L4Verifies (restoredTransport pkt) ∧
      (byte pkt 9 = 17 → be16 (restoredTransport pkt) (l4Csum pkt) ≠ 0) := by
  have hc := hw.l4Csum_le h
  have hfits := h.fits
  have hroom := (h.complete hw).l4Csum_le
  obtain ⟨hcons, hihl, htot, hproto, hwhole, -⟩ := h.restoredTransport
  have hwin := l4Sum_window h.twenty_le hroom.1 (by omega) (agreeOff_restoredTransport pkt)
  have hword : be16 (restoredTransport pkt) (l4Csum pkt) = restoredCsum (byte pkt 9)
      (l4Sum (ipHeaderLen pkt) (ipTotalLen pkt - ipHeaderLen pkt) (byte pkt 9) pkt) := by
    have hlt : restoredCsum (byte pkt 9)
        (l4Sum (ipHeaderLen pkt) (ipTotalLen pkt - ipHeaderLen pkt) (byte pkt 9) pkt) < 65536 := by
      rw [restoredCsum]
      split_ifs
      · decide
      · exact finish_lt _
    rw [restoredTransport, if_pos ⟨hw, h0⟩, bytes, be16_splice_self (by omega), word_bytes hlt]
  rw [← l4Csum, h0, hword, Nat.add_zero] at hwin
  constructor
  · rw [L4Verifies, (hcons.complete (hwhole.mpr hw)).l4Len_eq, hihl, htot, hproto, hwin]
    rcases restoredCsum_cases (byte pkt 9) (l4Sum (ipHeaderLen pkt)
      (ipTotalLen pkt - ipHeaderLen pkt) (byte pkt 9) pkt) with hcase | ⟨hzero, hcase⟩
    · rw [hcase]
      exact finish_add_finish _
    · rw [hcase]
      exact finish_add_ones hzero
  · intro h17
    rw [hword, restoredCsum]
    split_ifs with hzero
    · decide
    · exact fun hfin => hzero ⟨h17, hfin⟩

/-! ### Doing it again -/

/-- A header field that is zero and verifies is computed as zero. -/
theorem restoredHeader_of_verifies {pkt : Bytes} (h : be16 pkt 10 = 0 → HeaderVerifies pkt) :
    restoredHeader pkt = pkt := by
  rw [restoredHeader]
  split_ifs with h0
  · have hv : finish (headerSum (ipHeaderLen pkt) pkt) = 0 := h h0
    rw [hv]
    exact splice_zero h0
  · rfl

theorem restoredTransport_of_verifies {pkt : Bytes} (hcons : Consistent pkt)
    (h : WholeTransport pkt → be16 pkt (l4Csum pkt) = 0 → L4Verifies pkt ∧ byte pkt 9 ≠ 17) :
    restoredTransport pkt = pkt := by
  rw [restoredTransport]
  split_ifs with h0
  · obtain ⟨hv, h17⟩ := h h0.1 h0.2
    rw [L4Verifies, (hcons.complete h0.1).l4Len_eq] at hv
    rw [restoredCsum, if_neg fun hc => h17 hc.1, hv]
    exact splice_zero h0.2
  · rfl

/-- A write to the transport checksum is behind the header. -/
theorem restoredTransport_header {pkt : Bytes} (h : Consistent pkt) :
    be16 (restoredTransport pkt) 10 = be16 pkt 10 ∧
      (HeaderVerifies (restoredTransport pkt) ↔ HeaderVerifies pkt) := by
  have hagree := agreeOff_restoredTransport pkt
  have hihl := h.twenty_le
  have hoff : ipHeaderLen pkt ≤ l4Csum pkt := Nat.le_add_right _ _
  refine ⟨hagree.be16_eq (.inl (by omega)), ?_⟩
  rw [HeaderVerifies, HeaderVerifies, h.restoredTransport.2.1, headerSum, headerSum,
    hagree.span_eq (.inl (by omega))]

/-- After the first time every field that is still zero is one that verifies. -/
theorem restored_idem {pkt : Bytes} (h : Consistent pkt) :
    restored (restored pkt) = restored pkt := by
  have hq := h.restoredHeader.1
  obtain ⟨hcons, -, -, hproto, hwhole, hcsum⟩ := hq.restoredTransport
  obtain ⟨hword, hverifies⟩ := restoredTransport_header hq
  have hheader : restoredHeader (restored pkt) = restored pkt := by
    refine restoredHeader_of_verifies fun h0 => ?_
    rw [restored, hword] at h0
    rw [restored, hverifies]
    -- a field that was not zero is not zero after
    refine restoredHeader_verifies h (by_contra fun hne => ?_)
    rw [restoredHeader, if_neg hne] at h0
    exact hne h0
  have htransport : restoredTransport (restored pkt) = restored pkt := by
    refine restoredTransport_of_verifies hcons fun hw h0 => ?_
    have hw' := hwhole.mp hw
    rw [restored, hcsum] at h0
    have hmark : be16 (restoredHeader pkt) (l4Csum (restoredHeader pkt)) = 0 := by
      by_contra hne
      rw [restoredTransport, if_neg fun hc => hne hc.2] at h0
      exact hne h0
    obtain ⟨hv, hudp⟩ := restoredTransport_verifies hq hw' hmark
    refine ⟨hv, fun h17 => ?_⟩
    rw [restored, hproto] at h17
    exact hudp h17 h0
  rw [restored, hheader, htransport]

/-! ### Padding -/

section Padding

variable {ip : Bytes} (h : Consistent ip) (pad : Bytes)

include h

theorem Consistent.append :
    Consistent (ip ++ pad) ∧ ipHeaderLen (ip ++ pad) = ipHeaderLen ip ∧
      ipTotalLen (ip ++ pad) = ipTotalLen ip ∧ byte (ip ++ pad) 9 = byte ip 9 ∧
      (WholeTransport (ip ++ pad) ↔ WholeTransport ip) := by
  have hihl20 := h.twenty_le
  have hle := h.header_le
  have hfits := h.fits
  have hbyte : ∀ k < ip.length, byte (ip ++ pad) k = byte ip k := fun k hk => byte_append hk
  have hihl : ipHeaderLen (ip ++ pad) = ipHeaderLen ip := by
    rw [ipHeaderLen, ipHeaderLen, hbyte 0 (by omega)]
  have htot : ipTotalLen (ip ++ pad) = ipTotalLen ip := by
    rw [ipTotalLen, ipTotalLen, be16, be16, hbyte 2 (by omega), hbyte 3 (by omega)]
  have hproto : byte (ip ++ pad) 9 = byte ip 9 := hbyte 9 (by omega)
  have hfrag : isFragment (ip ++ pad) = isFragment ip := by
    rw [isFragment, isFragment, hbyte 6 (by omega), hbyte 7 (by omega)]
  refine ⟨?_, hihl, htot, hproto, ?_⟩
  · exact {
      version := by rw [ipVersion, hbyte 0 (by omega)]; exact h.version
      twenty_le := by rw [hihl]; exact h.twenty_le
      header_le := by rw [hihl, htot]; exact h.header_le
      fits := by rw [htot, List.length_append]; omega
      udpLen := by
        rw [hfrag, hproto, hihl, htot]
        intro hf h17 h8
        rw [be16, hbyte _ (by omega), hbyte _ (by omega)]
        exact h.udpLen hf h17 h8 }
  · rw [WholeTransport, WholeTransport, hfrag, hproto, hihl, htot]

theorem restoredHeader_append : restoredHeader (ip ++ pad) = restoredHeader ip ++ pad := by
  have hihl20 := h.twenty_le
  have hle := h.header_le
  have hfits := h.fits
  have hword : be16 (ip ++ pad) 10 = be16 ip 10 := by
    rw [be16, be16, byte_append (by omega), byte_append (by omega)]
  rw [restoredHeader, restoredHeader, hword, (h.append pad).2.1, headerSum, headerSum,
    span_append (by omega)]
  split_ifs
  · exact splice_append (show 10 + 2 ≤ ip.length by omega)
  · rfl

theorem restoredTransport_append : restoredTransport (ip ++ pad) = restoredTransport ip ++ pad := by
  have hihl20 := h.twenty_le
  have hle := h.header_le
  have hfits := h.fits
  obtain ⟨-, hihl, htot, hproto, hwhole⟩ := h.append pad
  have hcsum : l4Csum (ip ++ pad) = l4Csum ip := by rw [l4Csum, l4Csum, hihl, hproto]
  by_cases hw : WholeTransport ip
  · have hc := hw.l4Csum_le h
    have hword : be16 (ip ++ pad) (l4Csum ip) = be16 ip (l4Csum ip) := by
      rw [be16, be16, byte_append (by omega), byte_append (by omega)]
    have hsum : l4Sum (ipHeaderLen ip) (ipTotalLen ip - ipHeaderLen ip) (byte ip 9) (ip ++ pad) =
        l4Sum (ipHeaderLen ip) (ipTotalLen ip - ipHeaderLen ip) (byte ip 9) ip := by
      rw [l4Sum, l4Sum, span_append (by omega), span_append (by omega)]
    rw [restoredTransport, restoredTransport, hcsum, hihl, htot, hproto, hword, hsum]
    simp only [hwhole]
    split_ifs
    · exact splice_append (show l4Csum ip + 2 ≤ ip.length by omega)
    · rfl
  · rw [restoredTransport, restoredTransport, if_neg fun hc => hw (hwhole.mp hc.1),
      if_neg fun hc => hw hc.1]

/-- What stands behind the packet does not matter and is not touched. -/
theorem restored_append : restored (ip ++ pad) = restored ip ++ pad := by
  rw [restored, restored, restoredHeader_append h pad,
    restoredTransport_append h.restoredHeader.1 pad]

end Padding

/-! ### The copy for the host -/

/-- An ICMP message that says a packet had to be fragmented: the copy for the host completes
it. -/
def FragNeeded (pkt : Bytes) : Prop :=
  byte pkt 9 = 1 ∧ 8 ≤ ipTotalLen pkt - ipHeaderLen pkt ∧
    byte pkt (ipHeaderLen pkt) = 3 ∧ byte pkt (ipHeaderLen pkt + 1) = 4

instance (pkt : Bytes) : Decidable (FragNeeded pkt) :=
  inferInstanceAs (Decidable (_ ∧ _ ∧ _))

theorem isZero16_lt {f : Bytes} {off : Nat} {z : Bool} (h : isZero16 f off = some z) :
    off < f.length := by
  by_contra hge
  rw [isZero16, List.getElem?_eq_none (by omega)] at h
  cases h

/-- Any other message is left as it is. -/
theorem stampPathMtu_other (mtu : UInt16) {f : Bytes} {l4 : Nat} (hlt : l4 + 1 < f.length)
    (h : ¬(byte f l4 = 3 ∧ byte f (l4 + 1) = 4)) : stampPathMtu mtu f l4 = some f := by
  rw [stampPathMtu, getElem?_eq_byte (by omega), getElem?_eq_byte hlt]
  simp only [Option.bind_eq_bind, Option.bind_some]
  by_cases h3 : byte f l4 = 3
  · rw [if_neg (not_not.mpr h3), if_pos fun h4 => h ⟨h3, h4⟩]
    rfl
  · rw [if_pos h3]
    rfl

/-- With the clamp off the copy for the host is the other two, but for that message. -/
theorem fixHostTransport_zero (mtu : UInt16) {f : Bytes} {ip ihl tot : Nat}
    (h : ¬(byte f (ip + 9) = 1 ∧ 8 ≤ tot - ihl ∧
      byte f (ip + ihl) = 3 ∧ byte f (ip + ihl + 1) = 4)) :
    fixHostTransport 0 mtu f ip ihl tot = restoreTransport f ip ihl tot := by
  rw [fixHostTransport, restoreTransport]
  congr 1
  funext hi
  split
  · rfl
  congr 1
  funext lo
  split
  · rfl
  rcases Nat.lt_or_ge (ip + 9) f.length with hlt | hge
  · rw [getElem?_eq_byte hlt]
    simp only [Option.bind_eq_bind, Option.bind_some]
    by_cases h1 : byte f (ip + 9) = 1 ∧ 8 ≤ tot - ihl
    · rw [if_pos h1, if_pos h1, restoreAt]
      cases hz : isZero16 f (ip + ihl + 2) with
      | none => rfl
      | some z =>
        cases z with
        | false => rfl
        | true =>
          have hin := isZero16_lt hz
          rw [Option.bind_eq_bind, Option.bind_some, Option.bind_some, if_pos rfl, if_pos rfl,
            stampPathMtu_other mtu (by omega) fun hc => h ⟨h1.1, h1.2, hc⟩, Option.bind_some,
            Option.bind_eq_bind, Option.bind_assoc]
          rfl
    rw [if_neg h1, if_neg h1]
    split_ifs <;> rfl
  · rw [List.getElem?_eq_none hge]
    rfl

theorem byte_frame (eth f : Bytes) (i : Nat) : byte (eth ++ f) (eth.length + i) = byte f i := by
  rw [byte, byte, List.getD_eq_getElem?_getD, List.getD_eq_getElem?_getD, getElem?_frame]

theorem Consistent.fixHostChecksums_eq (mtu : UInt16) {eth pkt : Bytes} (h : Consistent pkt)
    (heth : eth.length = 14) (htype : span eth 12 2 = [0x08, 0x00])
    (hlen : 14 + ipTotalLen pkt < 65536) (hfrag : ¬FragNeeded pkt) :
    fixHostChecksums 0 mtu (eth ++ pkt) = some (eth ++ restored pkt) := by
  have hihl := h.twenty_le
  obtain ⟨hq, hihlq, htotq, hprotoq, -⟩ := h.restoredHeader
  have hagree := agreeOff_restoredHeader pkt
  have hheader := restoreHeader_frame eth pkt (ipHeaderLen pkt)
  rw [heth, h.restoreHeader_eq] at hheader
  -- the header field is not what tells the message apart
  have hother : ¬(byte (eth ++ Molewire.restoredHeader pkt) (14 + 9) = 1 ∧
      8 ≤ ipTotalLen pkt - ipHeaderLen pkt ∧
      byte (eth ++ Molewire.restoredHeader pkt) (14 + ipHeaderLen pkt) = 3 ∧
      byte (eth ++ Molewire.restoredHeader pkt) (14 + ipHeaderLen pkt + 1) = 4) := by
    rw [← heth, Nat.add_assoc, byte_frame, byte_frame, byte_frame, hprotoq,
      hagree.byte_eq _ (.inr (by omega)), hagree.byte_eq _ (.inr (by omega))]
    exact hfrag
  have htransport := restoreTransport_frame eth (Molewire.restoredHeader pkt) (ipHeaderLen pkt)
    (ipTotalLen pkt)
  rw [← hihlq, ← htotq, hq.restoreTransport_eq, hihlq, htotq, heth] at htransport
  rw [fixHostChecksums_eq_guard, h.frameGuard_eq heth htype hlen, hheader, Option.map_some,
    Option.bind_some, fixHostTransport_zero mtu hother, htransport]
  rfl

/-! ### All of it -/

theorem restored_bytes {pkt : Bytes} (h : Consistent pkt) {k : Nat}
    (hk : byte (restored pkt) k ≠ byte pkt k) :
    (be16 pkt 10 = 0 ∧ 10 ≤ k ∧ k < 12) ∨
      (WholeTransport pkt ∧ be16 pkt (l4Csum pkt) = 0 ∧ l4Csum pkt ≤ k ∧ k < l4Csum pkt + 2) := by
  obtain ⟨-, hihl, -, -, hwhole, hcsum⟩ := h.restoredHeader
  have hihl20 := h.twenty_le
  by_cases hheader : byte (restoredHeader pkt) k = byte pkt k
  · -- the transport's write
    right
    by_cases hdone : WholeTransport (restoredHeader pkt) ∧
        be16 (restoredHeader pkt) (l4Csum (restoredHeader pkt)) = 0
    · have hc := (hwhole.mp hdone.1).l4Csum_le h
      have hword := (agreeOff_restoredHeader pkt).be16_eq (k := l4Csum pkt) (.inr (by omega))
      refine ⟨hwhole.mp hdone.1, by rw [← hword, ← hcsum]; exact hdone.2, ?_⟩
      by_contra hout
      refine hk (((agreeOff_restoredTransport (restoredHeader pkt)).byte_eq k ?_).trans hheader)
      rw [hcsum]
      omega
    · rw [restored, restoredTransport, if_neg hdone] at hk
      exact absurd hheader hk
  · left
    by_cases h0 : be16 pkt 10 = 0
    · refine ⟨h0, ?_⟩
      by_contra hout
      exact hheader ((agreeOff_restoredHeader pkt).byte_eq k (by omega))
    · rw [restoredHeader, if_neg h0] at hheader
      exact absurd rfl hheader

/-- **The three restorers agree.** On a packet with consistent lengths, whatever padding stands
behind it, they write the same bytes: checksum fields that were zero, and never a fragment's
transport. What was zero verifies afterwards, if the transport header is whole, a UDP checksum is
there, and doing it again changes nothing. -/
theorem restorers_agree {ip : Bytes} (h : Consistent ip) (pad : Bytes) {eth : Bytes}
    (heth : eth.length = 14) (htype : span eth 12 2 = [0x08, 0x00])
    (hlen : 14 + ipTotalLen ip < 65536) :
    ∃ out : Bytes, ethCsumRestore (eth ++ (ip ++ pad)) = some (eth ++ (out ++ pad)) ∧
      out.length = ip.length ∧
      (∀ k, byte out k ≠ byte ip k → (be16 ip 10 = 0 ∧ 10 ≤ k ∧ k < 12) ∨
        (WholeTransport ip ∧ be16 ip (l4Csum ip) = 0 ∧ l4Csum ip ≤ k ∧ k < l4Csum ip + 2)) ∧
      (isFragment ip = true → ∀ k, ipHeaderLen ip ≤ k → byte out k = byte ip k) ∧
      (be16 ip 10 = 0 → HeaderVerifies out) ∧
      (WholeTransport ip → be16 ip (l4Csum ip) = 0 →
        L4Verifies out ∧ (byte ip 9 = 17 → be16 out (l4Csum ip) ≠ 0)) ∧
      ethCsumRestore (eth ++ (out ++ pad)) = some (eth ++ (out ++ pad)) ∧
      wireguardifFixChecksums ip = some out ∧
      (¬FragNeeded ip → ∀ mtu : UInt16,
        fixHostChecksums 0 mtu (eth ++ (ip ++ pad)) = some (eth ++ (out ++ pad))) := by
  obtain ⟨hq, hihlq, htotq, hprotoq, hwholeq, hcsumq⟩ := h.restoredHeader
  obtain ⟨hout, hihlo, htoto, -, -⟩ := hq.restoredTransport
  obtain ⟨hpad, hihlp, htotp, hprotop, -⟩ := h.append pad
  have hihl := h.twenty_le
  have hleip := h.header_le
  have hfits := h.fits
  have hagree := agreeOff_restoredHeader ip
  refine ⟨restored ip, ?_, ?_, fun k hk => restored_bytes h hk, fun hf k hk => ?_, fun h0 => ?_,
    fun hw h0 => ?_, ?_, h.wireguardif_eq, fun hfrag mtu => ?_⟩
  · rw [hpad.ethCsumRestore_eq heth htype (by rwa [htotp]), restored_append h pad]
  · exact (agreeOff_restoredTransport _).length_eq.trans hagree.length_eq
  · by_contra hne
    rcases restored_bytes h hne with ⟨-, -, hlt⟩ | ⟨hw, -⟩
    · omega
    · rw [hw.1] at hf
      cases hf
  · rw [restored, (restoredTransport_header hq).2]
    exact restoredHeader_verifies h h0
  · have hc := hw.l4Csum_le h
    have hverifies := restoredTransport_verifies hq (hwholeq.mpr hw)
      (by rw [hcsumq, hagree.be16_eq (.inr (by omega))]; exact h0)
    rw [hprotoq, hcsumq] at hverifies
    exact hverifies
  · -- the second time is the same function again
    have hagain : Consistent (restored ip) := hout
    obtain ⟨hpad2, -, htotp2, -⟩ := hagain.append pad
    have htot2 : ipTotalLen (restored ip) = ipTotalLen ip := htoto.trans htotq
    rw [hpad2.ethCsumRestore_eq heth htype (by rw [htotp2, htot2]; exact hlen),
      restored_append hagain pad, restored_idem h]
  · rw [hpad.fixHostChecksums_eq mtu heth htype (by rwa [htotp]) ?_, restored_append h pad]
    rw [FragNeeded, hprotop, hihlp, htotp]
    rintro ⟨h1, hroom, h34⟩
    rw [byte_append (by omega), byte_append (by omega)] at h34
    exact hfrag ⟨h1, hroom, h34⟩

/-- A UDP datagram with both checksums zero, in a frame with two bytes of padding. -/
theorem restorers_agree_udp :
    let eth : Bytes := [2, 0, 0, 0, 0, 1, 2, 0, 0, 0, 0, 2, 0x08, 0x00]
    let ip : Bytes := [0x45, 0, 0, 29, 0, 0, 0, 0, 64, 17, 0, 0, 10, 0, 0, 1, 10, 0, 0, 2,
      0, 53, 0, 53, 0, 9, 0, 0, 7]
    ∃ out, ethCsumRestore (eth ++ (ip ++ [0, 0])) = some (eth ++ (out ++ [0, 0])) ∧
      HeaderVerifies out ∧ L4Verifies out ∧ be16 out 26 ≠ 0 ∧
      wireguardifFixChecksums ip = some out ∧
      fixHostChecksums 0 1420 (eth ++ (ip ++ [0, 0])) = some (eth ++ (out ++ [0, 0])) := by
  intro eth ip
  have hcons : Consistent ip := ⟨by decide, by decide, by decide, by decide, by decide⟩
  obtain ⟨out, hrestore, -, -, -, hheader, htransport, -, hwg, hhost⟩ :=
    restorers_agree hcons [0, 0] (show eth.length = 14 from rfl) rfl (by decide)
  obtain ⟨hl4, hudp⟩ := htransport (by decide) (by decide)
  have hcsum : l4Csum ip = 26 := by decide
  rw [hcsum] at hudp
  exact ⟨out, hrestore, hheader (by decide), hl4, hudp (by decide), hwg,
    hhost (by decide) 1420⟩

/-- An ICMP message of four bytes has a checksum field and no whole header: a zero there stays, and
does not verify. -/
theorem restorers_skip_short :
    let eth : Bytes := [2, 0, 0, 0, 0, 1, 2, 0, 0, 0, 0, 2, 0x08, 0x00]
    let ip : Bytes := [0x45, 0, 0, 24, 0, 0, 0, 0, 64, 1, 0x66, 0xE3, 10, 0, 0, 1, 10, 0, 0, 2,
      8, 0, 0, 0]
    Consistent ip ∧ 14 + ipTotalLen ip < 65536 ∧ isFragment ip = false ∧ byte ip 9 = 1 ∧
      be16 ip (l4Csum ip) = 0 ∧ ethCsumRestore (eth ++ ip) = some (eth ++ ip) ∧ ¬L4Verifies ip :=
  ⟨⟨by decide, by decide, by decide, by decide, by decide⟩, by decide, by decide, by decide,
    by decide, by decide, by rw [L4Verifies, finish_eq_zero_iff]; decide⟩

end Molewire
