/-
# Clamping by an update and by recomputing

The NAT lowers the MSS of a SYN and updates the checksum for the one word that
has changed, the frames of the host have theirs computed anew. Both come to the
same packet where the value lies at an even place of the header. Behind an odd
number of padding bytes its two bytes are parts of two words, the update still
adds them as one, and what it leaves is off by the difference of both values
times 255.
-/

import Molewire.HostCsum

namespace Molewire

open ByteBuffer OnesComplement

/-! ### One clamped packet -/

/-- A whole TCP packet that opens a connection, with a checksum that verifies and is present. -/
structure CheckedSyn (pkt : Bytes) : Prop where
  complete : Complete pkt
  tcp : byte pkt 9 = 6
  syn : isSyn pkt (ipHeaderLen pkt)
  header : tcpHeaderLen pkt (ipHeaderLen pkt) ≤ ipTotalLen pkt - ipHeaderLen pkt
  verifies : L4Verifies pkt
  present : be16 pkt (l4Csum pkt) ≠ 0

theorem CheckedSyn.l4Csum_eq {pkt : Bytes} (h : CheckedSyn pkt) :
    l4Csum pkt = ipHeaderLen pkt + 16 := by
  rw [l4Csum, h.tcp]
  rfl

theorem CheckedSyn.l4Sum_modEq {pkt : Bytes} (h : CheckedSyn pkt) :
    l4Sum (ipHeaderLen pkt) (ipTotalLen pkt - ipHeaderLen pkt) 6 pkt ≡ 0 [MOD 65535] := by
  have hver := h.verifies
  rw [L4Verifies, h.complete.l4Len_eq, h.tcp, finish_eq_zero_iff] at hver
  exact hver.2

theorem CheckedSyn.twenty_le {pkt : Bytes} (h : CheckedSyn pkt) :
    20 ≤ ipTotalLen pkt - ipHeaderLen pkt := by
  have hroom := h.complete.header
  rw [h.tcp, if_pos rfl] at hroom
  omega

/-- The segment holds its checksum. -/
theorem CheckedSyn.csumOff_le {pkt : Bytes} (h : CheckedSyn pkt) :
    l4CsumOff 6 + 2 ≤ ipTotalLen pkt - ipHeaderLen pkt := by
  have hoff : l4CsumOff 6 = 16 := rfl
  have hlen := h.twenty_le
  omega

/-- How much of a buffer is there does not matter, as long as the header is. -/
theorem exceedingMss_room {mss : UInt16} {pkt : Bytes} {l4 room room' : Nat}
    (h : tcpHeaderLen pkt l4 ≤ room) (h' : tcpHeaderLen pkt l4 ≤ room') :
    exceedingMss mss pkt l4 room = exceedingMss mss pkt l4 room' := by
  simp only [exceedingMss, h, h']

/-- A packet that differs in the transport checksum and in the value of an option is as whole. -/
theorem CheckedSyn.complete_of_agree {pkt q : Bytes} (h : CheckedSyn pkt)
    (hlen : q.length = pkt.length) (hbyte : ∀ k < ipHeaderLen pkt + 16, byte q k = byte pkt k) :
    Complete q ∧ ipHeaderLen q = ipHeaderLen pkt ∧ ipTotalLen q = ipTotalLen pkt ∧
      byte q 9 = 6 ∧ l4Csum q = l4Csum pkt := by
  obtain ⟨hq, hihl, htot, hproto⟩ := h.complete.of_bytes hlen
    (fun k hk => hbyte k (by omega)) fun _ => by
      rw [be16, be16, hbyte _ (by omega), hbyte _ (by omega)]
  exact ⟨hq, hihl, htot, hproto.trans h.tcp, by rw [l4Csum, l4Csum, hihl, hproto]⟩

/-- The clamp comes to what it should: the value is lowered just where it exceeds the clamp, the
checksum verifies or is marked, and apart from its representation the packet is that of the
clamp of the host's frames with the checksum computed anew. -/
structure ClampAgrees (mss mtu : UInt16) (pkt q : Bytes) : Prop where
  lowered : ∀ k,
    exceedingMss mss pkt (ipHeaderLen pkt) (ipTotalLen pkt - ipHeaderLen pkt) = some k →
    be16 q k = mss.toNat ∧ ∀ i, i ≠ k → i ≠ k + 1 → (i < l4Csum pkt ∨ l4Csum pkt + 2 ≤ i) →
      byte q i = byte pkt i
  kept : exceedingMss mss pkt (ipHeaderLen pkt) (ipTotalLen pkt - ipHeaderLen pkt) = none → q = pkt
  recomputed : ∃ r, fixHostTransport mss mtu pkt 0 (ipHeaderLen pkt) (ipTotalLen pkt) = some r ∧
    L4Verifies r ∧ AgreeOff r q (l4Csum pkt) 2
  verifies : L4Verifies q ∨ be16 q (l4Csum q) = 0

/-! ### Recomputing -/

theorem pseudoSum_eq {f : Bytes} {l4 len : Nat} {proto : UInt8} (hproto : proto ≠ 1)
    (h20 : 20 ≤ f.length) (h : l4 + len ≤ f.length) :
    pseudoSum f 0 l4 len proto = some (l4Sum l4 len proto f) := by
  have haddrs : readSpan f 12 8 = some (span f 12 8) := if_pos (by omega)
  have hseg : readSpan f l4 len = some (span f l4 len) := if_pos h
  simp [pseudoSum, haddrs, hseg, l4Sum, hproto, csumAdd_eq, Nat.add_assoc]

/-- The branch for a whole TCP segment of a packet that is no fragment. -/
theorem fixHostTransport_tcp (mss mtu : UInt16) {pkt : Bytes} (h : CheckedSyn pkt) :
    fixHostTransport mss mtu pkt 0 (ipHeaderLen pkt) (ipTotalLen pkt) =
      match exceedingMss mss pkt (ipHeaderLen pkt) (ipTotalLen pkt - ipHeaderLen pkt) with
      | some k =>
        let zeroed := splice (splice pkt k (bytes mss.toNat)) (ipHeaderLen pkt + 16) (bytes 0)
        restoreAt zeroed (ipHeaderLen pkt + 16)
          (some (finish (l4Sum (ipHeaderLen pkt) (ipTotalLen pkt - ipHeaderLen pkt) 6 zeroed)))
      | none => some pkt := by
  have hihl := h.complete.twenty_le
  have hfits := h.complete.fits
  have hlen := h.twenty_le
  obtain ⟨hfragHi, hfragLo⟩ : byte pkt 6 &&& 0x3F = 0 ∧ byte pkt 7 = 0 := by
    simpa [isFragment] using h.complete.whole
  rw [fixHostTransport, Nat.zero_add, Nat.zero_add, Nat.zero_add, Nat.zero_add,
    getElem?_eq_byte (by omega), getElem?_eq_byte (by omega), getElem?_eq_byte (by omega)]
  simp only [Option.bind_eq_bind, Option.bind_some, hfragHi, hfragLo, h.tcp, bne_self_eq_false,
    Bool.false_eq_true, if_false]
  rw [if_neg fun hc => absurd hc.1 (by decide), if_pos ⟨trivial, hlen⟩,
    clampTcpMss_eq mss hlen (by omega)]
  have hsum (f : Bytes) (hf : f.length = pkt.length) :
      pseudoSum f 0 (ipHeaderLen pkt) (ipTotalLen pkt - ipHeaderLen pkt) 6 =
        some (l4Sum (ipHeaderLen pkt) (ipTotalLen pkt - ipHeaderLen pkt) 6 f) :=
    pseudoSum_eq (by decide) (by omega) (by omega)
  cases exceedingMss mss pkt (ipHeaderLen pkt) (ipTotalLen pkt - ipHeaderLen pkt) with
  | none =>
    have hpresent : be16 pkt (ipHeaderLen pkt + 16) ≠ 0 := h.l4Csum_eq ▸ h.present
    simp [hsum pkt rfl, restoreAt,
      isZero16_eq (show ipHeaderLen pkt + 16 + 2 ≤ pkt.length by omega), hpresent]
  | some k =>
    have hwrite : write16 (splice pkt k (bytes mss.toNat)) (ipHeaderLen pkt + 16) 0 =
        some (splice (splice pkt k (bytes mss.toNat)) (ipHeaderLen pkt + 16) (bytes 0)) :=
      if_pos (by rw [length_splice]; omega)
    simp only [Option.bind_some, hwrite, if_true]
    rw [hsum _ (by rw [length_splice, length_splice])]
    rfl

/-- A packet whose option is lowered has a verifying checksum once that is computed anew. -/
theorem recompute_verifies {mss : UInt16} {pkt : Bytes} (h : CheckedSyn pkt) {k : Nat}
    (hk : exceedingMss mss pkt (ipHeaderLen pkt) (ipTotalLen pkt - ipHeaderLen pkt) = some k)
    (mtu : UInt16) :
    ∃ r, fixHostTransport mss mtu pkt 0 (ipHeaderLen pkt) (ipTotalLen pkt) = some r ∧
      L4Verifies r ∧ AgreeOff (splice pkt k (bytes mss.toNat)) r (l4Csum pkt) 2 := by
  obtain ⟨-, -, hlo, hhi, hroom, -, -, -⟩ := exceedingMss_spec hk
  have hihl := h.complete.twenty_le
  have hfits := h.complete.fits
  have hlen := h.twenty_le
  have hc : ipHeaderLen pkt + 16 + 2 ≤
      (splice (splice pkt k (bytes mss.toNat)) (ipHeaderLen pkt + 16) (bytes 0)).length := by
    rw [length_splice, length_splice]
    omega
  have hzero : be16 (splice (splice pkt k (bytes mss.toNat)) (ipHeaderLen pkt + 16) (bytes 0))
      (ipHeaderLen pkt + 16) = 0 := by
    rw [show bytes 0 = [0, 0] from rfl, be16_splice_self (by rw [length_splice]; omega)]
    rfl
  have hbytes : (ipHeaderLen pkt + (ipTotalLen pkt - ipHeaderLen pkt)) ≤
      (splice (splice pkt k (bytes mss.toNat)) (ipHeaderLen pkt + 16) (bytes 0)).length := by
    rw [length_splice, length_splice]
    omega
  obtain ⟨r, hr, hagree, hver⟩ := restoreAt_verifies
    (l4Sum (ipHeaderLen pkt) (ipTotalLen pkt - ipHeaderLen pkt) 6) hc (.inl rfl)
    (fun q hq => l4Sum_window hihl h.csumOff_le hbytes hq)
    (by rw [hzero]; exact Nat.zero_le _) (.inl hzero)
  have hall : AgreeOff (splice pkt k (bytes mss.toNat)) r (ipHeaderLen pkt + 16) 2 :=
    (agreeOff_splice _ _ _).trans hagree
  obtain ⟨hcr, hihlr, htotr, hprotor, -⟩ := h.complete_of_agree
    (q := r) (hall.length_eq.trans (length_splice ..)) fun i hi => by
      rw [hall.byte_eq i (.inl hi), byte_splice_of_not_mem (.inl (by omega))]
  refine ⟨r, by rw [fixHostTransport_tcp mss mtu h, hk]; exact hr, ?_, h.l4Csum_eq ▸ hall⟩
  rw [L4Verifies, hcr.l4Len_eq, hihlr, htotr, hprotor]
  exact hver

/-! ### Updating -/

/-- What the update leaves of the sum: nothing of the two values at an even place, and 255 times
their difference at an odd one. -/
theorem clampMss_sum {mss : UInt16} {pkt : Bytes} (h : CheckedSyn pkt) {k : Nat}
    (hk : exceedingMss mss pkt (ipHeaderLen pkt) (ipTotalLen pkt - ipHeaderLen pkt) = some k)
    {q : Bytes} (hq : q = csumAdjustNz (splice pkt k (bytes mss.toNat)) (ipHeaderLen pkt + 16)
      (span pkt k 2) (bytes mss.toNat)) :
    (be16 q (l4Csum pkt) = 0 ↔
      be16 pkt (l4Csum pkt) + be16 pkt k ≡ mss.toNat [MOD 65535]) ∧
    (l4Sum (ipHeaderLen pkt) (ipTotalLen pkt - ipHeaderLen pkt) 6 q ≡ 0 [MOD 65535] ↔
      (k - ipHeaderLen pkt) % 2 = 0 ∨ be16 pkt k ≡ mss.toNat [MOD 257]) := by
  obtain ⟨hmss, -, hlo, hhi, hroom, -, -, hexc⟩ := exceedingMss_spec hk
  have hihl := h.complete.twenty_le
  have hfits := h.complete.fits
  have hlen := h.twenty_le
  have hmsslt : mss.toNat < 65536 := mss.toNat_lt
  have hmss0 : 0 < mss.toNat := Nat.pos_of_ne_zero fun h0 => hmss (UInt16.toNat_inj.mp h0)
  rw [h.l4Csum_eq]
  have aval : AgreeOff pkt (splice pkt k (bytes mss.toNat)) k 2 := agreeOff_splice _ _ _
  have hcsum : be16 (splice pkt k (bytes mss.toNat)) (ipHeaderLen pkt + 16) =
      be16 pkt (ipHeaderLen pkt + 16) := aval.be16_eq (.inl (by omega))
  have hpresent : be16 (splice pkt k (bytes mss.toNat)) (ipHeaderLen pkt + 16) ≠ 0 := by
    rw [hcsum, ← h.l4Csum_eq]
    exact h.present
  have hold : span pkt k 2 = [byte pkt k, byte pkt (k + 1)] := span_two (by omega)
  have hnew : be16 (splice pkt k (bytes mss.toNat)) k = mss.toNat := by
    rw [bytes, be16_splice_self (by omega), word_bytes hmsslt]
  have hadj : FieldAdjusted (splice pkt k (bytes mss.toNat))
      (csumAdjustNz (splice pkt k (bytes mss.toNat)) (ipHeaderLen pkt + 16) (span pkt k 2)
        (bytes mss.toNat)) (ipHeaderLen pkt + 16) (span pkt k 2) (bytes mss.toNat) :=
    csumAdjustNz_adjusted (by rw [length_splice]; omega) (by rw [hold]; rfl) (by rw [hold]; simp)
  rw [← hq] at hadj
  have hres := hadj.adjusted hpresent
  rw [hcsum, hold, wordSum_pair, ← be16, bytes, wordSum_pair, word_bytes hmsslt] at hres
  have hver := h.l4Sum_modEq
  -- the checksum, and the value in front of it, in the sum of the segment
  have hfield := l4Sum_window hihl h.csumOff_le (by rw [length_splice]; omega) hadj.agree
  rw [show l4CsumOff 6 = 16 from rfl, hcsum] at hfield
  have hpseudo : span (splice pkt k (bytes mss.toNat)) 12 8 = span pkt 12 8 :=
    aval.span_eq (.inl (by omega))
  refine ⟨?_, ?_⟩
  · have hpos : csumPresent (splice pkt k (bytes mss.toNat)) (ipHeaderLen pkt + 16) :=
      (csumPresent_iff _ _).mpr hpresent
    have hstored : be16 q (ipHeaderLen pkt + 16) = finish ((65535 - be16 pkt (ipHeaderLen pkt + 16))
        + (65535 - be16 pkt k) + mss.toNat) := by
      rw [hq, csumAdjustNz, if_pos hpos, csumAdjust, hcsum, hold, bytes, bytes]
      simp only [csumAdjustSum]
      rw [be16_splice_self (by rw [length_splice]; omega), word_bytes (finish_lt _),
        word_bytes hmsslt]
      rfl
    have hlt : be16 pkt (ipHeaderLen pkt + 16) < 65536 := word_lt _ _
    have hlt' : be16 pkt k < 65536 := word_lt _ _
    rw [hstored, finish_eq_zero_iff]
    simp only [Nat.ModEq]
    omega
  · by_cases hk2 : (k - ipHeaderLen pkt) % 2 = 0
    · simp only [hk2, true_or, iff_true]
      have hval := aval.wordSum_word (s := ipHeaderLen pkt)
        (n := ipTotalLen pkt - ipHeaderLen pkt) (by omega) (by omega) hk2 (by omega)
      rw [hnew] at hval
      simp only [l4Sum, hpseudo] at hfield hver ⊢
      simp only [Nat.ModEq] at hres hver ⊢
      omega
    · -- a header length is even, so the byte behind the value is in the segment too
      have heven : tcpHeaderLen pkt (ipHeaderLen pkt) % 2 = 0 := by
        rw [tcpHeaderLen]
        omega
      have hval := aval.wordSum_odd (s := ipHeaderLen pkt)
        (n := ipTotalLen pkt - ipHeaderLen pkt) (by omega) (by omega) (by omega) (by omega)
      have hswap := word_swap_modEq (byte pkt k) (byte pkt (k + 1))
      have hswap' := word_swap_modEq (byte (splice pkt k (bytes mss.toNat)) k)
        (byte (splice pkt k (bytes mss.toNat)) (k + 1))
      rw [← be16] at hswap hswap'
      rw [hnew] at hswap'
      simp only [hk2, false_or]
      simp only [l4Sum, hpseudo] at hfield hver ⊢
      simp only [Nat.ModEq] at hres hver hswap hswap' ⊢
      omega

/-- The clamp on a whole packet, of which `avail` bytes are there. -/
theorem clampMss_of_parse {mss : UInt16} {pkt : Bytes} {avail : Nat} {v : PktView}
    (h : CheckedSyn pkt) (hparse : parse pkt avail = some v) (havail : ipTotalLen pkt ≤ avail) :
    clampMss mss pkt v =
      match exceedingMss mss pkt (ipHeaderLen pkt) (ipTotalLen pkt - ipHeaderLen pkt) with
      | some k =>
        csumAdjustNz (splice pkt k (bytes mss.toNat)) (ipHeaderLen pkt + 16) (span pkt k 2)
          (bytes mss.toNat)
      | none => pkt := by
  have hp := parsed_of_parse hparse
  have hl4 := hp.l4avail
  have hheader := h.header
  have hroom : exceedingMss mss pkt v.ihl v.l4avail =
      exceedingMss mss pkt (ipHeaderLen pkt) (ipTotalLen pkt - ipHeaderLen pkt) := by
    rw [hp.ihl] at hl4 ⊢
    exact exceedingMss_room (by omega) hheader
  have hclamp := clampMss_eq mss pkt v
  rw [hroom, hp.ihl] at hclamp
  exact hclamp

/-- Clamping by an update agrees with clamping and recomputing just where no value is lowered, the
value is at an even place of the header, both values are the same modulo 257, or the update
happens to leave the mark. -/
theorem clampMss_agrees_iff {mss mtu : UInt16} {pkt : Bytes} {avail : Nat} {v : PktView}
    (h : CheckedSyn pkt) (hparse : parse pkt avail = some v) (havail : ipTotalLen pkt ≤ avail) :
    ClampAgrees mss mtu pkt (clampMss mss pkt v) ↔
      ∀ k, exceedingMss mss pkt (ipHeaderLen pkt) (ipTotalLen pkt - ipHeaderLen pkt) = some k →
        (k - ipHeaderLen pkt) % 2 = 0 ∨ be16 pkt k ≡ mss.toNat [MOD 257] ∨
          be16 pkt (l4Csum pkt) + be16 pkt k ≡ mss.toNat [MOD 65535] := by
  have hihl := h.complete.twenty_le
  have hfits := h.complete.fits
  have hlen := h.twenty_le
  rw [clampMss_of_parse h hparse havail]
  cases hk : exceedingMss mss pkt (ipHeaderLen pkt) (ipTotalLen pkt - ipHeaderLen pkt) with
  | none =>
    refine ⟨fun _ k hk => (nomatch hk), fun _ => ⟨?_, fun _ => rfl, ?_, .inl h.verifies⟩⟩
    · rw [hk]
      exact fun k hk => (nomatch hk)
    · exact ⟨pkt, by rw [fixHostTransport_tcp mss mtu h, hk], h.verifies, .refl pkt _ _⟩
  | some k =>
    obtain ⟨-, -, hlo, hhi, hroom, -, -, -⟩ := exceedingMss_spec hk
    dsimp only
    generalize hq : csumAdjustNz (splice pkt k (bytes mss.toNat)) (ipHeaderLen pkt + 16)
      (span pkt k 2) (bytes mss.toNat) = q
    obtain ⟨hmark, hsum⟩ := clampMss_sum h hk hq.symm
    have aval : AgreeOff pkt (splice pkt k (bytes mss.toNat)) k 2 := agreeOff_splice _ _ _
    have acsum : AgreeOff (splice pkt k (bytes mss.toNat)) q (ipHeaderLen pkt + 16) 2 := by
      rw [← hq]
      exact ⟨length_csumAdjustNz, fun i hi => byte_csumAdjustNz hi⟩
    obtain ⟨hcq, hihlq, htotq, hprotoq, hcsumq⟩ := h.complete_of_agree
      (acsum.length_eq.trans aval.length_eq) fun i hi => by
        rw [acsum.byte_eq i (.inl hi), aval.byte_eq i (.inl (by omega))]
    -- what a receiver computes is a multiple of 65535, or not
    have hver : L4Verifies q ↔
        l4Sum (ipHeaderLen pkt) (ipTotalLen pkt - ipHeaderLen pkt) 6 q ≡ 0 [MOD 65535] := by
      rw [L4Verifies, hcq.l4Len_eq, hihlq, htotq, hprotoq, finish_eq_zero_iff]
      have hpos : 0 < l4Sum (ipHeaderLen pkt) (ipTotalLen pkt - ipHeaderLen pkt) 6 q := by
        rw [l4Sum, if_neg (by decide)]
        omega
      exact and_iff_right hpos
    have hcond : (L4Verifies q ∨ be16 q (l4Csum q) = 0) ↔
        (k - ipHeaderLen pkt) % 2 = 0 ∨ be16 pkt k ≡ mss.toNat [MOD 257] ∨
          be16 pkt (l4Csum pkt) + be16 pkt k ≡ mss.toNat [MOD 65535] := by
      rw [hver, hsum, hcsumq, hmark, or_assoc]
    constructor
    · intro hagrees k' hk'
      obtain rfl := Option.some.inj hk'
      exact hcond.mp hagrees.verifies
    · intro hall
      refine ⟨fun k' hk' => ?_, fun hnone => ?_, ?_, hcond.mpr (hall k rfl)⟩
      · obtain rfl : k = k' := Option.some.inj (hk.symm.trans hk')
        refine ⟨?_, fun i hi hi' hc => ?_⟩
        · rw [acsum.be16_eq (.inr (by omega)), bytes, be16_splice_self (by omega),
            word_bytes mss.toNat_lt]
        · rw [h.l4Csum_eq] at hc
          rw [acsum.byte_eq i hc, aval.byte_eq i (by omega)]
      · rw [hk] at hnone
        cases hnone
      · obtain ⟨r, hr, hverr, hagree⟩ := recompute_verifies h hk mtu
        rw [h.l4Csum_eq] at hagree ⊢
        refine ⟨r, hr, hverr, acsum.length_eq.trans hagree.length_eq.symm, fun i hi => ?_⟩
        rw [acsum.byte_eq i hi, hagree.byte_eq i hi]

/-- A SYN with some options, the length of both headers and a checksum. -/
def synWith (dataOff len : UInt8) (csum : UInt8 × UInt8) (opts : Bytes) : Bytes :=
  [0x45, 0, 0, len, 0, 0, 0, 0, 64, 6, 0, 0, 192, 168, 7, 2, 8, 8, 8, 8, 0x12, 0x34, 0, 80,
    0, 0, 0, 1, 0, 0, 0, 0, dataOff, 2, 16, 0, csum.1, csum.2, 0, 0] ++ opts

/-- An MSS of 1460 at the beginning of the options. -/
def alignedSyn : Bytes := synWith 0x60 44 (0x9D, 0xE7) [2, 4, 0x05, 0xB4]

/-- The same behind a single NOP. -/
def paddedSyn : Bytes := synWith 0x70 48 (0xDC, 0x93) [1, 2, 4, 0x05, 0xB4, 0, 0, 0]

theorem alignedSyn_checked : CheckedSyn alignedSyn where
  complete := {
    version := by decide
    twenty_le := by decide
    whole := by decide
    supported := by decide
    header := by decide
    fits := by decide
    udpLen := by decide }
  tcp := by decide
  syn := by decide
  header := by decide
  verifies := by unfold L4Verifies; decide +kernel
  present := by decide

theorem paddedSyn_checked : CheckedSyn paddedSyn where
  complete := {
    version := by decide
    twenty_le := by decide
    whole := by decide
    supported := by decide
    header := by decide
    fits := by decide
    udpLen := by decide }
  tcp := by decide
  syn := by decide
  header := by decide
  verifies := by unfold L4Verifies; decide +kernel
  present := by decide

theorem clampMss_agrees_iff_aligned :
    ClampAgrees 1200 1420 alignedSyn (clampMss 1200 alignedSyn ⟨20, 6, 24⟩) := by
  have hk : exceedingMss 1200 alignedSyn (ipHeaderLen alignedSyn)
      (ipTotalLen alignedSyn - ipHeaderLen alignedSyn) = some 42 := by decide +kernel
  have hparse : parse alignedSyn 44 = some ⟨20, 6, 24⟩ := by decide
  refine (clampMss_agrees_iff alignedSyn_checked hparse (by decide)).mpr ?_
  intro k hk'
  obtain rfl := Option.some.inj (hk.symm.trans hk')
  exact .inl (by decide)

/-- Behind the NOP the update leaves a checksum that does not verify. -/
theorem clampMss_disagrees :
    CheckedSyn paddedSyn ∧ parse paddedSyn 48 = some ⟨20, 6, 28⟩ ∧
      ¬ClampAgrees 1200 1420 paddedSyn (clampMss 1200 paddedSyn ⟨20, 6, 28⟩) := by
  refine ⟨paddedSyn_checked, by decide, fun h => ?_⟩
  have hver := h.verifies
  unfold L4Verifies at hver
  revert hver
  decide +kernel

end Molewire
