/-
# Checksums through translation and egress

A checksum field of a packet in flight either verifies or is zero, the mark
that the last hop has still to compute it. Translation keeps that alternative
for the header and for the transport checksum, also where one of the two
incremental updates lands on zero and the other is then skipped. The restorers
turn it into a packet whose fields verify.
-/

import Molewire.EthCsum
import Molewire.Napt

namespace Molewire

open ByteBuffer OnesComplement

/-! ### What a receiver checks -/

/-- Offset of the checksum in the transport header. -/
def l4CsumOff (proto : UInt8) : Nat :=
  if proto = 6 then 16 else if proto = 17 then 6 else 2

theorem l4CsumOff_even (proto : UInt8) : l4CsumOff proto % 2 = 0 := by
  unfold l4CsumOff
  split_ifs <;> rfl

/-- The sum over an IP header. -/
def headerSum (ihl : Nat) (pkt : Bytes) : Nat := wordSum (span pkt 0 ihl)

/-- The sum over a transport segment of `len` bytes, with the pseudo header unless it is ICMP. -/
def l4Sum (ihl len : Nat) (proto : UInt8) (pkt : Bytes) : Nat :=
  (if proto = 1 then 0 else wordSum (span pkt 12 8) + (proto.toNat + len)) +
    wordSum (span pkt ihl len)

/-- The transport length: UDP carries its own. -/
def l4Len (pkt : Bytes) : Nat :=
  if byte pkt 9 = 17 then be16 pkt (ipHeaderLen pkt + 4) else ipTotalLen pkt - ipHeaderLen pkt

/-- Where a packet's transport checksum is. -/
def l4Csum (pkt : Bytes) : Nat := ipHeaderLen pkt + l4CsumOff (byte pkt 9)

/-- The header checksum verifies. -/
def HeaderVerifies (pkt : Bytes) : Prop := finish (headerSum (ipHeaderLen pkt) pkt) = 0

/-- The transport checksum verifies. -/
def L4Verifies (pkt : Bytes) : Prop :=
  finish (l4Sum (ipHeaderLen pkt) (l4Len pkt) (byte pkt 9) pkt) = 0

/-- A whole packet of a translated protocol in one buffer, possibly with padding behind it. -/
structure Complete (pkt : Bytes) : Prop where
  version : ipVersion pkt = 4
  twenty_le : 20 ≤ ipHeaderLen pkt
  whole : isFragment pkt = false
  supported : byte pkt 9 = 6 ∨ byte pkt 9 = 17 ∨ byte pkt 9 = 1
  header : ipHeaderLen pkt + (if byte pkt 9 = 6 then 20 else 8) ≤ ipTotalLen pkt
  fits : ipTotalLen pkt ≤ pkt.length
  udpLen : byte pkt 9 = 17 →
    be16 pkt (ipHeaderLen pkt + 4) = ipTotalLen pkt - ipHeaderLen pkt

theorem Complete.l4Len_eq {pkt : Bytes} (h : Complete pkt) :
    l4Len pkt = ipTotalLen pkt - ipHeaderLen pkt := by
  unfold l4Len
  split
  · exact h.udpLen ‹_›
  · rfl

/-- The word at `c` is the mark, or the sum it belongs to is a multiple of `65535`. -/
def Restorable (c : Nat) (sum : Bytes → Nat) (pkt : Bytes) : Prop :=
  be16 pkt c = 0 ∨ sum pkt ≡ 0 [MOD 65535]

/-- A field that verifies or is zero is restorable, and the converse where the word itself is part
of the sum. -/
theorem restorable_iff {c : Nat} {sum : Bytes → Nat} {pkt : Bytes} (hc : be16 pkt c ≤ sum pkt) :
    Restorable c sum pkt ↔ finish (sum pkt) = 0 ∨ be16 pkt c = 0 := by
  unfold Restorable
  rw [finish_eq_zero_iff]
  constructor
  · rintro (h | h)
    · exact .inr h
    · rcases Nat.eq_zero_or_pos (be16 pkt c) with h0 | hpos
      · exact .inr h0
      · exact .inl ⟨by omega, h⟩
  · rintro (h | h)
    · exact .inr h.2
    · exact .inl h

theorem be16_le_wordSum_span {pkt : Bytes} {c s n : Nat} (hs : s ≤ c) (he : c + 2 ≤ s + n)
    (hc : (c - s) % 2 = 0) (hlen : s + n ≤ pkt.length) :
    be16 pkt c ≤ wordSum (span pkt s n) := by
  -- the word starts at an even place of the window
  rw [show n = (c - s) + (2 + (s + n - (c + 2))) by omega, span_add, span_add,
    show s + (c - s) = c by omega,
    wordSum_append _ _ (by rw [length_span (by omega)]; exact hc),
    wordSum_append _ _ (by rw [length_span (by omega)]), wordSum_span_two (by omega)]
  omega

/-! ### One incremental update -/

theorem csumAdjustSum_modEq (sum : Nat) (old new : Bytes) (hlen : old.length = new.length)
    (heven : old.length % 2 = 0) :
    csumAdjustSum sum old new + wordSum old ≡ sum + wordSum new [MOD 65535] := by
  induction sum, old, new using csumAdjustSum.induct with
  | case1 sum o0 o1 old n0 n1 new ih =>
    have hrest := ih (by simpa using hlen) (by simp at heven; omega)
    -- 65535 minus the old word is its negation modulo 65535
    have hlt := word_lt o0 o1
    simp only [csumAdjustSum, wordSum, Nat.ModEq] at hrest ⊢
    omega
  | case2 old sum new hshort =>
    rcases old with _ | ⟨o0, _ | ⟨o1, old⟩⟩
    · obtain rfl : new = [] := List.length_eq_zero_iff.mp (by simpa using hlen.symm)
      rfl
    · simp at heven
    · rcases new with _ | ⟨n0, _ | ⟨n1, new⟩⟩
      · simp at hlen
      · simp at hlen
      · exact absurd rfl (hshort o0 o1 old n0 n1 new rfl)

/-- What an incremental update of the checksum at `c` does: nothing to a mark, and otherwise it
replaces the old words by the new ones in the residue. -/
structure FieldAdjusted (p q : Bytes) (c : Nat) (old new : Bytes) : Prop where
  agree : AgreeOff p q c 2
  zero : be16 p c = 0 → be16 q c = 0
  adjusted : be16 p c ≠ 0 → be16 q c + wordSum new ≡ be16 p c + wordSum old [MOD 65535]

/-- An update and the write it makes up for keep the sum restorable. -/
theorem FieldAdjusted.restorable {p q out old new : Bytes} {c : Nat} {sum : Bytes → Nat}
    (h : FieldAdjusted p q c old new) (hc : be16 out c = be16 q c)
    (hsum : sum out + (be16 p c + wordSum old) = sum p + (be16 q c + wordSum new)) :
    Restorable c sum p → Restorable c sum out := by
  intro hres
  -- a mark stays a mark, and else what the update adds is what the write takes away
  by_cases h0 : be16 p c = 0
  · exact .inl (hc.trans (h.zero h0))
  · right
    have hres0 : sum p ≡ 0 [MOD 65535] := hres.resolve_left h0
    have hadj := h.adjusted h0
    simp only [Nat.ModEq] at hres0 hadj ⊢
    omega

theorem csumPresent_iff (pkt : Bytes) (c : Nat) : csumPresent pkt c ↔ be16 pkt c ≠ 0 := by
  rw [csumPresent, be16, Ne, word_eq_zero_iff, bne_iff_ne, not_iff_not, ← UInt8.toNat_inj,
    ← UInt8.toNat_inj, ← UInt8.toNat_inj, UInt8.toNat_or]
  simp

section Adjust

variable {p old new : Bytes} {c : Nat}

theorem csumAdjust_adjusted (hc : c + 2 ≤ p.length) (hlen : old.length = new.length)
    (heven : old.length % 2 = 0) (hpresent : be16 p c ≠ 0) :
    FieldAdjusted p (csumAdjust p c old new) c old new := by
  refine ⟨agreeOff_splice p c _, fun h0 => absurd h0 hpresent, fun _ => ?_⟩
  have hlt : be16 p c < 65536 := word_lt _ _
  have hsum := csumAdjustSum_modEq (65535 - be16 p c) old new hlen heven
  have hword : be16 (csumAdjust p c old new) c =
      finish (csumAdjustSum (65535 - be16 p c) old new) := by
    rw [csumAdjust, bytes, be16_splice_self hc, word_bytes (finish_lt _)]
  -- the ones complement sum of the complement of a finished sum
  rw [hword]
  refine adjust_modEq _ _ _ _ ?_
  simp only [Nat.ModEq] at hsum ⊢
  omega

theorem csumAdjustNz_adjusted (hc : c + 2 ≤ p.length) (hlen : old.length = new.length)
    (heven : old.length % 2 = 0) : FieldAdjusted p (csumAdjustNz p c old new) c old new := by
  unfold csumAdjustNz
  split
  next h => exact csumAdjust_adjusted hc hlen heven ((csumPresent_iff p c).mp h)
  next h =>
    have h0 : be16 p c = 0 := by simpa [csumPresent_iff] using h
    exact ⟨.refl p c 2, id, fun hne => absurd h0 hne⟩

/-- The UDP variant never turns a checksum into the mark. -/
theorem csumAdjustUdp_adjusted (hc : c + 2 ≤ p.length) (hlen : old.length = new.length)
    (heven : old.length % 2 = 0) :
    FieldAdjusted p (csumAdjustUdp p c old new) c old new ∧
      (be16 p c ≠ 0 → be16 (csumAdjustUdp p c old new) c ≠ 0) := by
  unfold csumAdjustUdp
  split
  next h =>
    have hadj := csumAdjust_adjusted hc hlen heven ((csumPresent_iff p c).mp h)
    dsimp only
    split
    next h' => exact ⟨hadj, fun _ => (csumPresent_iff _ c).mp h'⟩
    next h' =>
      have h0 : be16 (csumAdjust p c old new) c = 0 := by simpa [csumPresent_iff] using h'
      have hones : be16 (splice (csumAdjust p c old new) c [0xFF, 0xFF]) c = 65535 :=
        be16_splice_self (by simpa using hc)
      refine ⟨⟨hadj.agree.trans (agreeOff_splice _ c _), fun h0 => ?_, fun hne => ?_⟩, fun _ => ?_⟩
      · exact absurd h0 ((csumPresent_iff p c).mp h)
      · -- the two spellings of zero have the same residue
        have hres := hadj.adjusted hne
        rw [hones]
        simp only [h0, Nat.ModEq] at hres ⊢
        omega
      · rw [hones]
        decide
  next h =>
    have h0 : be16 p c = 0 := by simpa [csumPresent_iff] using h
    exact ⟨⟨.refl p c 2, id, fun hne => absurd h0 hne⟩, fun hne => absurd h0 hne⟩

end Adjust

/-! ### The two halves of a translation -/

section Halves

variable {pkt : Bytes} {v : PktView} {addr field len : Nat} {ip : Ip4} {port : UInt8 × UInt8}

/-- The transport half of the address rewriting: an update where there is a pseudo header. -/
theorem adjustAddr_l4 (hsup : v.proto = 6 ∨ v.proto = 17 ∨ v.proto = 1) {old new : Bytes}
    (hc : v.ihl + l4CsumOff v.proto + 2 ≤ pkt.length) (hlen : old.length = new.length)
    (heven : old.length % 2 = 0) {q : Bytes}
    (hq : q = if v.proto = 6 then csumAdjustNz pkt (v.ihl + 16) old new
      else if v.proto = 17 then csumAdjustUdp pkt (v.ihl + 6) old new else pkt) :
    AgreeOff pkt q (v.ihl + l4CsumOff v.proto) 2 ∧
      (v.proto ≠ 1 → FieldAdjusted pkt q (v.ihl + l4CsumOff v.proto) old new) ∧
      (v.proto = 1 → q = pkt) ∧
      (v.proto = 17 → be16 pkt (v.ihl + l4CsumOff v.proto) ≠ 0 →
        be16 q (v.ihl + l4CsumOff v.proto) ≠ 0) := by
  subst hq
  rcases hsup with h | h | h <;> simp only [h, l4CsumOff] at hc ⊢
  · have hadj := csumAdjustNz_adjusted hc hlen heven
    exact ⟨hadj.agree, fun _ => hadj, fun hp => absurd hp (by decide),
      fun hp => absurd hp (by decide)⟩
  · have hadj := csumAdjustUdp_adjusted hc hlen heven
    exact ⟨hadj.1.agree, fun _ => hadj.1, fun hp => absurd hp (by decide), fun _ => hadj.2⟩
  · exact ⟨.refl _ _ _, fun h1 => absurd rfl h1, fun _ => rfl, fun hp => absurd hp (by decide)⟩

/-- The update of the key field's rewriting, with MSS clamping off. -/
theorem adjustPort_l4 (hsup : v.proto = 6 ∨ v.proto = 17 ∨ v.proto = 1) {old new : Bytes}
    (hc : v.ihl + l4CsumOff v.proto + 2 ≤ pkt.length) (hlen : old.length = new.length)
    (heven : old.length % 2 = 0) {q : Bytes}
    (hq : q = if v.proto = 6 then clampMss 0 (csumAdjustNz pkt (v.ihl + 16) old new) v
      else if v.proto = 17 then csumAdjustUdp pkt (v.ihl + 6) old new
      else csumAdjustNz pkt (v.ihl + 2) old new) :
    FieldAdjusted pkt q (v.ihl + l4CsumOff v.proto) old new ∧
      (v.proto = 17 → be16 pkt (v.ihl + l4CsumOff v.proto) ≠ 0 →
        be16 q (v.ihl + l4CsumOff v.proto) ≠ 0) := by
  subst hq
  have hoff : ∀ p : Bytes, clampMss 0 p v = p := fun p => by simp [clampMss]
  rcases hsup with h | h | h <;> simp only [h, l4CsumOff, hoff] at hc ⊢
  · exact ⟨csumAdjustNz_adjusted hc hlen heven, fun hp => absurd hp (by decide)⟩
  · have hadj := csumAdjustUdp_adjusted hc hlen heven
    exact ⟨hadj.1, fun _ => hadj.2⟩
  · exact ⟨csumAdjustNz_adjusted hc hlen heven, fun hp => absurd hp (by decide)⟩

/-- The three writes of the address rewriting: the header checksum, the transport checksum and the
address. -/
theorem rewriteAddr_writes (pkt : Bytes) (ip : Ip4)
    (hsup : v.proto = 6 ∨ v.proto = 17 ∨ v.proto = 1) (haddr : addr = 12 ∨ addr = 16)
    (hihl : 20 ≤ v.ihl) (hlen : v.ihl + l4CsumOff v.proto + 2 ≤ pkt.length) :
    ∃ p1 p2, rewriteAddr pkt v addr ip = splice p2 addr ip.octets ∧
      FieldAdjusted pkt p1 10 (span pkt addr 4) ip.octets ∧
      AgreeOff p1 p2 (v.ihl + l4CsumOff v.proto) 2 ∧
      (v.proto ≠ 1 →
        FieldAdjusted p1 p2 (v.ihl + l4CsumOff v.proto) (span pkt addr 4) ip.octets) ∧
      (v.proto = 1 → p2 = p1) ∧
      (v.proto = 17 → be16 p1 (v.ihl + l4CsumOff v.proto) ≠ 0 →
        be16 p2 (v.ihl + l4CsumOff v.proto) ≠ 0) := by
  have hold : (span pkt addr 4).length = ip.octets.length := length_span (by omega)
  have heven : (span pkt addr 4).length % 2 = 0 := by simp [hold]
  have f1 : FieldAdjusted pkt (csumAdjustNz pkt 10 (span pkt addr 4) ip.octets) 10
      (span pkt addr 4) ip.octets := csumAdjustNz_adjusted (by omega) hold heven
  have hl4 : v.ihl + l4CsumOff v.proto + 2 ≤
      (csumAdjustNz pkt 10 (span pkt addr 4) ip.octets).length := by
    rw [f1.agree.length_eq]
    exact hlen
  exact ⟨_, _, rfl, f1, adjustAddr_l4 hsup hl4 hold heven rfl⟩

/-- Rewriting an address keeps both checksums restorable. -/
theorem rewriteAddr_restorable (pkt : Bytes) (ip : Ip4)
    (hsup : v.proto = 6 ∨ v.proto = 17 ∨ v.proto = 1) (haddr : addr = 12 ∨ addr = 16)
    (hihl : 20 ≤ v.ihl) (heven : v.ihl % 2 = 0) (hc : l4CsumOff v.proto + 2 ≤ len)
    (hlen : v.ihl + len ≤ pkt.length) :
    (Restorable 10 (headerSum v.ihl) pkt →
      Restorable 10 (headerSum v.ihl) (rewriteAddr pkt v addr ip)) ∧
    (Restorable (v.ihl + l4CsumOff v.proto) (l4Sum v.ihl len v.proto) pkt →
      Restorable (v.ihl + l4CsumOff v.proto) (l4Sum v.ihl len v.proto)
        (rewriteAddr pkt v addr ip)) ∧
    (v.proto = 17 → (be16 (rewriteAddr pkt v addr ip) (v.ihl + l4CsumOff v.proto) = 0 ↔
      be16 pkt (v.ihl + l4CsumOff v.proto) = 0)) := by
  obtain ⟨p1, p2, hq, f1, a2, f2, e2, u2⟩ :=
    rewriteAddr_writes pkt ip hsup haddr hihl (by omega)
  have hlen1 : p1.length = pkt.length := f1.agree.length_eq
  have hlen2 : p2.length = pkt.length := a2.length_eq.trans hlen1
  have a3 : AgreeOff p2 (splice p2 addr ip.octets) addr 4 := agreeOff_splice p2 addr ip.octets
  have hnew : span (splice p2 addr ip.octets) addr 4 = ip.octets :=
    span_splice_self (by rw [Ip4.length_octets]; omega)
  -- the sum over a window that holds the address
  have hwindow : ∀ s n, s ≤ addr → addr + 4 ≤ s + n → (addr - s) % 2 = 0 → s + n ≤ v.ihl →
      wordSum (span (splice p2 addr ip.octets) s n) + wordSum (span pkt addr 4) =
        wordSum (span p1 s n) + wordSum ip.octets := by
    intro s n hs he hmod hn
    have hsum := a3.wordSum_span hs he hmod rfl (by omega)
    rwa [hnew, a2.span_eq (.inl (by omega)), a2.span_eq (.inl (by omega)),
      f1.agree.span_eq (by omega)] at hsum
  have hl4 : be16 (splice p2 addr ip.octets) (v.ihl + l4CsumOff v.proto) =
      be16 p2 (v.ihl + l4CsumOff v.proto) := a3.be16_eq (.inr (by omega))
  have hseg : span (splice p2 addr ip.octets) v.ihl len = span p2 v.ihl len :=
    a3.span_eq (.inr (by omega))
  -- the header checksum is outside the transport sum
  have hl4' : be16 p1 (v.ihl + l4CsumOff v.proto) = be16 pkt (v.ihl + l4CsumOff v.proto) :=
    f1.agree.be16_eq (.inr (by omega))
  have hsum' : l4Sum v.ihl len v.proto p1 = l4Sum v.ihl len v.proto pkt := by
    rw [l4Sum, l4Sum, f1.agree.span_eq (.inr (by omega)), f1.agree.span_eq (.inr (by omega))]
  rw [hq]
  refine ⟨f1.restorable ?_ ?_, fun hres => ?_, fun hudp => ?_⟩
  · rw [a3.be16_eq (by omega), a2.be16_eq (by omega)]
  · have hhdr := hwindow 0 v.ihl (by omega) (by omega) (by omega) (by omega)
    have hword := f1.agree.wordSum_word (s := 0) (n := v.ihl) (by omega) (by omega) rfl (by omega)
    rw [headerSum, headerSum]
    omega
  · rw [Restorable, ← hl4', ← hsum'] at hres
    by_cases h1 : v.proto = 1
    · -- ICMP has no pseudo header, the segment is untouched
      rw [Restorable, hl4, l4Sum, if_pos h1, hseg, e2 h1]
      rwa [l4Sum, if_pos h1] at hres
    · refine (f2 h1).restorable hl4 ?_ hres
      have hpseudo := hwindow 12 8 (by omega) (by omega) (by omega) (by omega)
      have hword := a2.wordSum_word (s := v.ihl) (n := len) (by omega) (by omega)
        (by rw [Nat.add_sub_cancel_left]; exact l4CsumOff_even v.proto) (by omega)
      simp only [l4Sum, if_neg h1, hseg]
      omega
  · have h1 : v.proto ≠ 1 := by rw [hudp]; decide
    rw [hl4, ← hl4']
    exact ⟨fun h => by_contra fun hne => u2 hudp hne h, (f2 h1).zero⟩

/-- Rewriting the key field keeps both checksums restorable. -/
theorem rewritePort_restorable (pkt : Bytes) (port : UInt8 × UInt8)
    (hsup : v.proto = 6 ∨ v.proto = 17 ∨ v.proto = 1)
    (hihl : 20 ≤ v.ihl) (hc : l4CsumOff v.proto + 2 ≤ len) (hlen : v.ihl + len ≤ pkt.length)
    (hf : v.ihl ≤ field) (hfEven : (field - v.ihl) % 2 = 0) (hfl : field + 2 ≤ v.ihl + len)
    (hdisj : field + 2 ≤ v.ihl + l4CsumOff v.proto ∨ v.ihl + l4CsumOff v.proto + 2 ≤ field) :
    (Restorable 10 (headerSum v.ihl) pkt →
      Restorable 10 (headerSum v.ihl) (rewritePort 0 pkt v field port)) ∧
    (Restorable (v.ihl + l4CsumOff v.proto) (l4Sum v.ihl len v.proto) pkt →
      Restorable (v.ihl + l4CsumOff v.proto) (l4Sum v.ihl len v.proto)
        (rewritePort 0 pkt v field port)) ∧
    (v.proto = 17 → (be16 (rewritePort 0 pkt v field port) (v.ihl + l4CsumOff v.proto) = 0 ↔
      be16 pkt (v.ihl + l4CsumOff v.proto) = 0)) := by
  have hold : (span pkt field 2).length = [port.1, port.2].length := length_span (by omega)
  have heven : (span pkt field 2).length % 2 = 0 := by simp [hold]
  -- the checksum first, then the field; the sum of the segment sees both
  obtain ⟨p1, hq, f1, u1⟩ : ∃ p1,
      rewritePort 0 pkt v field port = splice p1 field [port.1, port.2] ∧
      FieldAdjusted pkt p1 (v.ihl + l4CsumOff v.proto) (span pkt field 2) [port.1, port.2] ∧
      (v.proto = 17 → be16 pkt (v.ihl + l4CsumOff v.proto) ≠ 0 →
        be16 p1 (v.ihl + l4CsumOff v.proto) ≠ 0) :=
    ⟨_, rfl, adjustPort_l4 hsup (by omega) hold heven rfl⟩
  have hlen1 : p1.length = pkt.length := f1.agree.length_eq
  have a2 : AgreeOff p1 (splice p1 field [port.1, port.2]) field 2 :=
    agreeOff_splice p1 field [port.1, port.2]
  have hl4 : be16 (splice p1 field [port.1, port.2]) (v.ihl + l4CsumOff v.proto) =
      be16 p1 (v.ihl + l4CsumOff v.proto) := a2.be16_eq (by omega)
  have hnew : span (splice p1 field [port.1, port.2]) field 2 = [port.1, port.2] :=
    span_splice_self (by simp; omega)
  -- nothing in front of the segment changes
  have hhdr : ∀ s n, s + n ≤ v.ihl →
      span (splice p1 field [port.1, port.2]) s n = span pkt s n := by
    intro s n h
    rw [a2.span_eq (.inl (by omega)), f1.agree.span_eq (.inl (by omega))]
  rw [hq]
  refine ⟨fun hres => ?_, f1.restorable hl4 ?_, fun hudp => ?_⟩
  · rw [Restorable, headerSum, hhdr 0 v.ihl (by omega), a2.be16_eq (by omega),
      f1.agree.be16_eq (by omega)]
    exact hres
  · have hseg := a2.wordSum_span (s := v.ihl) (n := len) hf hfl hfEven rfl (by omega)
    rw [f1.agree.span_eq (by omega), hnew] at hseg
    have hword := f1.agree.wordSum_word (s := v.ihl) (n := len) (by omega) (by omega)
      (by rw [Nat.add_sub_cancel_left]; exact l4CsumOff_even v.proto) hlen
    rw [l4Sum, l4Sum, hhdr 12 8 (by omega)]
    omega
  · rw [hl4]
    exact ⟨fun h => by_contra fun hne => u1 hudp hne h, f1.zero⟩

end Halves

/-! ### Whole translations -/

/-- A buffer with the same fixed fields is as complete, with the same lengths and protocol. -/
theorem Complete.of_bytes {pkt out : Bytes} (h : Complete pkt) (hlen : out.length = pkt.length)
    (hfix : ∀ k < 10, byte out k = byte pkt k)
    (hudp : byte pkt 9 = 17 →
      be16 out (ipHeaderLen pkt + 4) = be16 pkt (ipHeaderLen pkt + 4)) :
    Complete out ∧ ipHeaderLen out = ipHeaderLen pkt ∧ ipTotalLen out = ipTotalLen pkt ∧
      byte out 9 = byte pkt 9 := by
  have hihl : ipHeaderLen out = ipHeaderLen pkt := by
    rw [ipHeaderLen, ipHeaderLen, hfix 0 (by omega)]
  have htot : ipTotalLen out = ipTotalLen pkt := by
    rw [ipTotalLen, ipTotalLen, be16, be16, hfix 2 (by omega), hfix 3 (by omega)]
  have hproto : byte out 9 = byte pkt 9 := hfix 9 (by omega)
  refine ⟨?_, hihl, htot, hproto⟩
  exact {
    version := by rw [ipVersion, hfix 0 (by omega)]; exact h.version
    twenty_le := by rw [hihl]; exact h.twenty_le
    whole := by rw [isFragment, hfix 6 (by omega), hfix 7 (by omega)]; exact h.whole
    supported := by rw [hproto]; exact h.supported
    header := by rw [hihl, hproto, htot]; exact h.header
    fits := by rw [htot, hlen]; exact h.fits
    udpLen := by
      intro hp
      rw [hproto] at hp
      rw [hihl, htot, hudp hp]
      exact h.udpLen hp }

/-- The transport checksum lies inside the segment. -/
theorem Complete.l4Csum_le {pkt : Bytes} (h : Complete pkt) :
    l4CsumOff (byte pkt 9) + 2 ≤ ipTotalLen pkt - ipHeaderLen pkt ∧
      8 ≤ ipTotalLen pkt - ipHeaderLen pkt := by
  have hroom := h.header
  unfold l4CsumOff
  rcases h.supported with hp | hp | hp <;> rw [hp] at hroom ⊢ <;>
    simp only [show ¬(17 : UInt8) = 6 by decide, show ¬(1 : UInt8) = 6 by decide,
      show ¬(1 : UInt8) = 17 by decide, if_true, if_false] at hroom ⊢ <;> omega

/-- The field tests of a complete packet, as restorability of the two sums. -/
theorem Complete.header_restorable_iff {pkt : Bytes} (h : Complete pkt) :
    Restorable 10 (headerSum (ipHeaderLen pkt)) pkt ↔ HeaderVerifies pkt ∨ be16 pkt 10 = 0 := by
  have hihl := h.twenty_le
  have hfits := h.fits
  have hl4 := h.l4Csum_le
  exact restorable_iff (be16_le_wordSum_span (by omega) (by omega) rfl (by omega))

/-- The transport checksum is one of the words summed. -/
theorem Complete.l4Csum_word_le {pkt : Bytes} (h : Complete pkt) :
    be16 pkt (l4Csum pkt) ≤
      l4Sum (ipHeaderLen pkt) (ipTotalLen pkt - ipHeaderLen pkt) (byte pkt 9) pkt := by
  have hfits := h.fits
  have hl4 := h.l4Csum_le
  have heven := l4CsumOff_even (byte pkt 9)
  have hle : be16 pkt (l4Csum pkt) ≤
      wordSum (span pkt (ipHeaderLen pkt) (ipTotalLen pkt - ipHeaderLen pkt)) :=
    be16_le_wordSum_span (Nat.le_add_right _ _) (by unfold l4Csum; omega)
      (by unfold l4Csum; omega) (by omega)
  exact hle.trans (Nat.le_add_left _ _)

theorem Complete.l4_restorable_iff {pkt : Bytes} (h : Complete pkt) :
    Restorable (l4Csum pkt)
        (l4Sum (ipHeaderLen pkt) (ipTotalLen pkt - ipHeaderLen pkt) (byte pkt 9)) pkt ↔
      L4Verifies pkt ∨ be16 pkt (l4Csum pkt) = 0 := by
  rw [L4Verifies, h.l4Len_eq]
  exact restorable_iff h.l4Csum_word_le

theorem keyfield_spec {v : PktView} (hsup : v.proto = 6 ∨ v.proto = 17 ∨ v.proto = 1)
    (srcSide : Bool) :
    (keyfield v srcSide - v.ihl) % 2 = 0 ∧ keyfield v srcSide + 2 ≤ v.ihl + 8 ∧
      (keyfield v srcSide + 2 ≤ v.ihl + l4CsumOff v.proto ∨
        v.ihl + l4CsumOff v.proto + 2 ≤ keyfield v srcSide) := by
  unfold keyfield l4CsumOff
  rcases hsup with h | h | h <;> cases srcSide <;> simp [h]

/-- Translation leaves the first ten bytes of the header and the length field of UDP alone, so a
complete packet stays complete. -/
theorem Complete.translate {pkt : Bytes} {avail : Nat} {v : PktView} (hc : Complete pkt)
    (hp : Parsed pkt avail v) {addr : Nat} (haddr : addr = 12 ∨ addr = 16) (srcSide : Bool)
    (ip : Ip4) (port : UInt8 × UInt8) {q : Bytes}
    (hq : q = translate 0 pkt v addr (keyfield v srcSide) ip port) :
    Complete q ∧ ipHeaderLen q = ipHeaderLen pkt ∧ ipTotalLen q = ipTotalLen pkt ∧
      byte q 9 = byte pkt 9 := by
  have hihl20 := hp.twenty_le
  have hkey := le_keyfield v srcSide
  have hlenq : q.length = pkt.length := by rw [hq, length_translate]
  have hfix : ∀ k < 10, byte q k = byte pkt k := by
    intro k hk
    rw [hq, Molewire.translate, byte_rewritePort_of_lt (by omega) hkey,
      byte_rewriteAddr (by omega) (by omega) (by omega)]
  -- what translation writes of a UDP header is the port and the checksum around its length
  have hudp : byte pkt 9 = 17 → be16 q (ipHeaderLen pkt + 4) = be16 pkt (ipHeaderLen pkt + 4) := by
    intro h17
    rw [← hp.proto] at h17
    have hk : keyfield v srcSide + 2 ≤ v.ihl + 4 := by
      unfold keyfield
      cases srcSide <;> simp [h17]
    have hbyte : ∀ k, v.ihl + 4 ≤ k → k < v.ihl + 6 → byte q k = byte pkt k := by
      intro k hlo hhi
      rw [hq, Molewire.translate, rewritePort]
      simp only [h17, if_true, show ¬(17 : UInt8) = 6 by decide, if_false]
      rw [byte_splice_of_not_mem (.inr (by simp; omega)), byte_csumAdjustUdp (.inl hhi),
        byte_rewriteAddr (by omega) (by omega) (.inl hhi)]
    rw [be16, be16, ← hp.ihl, hbyte _ (by omega) (by omega), hbyte _ (by omega) (by omega)]
  exact hc.of_bytes hlenq hfix hudp

/-- With clamping off, translation keeps a complete packet complete, both checksums restorable, and
the presence of a UDP checksum. -/
theorem translate_restorable {pkt : Bytes} {avail : Nat} {v : PktView} (hc : Complete pkt)
    (hp : Parsed pkt avail v) {addr : Nat} (haddr : addr = 12 ∨ addr = 16) (srcSide : Bool)
    (ip : Ip4) (port : UInt8 × UInt8) {q : Bytes}
    (hq : q = translate 0 pkt v addr (keyfield v srcSide) ip port)
    (hheader : HeaderVerifies pkt ∨ be16 pkt 10 = 0)
    (hl4 : L4Verifies pkt ∨ be16 pkt (l4Csum pkt) = 0) :
    Complete q ∧ (HeaderVerifies q ∨ be16 q 10 = 0) ∧ (L4Verifies q ∨ be16 q (l4Csum q) = 0) ∧
      (byte pkt 9 = 17 → (be16 q (l4Csum q) = 0 ↔ be16 pkt (l4Csum pkt) = 0)) := by
  have hsup := hp.supported
  have hihl20 := hp.twenty_le
  have heven : v.ihl % 2 = 0 := by rw [hp.ihl]; exact ipHeaderLen_even pkt
  have hlen := hc.l4Csum_le
  have hfits := hc.fits
  rw [← hp.ihl] at hlen
  rw [← hp.proto] at hlen
  obtain ⟨hkeven, hkle, hkdisj⟩ := keyfield_spec hsup srcSide
  have hkey := le_keyfield v srcSide
  obtain ⟨hcq, hihlq, htotq, hprotoq⟩ := hc.translate hp haddr srcSide ip port hq
  -- each half keeps both fields restorable
  obtain ⟨ha1, ha2, ha3⟩ := rewriteAddr_restorable pkt ip hsup haddr hihl20 heven hlen.1
    (by omega)
  obtain ⟨hf1, hf2, hf3⟩ := rewritePort_restorable (rewriteAddr pkt v addr ip) port hsup hihl20
    hlen.1 (by rw [length_rewriteAddr]; omega) hkey hkeven (by omega) hkdisj
  have hfield : l4Csum q = v.ihl + l4CsumOff v.proto := by
    rw [l4Csum, hihlq, hprotoq, hp.ihl, hp.proto]
  have hfield' : l4Csum pkt = v.ihl + l4CsumOff v.proto := by rw [l4Csum, hp.ihl, hp.proto]
  refine ⟨hcq, ?_, ?_, fun h17 => ?_⟩
  · rw [← hcq.header_restorable_iff, hihlq, ← hp.ihl, hq]
    refine hf1 (ha1 ?_)
    rw [hp.ihl, hc.header_restorable_iff]
    exact hheader
  · rw [← hcq.l4_restorable_iff, hfield, hihlq, htotq, hprotoq, ← hp.ihl, ← hp.proto, hq]
    refine hf2 (ha2 ?_)
    rw [← hfield', hp.ihl, hp.proto, hc.l4_restorable_iff]
    exact hl4
  · rw [hfield, hfield', hq, Molewire.translate]
    rw [← hp.proto] at h17
    exact (hf3 h17).trans (ha3 h17)

/-! ### Restoration -/

theorem isZero16_eq {f : Bytes} {off : Nat} (h : off + 2 ≤ f.length) :
    isZero16 f off = some (decide (be16 f off = 0)) := by
  have hget : ∀ i < f.length, f[i]? = some (byte f i) := by
    intro i hi
    simp [byte, List.getD_eq_getElem?_getD, List.getElem?_eq_getElem hi]
  rw [isZero16, hget off (by omega), hget (off + 1) (by omega)]
  simp only [Option.bind_eq_bind, Option.bind_some, be16, word_eq_zero_iff]
  by_cases h0 : byte f off = 0 <;> by_cases h1 : byte f (off + 1) = 0 <;> simp [h0, h1]

/-- Restoring a field whose sum is known leaves a sum that verifies. The value stored may be the
other spelling of zero. -/
theorem restoreAt_verifies {f : Bytes} {c w : Nat} (sum : Bytes → Nat) (hc : c + 2 ≤ f.length)
    (hw : w = finish (sum f) ∨ (finish (sum f) = 0 ∧ w = 65535))
    (hwin : ∀ q, AgreeOff f q c 2 → sum q + be16 f c = sum f + be16 q c)
    (hle : be16 f c ≤ sum f) (hres : Restorable c sum f) :
    ∃ out, restoreAt f c (some w) = some out ∧ AgreeOff f out c 2 ∧ finish (sum out) = 0 := by
  rw [restoreAt, isZero16_eq hc]
  -- a mark is replaced, a checksum in place is kept
  by_cases h0 : be16 f c = 0
  · have hagree : AgreeOff f (splice f c (bytes w)) c 2 := agreeOff_splice f c (bytes w)
    have hw16 : w < 65536 := by
      rcases hw with rfl | ⟨-, rfl⟩
      · exact finish_lt _
      · decide
    have hstored : be16 (splice f c (bytes w)) c = w := by
      rw [bytes, be16_splice_self hc, word_bytes hw16]
    have hsum := hwin _ hagree
    rw [hstored, h0, Nat.add_zero] at hsum
    refine ⟨splice f c (bytes w), by simp [h0, write16, hc], hagree, ?_⟩
    rw [hsum]
    rcases hw with rfl | ⟨hzero, rfl⟩
    · exact finish_add_finish _
    · exact finish_add_ones hzero
  · refine ⟨f, by simp [h0], .refl f c 2, ?_⟩
    exact ((restorable_iff hle).mp hres).resolve_right h0

theorem headerSum_window {pkt q : Bytes} {ihl : Nat} (hihl : 20 ≤ ihl) (hlen : ihl ≤ pkt.length)
    (h : AgreeOff pkt q 10 2) :
    headerSum ihl q + be16 pkt 10 = headerSum ihl pkt + be16 q 10 := by
  have hsum := h.wordSum_span (s := 0) (n := ihl) (by omega) (by omega) rfl rfl (by omega)
  have hlenq := h.length_eq
  rwa [wordSum_span_two (by omega), wordSum_span_two (by omega)] at hsum

theorem l4Sum_window {pkt q : Bytes} {ihl len : Nat} {proto : UInt8} (hihl : 20 ≤ ihl)
    (hc : l4CsumOff proto + 2 ≤ len) (hlen : ihl + len ≤ pkt.length)
    (h : AgreeOff pkt q (ihl + l4CsumOff proto) 2) :
    l4Sum ihl len proto q + be16 pkt (ihl + l4CsumOff proto) =
      l4Sum ihl len proto pkt + be16 q (ihl + l4CsumOff proto) := by
  have heven := l4CsumOff_even proto
  have hsum := h.wordSum_span (s := ihl) (n := len) (by omega) (by omega) (by omega) rfl hlen
  have hlenq := h.length_eq
  rw [wordSum_span_two (by omega), wordSum_span_two (by omega)] at hsum
  rw [l4Sum, l4Sum, h.span_eq (s := 12) (by omega)]
  omega

/-- The checksum a restorer stores for a sum. -/
def restoredCsum (proto : UInt8) (sum : Nat) : Nat :=
  if proto = 17 ∧ finish sum = 0 then 65535 else finish sum

theorem restoredCsum_cases (proto : UInt8) (sum : Nat) :
    restoredCsum proto sum = finish sum ∨ (finish sum = 0 ∧ restoredCsum proto sum = 65535) := by
  unfold restoredCsum
  split_ifs with h
  · exact .inr ⟨h.2, rfl⟩
  · exact .inl rfl

/-- On a complete packet the transport restorer works on the protocol's field with the sum over
the segment. -/
theorem restoreTransport_eq {pkt : Bytes} (h : Complete pkt) :
    restoreTransport pkt 0 (ipHeaderLen pkt) (ipTotalLen pkt) =
      restoreAt pkt (l4Csum pkt) (some (restoredCsum (byte pkt 9)
        (l4Sum (ipHeaderLen pkt) (ipTotalLen pkt - ipHeaderLen pkt) (byte pkt 9) pkt))) := by
  have hihl := h.twenty_le
  have hfits := h.fits
  have hl4 := h.l4Csum_le
  have hget : ∀ i < 20, pkt[i]? = some (byte pkt i) := by
    intro i hi
    simp [byte, List.getD_eq_getElem?_getD, List.getElem?_eq_getElem (show i < pkt.length by omega)]
  obtain ⟨hfragHi, hfragLo⟩ : byte pkt 6 &&& 0x3F = 0 ∧ byte pkt 7 = 0 := by
    simpa [isFragment] using h.whole
  have hseg : readSpan pkt (ipHeaderLen pkt) (ipTotalLen pkt - ipHeaderLen pkt) =
      some (span pkt (ipHeaderLen pkt) (ipTotalLen pkt - ipHeaderLen pkt)) :=
    if_pos (by omega)
  have haddrs : readSpan pkt 12 8 = some (span pkt 12 8) := if_pos (by omega)
  have hroom := h.header
  simp only [restoreTransport, pseudoSum, Nat.zero_add, hget 6 (by omega), hget 7 (by omega),
    hget 9 (by omega), Option.bind_eq_bind, Option.bind_some, hfragHi, hfragLo, hseg, haddrs,
    bne_self_eq_false, Bool.false_eq_true, if_false, l4Csum]
  -- the three protocols differ in the place of the field and in the zero they store
  rcases h.supported with hp | hp | hp <;> rw [hp] at hroom ⊢ <;>
    simp only [show ¬(6 : UInt8) = 1 by decide, show ¬(17 : UInt8) = 1 by decide,
      show ¬(17 : UInt8) = 6 by decide, show ¬(6 : UInt8) = 17 by decide,
      show ¬(1 : UInt8) = 17 by decide, show ¬(1 : UInt8) = 6 by decide, if_true, if_false,
      true_and, false_and, l4CsumOff, l4Sum, csumAdd_eq, csumFinish] at hroom ⊢
  · rw [if_pos (by omega)]
    simp [restoredCsum, Nat.add_assoc]
  · rw [if_pos (by omega)]
    simp only [restoredCsum, Nat.add_assoc, Nat.zero_add, true_and]
    split_ifs with hz <;> simp only [Option.pure_def, Option.bind_some, hz, if_true, if_false]
  · rw [if_pos (by omega)]
    simp [restoredCsum]

/-- The header restorer writes its field alone, which then verifies. -/
theorem restoreHeader_verifies {pkt : Bytes} (h : Complete pkt)
    (hheader : HeaderVerifies pkt ∨ be16 pkt 10 = 0) :
    ∃ q, restoreHeader pkt 0 (ipHeaderLen pkt) = some q ∧ AgreeOff pkt q 10 2 ∧
      Complete q ∧ HeaderVerifies q := by
  have hihl := h.twenty_le
  have hfits := h.fits
  have hroom := h.l4Csum_le
  obtain ⟨q, hq, aq, hqv⟩ := restoreAt_verifies (headerSum (ipHeaderLen pkt))
    (w := finish (headerSum (ipHeaderLen pkt) pkt)) (by omega) (.inl rfl)
    (fun q hagree => headerSum_window hihl (by omega) hagree)
    (be16_le_wordSum_span (by omega) (by omega) rfl (by omega))
    (h.header_restorable_iff.mpr hheader)
  obtain ⟨hcq, hihlq, -⟩ := h.of_bytes aq.length_eq (fun k hk => aq.byte_eq k (.inl hk))
    (fun _ => aq.be16_eq (.inr (by omega)))
  refine ⟨q, ?_, aq, hcq, ?_⟩
  · rw [restoreHeader, readSpan, if_pos (by omega)]
    simpa [headerSum, csumAdd_eq, csumFinish] using hq
  · rw [HeaderVerifies, hihlq]
    exact hqv

/-- And so does the transport restorer. -/
theorem restoreTransport_verifies {pkt : Bytes} (h : Complete pkt)
    (hl4 : L4Verifies pkt ∨ be16 pkt (l4Csum pkt) = 0) :
    ∃ out, restoreTransport pkt 0 (ipHeaderLen pkt) (ipTotalLen pkt) = some out ∧
      AgreeOff pkt out (l4Csum pkt) 2 ∧ ipHeaderLen out = ipHeaderLen pkt ∧ L4Verifies out := by
  have hihl := h.twenty_le
  have hroom := h.l4Csum_le
  have hfits := h.fits
  have hseg : ipHeaderLen pkt + (ipTotalLen pkt - ipHeaderLen pkt) ≤ pkt.length := by omega
  have hwin : ∀ r, AgreeOff pkt r (l4Csum pkt) 2 →
      l4Sum (ipHeaderLen pkt) (ipTotalLen pkt - ipHeaderLen pkt) (byte pkt 9) r +
          be16 pkt (l4Csum pkt) =
        l4Sum (ipHeaderLen pkt) (ipTotalLen pkt - ipHeaderLen pkt) (byte pkt 9) pkt +
          be16 r (l4Csum pkt) :=
    fun r hagree => l4Sum_window h.twenty_le hroom.1 hseg hagree
  rw [← h.l4_restorable_iff] at hl4
  obtain ⟨out, hout, aout, houtv⟩ := restoreAt_verifies _ (by unfold l4Csum; omega)
    (restoredCsum_cases (byte pkt 9) _) hwin h.l4Csum_word_le hl4
  rw [← restoreTransport_eq h] at hout
  have hoff : ipHeaderLen pkt + 2 ≤ l4Csum pkt := by
    unfold l4Csum l4CsumOff
    split_ifs <;> omega
  obtain ⟨hco, hihlo, htoto, hprotoo⟩ := h.of_bytes aout.length_eq
    (fun k hk => aout.byte_eq k (.inl (by omega))) (fun h17 => aout.be16_eq (.inl (by
      rw [l4Csum, h17]
      simp [l4CsumOff])))
  refine ⟨out, hout, aout, hihlo, ?_⟩
  rw [L4Verifies, hco.l4Len_eq, hihlo, htoto, hprotoo]
  exact houtv

/-- The restorers leave a packet whose fields verify or are marked with both fields verifying. -/
theorem restoreFields_verifies {pkt : Bytes} (h : Complete pkt)
    (hheader : HeaderVerifies pkt ∨ be16 pkt 10 = 0)
    (hl4 : L4Verifies pkt ∨ be16 pkt (l4Csum pkt) = 0) :
    ∃ out, restoreFields pkt 0 (ipHeaderLen pkt) (ipTotalLen pkt) = some out ∧
      HeaderVerifies out ∧ L4Verifies out := by
  have hihl := h.twenty_le
  have hroom := h.l4Csum_le
  obtain ⟨q, hhdr, aq, hcq, hqv⟩ := restoreHeader_verifies h hheader
  obtain ⟨-, hihlq, htotq, hprotoq⟩ := h.of_bytes aq.length_eq
    (fun k hk => aq.byte_eq k (.inl hk)) (fun _ => aq.be16_eq (.inr (by omega)))
  -- the header field is not in the transport sum
  have hl4q : L4Verifies q ∨ be16 q (l4Csum q) = 0 := by
    rw [← hcq.l4_restorable_iff, Restorable, l4Csum, hihlq, htotq, hprotoq, l4Sum,
      aq.be16_eq (.inr (by omega)), aq.span_eq (.inr (by omega)), aq.span_eq (.inr (by omega))]
    exact h.l4_restorable_iff.mpr hl4
  obtain ⟨out, hout, aout, hihlo, houtv⟩ := restoreTransport_verifies hcq hl4q
  have hroomq := hcq.twenty_le
  have hoff : ipHeaderLen q + 2 ≤ l4Csum q := by
    unfold l4Csum l4CsumOff
    split_ifs <;> omega
  refine ⟨out, ?_, ?_, houtv⟩
  · rw [restoreFields, hhdr, ← hihlq, ← htotq]
    exact hout
  · -- nor the transport field in the header's
    rw [HeaderVerifies, hihlo, headerSum, aout.span_eq (.inl (by omega))]
    exact hqv

/-- `wireguardif_fix_checksums` on such a packet. -/
theorem wireguardifFixChecksums_verifies {pkt : Bytes} (h : Complete pkt)
    (hheader : HeaderVerifies pkt ∨ be16 pkt 10 = 0)
    (hl4 : L4Verifies pkt ∨ be16 pkt (l4Csum pkt) = 0) :
    ∃ out, wireguardifFixChecksums pkt = some out ∧ HeaderVerifies out ∧ L4Verifies out := by
  have hihl := h.twenty_le
  have hfits := h.fits
  have hroom := h.l4Csum_le
  rw [wireguardifFixChecksums, if_neg (by rw [h.version]; omega)]
  dsimp only
  rw [if_neg (by omega)]
  exact restoreFields_verifies h hheader hl4

/-- `eth_csum_restore` on such a packet behind an Ethernet header of type IPv4. -/
theorem ethCsumRestore_verifies {pkt eth : Bytes} (h : Complete pkt)
    (hheader : HeaderVerifies pkt ∨ be16 pkt 10 = 0)
    (hl4 : L4Verifies pkt ∨ be16 pkt (l4Csum pkt) = 0) (heth : eth.length = 14)
    (htype : span eth 12 2 = [0x08, 0x00]) (hlen : 14 + pkt.length < 65536) :
    ∃ out, ethCsumRestore (eth ++ pkt) = some (eth ++ out) ∧ HeaderVerifies out ∧
      L4Verifies out := by
  obtain ⟨out, hout, hverifies⟩ := restoreFields_verifies h hheader hl4
  have hihl := h.twenty_le
  have hfits := h.fits
  have hroom := h.l4Csum_le
  have hfields := restoreFields_frame eth pkt (ipHeaderLen pkt) (ipTotalLen pkt)
  rw [heth, hout] at hfields
  refine ⟨out, ?_, hverifies⟩
  rw [ethCsumRestore_eq_guard, frameGuard_frame heth htype h.version hihl (by omega) hfits
    (by omega), hfields]
  rfl

/-- **Checksums survive translation and egress.** Whatever the mapping, a translated packet whose
fields verified or were marked still has fields that verify or are marked, a UDP checksum is
present after as before, and either restorer leaves every field verifying. -/
theorem napt_checksums {n : Napt} {pkt : Bytes} {now : UInt32} {res : NaptResult}
    (hc : Complete pkt) (hmss : n.gMss = 0) (hheader : HeaderVerifies pkt ∨ be16 pkt 10 = 0)
    (hl4 : L4Verifies pkt ∨ be16 pkt (l4Csum pkt) = 0)
    (hres : res = naptOutbound n pkt pkt.length now ∨ res = naptInbound n pkt pkt.length now)
    (htr : res.translated) :
    (HeaderVerifies res.pkt ∨ be16 res.pkt 10 = 0) ∧
    (L4Verifies res.pkt ∨ be16 res.pkt (l4Csum res.pkt) = 0) ∧
    (byte pkt 9 = 17 → (be16 res.pkt (l4Csum res.pkt) = 0 ↔ be16 pkt (l4Csum pkt) = 0)) ∧
    (∃ out, wireguardifFixChecksums res.pkt = some out ∧ HeaderVerifies out ∧ L4Verifies out) ∧
    ∀ eth : Bytes, eth.length = 14 → span eth 12 2 = [0x08, 0x00] → 14 + pkt.length < 65536 →
      ∃ out, ethCsumRestore (eth ++ res.pkt) = some (eth ++ out) ∧ HeaderVerifies out ∧
        L4Verifies out := by
  -- both directions are the shared rewriting of a parsed packet
  obtain ⟨v, addr, srcSide, ip, port, hp, haddr, hpkt⟩ : ∃ v addr srcSide ip port,
      Parsed pkt pkt.length v ∧ (addr = 12 ∨ addr = 16) ∧
        res.pkt = translate 0 pkt v addr (keyfield v srcSide) ip port := by
    rcases hres with rfl | rfl
    · obtain ⟨v, i, e, hp, -, -, -, -, heq⟩ | heq := naptOutbound_cases n pkt pkt.length now
      · exact ⟨v, 12, true, n.gExt, natPortBytes i, hp, .inl rfl, by rw [heq, hmss]⟩
      · simp [heq] at htr
    · obtain ⟨v, i, hp, -, -, -, -, -, -, heq⟩ | heq := naptInbound_cases n pkt pkt.length now
      · exact ⟨v, 16, false, _, _, hp, .inr rfl, by rw [heq, hmss]⟩
      · simp [heq] at htr
  obtain ⟨hcq, hh, hl, hudp⟩ :=
    translate_restorable hc hp haddr srcSide ip port hpkt hheader hl4
  have hlen : res.pkt.length = pkt.length := by rw [hpkt, length_translate]
  refine ⟨hh, hl, hudp, wireguardifFixChecksums_verifies hcq hh hl, ?_⟩
  intro eth heth htype hshort
  exact ethCsumRestore_verifies hcq hh hl heth htype (by rw [hlen]; exact hshort)

/-- A client's DNS query without payload, both checksums in place. -/
def checkedDatagram : Bytes :=
  [0x45, 0x00, 0x00, 0x1C, 0x00, 0x00, 0x00, 0x00, 0x40, 0x11, 0xA3, 0x17, 0xC0, 0xA8,
    0x07, 0x02, 0x08, 0x08, 0x08, 0x08, 0x12, 0x34, 0x00, 0x35, 0x00, 0x08, 0x15, 0xBB]

theorem napt_checksums_checkedDatagram :
    ∃ out, wireguardifFixChecksums
      (naptOutbound { gExt := ⟨10, 0, 0, 1⟩ } checkedDatagram 28 0).pkt = some out ∧
        HeaderVerifies out ∧ L4Verifies out := by
  have hc : Complete checkedDatagram := {
    version := by decide
    twenty_le := by decide
    whole := by decide
    supported := by decide
    header := by decide
    fits := by decide
    udpLen := by decide }
  have hheader : HeaderVerifies checkedDatagram := by unfold HeaderVerifies; decide +kernel
  have hl4 : L4Verifies checkedDatagram := by unfold L4Verifies; decide +kernel
  exact (napt_checksums hc rfl (.inl hheader) (.inl hl4) (.inl rfl) (by decide +kernel)).2.2.2.1

end Molewire
