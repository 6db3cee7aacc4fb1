/-
# What a NAT call touches

A refused packet and the table are left as they are, and outbound the refusal
is counted. A translated packet differs in the address and the key field of its
side, in the two checksums and in the value of an MSS option, all of them
inside the bytes that are there, and one slot of the table is written.
-/

import Molewire.MssClamp

namespace Molewire

open ByteBuffer OnesComplement

section Fields

variable {mss : UInt16} {pkt : Bytes} {v : PktView} {addr field k : Nat} {ip : Ip4}
  {port : UInt8 × UInt8}

/-- The transport checksum of a packet that is translated. -/
theorem l4CsumOff_of_supported (hsup : v.proto = 6 ∨ v.proto = 17 ∨ v.proto = 1) :
    (v.proto = 6 ∧ l4CsumOff v.proto = 16) ∨ (v.proto = 17 ∧ l4CsumOff v.proto = 6) ∨
      (v.proto = 1 ∧ l4CsumOff v.proto = 2) := by
  rcases hsup with h | h | h <;> simp [h, l4CsumOff]

/-- The first half writes the address and the checksums. -/
theorem rewriteAddr_frame (hsup : v.proto = 6 ∨ v.proto = 17 ∨ v.proto = 1)
    (haddr : k < addr ∨ addr + 4 ≤ k) (h10 : k < 10 ∨ 12 ≤ k)
    (hc : k < v.ihl + l4CsumOff v.proto ∨ v.ihl + l4CsumOff v.proto + 2 ≤ k) :
    byte (rewriteAddr pkt v addr ip) k = byte pkt k := by
  simp only [rewriteAddr]
  rw [byte_splice_of_not_mem (by simpa using haddr)]
  obtain ⟨h, hoff⟩ | ⟨h, hoff⟩ | ⟨h, hoff⟩ := l4CsumOff_of_supported hsup <;> rw [hoff] at hc
  · rw [if_pos h, byte_csumAdjustNz hc, byte_csumAdjustNz h10]
  · rw [if_neg (by rw [h]; decide), if_pos h, byte_csumAdjustUdp hc, byte_csumAdjustNz h10]
  · rw [if_neg (by rw [h]; decide), if_neg (by rw [h]; decide), byte_csumAdjustNz h10]

/-- The clamp writes the value that exceeds it and the checksum. -/
theorem clampMss_frame (hc : k < v.ihl + 16 ∨ v.ihl + 18 ≤ k)
    (hmss : ∀ j, exceedingMss mss pkt v.ihl v.l4avail = some j → k < j ∨ j + 2 ≤ k) :
    byte (clampMss mss pkt v) k = byte pkt k := by
  rw [clampMss_eq]
  cases hj : exceedingMss mss pkt v.ihl v.l4avail with
  | none => rfl
  | some j =>
    dsimp only
    rw [byte_csumAdjustNz hc, byte_splice_of_not_mem (hmss j hj)]

/-- The second half writes the key field, the checksum and a clamped value. -/
theorem rewritePort_frame (hsup : v.proto = 6 ∨ v.proto = 17 ∨ v.proto = 1)
    (hfield : k < field ∨ field + 2 ≤ k)
    (hc : k < v.ihl + l4CsumOff v.proto ∨ v.ihl + l4CsumOff v.proto + 2 ≤ k)
    (hmss : v.proto = 6 → ∀ j, exceedingMss mss pkt v.ihl v.l4avail = some j → k < j ∨ j + 2 ≤ k) :
    byte (rewritePort mss pkt v field port) k = byte pkt k := by
  simp only [rewritePort]
  rw [byte_splice_of_not_mem (by simpa using hfield)]
  obtain ⟨h, hoff⟩ | ⟨h, hoff⟩ | ⟨h, hoff⟩ := l4CsumOff_of_supported hsup <;> rw [hoff] at hc
  · rw [if_pos h, clampMss_frame hc, byte_csumAdjustNz hc]
    -- the options are those of the packet that comes in
    rw [exceedingMss_congr fun i _ hi => byte_csumAdjustNz hi]
    exact hmss h
  · rw [if_neg (by rw [h]; decide), if_pos h, byte_csumAdjustUdp hc]
  · rw [if_neg (by rw [h]; decide), if_neg (by rw [h]; decide), byte_csumAdjustNz hc]

end Fields

/-- The bytes that translation may write: the address, the key field, the checksums and, of a TCP
SYN, an MSS value that exceeds the clamp. -/
def Rewritable (mss : UInt16) (pkt : Bytes) (v : PktView) (addr field k : Nat) : Prop :=
  (addr ≤ k ∧ k < addr + 4) ∨ (field ≤ k ∧ k < field + 2) ∨ (10 ≤ k ∧ k < 12) ∨
    (v.ihl + l4CsumOff v.proto ≤ k ∧ k < v.ihl + l4CsumOff v.proto + 2) ∨
    v.proto = 6 ∧ ∃ j, exceedingMss mss pkt v.ihl v.l4avail = some j ∧ j ≤ k ∧ k < j + 2

/-- They all are there. -/
theorem Rewritable.lt_avail {mss : UInt16} {pkt : Bytes} {avail : Nat} {v : PktView}
    (hp : Parsed pkt avail v) {addr k : Nat} (haddr : addr = 12 ∨ addr = 16) {srcSide : Bool}
    (h : Rewritable mss pkt v addr (keyfield v srcSide) k) : k < avail := by
  have hihl := hp.twenty_le
  have hl4 := hp.l4avail
  have height := hp.eight_le
  have hfield := hp.keyfield_le srcSide
  rcases h with h | h | h | h | ⟨-, j, hj, hk⟩
  · omega
  · omega
  · omega
  · have hroom := hp.room
    obtain ⟨hproto, hoff⟩ | ⟨hproto, hoff⟩ | ⟨hproto, hoff⟩ := l4CsumOff_of_supported hp.supported
    · rw [if_pos hproto] at hroom
      omega
    · omega
    · omega
  · obtain ⟨-, -, -, hend, hlen, -⟩ := exceedingMss_spec hj
    omega

/-- Translation writes nothing else. -/
theorem translate_frame {mss : UInt16} {pkt : Bytes} {avail : Nat} {v : PktView}
    (hp : Parsed pkt avail v) {addr k : Nat} (haddr : addr = 12 ∨ addr = 16) (field : Nat)
    (ip : Ip4) (port : UInt8 × UInt8) (hk : ¬Rewritable mss pkt v addr field k) :
    byte (translate mss pkt v addr field ip port) k = byte pkt k := by
  have hihl := hp.twenty_le
  simp only [Rewritable, not_or, not_and, not_exists] at hk
  obtain ⟨ha, hf, h10, hc, hmss⟩ := hk
  -- the first half leaves the TCP header alone but for its checksum
  have hsame : exceedingMss mss (rewriteAddr pkt v addr ip) v.ihl v.l4avail =
      exceedingMss mss pkt v.ihl v.l4avail ∨ v.proto ≠ 6 := by
    by_cases h6 : v.proto = 6
    · refine .inl (exceedingMss_congr fun i hlo hi => ?_)
      refine rewriteAddr_frame hp.supported (by omega) (by omega) ?_
      rw [h6, show l4CsumOff 6 = 16 from rfl]
      omega
    · exact .inr h6
  rw [translate, rewritePort_frame hp.supported (by omega) (by omega) fun h6 j hj => ?_,
    rewriteAddr_frame hp.supported (by omega) (by omega) (by omega)]
  rw [hsame.resolve_right (not_not.mpr h6)] at hj
  have hnot := hmss h6 j hj
  omega

/-- What a translation may change: nothing but the rewritable bytes, which all are there, and one
slot of the table. -/
structure Translated (n : Napt) (pkt : Bytes) (avail : Nat) (v : PktView) (addr field : Nat)
    (res : NaptResult) : Prop where
  length_eq : res.pkt.length = pkt.length
  byte_eq : ∀ k, ¬Rewritable n.gMss pkt v addr field k → byte res.pkt k = byte pkt k
  below : ∀ k, Rewritable n.gMss pkt v addr field k → k < avail
  slot : ∃ i e, res.napt = n.setEntry i e

/-- Refusals and rewrites touch nothing else, in both directions. -/
theorem napt_touches (n : Napt) (pkt : Bytes) (avail : Nat) (now : UInt32) :
    ((naptOutbound n pkt avail now).translated = false →
      (naptOutbound n pkt avail now).pkt = pkt ∧
        (naptOutbound n pkt avail now).napt = { n with gDrops := n.gDrops + 1 }) ∧
    ((naptOutbound n pkt avail now).translated = true → ∃ v, parse pkt avail = some v ∧
      Translated n pkt avail v 12 (keyfield v true) (naptOutbound n pkt avail now)) ∧
    ((naptInbound n pkt avail now).translated = false →
      (naptInbound n pkt avail now).pkt = pkt ∧ (naptInbound n pkt avail now).napt = n) ∧
    ((naptInbound n pkt avail now).translated = true → ∃ v, parse pkt avail = some v ∧
      Translated n pkt avail v 16 (keyfield v false) (naptInbound n pkt avail now)) := by
  have hout := naptOutbound_cases n pkt avail now
  have hin := naptInbound_cases n pkt avail now
  refine ⟨fun hno => ?_, fun hyes => ?_, fun hno => ?_, fun hyes => ?_⟩
  · obtain ⟨v, i, e, -, -, -, -, -, hres⟩ | hres := hout
    · simp [hres] at hno
    · rw [hres]
      exact ⟨rfl, rfl⟩
  · obtain ⟨v, i, e, hp, hparse, -, -, -, hres⟩ | hres := hout
    · rw [hres]
      exact ⟨v, hparse, length_translate, fun k hk => translate_frame hp (.inl rfl) _ _ _ hk,
        fun k hk => hk.lt_avail hp (.inl rfl), i, _, rfl⟩
    · simp [hres] at hyes
  · obtain ⟨v, i, -, -, -, -, -, -, -, hres⟩ | hres := hin
    · simp [hres] at hno
    · rw [hres]
      exact ⟨rfl, rfl⟩
  · obtain ⟨v, i, hp, hparse, -, -, -, -, -, hres⟩ | hres := hin
    · rw [hres]
      exact ⟨v, hparse, length_translate, fun k hk => translate_frame hp (.inr rfl) _ _ _ hk,
        fun k hk => hk.lt_avail hp (.inr rfl), i, _, rfl⟩
    · simp [hres] at hyes

end Molewire
