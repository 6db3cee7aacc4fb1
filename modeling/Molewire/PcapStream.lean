/-
# The capture stream

Whatever was captured and cleared before, the two spans of a download are whole
records, those of the last frames accepted since the ring was cleared. A record
is lost only to make room for a newer one, so a ring that has lost any is full
but for the place of two.
-/

import Molewire.Library.RecordRing
import Molewire.Library.Transition
import Molewire.Pcap

namespace Molewire

open ByteBuffer RecordRing Transition

/-! ### Records -/

theorem byte_of_lt {bs : Bytes} {i : Nat} (h : i < bs.length) : byte bs i = bs[i] := by
  rw [byte, List.getD_eq_getElem?_getD, List.getElem?_eq_getElem h, Option.getD_some]

/-- A `uint32_t` read from memory. -/
def readLe32 (bs : Bytes) (off : Nat) : Nat :=
  (byte bs off).toNat + 2 ^ 8 * (byte bs (off + 1)).toNat + 2 ^ 16 * (byte bs (off + 2)).toNat +
    2 ^ 24 * (byte bs (off + 3)).toNat

/-- A record as a reader of the capture sees it. -/
structure PcapRecord where
  sec : Nat
  usec : Nat
  incl : Nat
  orig : Nat
  bytes : Bytes
  deriving DecidableEq, Repr

/-- The record a stream starts with, and the rest of the stream. -/
def decodeRecord (bs : Bytes) : Option (PcapRecord × Bytes) :=
  let incl := readLe32 bs 8
  if bs.length < recHdr + incl then none
  else
    some (⟨readLe32 bs 0, readLe32 bs 4, incl, readLe32 bs 12, span bs recHdr incl⟩,
      bs.drop (recHdr + incl))

/-- All records of a stream. -/
def parseRecords (bs : Bytes) : Option (List PcapRecord) := decodeAll decodeRecord bs.length bs

/-- A frame handed to `pcap_capture` at `us` microseconds: its length, and a buffer with the bytes
that are kept of it. -/
structure Frame where
  us : UInt64
  bytes : Bytes
  len : UInt16
  held : min len.toNat snaplen ≤ bytes.length

namespace Frame

/-- What a reader is to see of the frame. -/
def record (f : Frame) : PcapRecord where
  sec := f.us.toNat / 1000000 % 2 ^ 32
  usec := f.us.toNat % 1000000
  incl := min f.len.toNat snaplen
  orig := f.len.toNat
  bytes := f.bytes.take (min f.len.toNat snaplen)

/-- The bytes stored for it. -/
def encode (f : Frame) : Bytes := Pcap.record f.us f.bytes f.len

variable (f : Frame)

@[simp] theorem length_encode : f.encode.length = recHdr + min f.len.toNat snaplen := by
  have hheld := f.held
  simp [encode, Pcap.record, le32, recHdr]
  omega

theorem length_encode_le : f.encode.length ≤ recHdr + snaplen := by
  rw [length_encode]
  omega

theorem encode_ne_nil : f.encode ≠ [] := by
  apply List.ne_nil_of_length_pos
  rw [length_encode, recHdr]
  omega

end Frame

/-- The four words before the bytes of a record. -/
theorem readLe32_header (a b c d : Nat) (bs : Bytes) :
    readLe32 (le32 a ++ le32 b ++ le32 c ++ le32 d ++ bs) 0 = a % 2 ^ 32 ∧
    readLe32 (le32 a ++ le32 b ++ le32 c ++ le32 d ++ bs) 4 = b % 2 ^ 32 ∧
    readLe32 (le32 a ++ le32 b ++ le32 c ++ le32 d ++ bs) 8 = c % 2 ^ 32 ∧
    readLe32 (le32 a ++ le32 b ++ le32 c ++ le32 d ++ bs) 12 = d % 2 ^ 32 ∧
    (le32 a ++ le32 b ++ le32 c ++ le32 d ++ bs).drop recHdr = bs := by
  simp [readLe32, le32, byte, recHdr]
  omega

/-- The words and the bytes of a stored frame. -/
theorem readLe32_encode (f : Frame) (rest : Bytes) :
    readLe32 (f.encode ++ rest) 0 = f.us.toNat / 1000000 % 2 ^ 32 ∧
    readLe32 (f.encode ++ rest) 4 = f.us.toNat % 1000000 ∧
    readLe32 (f.encode ++ rest) 8 = min f.len.toNat snaplen ∧
    readLe32 (f.encode ++ rest) 12 = f.len.toNat ∧
    (f.encode ++ rest).drop recHdr = f.bytes.take (min f.len.toNat snaplen) ++ rest := by
  have hlt := f.len.toNat_lt
  have hbytes : f.encode ++ rest = le32 (f.us.toNat / 1000000) ++ le32 (f.us.toNat % 1000000) ++
      le32 (min f.len.toNat snaplen) ++ le32 f.len.toNat ++
        (f.bytes.take (min f.len.toNat snaplen) ++ rest) := by
    simp only [Frame.encode, Pcap.record, List.append_assoc]
  obtain ⟨hsec, husec, hincl, horig, hdrop⟩ := readLe32_header (f.us.toNat / 1000000)
    (f.us.toNat % 1000000) (min f.len.toNat snaplen) f.len.toNat
    (f.bytes.take (min f.len.toNat snaplen) ++ rest)
  rw [← hbytes] at hsec husec hincl horig hdrop
  rw [Nat.mod_eq_of_lt (by omega)] at husec hincl horig
  exact ⟨hsec, husec, hincl, horig, hdrop⟩

/-- A stored frame reads back as its record, whatever follows. -/
theorem decodeRecord_encode (f : Frame) (rest : Bytes) :
    decodeRecord (f.encode ++ rest) = some (f.record, rest) := by
  have hheld := f.held
  have hkept : (f.bytes.take (min f.len.toNat snaplen)).length = min f.len.toNat snaplen := by
    rw [List.length_take]
    omega
  obtain ⟨hsec, husec, hincl, horig, hdrop⟩ := readLe32_encode f rest
  have hwhole : ¬(f.encode ++ rest).length < recHdr + min f.len.toNat snaplen := by
    rw [List.length_append, f.length_encode]
    omega
  unfold decodeRecord
  simp only [hsec, husec, hincl, horig, if_neg hwhole, span, hdrop, ← List.drop_drop]
  rw [List.take_left' hkept, List.drop_left' hkept]
  rfl

/-- A log of stored frames reads back as their records. -/
theorem parseRecords_flatMap (fs : List Frame) :
    parseRecords (fs.flatMap Frame.encode) = some (fs.map Frame.record) := by
  apply decodeAll_flatMap
  · intro f _ rest
    exact decodeRecord_encode f rest
  · intro f _
    exact f.encode_ne_nil
  · have hle := length_le_flatMap 1 Frame.encode fs fun f _ =>
      List.length_pos_of_ne_nil f.encode_ne_nil
    omega

namespace Pcap

variable {p : Pcap} {f : Frame} {need : Nat} {dropped kept top low : List Frame}

/-- The place of the records. -/
def place (p : Pcap) : RingState UInt8 := ⟨p.ring, p.head, p.tail, p.high, p.wrapped⟩

/-- The bytes of the two spans. -/
def stream (p : Pcap) : Bytes :=
  cells p.ring p.spans.1.1 p.spans.1.2 ++ cells p.ring p.spans.2.1 p.spans.2.2

theorem stream_eq_log (p : Pcap) : p.stream = p.place.log := by
  unfold stream spans RingState.log place
  cases p.wrapped
  · exact List.append_nil _
  · rfl

theorem spans_le (p : Pcap) (hhead : p.head ≤ ringSize) (htail : p.tail ≤ ringSize)
    (hhigh : p.high ≤ ringSize) :
    p.spans.1.1 + p.spans.1.2 ≤ ringSize ∧ p.spans.2.1 + p.spans.2.2 ≤ ringSize := by
  unfold spans
  split_ifs <;> constructor <;> dsimp only <;> omega

theorem stats_eq (p : Pcap) : p.stats.2 = p.stream.length := by
  rw [stream, List.length_append, length_cells, length_cells]
  unfold stats spans
  split_ifs <;> rfl

/-- The ring keeps the frames `kept` after it dropped `dropped`. -/
abbrev Keeps (p : Pcap) (dropped kept : List Frame) : Prop :=
  RecordRing.Keeps ringSize (recHdr + snaplen) Frame.encode p.place p.head dropped kept

/-- The first words of a frame's record, found anywhere, tell its length. -/
theorem recLenAt_of_holds {off : Nat} {rest : Bytes} (h : Holds p.ring off (f.encode ++ rest)) :
    p.recLenAt off = f.encode.length := by
  have hlen := f.length_encode
  -- the header alone decides, which is at the same place in any memory that holds it
  have hbyte : ∀ i, i < recHdr → p.ring (off + i) = byte (f.encode ++ rest) i := by
    intro i hi
    have hlt : i < (f.encode ++ rest).length := by
      rw [List.length_append]
      omega
    rw [h i hlt, byte_of_lt hlt]
  have hincl := (readLe32_encode f rest).2.2.1
  have hsmall : min f.len.toNat snaplen ≤ 256 := Nat.min_le_right _ _
  simp only [readLe32, Nat.reduceAdd] at hincl
  have hrec : recHdr = 16 := rfl
  unfold recLenAt
  rw [hbyte 8 (by decide), hbyte 9 (by decide), hbyte 10 (by decide), hbyte 11 (by decide), hlen]
  omega

/-! ### Making room -/

/-- A record that does not fit before the end goes to the start. -/
theorem Keeps.wrap (h : p.Keeps dropped kept) (hneed : need ≤ recHdr + snaplen) :
    ∃ dropped' kept', dropped ++ kept = dropped' ++ kept' ∧ (p.wrap need).Keeps dropped' kept' ∧
      (p.wrap need).head + need ≤ ringSize := by
  by_cases hfull : ringSize < p.head + need
  · -- the tail goes to the start in either case
    have htail : (if p.wrapped ∧ p.head ≤ p.tail then 0 else p.tail) = 0 := by
      cases h with
      | linear h =>
        rw [if_neg fun hw => absurd (hw.1.symm.trans h.lapped) (by decide)]
        exact h.tail
      | lapped h => exact if_pos ⟨h.lapped, h.head_le⟩
    obtain ⟨dropped', kept', heq, hlap⟩ := RecordRing.Keeps.lap h (by decide)
      (show ringSize < p.head + (recHdr + snaplen) by omega)
    rw [Pcap.wrap, if_pos hfull, htail]
    refine ⟨dropped', kept', heq, ?_, ?_⟩
    · exact List.append_nil kept' ▸ RecordRing.Keeps.lapped hlap
    · have hsize : recHdr + snaplen ≤ ringSize := by decide
      change 0 + need ≤ ringSize
      omega
  · rw [Pcap.wrap, if_neg hfull]
    exact ⟨dropped, kept, rfl, h, by omega⟩

/-- A round of the loop of `evict`, where the oldest record of the lap before is `f`. -/
theorem evictLoop_succ (h : Lapped ringSize (recHdr + snaplen) Frame.encode p.place
    (p.head + need) (f :: top) low) (fuel : Nat) :
    evictLoop p.head need (fuel + 1) p =
      if p.head + need ≤ p.tail then p
      else if top = [] then { p with tail := 0, high := p.head, wrapped := false }
      else evictLoop p.head need fuel { p with tail := p.tail + f.encode.length } := by
  have hwrapped : p.wrapped = true := h.lapped
  have hlen : p.recLenAt p.tail = f.encode.length :=
    recLenAt_of_holds (List.flatMap_cons ▸ h.heldTop)
  have hlast : p.high ≤ p.tail + f.encode.length ↔ top = [] := h.high_le_iff Frame.encode_ne_nil
  have hpos := List.length_pos_of_ne_nil f.encode_ne_nil
  have hhead : p.head ≤ p.tail := h.head_le
  have hhigh : p.high = p.tail + _ := h.high
  have hcap : p.high ≤ ringSize := h.high_le
  rw [List.flatMap_cons, List.length_append] at hhigh
  -- no offset gets near the end of the 32-bit range
  have hnext : (p.tail + f.encode.length) % 2 ^ 32 = p.tail + f.encode.length := by
    apply Nat.mod_eq_of_lt
    rw [ringSize] at hcap
    omega
  -- a record of the lap before is never behind the head
  have hclear : (p.head + need ≤ p.tail ∨ p.tail + f.encode.length ≤ p.head) ↔
      p.head + need ≤ p.tail := by
    omega
  rw [evictLoop, if_neg (not_not.mpr hwrapped)]
  simp only [hlen, hnext, hclear, hlast]

/-- The loop of `evict` drops records of the lap before until the next one has its place. -/
theorem evictLoop_room {fuel : Nat} (hfuel : top.length ≤ fuel)
    (h : Lapped ringSize (recHdr + snaplen) Frame.encode p.place (p.head + need) top low)
    (hfits : p.head + need ≤ ringSize) (dropped : List Frame) :
    ∃ dropped' kept', dropped ++ (top ++ low) = dropped' ++ kept' ∧
      Room ringSize (recHdr + snaplen) Frame.encode (evictLoop p.head need fuel p).place need
        dropped' kept' := by
  induction fuel generalizing p top dropped with
  | zero => exact absurd (List.length_eq_zero_iff.mp (Nat.le_zero.mp hfuel)) h.left
  | succ fuel ih =>
    obtain ⟨f, rest, rfl⟩ := List.exists_cons_of_ne_nil h.left
    rw [evictLoop_succ h]
    split_ifs with hclear hrest
    · exact ⟨dropped, f :: rest ++ low, rfl, .lapped h hclear⟩
    · -- the lap before is used up
      subst hrest
      refine ⟨dropped ++ [f], low, (List.append_assoc _ _ _).symm, .linear ?_ hfits⟩
      exact h.unlap f.length_encode_le (Nat.lt_of_not_le hclear) (dropped ++ [f])
    · have hdrop := h.dropFirst f.length_encode_le (Nat.lt_of_not_le hclear) hrest
      obtain ⟨dropped', kept', heq, hroom⟩ :=
        ih (p := { p with tail := p.tail + f.encode.length }) (Nat.le_of_succ_le_succ hfuel) hdrop
          hfits (dropped ++ [f])
      exact ⟨dropped', kept', by rw [← heq, List.append_assoc]; rfl, hroom⟩

/-- Storing a record does not touch the others. -/
theorem store_ring (p : Pcap) (off : Nat) (bs : Bytes) :
    (∀ i, i < off ∨ off + bs.length ≤ i → (p.store off bs).ring i = p.ring i) ∧
      Holds (p.store off bs).ring off bs := by
  constructor
  · intro i hi
    exact if_neg (by omega)
  · intro i hi
    have hin : off ≤ off + i ∧ off + i < off + bs.length := by omega
    refine (if_pos hin).trans ?_
    rw [Nat.add_sub_cancel_left, byte_of_lt hi]

/-- The end of `pcap_capture`: the record goes to the head. -/
def push (p : Pcap) (bs : Bytes) : Pcap :=
  let p := p.store p.head bs
  let p := { p with head := p.head + bs.length }
  { p with
    high := if p.high < p.head ∧ ¬p.wrapped then p.head else p.high
    nPackets := (p.nPackets + 1) % 2 ^ 32 }

/-- A record for which there is room becomes the newest. -/
theorem push_keeps (h : Room ringSize (recHdr + snaplen) Frame.encode p.place f.encode.length
    dropped kept) : (p.push f.encode).Keeps dropped (kept ++ [f]) := by
  obtain ⟨hmem, hrec⟩ := store_ring p p.head f.encode
  have hoffset := h.offset_le
  refine h.append hmem hrec rfl rfl rfl ?_ ?_
  · intro hlapped
    exact if_neg fun hlinear => hlinear.2 hlapped
  · change (if _ then _ else _) ≤ ringSize
    split_ifs
    · exact hoffset.1
    · exact hoffset.2

/-- `evict` leaves room for the record. -/
theorem Keeps.room (h : p.Keeps dropped kept) (hneed : p.head + need ≤ ringSize) :
    ∃ dropped' kept', dropped ++ kept = dropped' ++ kept' ∧
      Room ringSize (recHdr + snaplen) Frame.encode
        (if p.wrapped then p.evict p.head need else p).place need dropped' kept' := by
  cases h with
  | linear h =>
    have hwrapped : ¬p.wrapped = true := by
      rw [show p.wrapped = false from h.lapped]
      decide
    rw [if_neg hwrapped]
    exact ⟨dropped, kept, rfl, .linear (h.mono (Nat.le_add_right _ _)) hneed⟩
  | @lapped top low h =>
    -- each record takes a header at least, so the loop has fuel for all of them
    have hfuel : top.length ≤ ringSize / recHdr + 1 := by
      have hle := length_le_flatMap recHdr Frame.encode top fun f _ => by
          rw [f.length_encode]
          exact Nat.le_add_right _ _
      have hhigh : p.high = p.tail + _ := h.high
      have hcap : p.high ≤ ringSize := h.high_le
      rw [recHdr] at hle ⊢
      omega
    rw [if_pos (show p.wrapped = true from h.lapped)]
    exact evictLoop_room hfuel (h.mono (Nat.le_add_right _ _)) hneed dropped

/-- `pcap_capture` stores the frame. -/
def accepts (p : Pcap) (f : Frame) : Bool := p.enabled && !p.paused && f.len != 0

/-- The three steps of `pcap_capture`. -/
theorem capture_of_accepts (hf : p.accepts f) {q : Pcap} (hq : p.wrap f.encode.length = q) :
    p.capture f.us f.bytes f.len =
      (if q.wrapped then q.evict q.head f.encode.length else q).push f.encode := by
  have hgo : ¬(¬p.enabled ∨ p.paused ∨ f.len = 0) := by
    simpa [accepts, and_assoc] using hf
  rw [f.length_encode] at hq
  rw [Pcap.capture, if_neg hgo, ← hq]
  simp only [push, f.length_encode]
  rfl

/-- An accepted frame is the newest of the ring, which still keeps a suffix of all. -/
theorem Keeps.capture (h : p.Keeps dropped kept) (hf : p.accepts f) :
    ∃ dropped' kept', dropped ++ kept ++ [f] = dropped' ++ kept' ∧
      (p.capture f.us f.bytes f.len).Keeps dropped' kept' := by
  obtain ⟨dropped₁, kept₁, heq₁, hwrap, hfits⟩ := h.wrap f.length_encode_le
  obtain ⟨dropped', kept', heq', hroom⟩ := hwrap.room hfits
  refine ⟨dropped', kept' ++ [f], by rw [heq₁, heq', List.append_assoc], ?_⟩
  rw [capture_of_accepts hf rfl]
  exact push_keeps hroom

end Pcap

/-! ### Runs -/

/-- The calls of `pcap.c`. -/
inductive PcapOp
  | capture (f : Frame)
  | clear
  | setEnabled (on : Bool)
  | freeze
  | resume

/-- A run that remembers the frames accepted since the last clear. -/
structure PcapRun where
  pcap : Pcap := {}
  accepted : List Frame := []

namespace PcapRun

def step (r : PcapRun) : PcapOp → PcapRun
  | .capture f =>
    { pcap := r.pcap.capture f.us f.bytes f.len
      accepted := if r.pcap.accepts f then r.accepted ++ [f] else r.accepted }
  | .clear => { pcap := r.pcap.clear, accepted := [] }
  | .setEnabled on => { r with pcap := r.pcap.setEnabled on }
  | .freeze => { r with pcap := r.pcap.freeze }
  | .resume => { r with pcap := r.pcap.resume }

/-- The runs from power-up. -/
def Reachable (r : PcapRun) : Prop := Reach (· = {}) (fun _ _ => True) step r

/-- The ring keeps a suffix of the frames accepted. -/
def Inv (r : PcapRun) : Prop :=
  ∃ dropped kept, r.accepted = dropped ++ kept ∧ r.pcap.Keeps dropped kept

/-- A ring with nothing in it. -/
theorem keeps_clear (p : Pcap) : p.clear.Keeps [] [] :=
  .linear {
    lapped := rfl
    tail := rfl
    head := rfl
    held := holds_nil
    head_le := Nat.zero_le _
    high_le := Nat.zero_le _
    full := fun hd => absurd rfl hd }

theorem Inv.step {r : PcapRun} (h : r.Inv) (op : PcapOp) : (r.step op).Inv := by
  obtain ⟨dropped, kept, heq, hkeeps⟩ := h
  cases op with
  | capture f =>
    by_cases hf : r.pcap.accepts f
    · obtain ⟨dropped', kept', heq', hkeeps'⟩ := hkeeps.capture hf
      exact ⟨dropped', kept', by rw [PcapRun.step, if_pos hf, heq, heq'], hkeeps'⟩
    · -- what is not accepted leaves the ring alone
      have hsame : r.pcap.capture f.us f.bytes f.len = r.pcap := by
        rw [Pcap.capture, if_pos]
        simpa [Pcap.accepts, or_iff_not_imp_left] using hf
      refine ⟨dropped, kept, by rw [PcapRun.step, if_neg hf, heq], ?_⟩
      rw [PcapRun.step, hsame]
      exact hkeeps
  | clear => exact ⟨[], [], rfl, keeps_clear r.pcap⟩
  | setEnabled on => exact ⟨dropped, kept, heq, hkeeps⟩
  | freeze => exact ⟨dropped, kept, heq, hkeeps⟩
  | resume => exact ⟨dropped, kept, heq, hkeeps⟩

theorem Reachable.inv {r : PcapRun} (hr : r.Reachable) : r.Inv := by
  apply Reach.invariant _ _ hr
  · rintro r rfl
    exact ⟨[], [], rfl, keeps_clear {}⟩
  · intro r op _ _ h
    exact h.step op

/-- In every run the spans of a download lie in the ring and are the records of the last frames
accepted since the last clear, the newest one among them, and the offsets and the reported length
are right. Once a frame was dropped the stream is longer than the ring less two records. -/
theorem stream_is_suffix {r : PcapRun} (hr : r.Reachable) :
    (r.pcap.spans.1.1 + r.pcap.spans.1.2 ≤ ringSize ∧
      r.pcap.spans.2.1 + r.pcap.spans.2.2 ≤ ringSize) ∧
    (∃ dropped kept, r.accepted = dropped ++ kept ∧ (r.accepted ≠ [] → kept ≠ []) ∧
      parseRecords r.pcap.stream = some (kept.map Frame.record) ∧
      (dropped ≠ [] → 65536 - 544 < r.pcap.stream.length)) ∧
    (r.pcap.head ≤ 65536 ∧ r.pcap.tail ≤ 65536 ∧ r.pcap.high ≤ 65536 ∧
      r.pcap.tail ≤ if r.pcap.wrapped then r.pcap.high else r.pcap.head) ∧
    r.pcap.stats.2 = r.pcap.stream.length := by
  obtain ⟨dropped, kept, heq, hkeeps⟩ := hr.inv
  obtain ⟨hhead, htail, hhigh⟩ := hkeeps.offset_le
  have hlog : r.pcap.stream = kept.flatMap Frame.encode :=
    r.pcap.stream_eq_log.trans hkeeps.log_eq
  refine ⟨r.pcap.spans_le hhead htail hhigh, ⟨dropped, kept, heq, ?_, ?_, ?_⟩,
    ⟨hhead, htail, hhigh, hkeeps.tail_le⟩, r.pcap.stats_eq⟩
  · intro hsome
    exact hkeeps.ne_nil (by decide) (heq ▸ hsome)
  · rw [hlog, parseRecords_flatMap]
  · -- a record is lost to the end of the lap, and one to the gap before the tail
    intro hdropped
    have hfull := hkeeps.full hdropped
    rw [← hlog, ringSize, recHdr, snaplen] at hfull
    omega

/-- A frame is captured and cleared away, and then three more are seen, one of them while a download
holds the ring. -/
def afterClear : PcapRun :=
  [.setEnabled true, .capture ⟨1500000, [1, 2], 2, by decide⟩, .clear,
    .capture ⟨2500000, [3, 4, 5], 3, by decide⟩, .freeze, .capture ⟨2600000, [6], 1, by decide⟩,
    .resume, .capture ⟨2700000, [7, 8], 2, by decide⟩].foldl step {}

/-- The stream is the two frames that were accepted since. -/
theorem stream_is_suffix_afterClear :
    afterClear.accepted.map Frame.us = [2500000, 2700000] ∧
      parseRecords afterClear.pcap.stream = some (afterClear.accepted.map Frame.record) := by
  have hstart : ({} : PcapRun).Reachable := .start rfl
  have hr : afterClear.Reachable := hstart.foldl (.of_forall (fun _ _ => trivial) _ _)
  obtain ⟨-, ⟨dropped, kept, heq, -, hparse, hfull⟩, -, hstats⟩ := stream_is_suffix hr
  have hlength : afterClear.pcap.stats.2 = 37 := by decide +kernel
  obtain rfl : dropped = [] := by
    by_contra hdropped
    have := hfull hdropped
    omega
  rw [List.nil_append] at heq
  refine ⟨by decide +kernel, ?_⟩
  rw [hparse, heq]

end PcapRun

end Molewire
