/-
# Station-edge NAT

The translation core of exit mode, `napt.c`. A mapping is a table slot, and its
NAT port is the slot's index above a fixed base, so inbound lookup is a direct
index. Slots are reused lazily: an entry that has been idle past its timeout is
free without anything having touched it.

A packet is the flat buffer the caller passes; `avail` is how many of its bytes
are present. Both directions rewrite the same way, an address and a port with
the checksums adjusted incrementally, so they share one rewriting function.
-/

import Mathlib.Logic.Function.Basic
import Molewire.Ipv4

namespace Molewire

open ByteBuffer OnesComplement

/-! ### State -/

/-- `NAPT_MAX`: concurrent mappings. -/
abbrev naptMax : Nat := 512

/-- `NAPT_PORT_BASE`: the NAT port of slot zero. -/
def naptPortBase : Nat := 60000

/-- `NAPT_ST_*`, TCP only. -/
inductive NaptSt | new | established | closing
  deriving DecidableEq, Repr, Inhabited

/-- One mapping, `napt_entry_t`. Protocol zero marks a free slot. -/
structure NaptEntry where
  innerIp : Ip4 := Ip4.any
  innerPort : UInt8 × UInt8 := (0, 0)
  lastMs : UInt32 := 0
  proto : UInt8 := 0
  state : NaptSt := .new
  deriving DecidableEq, Repr, Inhabited

/-- The statics of `napt.c`. An all-zero external address disables translation. -/
structure Napt where
  table : Fin naptMax → NaptEntry := fun _ => {}
  gExt : Ip4 := Ip4.any
  gMss : UInt16 := 0
  gDrops : UInt32 := 0

def naptSetExtIp (n : Napt) (ip : Ip4) : Napt := { n with gExt := ip }

def naptSetMssClamp (n : Napt) (mss : UInt16) : Napt := { n with gMss := mss }

def naptReset (n : Napt) : Napt := { n with table := fun _ => {} }

/-- Per-entry idle timeout, in milliseconds. -/
def timeoutMs (e : NaptEntry) : UInt32 :=
  if e.proto = 6 then
    match e.state with
    | .established => 7200000
    | .closing => 30000
    | .new => 240000
  else if e.proto = 17 then 120000 else 60000

/-- The age is the wrapping difference of the 32-bit clock. -/
def entryLive (e : NaptEntry) (now : UInt32) : Bool :=
  e.proto != 0 && now - e.lastMs < timeoutMs e

/-! ### Incremental checksums -/

/-- The loop of `csum_adjust`: add the complement of each old word and each new word. -/
def csumAdjustSum : Nat → Bytes → Bytes → Nat
  | sum, o0 :: o1 :: old, n0 :: n1 :: new =>
      csumAdjustSum (sum + (65535 - word o0 o1) + word n0 n1) old new
  | sum, _, _ => sum

/-- `csum_adjust` on the checksum stored at `c`. -/
def csumAdjust (pkt : Bytes) (c : Nat) (old new : Bytes) : Bytes :=
  splice pkt c (bytes (finish (csumAdjustSum (65535 - be16 pkt c) old new)))

/-- `csum[0] | csum[1]`. -/
def csumPresent (pkt : Bytes) (c : Nat) : Bool := byte pkt c ||| byte pkt (c + 1) != 0

/-- Adjust only a checksum that is present: zero is left for the egress hop to restore. -/
def csumAdjustNz (pkt : Bytes) (c : Nat) (old new : Bytes) : Bytes :=
  if csumPresent pkt c then csumAdjust pkt c old new else pkt

/-- UDP variant: a result of zero would read as "no checksum", so the other zero is stored. -/
def csumAdjustUdp (pkt : Bytes) (c : Nat) (old new : Bytes) : Bytes :=
  if csumPresent pkt c then
    let adjusted := csumAdjust pkt c old new
    -- zero would read as no checksum
    if csumPresent adjusted c then adjusted else splice adjusted c [0xFF, 0xFF]
  else pkt

/-! ### Packets -/

/-- `pkt_view_t`: the header lengths of a packet that can be translated. -/
structure PktView where
  ihl : Nat
  proto : UInt8
  l4avail : Nat
  deriving DecidableEq, Repr

/-- Accept a non-fragment IPv4 packet of a supported protocol with its transport header present. -/
def parse (pkt : Bytes) (avail : Nat) : Option PktView :=
  let ihl := ipHeaderLen pkt
  let proto := byte pkt 9
  if avail < 20 ∨ ipVersion pkt ≠ 4 then none
  else if ihl < 20 ∨ avail < ihl then none
  -- only the first fragment has ports, so none is translated
  else if isFragment pkt then none
  else if (proto = 6 ∨ proto = 17 ∨ proto = 1) ∧ (if proto = 6 then 20 else 8) ≤ avail - ihl then
    some ⟨ihl, proto, avail - ihl⟩
  else none

/-- What an accepted packet looks like. -/
structure Parsed (pkt : Bytes) (avail : Nat) (v : PktView) : Prop where
  version : ipVersion pkt = 4
  ihl : v.ihl = ipHeaderLen pkt
  twenty_le : 20 ≤ v.ihl
  whole : isFragment pkt = false
  proto : v.proto = byte pkt 9
  supported : v.proto = 6 ∨ v.proto = 17 ∨ v.proto = 1
  l4avail : v.ihl + v.l4avail = avail
  room : (if v.proto = 6 then 20 else 8) ≤ v.l4avail

theorem parsed_of_parse {pkt : Bytes} {avail : Nat} {v : PktView}
    (h : parse pkt avail = some v) : Parsed pkt avail v := by
  simp only [parse, Option.ite_none_left_eq_some, Option.ite_none_right_eq_some,
    Option.some.injEq] at h
  obtain ⟨h1, h2, h3, ⟨hsup, hroom⟩, rfl⟩ := h
  exact {
    version := by omega
    ihl := rfl
    twenty_le := by dsimp only; omega
    whole := by simpa using h3
    proto := rfl
    supported := hsup
    l4avail := by dsimp only; omega
    room := hroom }

theorem Parsed.eight_le {pkt : Bytes} {avail : Nat} {v : PktView} (h : Parsed pkt avail v) :
    v.ihl + 8 ≤ avail := by
  have hroom := h.room
  have hl4 := h.l4avail
  split_ifs at hroom <;> omega

/-- Offset of the two bytes a mapping is keyed on: a port, or the ICMP echo id. -/
def keyfield (v : PktView) (srcSide : Bool) : Nat :=
  if v.proto = 1 then v.ihl + 4 else if srcSide then v.ihl else v.ihl + 2

theorem le_keyfield (v : PktView) (srcSide : Bool) : v.ihl ≤ keyfield v srcSide := by
  unfold keyfield
  split_ifs <;> omega

theorem Parsed.keyfield_le {pkt : Bytes} {avail : Nat} {v : PktView} (h : Parsed pkt avail v)
    (srcSide : Bool) : keyfield v srcSide + 2 ≤ avail := by
  have height := h.eight_le
  unfold keyfield
  split_ifs <;> omega

/-- The option walk of `clamp_mss`, at option offset `i` of the `off`-byte TCP header at `l4`. -/
def clampMssLoop (mss : Nat) (pkt : Bytes) (l4 off i : Nat) : Bytes :=
  if i + 1 < off then
    let kind := byte pkt (l4 + i)
    if kind = 0 then pkt
    else if kind = 1 then clampMssLoop mss pkt l4 off (i + 1)
    else
      let olen := (byte pkt (l4 + i + 1)).toNat
      -- a length that makes no progress or leaves the header ends the walk
      if olen < 2 ∨ off < i + olen then pkt
      else if kind = 2 ∧ olen = 4 then
        if mss < be16 pkt (l4 + i + 2) then
          csumAdjustNz (splice pkt (l4 + i + 2) (bytes mss)) (l4 + 16)
            (span pkt (l4 + i + 2) 2) (bytes mss)
        else pkt
      else clampMssLoop mss pkt l4 off (i + olen)
  else pkt
termination_by off - i

/-- Clamp the MSS option of a SYN. -/
def clampMss (mss : UInt16) (pkt : Bytes) (v : PktView) : Bytes :=
  let l4 := v.ihl
  let off := (byte pkt (l4 + 12)).toNat / 16 * 4
  -- only a SYN carries the option
  if mss = 0 ∨ byte pkt (l4 + 13) &&& 0x02 = 0 then pkt
  -- a header without options, or not all of it present
  else if off ≤ 20 ∨ v.l4avail < off then pkt
  else clampMssLoop mss.toNat pkt l4 off 20

section Frame

variable {pkt old new : Bytes} {c k : Nat}

@[simp] theorem length_csumAdjust : (csumAdjust pkt c old new).length = pkt.length := by
  simp [csumAdjust]

@[simp] theorem length_csumAdjustNz : (csumAdjustNz pkt c old new).length = pkt.length := by
  unfold csumAdjustNz
  split <;> simp

@[simp] theorem length_csumAdjustUdp : (csumAdjustUdp pkt c old new).length = pkt.length := by
  unfold csumAdjustUdp
  split
  · dsimp only
    split <;> simp
  · rfl

theorem byte_csumAdjust (hk : k < c ∨ c + 2 ≤ k) :
    byte (csumAdjust pkt c old new) k = byte pkt k :=
  byte_splice_of_not_mem (by simpa [bytes] using hk)

theorem byte_csumAdjustNz (hk : k < c ∨ c + 2 ≤ k) :
    byte (csumAdjustNz pkt c old new) k = byte pkt k := by
  unfold csumAdjustNz
  split
  · exact byte_csumAdjust hk
  · rfl

theorem byte_csumAdjustUdp (hk : k < c ∨ c + 2 ≤ k) :
    byte (csumAdjustUdp pkt c old new) k = byte pkt k := by
  unfold csumAdjustUdp
  split
  · dsimp only
    split
    · exact byte_csumAdjust hk
    · rw [byte_splice_of_not_mem (by simpa using hk), byte_csumAdjust hk]
  · rfl

/-- The option walk either leaves the packet alone or clamps one option it found. -/
theorem clampMssLoop_cases (mss : Nat) (pkt : Bytes) (l4 off i : Nat) :
    clampMssLoop mss pkt l4 off i = pkt ∨
      ∃ j, i ≤ j ∧ clampMssLoop mss pkt l4 off i =
        csumAdjustNz (splice pkt (l4 + j + 2) (bytes mss)) (l4 + 16)
          (span pkt (l4 + j + 2) 2) (bytes mss) := by
  fun_induction clampMssLoop mss pkt l4 off i with
  | case2 i hi kind h0 h1 ih =>
    obtain heq | ⟨j, hj, heq⟩ := ih
    · exact .inl heq
    · exact .inr ⟨j, by omega, heq⟩
  -- the option was found, and its value lowered
  | case4 i => exact .inr ⟨i, Nat.le_refl i, rfl⟩
  | case6 i hi kind h0 h1 olen hlen hkind ih =>
    obtain heq | ⟨j, hj, heq⟩ := ih
    · exact .inl heq
    · exact .inr ⟨j, by omega, heq⟩
  | _ => exact .inl rfl

@[simp] theorem length_clampMss (mss : UInt16) (v : PktView) :
    (clampMss mss pkt v).length = pkt.length := by
  unfold clampMss
  dsimp only
  split_ifs
  · rfl
  · rfl
  · obtain heq | ⟨j, -, heq⟩ := clampMssLoop_cases mss.toNat pkt v.ihl
      ((byte pkt (v.ihl + 12)).toNat / 16 * 4) 20 <;> simp [heq]

/-- The clamp writes the checksum and an option, nothing else of the TCP header. -/
theorem byte_clampMss (mss : UInt16) (v : PktView) (hk : k < v.ihl + 16) :
    byte (clampMss mss pkt v) k = byte pkt k := by
  unfold clampMss
  dsimp only
  split_ifs
  · rfl
  · rfl
  · obtain heq | ⟨j, hj, heq⟩ := clampMssLoop_cases mss.toNat pkt v.ihl
      ((byte pkt (v.ihl + 12)).toNat / 16 * 4) 20
    · rw [heq]
    · rw [heq, byte_csumAdjustNz (.inl hk), byte_splice_of_not_mem (.inl (by omega))]

end Frame

/-- `tcp_track`: FIN or RST closes the entry, the first ACK without SYN establishes a new one. -/
def tcpTrack (state : NaptSt) (flags : UInt8) : NaptSt :=
  if flags &&& 0x05 ≠ 0 then .closing
  else if flags &&& 0x12 = 0x10 ∧ state = .new then .established
  else state

/-- The first half of a translation: the address at `addr` becomes `ip`, after the header checksum
and the checksum over the pseudo header are adjusted for it. -/
def rewriteAddr (pkt : Bytes) (v : PktView) (addr : Nat) (ip : Ip4) : Bytes :=
  let old := span pkt addr 4
  -- the sums are adjusted before the address they are adjusted for is overwritten
  let pkt := csumAdjustNz pkt 10 old ip.octets
  let pkt :=
    if v.proto = 6 then csumAdjustNz pkt (v.ihl + 16) old ip.octets
    else if v.proto = 17 then csumAdjustUdp pkt (v.ihl + 6) old ip.octets
    else pkt
  splice pkt addr ip.octets

/-- The second half: the key field at `field` becomes `port`. -/
def rewritePort (mss : UInt16) (pkt : Bytes) (v : PktView) (field : Nat) (port : UInt8 × UInt8) :
    Bytes :=
  let old := span pkt field 2
  let portb : Bytes := [port.1, port.2]
  let pkt :=
    if v.proto = 6 then clampMss mss (csumAdjustNz pkt (v.ihl + 16) old portb) v
    else if v.proto = 17 then csumAdjustUdp pkt (v.ihl + 6) old portb
    -- an ICMP sum has no pseudo header, and covers the id
    else csumAdjustNz pkt (v.ihl + 2) old portb
  splice pkt field portb

/-- The rewriting both directions share. -/
def translate (mss : UInt16) (pkt : Bytes) (v : PktView) (addr field : Nat) (ip : Ip4)
    (port : UInt8 × UInt8) : Bytes :=
  rewritePort mss (rewriteAddr pkt v addr ip) v field port

section Rewritten

variable {mss : UInt16} {pkt : Bytes} {v : PktView} {addr field k : Nat} {ip : Ip4}
  {port : UInt8 × UInt8}

@[simp] theorem length_rewriteAddr : (rewriteAddr pkt v addr ip).length = pkt.length := by
  simp only [rewriteAddr, length_splice]
  split_ifs <;> simp

@[simp] theorem length_rewritePort : (rewritePort mss pkt v field port).length = pkt.length := by
  simp only [rewritePort, length_splice]
  split_ifs <;> simp

@[simp] theorem length_translate :
    (translate mss pkt v addr field ip port).length = pkt.length := by
  simp [translate]

/-- The address is written. -/
theorem atOffset_rewriteAddr (h : addr + 4 ≤ pkt.length) :
    Ip4.atOffset (rewriteAddr pkt v addr ip) addr = ip := by
  refine Ip4.atOffset_splice_self ip ?_
  split_ifs <;> simpa using h

/-- Apart from the address and the two checksums the first half changes nothing. -/
theorem byte_rewriteAddr (hk : k < addr ∨ addr + 4 ≤ k) (h10 : k < 10 ∨ 12 ≤ k)
    (hc : k < v.ihl + 6 ∨ v.ihl + 18 ≤ k) :
    byte (rewriteAddr pkt v addr ip) k = byte pkt k := by
  simp only [rewriteAddr]
  rw [byte_splice_of_not_mem (by simpa using hk)]
  split_ifs
  · rw [byte_csumAdjustNz (by omega), byte_csumAdjustNz (by omega)]
  · rw [byte_csumAdjustUdp (by omega), byte_csumAdjustNz (by omega)]
  · rw [byte_csumAdjustNz (by omega)]

/-- The second half stays clear of the IP header. -/
theorem byte_rewritePort_of_lt (hk : k < v.ihl) (hf : v.ihl ≤ field) :
    byte (rewritePort mss pkt v field port) k = byte pkt k := by
  simp only [rewritePort]
  rw [byte_splice_of_not_mem (.inl (by omega))]
  split_ifs
  · rw [byte_clampMss mss v (by omega), byte_csumAdjustNz (by omega)]
  · rw [byte_csumAdjustUdp (by omega)]
  · rw [byte_csumAdjustNz (by omega)]

theorem atOffset_translate (ha : addr + 4 ≤ v.ihl) (hf : v.ihl ≤ field)
    (h : field + 2 ≤ pkt.length) :
    Ip4.atOffset (translate mss pkt v addr field ip port) addr = ip := by
  have hkept : Ip4.atOffset (translate mss pkt v addr field ip port) addr =
      Ip4.atOffset (rewriteAddr pkt v addr ip) addr :=
    Ip4.atOffset_congr fun _ _ => byte_rewritePort_of_lt (by omega) hf
  rw [hkept, atOffset_rewriteAddr (by omega)]

theorem byte_translate_field (mss : UInt16) (v : PktView) (addr : Nat) (ip : Ip4)
    (port : UInt8 × UInt8) (h : field + 2 ≤ pkt.length) :
    byte (translate mss pkt v addr field ip port) field = port.1 ∧
      byte (translate mss pkt v addr field ip port) (field + 1) = port.2 := by
  simp only [translate, rewritePort]
  constructor
  · rw [byte_splice_of_mem (by omega) (by simp) (by split_ifs <;> simp <;> omega)]
    simp
  · rw [byte_splice_of_mem (by omega) (by simp) (by split_ifs <;> simp <;> omega)]
    simp

theorem be16_translate_field (h : field + 2 ≤ pkt.length) :
    be16 (translate mss pkt v addr field ip port) field = word port.1 port.2 := by
  rw [be16, (byte_translate_field mss v addr ip port h).1,
    (byte_translate_field mss v addr ip port h).2]

end Rewritten

/-! ### The table -/

/-- What a mapping is keyed on. -/
structure NaptKey where
  proto : UInt8
  ip : Ip4
  port : UInt8 × UInt8
  deriving DecidableEq, Repr

def NaptEntry.key (e : NaptEntry) : NaptKey := ⟨e.proto, e.innerIp, e.innerPort⟩

/-- The key of an outbound packet: its source side. -/
def outboundKey (pkt : Bytes) (v : PktView) : NaptKey :=
  ⟨v.proto, ipSrc pkt, (byte pkt (keyfield v true), byte pkt (keyfield v true + 1))⟩

/-- The loop of `napt_outbound`: the first live slot holding the key, and the first slot that is
not live among those passed on the way. -/
def searchTable (table : Fin naptMax → NaptEntry) (now : UInt32) (k : NaptKey) :
    List (Fin naptMax) → Option (Fin naptMax) → Option (Fin naptMax) × Option (Fin naptMax)
  | [], free => (none, free)
  | i :: rest, free =>
    if entryLive (table i) now then
      if (table i).key = k then (some i, free) else searchTable table now k rest free
    else searchTable table now k rest (free.or (some i))

/-- The entry an outbound packet uses: its existing mapping, or the first reusable slot rewritten
for the key. Nothing is left when every slot is live for other keys. -/
def outboundEntry (table : Fin naptMax → NaptEntry) (now : UInt32) (k : NaptKey) :
    Option (Fin naptMax × NaptEntry) :=
  match searchTable table now k (List.finRange naptMax) none with
  | (some i, _) => some (i, table i)
  | (none, some i) =>
    some (i, { table i with innerIp := k.ip, innerPort := k.port, proto := k.proto, state := .new })
  | (none, none) => none

section Search

variable {table : Fin naptMax → NaptEntry} {now : UInt32} {k : NaptKey}

theorem searchTable_found {l : List (Fin naptMax)} {free free' : Option (Fin naptMax)}
    {i : Fin naptMax} (h : searchTable table now k l free = (some i, free')) :
    entryLive (table i) now ∧ (table i).key = k := by
  induction l generalizing free with
  | nil => simp [searchTable] at h
  | cons j rest ih =>
    unfold searchTable at h
    split_ifs at h with hlive hkey
    · obtain ⟨rfl, -⟩ : j = i ∧ free = free' := by simpa using h
      exact ⟨hlive, hkey⟩
    · exact ih h
    · exact ih h

theorem searchTable_not_found {l : List (Fin naptMax)} {free free' : Option (Fin naptMax)}
    (h : searchTable table now k l free = (none, free')) {j : Fin naptMax} (hj : j ∈ l)
    (hlive : entryLive (table j) now) : (table j).key ≠ k := by
  induction l generalizing free with
  | nil => simp at hj
  | cons i rest ih =>
    unfold searchTable at h
    split_ifs at h with hi hkey
    · simp at h
    · -- a slot that was passed was live for another key, or not live
      rcases List.mem_cons.mp hj with rfl | hj
      · exact hkey
      · exact ih h hj
    · rcases List.mem_cons.mp hj with rfl | hj
      · exact absurd hlive hi
      · exact ih h hj

theorem searchTable_free {l : List (Fin naptMax)} {free : Option (Fin naptMax)}
    {found : Option (Fin naptMax)} {i : Fin naptMax} (hfree : ∀ j, free = some j →
      ¬entryLive (table j) now) (h : searchTable table now k l free = (found, some i)) :
    ¬entryLive (table i) now := by
  induction l generalizing free with
  | nil => exact hfree i (by simpa [searchTable] using congrArg Prod.snd h)
  | cons j rest ih =>
    unfold searchTable at h
    split_ifs at h with hlive hkey
    · exact hfree i (congrArg Prod.snd h)
    · exact ih hfree h
    · refine ih ?_ h
      intro j' hj'
      cases free with
      | none =>
        obtain rfl : j = j' := by simpa using hj'
        exact hlive
      | some j'' => exact hfree j' (by simpa using hj')

/-- The entry an outbound packet uses is the live one of its key or a slot that was not live, and
then no live entry has the key. -/
theorem outboundEntry_cases {i : Fin naptMax} {e : NaptEntry}
    (h : outboundEntry table now k = some (i, e)) :
    (entryLive (table i) now ∧ (table i).key = k ∧ e = table i) ∨
      (¬entryLive (table i) now ∧ e.key = k ∧
        ∀ j, entryLive (table j) now → (table j).key ≠ k) := by
  unfold outboundEntry at h
  split at h
  next i' free heq =>
    obtain ⟨rfl, rfl⟩ : i' = i ∧ table i' = e := by simpa using h
    obtain ⟨hlive, hkey⟩ := searchTable_found heq
    exact .inl ⟨hlive, hkey, rfl⟩
  next i' heq =>
    obtain ⟨rfl, rfl⟩ : i' = i ∧ _ = e := by simpa using h
    -- no live slot has the key, since the search went through all of them
    have hfree := searchTable_free (by simp) heq
    exact .inr ⟨hfree, rfl, fun j hj => searchTable_not_found heq (List.mem_finRange j) hj⟩
  next => simp at h

/-- A packet whose key is live always finds an entry. -/
theorem outboundEntry_of_live {i : Fin naptMax} (hlive : entryLive (table i) now)
    (hkey : (table i).key = k) : (outboundEntry table now k).isSome := by
  unfold outboundEntry
  split
  next => rfl
  next => rfl
  next heq => exact absurd hkey (searchTable_not_found heq (List.mem_finRange i) hlive)

end Search

/-- The entry after a packet of flags byte `flags` went through it. -/
def NaptEntry.touch (e : NaptEntry) (flags : UInt8) (now : UInt32) : NaptEntry :=
  { e with state := if e.proto = 6 then tcpTrack e.state flags else e.state, lastMs := now }

/-- Write one slot of the table. -/
def Napt.setEntry (n : Napt) (i : Fin naptMax) (e : NaptEntry) : Napt :=
  { n with table := Function.update n.table i e }

/-- The NAT port of a slot. -/
def natPort (i : Fin naptMax) : Nat := naptPortBase + i.val

def natPortBytes (i : Fin naptMax) : UInt8 × UInt8 :=
  ((natPort i / 256).toUInt8, (natPort i).toUInt8)

@[simp] theorem NaptEntry.key_touch (e : NaptEntry) (flags : UInt8) (now : UInt32) :
    (e.touch flags now).key = e.key := rfl

@[simp] theorem NaptEntry.lastMs_touch (e : NaptEntry) (flags : UInt8) (now : UInt32) :
    (e.touch flags now).lastMs = now := rfl

theorem natPort_lt (i : Fin naptMax) : natPort i < 65536 := by
  have hi : i.val < 512 := i.isLt
  unfold natPort naptPortBase
  omega

@[simp] theorem natPort_inj {i j : Fin naptMax} : natPort i = natPort j ↔ i = j := by
  simp [natPort, Fin.ext_iff]

@[simp] theorem word_natPortBytes (i : Fin naptMax) :
    word (natPortBytes i).1 (natPortBytes i).2 = natPort i :=
  word_bytes (natPort_lt i)

/-! ### The two directions -/

/-- The return value with the statics and the packet after the call. -/
structure NaptResult where
  translated : Bool
  napt : Napt
  pkt : Bytes

/-- `napt_outbound`. A refused packet counts as a drop and is left as it is. -/
def naptOutbound (n : Napt) (pkt : Bytes) (avail : Nat) (now : UInt32) : NaptResult :=
  let drop : NaptResult := ⟨false, { n with gDrops := n.gDrops + 1 }, pkt⟩
  if n.gExt = Ip4.any then drop
  else
    match parse pkt avail with
    | none => drop
    | some v =>
      if v.proto = 1 ∧ byte pkt v.ihl ≠ 8 then drop
      else
        match outboundEntry n.table now (outboundKey pkt v) with
        | none => drop
        | some (i, e) =>
          ⟨true, n.setEntry i (e.touch (byte pkt (v.ihl + 13)) now),
            translate n.gMss pkt v 12 (keyfield v true) n.gExt (natPortBytes i)⟩

/-- The slot of a port in the NAT range. -/
def portSlot (port : Nat) : Option (Fin naptMax) :=
  if h : naptPortBase ≤ port ∧ port < naptPortBase + naptMax then
    some ⟨port - naptPortBase, by omega⟩
  else none

theorem portSlot_eq_some {port : Nat} {i : Fin naptMax} :
    portSlot port = some i ↔ port = natPort i := by
  have := i.isLt
  unfold portSlot natPort
  split_ifs with h
  · simp only [Option.some.injEq, Fin.ext_iff]
    omega
  · simp only [false_iff]
    omega

/-- `napt_inbound`. A packet that matches no live mapping is left as it is. -/
def naptInbound (n : Napt) (pkt : Bytes) (avail : Nat) (now : UInt32) : NaptResult :=
  let miss : NaptResult := ⟨false, n, pkt⟩
  match parse pkt avail with
  | none => miss
  | some v =>
    if ipDst pkt ≠ n.gExt then miss
    else if v.proto = 1 ∧ byte pkt v.ihl ≠ 0 then miss
    else
      match portSlot (be16 pkt (keyfield v false)) with
      | none => miss
      | some i =>
        let e := n.table i
        if !entryLive e now || e.proto != v.proto then miss
        else
          ⟨true, n.setEntry i (e.touch (byte pkt (v.ihl + 13)) now),
            translate n.gMss pkt v 16 (keyfield v false) e.innerIp e.innerPort⟩

/-- Everything an outbound call can do. -/
theorem naptOutbound_cases (n : Napt) (pkt : Bytes) (avail : Nat) (now : UInt32) :
    (∃ v i e, Parsed pkt avail v ∧ parse pkt avail = some v ∧ n.gExt ≠ Ip4.any ∧
      (v.proto = 1 → byte pkt v.ihl = 8) ∧
      outboundEntry n.table now (outboundKey pkt v) = some (i, e) ∧
      naptOutbound n pkt avail now =
        ⟨true, n.setEntry i (e.touch (byte pkt (v.ihl + 13)) now),
          translate n.gMss pkt v 12 (keyfield v true) n.gExt (natPortBytes i)⟩) ∨
      naptOutbound n pkt avail now = ⟨false, { n with gDrops := n.gDrops + 1 }, pkt⟩ := by
  unfold naptOutbound
  dsimp only
  split_ifs with hext
  · exact .inr rfl
  split
  next => exact .inr rfl
  next v hparse =>
    split_ifs with hecho
    · exact .inr rfl
    split
    next => exact .inr rfl
    next i e hentry =>
      have h8 : v.proto = 1 → byte pkt v.ihl = 8 := fun h1 => by_contra fun h => hecho ⟨h1, h⟩
      exact .inl ⟨v, i, e, parsed_of_parse hparse, hparse, hext, h8, hentry, rfl⟩

/-- Everything an inbound call can do. -/
theorem naptInbound_cases (n : Napt) (pkt : Bytes) (avail : Nat) (now : UInt32) :
    (∃ v i, Parsed pkt avail v ∧ parse pkt avail = some v ∧ ipDst pkt = n.gExt ∧
      (v.proto = 1 → byte pkt v.ihl = 0) ∧ be16 pkt (keyfield v false) = natPort i ∧
      entryLive (n.table i) now ∧ (n.table i).proto = v.proto ∧
      naptInbound n pkt avail now =
        ⟨true, n.setEntry i ((n.table i).touch (byte pkt (v.ihl + 13)) now),
          translate n.gMss pkt v 16 (keyfield v false) (n.table i).innerIp
            (n.table i).innerPort⟩) ∨
      naptInbound n pkt avail now = ⟨false, n, pkt⟩ := by
  unfold naptInbound
  dsimp only
  split
  next => exact .inr rfl
  next v hparse =>
    split_ifs with hdst hecho
    · exact .inr rfl
    · exact .inr rfl
    split
    next => exact .inr rfl
    next i hslot =>
      split_ifs with hmiss
      · exact .inr rfl
      · simp only [Bool.or_eq_true, Bool.not_eq_true', bne_iff_ne, not_or, ne_eq,
          Bool.not_eq_false, not_not] at hmiss
        have h0 : v.proto = 1 → byte pkt v.ihl = 0 := fun h1 => by_contra fun h => hecho ⟨h1, h⟩
        exact .inl ⟨v, i, parsed_of_parse hparse, hparse, not_not.mp hdst, h0,
          portSlot_eq_some.mp hslot, hmiss.1, hmiss.2, rfl⟩

/-- Exactly what an outbound packet needs to be translated. -/
theorem naptOutbound_translated_iff (n : Napt) (pkt : Bytes) (avail : Nat) (now : UInt32) :
    (naptOutbound n pkt avail now).translated ↔
      n.gExt ≠ Ip4.any ∧ ∃ v, parse pkt avail = some v ∧ (v.proto = 1 → byte pkt v.ihl = 8) ∧
        (outboundEntry n.table now (outboundKey pkt v)).isSome := by
  unfold naptOutbound
  dsimp only
  split_ifs with hext
  · simp [hext]
  split
  next hparse => simp [hparse]
  next v hparse =>
    split_ifs with hecho
    · simp [hparse, hecho]
    split
    next hentry => simp [hparse, hentry]
    next i e hentry =>
      have h8 : v.proto = 1 → byte pkt v.ihl = 8 := fun h1 => by_contra fun h => hecho ⟨h1, h⟩
      simpa [hext, hparse, hentry] using h8

/-- Exactly what an inbound packet needs to be translated. -/
theorem naptInbound_translated_iff (n : Napt) (pkt : Bytes) (avail : Nat) (now : UInt32) :
    (naptInbound n pkt avail now).translated ↔
      ∃ v i, parse pkt avail = some v ∧ ipDst pkt = n.gExt ∧
        (v.proto = 1 → byte pkt v.ihl = 0) ∧ be16 pkt (keyfield v false) = natPort i ∧
        entryLive (n.table i) now ∧ (n.table i).proto = v.proto := by
  constructor
  · intro h
    obtain ⟨v, i, -, hparse, hdst, hecho, hport, hlive, hproto, -⟩ | hres :=
      naptInbound_cases n pkt avail now
    · exact ⟨v, i, hparse, hdst, hecho, hport, hlive, hproto⟩
    · simp [hres] at h
  · rintro ⟨v, i, hparse, hdst, hecho, hport, hlive, hproto⟩
    have hskip : ¬(v.proto = 1 ∧ byte pkt v.ihl ≠ 0) := fun h => h.2 (hecho h.1)
    simp only [naptInbound, hparse, hdst, ne_eq, not_true_eq_false, if_false, if_neg hskip,
      portSlot_eq_some.mpr hport, hlive, hproto]
    simp

/-- `napt_stats`: slots in use and outbound drops. -/
def naptStats (n : Napt) : Nat × UInt32 :=
  ((List.finRange naptMax).countP fun i => (n.table i).proto != 0, n.gDrops)

end Molewire
