/-
# What a DHCP reply says

The options of a datagram are those a walk over its bytes finds. On any bytes
the receiver stays inside what was received, answers what the walk shows to be
a discovery or a request, and writes a reply whose options, read the same way,
are those of its scope: the routes come back as RFC 3442 reads them, with the
destination masked to its prefix.
-/

import Molewire.DhcpServer

namespace Molewire

open BigEndian ByteBuffer

/-! ### Reading stays inside -/

theorem readByte_ok {req : Bytes} {i : Nat} (h : i < req.length) :
    readByte req i = .ok (byte req i) := by
  simp [readByte, byte, List.getElem?_eq_getElem h, List.getD_eq_getElem?_getD]

theorem readRange_ok {req : Bytes} {off n : Nat} (h : off + n ≤ req.length) :
    readRange req off n = .ok (span req off n) := if_pos h

theorem readAddr_ok {req : Bytes} {off : Nat} (h : off + 4 ≤ req.length) :
    readAddr req off = .ok (Ip4.atOffset req off) := if_pos h

/-! ### Options as a walk finds them -/

/-- The options of a datagram. -/
def dhcpOptions (data : Bytes) : List Tlv.Opt :=
  (Tlv.walk optPad optEnd (data.drop dhcpMsgLen)).1

/-- What a search for a tag may return: the place of the length byte of the first option that has
it, with all of its value behind that. -/
inductive Found (opts : Bytes) (v? : Option Bytes) : Option Nat → Prop
  | missing (h : v? = none) : Found opts v? none
  | found {k : Nat} {v : Bytes} (h : v? = some v) (room : k + v.length < opts.length)
      (len : byte opts k = v.length.toUInt8) (fits : v.length < 256)
      (val : span opts (k + 1) v.length = v) : Found opts v? (some k)

theorem walk_of_length_le_one {b : Bytes} (h : b.length ≤ 1) :
    (Tlv.walk optPad optEnd b).1 = [] := by
  match b with
  | [] => simp [Tlv.walk]
  | [c] => simp [Tlv.walk]

theorem drop_eq_byte_cons {b : Bytes} {i : Nat} (h : i < b.length) :
    b.drop i = byte b i :: b.drop (i + 1) := by
  rw [List.drop_eq_getElem_cons h, byte, List.getD_eq_getElem?_getD, List.getElem?_eq_getElem h]
  rfl

/-- One turn of the search. -/
theorem findOpt_turn {opts : Bytes} (code : UInt8) {i : Nat} (h : i + 1 < opts.length) :
    findOpt opts code i =
      if byte opts i = optEnd then .ok none
      else if byte opts i = optPad then findOpt opts code (i + 1)
      else if opts.length < i + 2 + (byte opts (i + 1)).toNat then .ok none
      else if byte opts i = code then .ok (some (i + 1))
      else findOpt opts code (i + 2 + (byte opts (i + 1)).toNat) := by
  rw [findOpt, if_pos h, readByte_ok (by omega), readByte_ok h]

/-- The same turn of the walk. -/
theorem walk_turn {opts : Bytes} {i : Nat} (h : i + 1 < opts.length) :
    Tlv.walk optPad optEnd (opts.drop i) =
      if byte opts i = optEnd then ([], true)
      else if byte opts i = optPad then Tlv.walk optPad optEnd (opts.drop (i + 1))
      else if opts.length < i + 2 + (byte opts (i + 1)).toNat then ([], false)
      else
        let n := (byte opts (i + 1)).toNat
        let tail := Tlv.walk optPad optEnd (opts.drop (i + 2 + n))
        ((byte opts i, span opts (i + 2) n) :: tail.1, tail.2) := by
  have hshort : (opts.drop (i + 2)).length < (byte opts (i + 1)).toNat ↔
      opts.length < i + 2 + (byte opts (i + 1)).toNat := by
    rw [List.length_drop]
    omega
  rw [drop_eq_byte_cons (by omega : i < opts.length), drop_eq_byte_cons h, Tlv.walk]
  simp only [hshort, List.drop_drop, span]

/-- The search reads only what is there, and finds what the walk finds. -/
theorem findOpt_spec (opts : Bytes) (code : UInt8) (i : Nat) :
    ∃ r, findOpt opts code i = .ok r ∧
      Found opts (Tlv.lookup code (Tlv.walk optPad optEnd (opts.drop i)).1) r := by
  -- by the bytes that are left
  induction hn : opts.length - i using Nat.strong_induction_on generalizing i with
  | _ n ih =>
    by_cases hroom : i + 1 < opts.length
    · rw [findOpt_turn code hroom, walk_turn hroom]
      split_ifs with hstop hskip hshort hhit
      · exact ⟨none, rfl, .missing rfl⟩
      · exact ih _ (by omega) (i + 1) rfl
      · exact ⟨none, rfl, .missing rfl⟩
      · refine ⟨_, rfl, .found (v := span opts (i + 2) (byte opts (i + 1)).toNat) ?_ ?_ ?_ ?_ ?_⟩
        · rw [hhit]
          exact Tlv.lookup_cons_self _ _ _
        all_goals rw [length_span (by omega)]
        · omega
        · exact (UInt8.ofNat_toNat).symm
        · exact UInt8.toNat_lt _
      · rw [Tlv.lookup_cons_of_ne hhit]
        exact ih _ (by omega) _ rfl
    · have hnone : findOpt opts code i = .ok none := by rw [findOpt, if_neg hroom]
      refine ⟨none, hnone, .missing ?_⟩
      rw [walk_of_length_le_one (by rw [List.length_drop]; omega)]
      rfl

/-! ### Requests -/

/-- The address a request asks for: that of a four-byte option 50, else `ciaddr`. -/
def requestedAddr (req : Bytes) : Ip4 :=
  match Tlv.lookup optRequestedIp (dhcpOptions req) with
  | some [a, b, c, d] => ⟨a, b, c, d⟩
  | _ => Ip4.atOffset req 12

/-- A well-formed message of a type. -/
structure DhcpMessage (req : Bytes) (type : UInt8) : Prop where
  length : dhcpMsgLen + 3 ≤ req.length
  op : byte req 0 = bootRequest
  htype : byte req 1 = 1
  hlen : byte req 2 = 6
  magic : span req 236 4 = dhcpMagic
  msgType : Tlv.lookup optMsgType (dhcpOptions req) = some [type]

/-- The request asks for nothing, or for the lease. -/
def AsksForLease (s : DhcpScope) (req : Bytes) : Prop :=
  requestedAddr req = Ip4.any ∨ requestedAddr req = s.leaseAddr

instance (s : DhcpScope) (req : Bytes) : Decidable (AsksForLease s req) :=
  inferInstanceAs (Decidable (_ ∨ _))

/-- When a reply of a type is due. -/
inductive Answered (s : DhcpScope) (req : Bytes) : UInt8 → Prop
  | offer (h : DhcpMessage req dhcpDiscover) : Answered s req dhcpOffer
  | ack (h : DhcpMessage req dhcpRequest) (want : AsksForLease s req) : Answered s req dhcpAck
  | nak (h : DhcpMessage req dhcpRequest) (want : ¬AsksForLease s req) : Answered s req dhcpNak

/-- The bytes of a span are those of the buffer. -/
theorem byte_of_span {b v : Bytes} {off n k : Nat} (h : span b off n = v) (hk : k < n) :
    byte b (off + k) = byte v k := by
  have hget := getElem?_span b off n k
  rw [h, if_pos hk] at hget
  simp only [byte, List.getD_eq_getElem?_getD, ← hget]

theorem atOffset_eq_of_span {b : Bytes} {off : Nat} {v0 v1 v2 v3 : UInt8}
    (h : span b off 4 = [v0, v1, v2, v3]) : Ip4.atOffset b off = ⟨v0, v1, v2, v3⟩ := by
  have h0 := byte_of_span h (show 0 < 4 by decide)
  have h1 := byte_of_span h (show 1 < 4 by decide)
  have h2 := byte_of_span h (show 2 < 4 by decide)
  have h3 := byte_of_span h (show 3 < 4 by decide)
  simp only [Nat.add_zero, byte, List.getD_cons_zero, List.getD_cons_succ] at h0 h1 h2 h3
  simp only [Ip4.atOffset, byte, h0, h1, h2, h3]

theorem wantedAddr_ok {req : Bytes} (h : dhcpMsgLen ≤ req.length) :
    wantedAddr req = .ok (requestedAddr req) := by
  have hciaddr : readAddr req 12 = .ok (Ip4.atOffset req 12) := readAddr_ok (by
    rw [dhcpMsgLen] at h
    omega)
  obtain ⟨r, hr, hfound⟩ := findOpt_spec (req.drop dhcpMsgLen) optRequestedIp 0
  rw [List.drop_zero, ← dhcpOptions] at hfound
  unfold wantedAddr requestedAddr
  simp only [hr, hciaddr, bind, Except.bind]
  cases hfound with
  | missing hnone =>
    rw [hnone]
    rfl
  | @found k v hsome hroom hlen hfits hval =>
    rw [hsome]
    dsimp only
    rw [readByte_ok (by omega)]
    dsimp only
    rw [hlen]
    -- four bytes are an address, any other length is passed over
    by_cases hfour : v.length = 4
    · obtain ⟨v0, v1, v2, v3, rfl⟩ := List.length_eq_four.mp hfour
      have haddr := atOffset_eq_of_span hval
      have hlen4 : [v0, v1, v2, v3].length.toUInt8 = 4 := rfl
      rw [if_pos hlen4, readAddr_ok (Nat.succ_le_of_lt (by simpa using hroom)), haddr]
    · have hne : v.length.toUInt8 ≠ 4 := by
        intro heq
        apply hfour
        have hnat := congrArg UInt8.toNat heq
        rwa [UInt8.toNat_ofNat_of_lt' hfits] at hnat
      rw [if_neg hne]
      split
      · simp_all
      · rfl

/-- The type of the reply to a message of a type. -/
def typeDue (s : DhcpScope) (req : Bytes) (msgType : UInt8) : Option UInt8 :=
  if msgType = dhcpDiscover then some dhcpOffer
  else if msgType = dhcpRequest then some (if AsksForLease s req then dhcpAck else dhcpNak)
  else none

/-- The message type, which is one byte. -/
def messageType (req : Bytes) : Option UInt8 :=
  match Tlv.lookup optMsgType (dhcpOptions req) with
  | some [msgType] => some msgType
  | _ => none

theorem messageType_eq_some {req : Bytes} {msgType : UInt8} :
    messageType req = some msgType ↔
      Tlv.lookup optMsgType (dhcpOptions req) = some [msgType] := by
  unfold messageType
  split <;> simp_all

theorem replyType_ok (s : DhcpScope) {req : Bytes} (h : dhcpMsgLen ≤ req.length) :
    replyType s req = .ok ((messageType req).bind (typeDue s req)) := by
  obtain ⟨r, hr, hfound⟩ := findOpt_spec (req.drop dhcpMsgLen) optMsgType 0
  rw [List.drop_zero, ← dhcpOptions] at hfound
  unfold replyType messageType
  simp only [hr, bind, Except.bind]
  cases hfound with
  | missing hnone =>
    rw [hnone]
    rfl
  | @found k v hsome hroom hlen hfits hval =>
    rw [hsome]
    dsimp only
    rw [readByte_ok (by omega)]
    dsimp only
    rw [hlen]
    by_cases hone : v.length = 1
    · obtain ⟨msgType, rfl⟩ := List.length_eq_one_iff.mp hone
      have hlen1 : ¬[msgType].length.toUInt8 ≠ 1 := fun hne => hne rfl
      have hbyte : byte (req.drop dhcpMsgLen) (k + 1) = msgType := byte_of_span hval Nat.one_pos
      rw [if_neg hlen1, readByte_ok (by simpa using hroom)]
      dsimp only
      rw [hbyte, Option.bind_some]
      unfold typeDue AsksForLease
      split_ifs <;> simp_all [wantedAddr_ok h, pure, Except.pure]
    · have hne : v.length.toUInt8 ≠ 1 := by
        intro heq
        apply hone
        have hnat := congrArg UInt8.toNat heq
        rwa [UInt8.toNat_ofNat_of_lt' hfits] at hnat
      rw [if_pos hne]
      split
      · simp_all
      · rfl

theorem typeDue_eq_some {s : DhcpScope} {req : Bytes} {msgType type : UInt8} :
    typeDue s req msgType = some type ↔
      msgType = dhcpDiscover ∧ type = dhcpOffer ∨
      msgType = dhcpRequest ∧ type = if AsksForLease s req then dhcpAck else dhcpNak := by
  have hne : dhcpRequest ≠ dhcpDiscover := by decide
  unfold typeDue
  split_ifs <;> simp_all [eq_comm]

/-! ### Replies -/

/-- The address a reply grants. -/
def grantedAddr (s : DhcpScope) (type : UInt8) : Ip4 :=
  if type = dhcpNak then Ip4.any else s.leaseAddr

/-- The message that is sent, up to its options. -/
def replyHeader (s : DhcpScope) (type : UInt8) (req : Bytes) : Bytes :=
  [bootReply, 1, 6, 0] ++ span req 4 4 ++ [0, 0] ++ span req 10 2 ++ zeros 4 ++
    (grantedAddr s type).octets ++ zeros 8 ++ span req 28 16 ++ zeros 192 ++ dhcpMagic

/-- The message that is sent. -/
def replyTo (s : DhcpScope) (sid : Ip4) (type : UInt8) (req : Bytes) : Bytes :=
  replyHeader s type req ++ replyOpts s sid type

/-- What becomes of a datagram: it is passed over, or answered, and a lease that is acknowledged
has been taken. -/
inductive Received (s : DhcpScope) (sid : Ip4) (allocated : Bool) (req : Bytes) :
    DhcpScope × Option Bytes → Prop
  | silent (h : s.leaseAddr = Ip4.any ∨ ¬allocated ∨ ∀ type, ¬Answered s req type) :
      Received s sid allocated req (s, none)
  | replied {type : UInt8} (enabled : s.leaseAddr ≠ Ip4.any) (h : Answered s req type) :
      Received s sid allocated req
        (if type = dhcpAck then { s with leased := true } else s, some (replyTo s sid type req))

/-- At most it is noted that the lease has been taken. -/
theorem Received.scope {s : DhcpScope} {sid : Ip4} {allocated : Bool} {req : Bytes}
    {r : DhcpScope × Option Bytes} (h : Received s sid allocated req r) :
    { r.1 with leased := false } = { s with leased := false } := by
  cases h with
  | silent => rfl
  | replied =>
    dsimp only
    split_ifs <;> rfl

theorem checkHeader_ok {req : Bytes} (h : dhcpMsgLen ≤ req.length) :
    checkHeader req = .ok (byte req 0 == bootRequest && byte req 1 == 1 && byte req 2 == 6 &&
      span req 236 4 == dhcpMagic) := by
  rw [dhcpMsgLen] at h
  simp [checkHeader, readByte_ok (show 0 < req.length by omega),
    readByte_ok (show 1 < req.length by omega), readByte_ok (show 2 < req.length by omega),
    readRange_ok (show 236 + 4 ≤ req.length by omega), bind, Except.bind, pure, Except.pure]

theorem buildReply_ok (s : DhcpScope) (sid : Ip4) (type : UInt8) {req : Bytes}
    (h : dhcpMsgLen ≤ req.length) : buildReply s sid type req = .ok (replyTo s sid type req) := by
  rw [dhcpMsgLen] at h
  simp only [buildReply, readRange_ok (show 4 + 4 ≤ req.length by omega),
    readRange_ok (show 10 + 2 ≤ req.length by omega),
    readRange_ok (show 28 + 16 ≤ req.length by omega), bind, Except.bind, pure, Except.pure]
  rfl

theorem answered_iff {s : DhcpScope} {req : Bytes} {type : UInt8} :
    Answered s req type ↔
      ∃ msgType, DhcpMessage req msgType ∧ typeDue s req msgType = some type := by
  simp only [typeDue_eq_some]
  constructor
  · rintro (h | ⟨h, want⟩ | ⟨h, want⟩)
    · exact ⟨_, h, .inl ⟨rfl, rfl⟩⟩
    · exact ⟨_, h, .inr ⟨rfl, (if_pos want).symm⟩⟩
    · exact ⟨_, h, .inr ⟨rfl, (if_neg want).symm⟩⟩
  · rintro ⟨_, h, ⟨rfl, rfl⟩ | ⟨rfl, rfl⟩⟩
    · exact .offer h
    · split_ifs with want
      · exact .ack h want
      · exact .nak h want

/-- A message of a type is answered in one way. -/
theorem answered_unique {s : DhcpScope} {req : Bytes} {type type' : UInt8}
    (h : Answered s req type) (h' : Answered s req type') : type = type' := by
  obtain ⟨m, hm, hdue⟩ := answered_iff.mp h
  obtain ⟨m', hm', hdue'⟩ := answered_iff.mp h'
  have hsame : m = m' := by simpa using hm.msgType.symm.trans hm'.msgType
  rw [hsame, hdue'] at hdue
  exact (Option.some.inj hdue).symm

theorem Answered.message {s : DhcpScope} {req : Bytes} {type : UInt8} (h : Answered s req type) :
    dhcpMsgLen ≤ req.length := by
  obtain ⟨m, hm, -⟩ := answered_iff.mp h
  exact le_trans (Nat.le_add_right _ _) hm.length

theorem answerRequest_spec {s : DhcpScope} (sid : Ip4) (allocated : Bool) {req : Bytes}
    (hlen : dhcpMsgLen + 3 ≤ req.length) (henabled : s.leaseAddr ≠ Ip4.any) :
    ∃ r, answerRequest s sid allocated req = .ok r ∧ Received s sid allocated req r := by
  have hreq : dhcpMsgLen ≤ req.length := by omega
  unfold answerRequest
  simp only [checkHeader_ok hreq, replyType_ok s hreq, bind, Except.bind]
  by_cases hheader : (byte req 0 == bootRequest && byte req 1 == 1 && byte req 2 == 6 &&
      span req 236 4 == dhcpMagic) = true
  · rw [hheader]
    simp only [Bool.and_eq_true, beq_iff_eq] at hheader
    obtain ⟨⟨⟨hop, hhtype⟩, hhlen⟩, hmagic⟩ := hheader
    -- the header is that of a request; what decides is the message type
    cases hdue : (messageType req).bind (typeDue s req) with
    | none =>
      refine ⟨_, rfl, .silent (.inr (.inr fun type h => ?_))⟩
      obtain ⟨msgType, hmsg, htype⟩ := answered_iff.mp h
      rw [messageType_eq_some.mpr hmsg.msgType, Option.bind_some, htype] at hdue
      cases hdue
    | some type =>
      obtain ⟨msgType, hmt, htype⟩ := Option.bind_eq_some_iff.mp hdue
      have hmsg : DhcpMessage req msgType :=
        ⟨hlen, hop, hhtype, hhlen, hmagic, messageType_eq_some.mp hmt⟩
      cases allocated with
      | false => exact ⟨_, rfl, .silent (.inr (.inl Bool.false_ne_true))⟩
      | true =>
        simp only [Bool.not_true, buildReply_ok s sid type hreq]
        exact ⟨_, rfl, .replied henabled (answered_iff.mpr ⟨msgType, hmsg, htype⟩)⟩
  · rw [Bool.not_eq_true] at hheader
    rw [hheader]
    refine ⟨_, rfl, .silent (.inr (.inr fun type h => ?_))⟩
    obtain ⟨msgType, hmsg, -⟩ := answered_iff.mp h
    simp [hmsg.op, hmsg.htype, hmsg.hlen, hmsg.magic] at hheader

/-- The receiver on any datagram. -/
theorem scopeRecv_spec (s : DhcpScope) (sid : Ip4) (allocated : Bool) (data : Bytes) :
    ∃ r, scopeRecv s sid allocated data = .ok r ∧
      Received s sid allocated (data.take dhcpReqMax) r := by
  have htake : dhcpMsgLen + 3 ≤ (data.take dhcpReqMax).length ↔ dhcpMsgLen + 3 ≤ data.length := by
    rw [List.length_take, dhcpReqMax, dhcpMsgLen]
    omega
  unfold scopeRecv
  by_cases hpass : s.leaseAddr = Ip4.any ∨ data.length < dhcpMsgLen + 3
  · -- no lease to give, or too short for a message with a type
    rw [if_pos hpass]
    refine ⟨_, rfl, .silent ?_⟩
    rcases hpass with hoff | hshort
    · exact .inl hoff
    · refine .inr (.inr fun type h => ?_)
      obtain ⟨msgType, hmsg, -⟩ := answered_iff.mp h
      exact absurd (htake.mp hmsg.length) (Nat.not_le.mpr hshort)
  · rw [if_neg hpass]
    obtain ⟨henabled, hlong⟩ := not_or.mp hpass
    exact answerRequest_spec sid allocated (htake.mpr (Nat.not_lt.mp hlong)) henabled

/-! ### Routes as a client reads them -/

/-- The network of a prefix length that an address is in. -/
def Ip4.masked (a : Ip4) (plen : Nat) : Ip4 :=
  let m := Ip4.prefixMask plen
  ⟨a.o0 &&& m.o0, a.o1 &&& m.o1, a.o2 &&& m.o2, a.o3 &&& m.o3⟩

/-- Option 121 as RFC 3442 has a client read it: destinations, masked to their prefix, and the
router of each. -/
def decodeRoutes : Bytes → Option (List (WgRoute × Ip4))
  | [] => some []
  | plen :: rest =>
    let n := (plen.toNat + 7) / 8
    if 32 < plen.toNat ∨ rest.length < n + 4 then none
    else
      let net := (Ip4.atOffset (rest.take n) 0).masked plen.toNat
      (decodeRoutes (rest.drop (n + 4))).map ((⟨net, plen⟩, Ip4.atOffset rest n) :: ·)
termination_by b => b.length
decreasing_by
  simp only [List.length_drop, List.length_cons]
  omega

/-- The octets that a descriptor leaves out are not covered by the mask. -/
theorem prefixMask_octets : ∀ p < 33,
    ((p + 7) / 8 ≤ 0 → (Ip4.prefixMask p).o0 = 0) ∧ ((p + 7) / 8 ≤ 1 → (Ip4.prefixMask p).o1 = 0) ∧
      ((p + 7) / 8 ≤ 2 → (Ip4.prefixMask p).o2 = 0) ∧
        ((p + 7) / 8 ≤ 3 → (Ip4.prefixMask p).o3 = 0) := by
  decide

theorem byte_take (b : Bytes) (n k : Nat) : byte (b.take n) k = if k < n then byte b k else 0 := by
  simp only [byte, List.getD_eq_getElem?_getD, List.getElem?_take]
  split_ifs <;> rfl

/-- So they do not matter to the network. -/
theorem masked_take (a : Ip4) {plen : Nat} (h : plen ≤ 32) :
    (Ip4.atOffset (a.octets.take ((plen + 7) / 8)) 0).masked plen = a.masked plen := by
  obtain ⟨h0, h1, h2, h3⟩ := prefixMask_octets plen (by omega)
  have hoctet {m : UInt8} {k : Nat} (hm : (plen + 7) / 8 ≤ k → m = 0) :
      byte (a.octets.take ((plen + 7) / 8)) k &&& m = byte a.octets k &&& m := by
    rw [byte_take]
    split_ifs with hk
    · rfl
    · rw [hm (Nat.not_lt.mp hk), UInt8.and_zero, UInt8.and_zero]
  simp only [Ip4.masked, Ip4.atOffset, Nat.zero_add, hoctet h0, hoctet h1, hoctet h2, hoctet h3]
  rfl

theorem atOffset_octets_append (pre : Bytes) (a : Ip4) (rest : Bytes) :
    Ip4.atOffset (pre ++ (a.octets ++ rest)) pre.length = a := by
  have hbyte (k : Nat) (hk : k < 4) :
      byte (pre ++ (a.octets ++ rest)) (pre.length + k) = byte a.octets k := by
    simp only [byte, List.getD_eq_getElem?_getD]
    rw [List.getElem?_append_right (Nat.le_add_right _ _), Nat.add_sub_cancel_left,
      List.getElem?_append_left (by rwa [Ip4.length_octets])]
  have h0 := hbyte 0 (by decide)
  simp only [Ip4.atOffset, hbyte 1 (by decide), hbyte 2 (by decide), hbyte 3 (by decide)]
  rw [Nat.add_zero] at h0
  rw [h0]
  rfl

/-- A descriptor in front is read first. -/
theorem decodeRoutes_descriptor (sid : Ip4) {r : WgRoute} (h : r.plen ≤ 32) (rest : Bytes) :
    decodeRoutes (routeDescriptor sid r ++ rest) =
      (decodeRoutes rest).map ((⟨r.net.masked r.plen.toNat, r.plen⟩, sid) :: ·) := by
  have hplen : r.plen.toNat ≤ 32 := UInt8.le_iff_toNat_le.mp h
  have hnet := masked_take r.net hplen
  have hlen : (r.net.octets.take ((r.plen.toNat + 7) / 8)).length = (r.plen.toNat + 7) / 8 := by
    rw [List.length_take, Ip4.length_octets]
    omega
  unfold routeDescriptor
  rw [List.cons_append, List.cons_append, List.append_assoc]
  generalize r.net.octets.take ((r.plen.toNat + 7) / 8) = net at hnet hlen ⊢
  have hrouter := atOffset_octets_append net sid rest
  rw [hlen] at hrouter
  have hfits : ¬(32 < r.plen.toNat ∨
      (net ++ (sid.octets ++ rest)).length < (r.plen.toNat + 7) / 8 + 4) := by
    simp only [List.length_append, Ip4.length_octets]
    omega
  have hdrop : (net ++ (sid.octets ++ rest)).drop ((r.plen.toNat + 7) / 8 + 4) = rest := by
    rw [← hlen, ← List.drop_drop, List.drop_left, ← Ip4.length_octets sid, List.drop_left]
  have htake : (net ++ (sid.octets ++ rest)).take ((r.plen.toNat + 7) / 8) = net := by
    rw [← hlen, List.take_left]
  rw [decodeRoutes]
  simp only [if_neg hfits, hdrop, htake, hrouter, hnet]

/-- Every configured route comes back, in its place. -/
theorem decodeRoutes_descriptors (sid : Ip4) {routes : List WgRoute}
    (h : ∀ r ∈ routes, r.plen ≤ 32) :
    decodeRoutes (routes.flatMap (routeDescriptor sid)) =
      some (routes.map fun r => (⟨r.net.masked r.plen.toNat, r.plen⟩, sid)) := by
  induction routes with
  | nil => simp [decodeRoutes]
  | cons r routes ih =>
    rw [List.flatMap_cons, decodeRoutes_descriptor sid (h r List.mem_cons_self),
      ih fun r' hr' => h r' (List.mem_cons_of_mem _ hr')]
    rfl

/-! ### Options of a reply -/

/-- What the routing options of a lease say: nothing on the bring-up island, which has no resolver
either, the device as router in gateway mode, and in split mode exactly the configured subnets by
way of the device. -/
inductive RoutingSays (s : DhcpScope) (sid : Ip4) : List Tlv.Opt → Prop
  | linkOnly (h : s.leaseLinkOnly) (dns : s.leaseDns = Ip4.any) : RoutingSays s sid []
  | gateway (h : ¬s.leaseLinkOnly) (routes : s.leaseRoutes = []) :
      RoutingSays s sid [(optRouter, sid.octets)]
  | split {v : Bytes} (h : ¬s.leaseLinkOnly) (routes : s.leaseRoutes ≠ [])
      (value : decodeRoutes v =
        some (s.leaseRoutes.map fun r => (⟨r.net.masked r.plen.toNat, r.plen⟩, sid))) :
      RoutingSays s sid [(optClasslessRoutes, v)]

/-- What the options of a reply say. -/
inductive OptionsSay (s : DhcpScope) (sid : Ip4) : UInt8 → List Tlv.Opt → Prop
  | nak : OptionsSay s sid dhcpNak [(optMsgType, [dhcpNak]), (optServerId, sid.octets)]
  | lease {type : UInt8} {routing : List Tlv.Opt} (h : type ≠ dhcpNak)
      (hrouting : RoutingSays s sid routing) :
      OptionsSay s sid type ([(optMsgType, [type]), (optServerId, sid.octets),
        (optLeaseTime, beBytes 4 leaseTimeS), (optSubnetMask, s.leaseMask.octets)] ++ routing ++
        (if s.leaseDns ≠ Ip4.any then [(optDns, s.leaseDns.octets)] else []) ++
        [(optMtu, beBytes 2 s.leaseMtu.toNat)])

/-- What the encoder relies on: at most four routes, each with a prefix of an address, and no
resolver on the bring-up island. -/
structure ScopeValid (s : DhcpScope) : Prop where
  count : s.leaseRoutes.length ≤ configRoutesMax
  plen : ∀ r ∈ s.leaseRoutes, r.plen ≤ 32
  linkOnly : s.leaseLinkOnly → s.leaseDns = Ip4.any

theorem length_routeDescriptor (sid : Ip4) (r : WgRoute) :
    (routeDescriptor sid r).length ≤ 9 := by
  simp only [routeDescriptor, List.length_append, List.length_cons, List.length_take,
    Ip4.length_octets]
  omega

theorem length_routeDescriptors (sid : Ip4) (routes : List WgRoute) :
    (routes.flatMap (routeDescriptor sid)).length ≤ 9 * routes.length := by
  induction routes with
  | nil => rfl
  | cons r routes ih =>
    have hr := length_routeDescriptor sid r
    rw [List.flatMap_cons, List.length_append, List.length_cons]
    omega

theorem writable_of_le {code : UInt8} {v : Bytes} (hpad : code ≠ optPad) (hend : code ≠ optEnd)
    (h : v.length ≤ 36) : Tlv.Writable optPad optEnd (code, v) :=
  ⟨hpad, hend, by
    change v.length < 256
    omega⟩

/-- The routing options as they are written. -/
theorem modeOpts_say {s : DhcpScope} (h : ScopeValid s) (sid : Ip4) :
    ∃ routing, modeOpts s sid = Tlv.encode routing ∧ RoutingSays s sid routing ∧
      (∀ o ∈ routing, Tlv.Writable optPad optEnd o) ∧ (modeOpts s sid).length ≤ 38 := by
  unfold modeOpts
  split_ifs with hlink hroutes
  · exact ⟨[], rfl, .linkOnly hlink (h.linkOnly hlink), List.forall_mem_nil _, Nat.zero_le _⟩
  · refine ⟨_, (List.append_nil _).symm, .gateway hlink hroutes, ?_, by simp [putOpt]⟩
    intro o ho
    rw [List.mem_singleton.mp ho]
    exact writable_of_le (by decide) (by decide) (by simp)
  · -- four descriptors of at most nine bytes
    have hlen : (s.leaseRoutes.flatMap (routeDescriptor sid)).length ≤ 36 := by
      have hcount := h.count
      have := length_routeDescriptors sid s.leaseRoutes
      rw [configRoutesMax] at hcount
      omega
    refine ⟨_, (List.append_nil _).symm,
      .split hlink hroutes (decodeRoutes_descriptors sid h.plen), ?_, ?_⟩
    · intro o ho
      rw [List.mem_singleton.mp ho]
      exact writable_of_le (by decide) (by decide) hlen
    · rw [putOpt, Tlv.length_put]
      exact Nat.add_le_add_right hlen 2

/-- The options of a reply are what they should be, and fit the room reserved for them. -/
theorem replyOpts_say {s : DhcpScope} (h : ScopeValid s) (sid : Ip4) (type : UInt8) :
    (replyOpts s sid type).length ≤ replyOptsMax ∧
      ∃ opts, Tlv.decode optPad optEnd (replyOpts s sid type) = some opts ∧
        OptionsSay s sid type opts := by
  obtain ⟨routing, hmode, hsays, hwrite, hlen⟩ := modeOpts_say h sid
  have hoctets {code : UInt8} (hpad : code ≠ optPad) (hend : code ≠ optEnd) (a : Ip4) :
      Tlv.Writable optPad optEnd (code, a.octets) := writable_of_le hpad hend (by simp)
  by_cases htype : type = dhcpNak
  · subst htype
    have heq : replyOpts s sid dhcpNak =
        Tlv.encode [(optMsgType, [dhcpNak]), (optServerId, sid.octets)] ++ [optEnd] := by
      simp [replyOpts, putOpt]
    refine ⟨by simp [heq, replyOptsMax], _, ?_, .nak⟩
    rw [heq]
    refine Tlv.decode_encode ?_ []
    simp only [List.forall_mem_cons]
    exact ⟨writable_of_le (by decide) (by decide) (by decide),
      hoctets (by decide) (by decide) sid, List.forall_mem_nil _⟩
  · have heq : replyOpts s sid type = Tlv.encode ([(optMsgType, [type]), (optServerId, sid.octets),
        (optLeaseTime, beBytes 4 leaseTimeS), (optSubnetMask, s.leaseMask.octets)] ++ routing ++
        (if s.leaseDns ≠ Ip4.any then [(optDns, s.leaseDns.octets)] else []) ++
        [(optMtu, beBytes 2 s.leaseMtu.toNat)]) ++ [optEnd] := by
      simp only [replyOpts, leaseOpts, putOpt, hmode, if_pos htype, Tlv.encode_append,
        Tlv.encode_cons, Tlv.encode_nil]
      split_ifs <;> simp
    have hdns :
      (if s.leaseDns ≠ Ip4.any then putOpt optDns s.leaseDns.octets else []).length ≤ 6 := by
      split_ifs <;> simp [putOpt]
    refine ⟨?_, _, ?_, .lease htype hsays⟩
    · simp only [replyOpts, leaseOpts, if_pos htype, List.length_append]
      simp only [putOpt, Tlv.length_put, List.length_singleton, Ip4.length_octets, beBytes_length,
        replyOptsMax] at hdns ⊢
      omega
    · rw [heq]
      refine Tlv.decode_encode ?_ []
      simp only [List.forall_mem_append, List.forall_mem_cons]
      refine ⟨⟨⟨⟨writable_of_le (by decide) (by decide) (by simp),
        hoctets (by decide) (by decide) sid,
        writable_of_le (by decide) (by decide) (by simp),
        hoctets (by decide) (by decide) s.leaseMask, List.forall_mem_nil _⟩, hwrite⟩, ?_⟩,
        writable_of_le (by decide) (by decide) (by simp), List.forall_mem_nil _⟩
      split_ifs
      · intro o ho
        rw [List.mem_singleton.mp ho]
        exact hoctets (by decide) (by decide) s.leaseDns
      · exact List.forall_mem_nil _

/-! ### The message around the options -/

theorem length_replyHeader (s : DhcpScope) (type : UInt8) {req : Bytes}
    (h : dhcpMsgLen ≤ req.length) : (replyHeader s type req).length = dhcpMsgLen := by
  rw [dhcpMsgLen] at h
  simp only [replyHeader, List.length_append, length_span (show 4 + 4 ≤ req.length by omega),
    length_span (show 10 + 2 ≤ req.length by omega),
    length_span (show 28 + 16 ≤ req.length by omega), zeros, List.length_replicate,
    Ip4.length_octets, List.length_cons, List.length_nil, dhcpMagic, dhcpMsgLen]

/-- What a reply of a type says to the request it answers. -/
structure ReplySays (s : DhcpScope) (sid : Ip4) (type : UInt8) (req reply : Bytes) : Prop where
  op : byte reply 0 = bootReply
  xid : span reply 4 4 = span req 4 4
  grants : Ip4.atOffset reply 16 = grantedAddr s type
  room : reply.length ≤ dhcpMsgLen + replyOptsMax
  options : ∃ opts, Tlv.decode optPad optEnd (reply.drop dhcpMsgLen) = some opts ∧
    OptionsSay s sid type opts

/-- The type of a reply is read off the reply. -/
theorem ReplySays.messageType {s : DhcpScope} {sid : Ip4} {type : UInt8} {req reply : Bytes}
    (h : ReplySays s sid type req reply) : messageType reply = some type := by
  obtain ⟨opts, hdecode, hsays⟩ := h.options
  have hopts : dhcpOptions reply = opts := by
    unfold Tlv.decode at hdecode
    split_ifs at hdecode
    exact Option.some.inj hdecode
  rw [messageType_eq_some, hopts]
  cases hsays with
  | nak => rfl
  | lease => rfl

theorem replyTo_says {s : DhcpScope} (h : ScopeValid s) (sid : Ip4) (type : UInt8) {req : Bytes}
    (hreq : dhcpMsgLen ≤ req.length) : ReplySays s sid type req (replyTo s sid type req) := by
  obtain ⟨hroom, hopts⟩ := replyOpts_say h sid type
  have hlen := length_replyHeader s type hreq
  rw [dhcpMsgLen] at hreq
  have hxid := length_span (show 4 + 4 ≤ req.length by omega)
  have hflags := length_span (show 10 + 2 ≤ req.length by omega)
  refine ⟨rfl, ?_, ?_, ?_, ?_⟩
  · have hpre : ([bootReply, 1, 6, 0] : Bytes).length = 4 := rfl
    simp only [replyTo, replyHeader, List.append_assoc]
    rw [← hpre, span, List.drop_left, hpre]
    exact List.take_left' hxid
  · -- sixteen bytes stand before the address
    have hpre : ([bootReply, 1, 6, 0] ++ (span req 4 4 ++ ([0, 0] ++ (span req 10 2 ++
        zeros 4)))).length = 16 := by
      simp only [List.length_append, hxid, hflags, zeros, List.length_replicate]
      rfl
    have haddr := atOffset_octets_append
      ([bootReply, 1, 6, 0] ++ (span req 4 4 ++ ([0, 0] ++ (span req 10 2 ++ zeros 4))))
      (grantedAddr s type)
      (zeros 8 ++ (span req 28 16 ++ (zeros 192 ++ (dhcpMagic ++ replyOpts s sid type))))
    rw [hpre] at haddr
    simp only [replyTo, replyHeader, List.append_assoc] at haddr ⊢
    exact haddr
  · rw [replyTo, List.length_append, hlen]
    exact Nat.add_le_add_left hroom _
  · rw [replyTo, ← hlen, List.drop_left]
    exact hopts

end Molewire
