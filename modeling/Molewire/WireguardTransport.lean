/-
# WireGuard: datagrams

What a datagram has to be before it does anything. A transport message is taken
if a key of the peer opens it, and all else that arrives and was not made by someone
who knows the device's keys is met with silence: nothing is sent, nothing is handed
on, and nothing changes but that a key past its age is destroyed.
-/

import Molewire.WireguardRuns

namespace Molewire

open ByteBuffer

/-! ### Transport messages -/

/-- A key may still be received with. -/
def WireguardKeypair.receives (k : WireguardKeypair) (now : UInt32) : Bool :=
  k.receivingValid && !wireguardExpired now k.keypairMillis rejectAfterTime &&
    decide (k.sendingCounter < rejectAfterMessages)

/-- The key at a place of the peer opens the message. -/
structure Opens (d : WireguardDevice) (data : Bytes) (env : DataEnv) (slot : KeypairSlot)
    (pkt : Bytes) : Prop where
  found : d.peer.getPeerKeypairForIdx (u8to32Little data 4) = some slot
  receives : (d.peer.keypair slot).receives env.expiredNow = true
  memory : env.pbuf = true
  opened : chacha20poly1305Decrypt (data.drop 16) [] (u8to64Little data 8)
    (d.peer.keypair slot).receivingKey = some pkt

variable {d : WireguardDevice} {data pkt : Bytes} {addr : IpAddr} {port : UInt16}
  {slot : KeypairSlot}

/-- A packet that is no keep-alive, after it was opened. -/
theorem wireguardifProcessDataMessage_of_opens {env : DataEnv} (h : Opens d data env slot pkt)
    (hpkt : pkt ≠ []) :
    wireguardifProcessDataMessage d data addr port env =
      ({ d with
          peer := (d.peer.packetReceived slot addr port env).setKeypair slot
            (wireguardCheckReplay ((d.peer.packetReceived slot addr port env).keypair slot)
              (u8to64Little data 8)).1
          linkUp := true },
        if (wireguardCheckReplay ((d.peer.packetReceived slot addr port env).keypair slot)
              (u8to64Little data 8)).2 &&
            decide (((d.peer.packetReceived slot addr port env).sourceOk (pkt ++ env.slack)).2 ≤
              pkt.length) &&
            ((d.peer.packetReceived slot addr port env).sourceOk (pkt ++ env.slack)).1 then
          [.input (d.peer.keypair slot).receivingKey (u8to64Little data 8) pkt]
        else []) := by
  have receives := h.receives
  rw [WireguardKeypair.receives] at receives
  rw [wireguardifProcessDataMessage, h.found]
  dsimp only
  rw [if_pos receives, if_pos h.memory, h.opened]
  dsimp only
  rw [if_neg hpkt]

/-- At most one packet is handed on. -/
theorem wireguardifProcessDataMessage_effects (d : WireguardDevice) (data : Bytes) (addr : IpAddr)
    (port : UInt16) (env : DataEnv) :
    (wireguardifProcessDataMessage d data addr port env).2 = [] ∨
      ∃ key n pkt, (wireguardifProcessDataMessage d data addr port env).2 = [.input key n pkt] := by
  rw [wireguardifProcessDataMessage]
  cases d.peer.getPeerKeypairForIdx (u8to32Little data 4) with
  | none => exact .inl rfl
  | some slot =>
    dsimp only
    split
    case isFalse => exact .inl rfl
    case isTrue =>
      split
      case isFalse => exact .inl rfl
      case isTrue =>
        cases chacha20poly1305Decrypt (data.drop 16) [] (u8to64Little data 8)
            (d.peer.keypair slot).receivingKey with
        | none => exact .inl rfl
        | some pkt =>
          dsimp only
          split
          case isTrue => exact .inl rfl
          case isFalse =>
            dsimp only
            split
            · exact .inr ⟨_, _, _, rfl⟩
            · exact .inl rfl

/-- What is handed on was opened, and passed the checks. -/
theorem opens_of_input {env : DataEnv} {key : Bytes} {n : UInt64}
    (h : (wireguardifProcessDataMessage d data addr port env).2 = [.input key n pkt]) :
    ∃ slot, Opens d data env slot pkt ∧ pkt ≠ [] ∧
      key = (d.peer.keypair slot).receivingKey ∧ n = u8to64Little data 8 ∧
      (wireguardCheckReplay ((d.peer.packetReceived slot addr port env).keypair slot) n).2 =
        true ∧
      ((d.peer.packetReceived slot addr port env).sourceOk (pkt ++ env.slack)).2 ≤ pkt.length ∧
      ((d.peer.packetReceived slot addr port env).sourceOk (pkt ++ env.slack)).1 = true := by
  rw [wireguardifProcessDataMessage] at h
  cases found : d.peer.getPeerKeypairForIdx (u8to32Little data 4) with
  | none =>
    rw [found] at h
    cases h
  | some slot =>
    rw [found] at h
    dsimp only at h
    split at h
    case isFalse => cases h
    case isTrue receives =>
      split at h
      case isFalse => cases h
      case isTrue memory =>
        cases opened : chacha20poly1305Decrypt (data.drop 16) [] (u8to64Little data 8)
            (d.peer.keypair slot).receivingKey with
        | none =>
          rw [opened] at h
          cases h
        | some m =>
          rw [opened] at h
          dsimp only at h
          split at h
          case isTrue => cases h
          case isFalse some =>
            dsimp only at h
            split at h
            case isFalse => cases h
            case isTrue passes =>
              cases h
              obtain ⟨front, source⟩ := Bool.and_eq_true_iff.mp passes
              obtain ⟨fresh, length⟩ := Bool.and_eq_true_iff.mp front
              exact ⟨slot, ⟨found, receives, memory, opened⟩, some, rfl, rfl, fresh,
                of_decide_eq_true length, source⟩

/-- A message that is not opened does nothing, but to a key that may not be used any more. -/
theorem wireguardifProcessDataMessage_of_not_opens {env : DataEnv}
    (h : ∀ slot pkt, ¬ Opens d data env slot pkt) :
    (wireguardifProcessDataMessage d data addr port env).2 = [] ∧
      ((wireguardifProcessDataMessage d data addr port env).1 = d ∨
        ∃ slot, (d.peer.keypair slot).receives env.expiredNow = false ∧
          (wireguardifProcessDataMessage d data addr port env).1 =
            { d with peer := d.peer.keypairDestroy slot }) := by
  rw [wireguardifProcessDataMessage]
  cases found : d.peer.getPeerKeypairForIdx (u8to32Little data 4) with
  | none => exact ⟨rfl, .inl rfl⟩
  | some slot =>
    dsimp only
    split
    case isFalse spent => exact ⟨rfl, .inr ⟨slot, Bool.eq_false_iff.mpr spent, rfl⟩⟩
    case isTrue receives =>
      split
      case isFalse => exact ⟨rfl, .inl rfl⟩
      case isTrue memory =>
        cases opened : chacha20poly1305Decrypt (data.drop 16) [] (u8to64Little data 8)
            (d.peer.keypair slot).receivingKey with
        | none => exact ⟨rfl, .inl rfl⟩
        | some m => exact absurd ⟨found, receives, memory, opened⟩ (h slot m)

/-! ### Silence -/

/-- The datagrams that someone made who knows what the device shares with its peer: an initiation
or a response sealed with it, a cookie for the message that was sent last, or a packet sealed under
a session key. The first two carry the keyed hash of the device's public key. -/
inductive Authentic (d : WireguardDevice) (data : Bytes) : Prop
  | initiation (kind : wireguardGetMessageType data = .handshakeInitiation) (t : Bytes)
      (mac1 : span data 116 16 = wireguardMac (data.take 116) d.labelMac1Key)
      (static : span data 40 48 =
        ((d.responderSecrets (span data 8 32)).seal d.peer.publicKey t).encStatic)
      (timestamp : span data 88 28 =
        ((d.responderSecrets (span data 8 32)).seal d.peer.publicKey t).encTimestamp)
      (later : d.peer.greatestTimestamp < t)
  | response (kind : wireguardGetMessageType data = .handshakeResponse)
      (mac1 : span data 60 16 = wireguardMac (data.take 60) d.labelMac1Key)
      (awaited : peerLookupByHandshake d (u8to32Little data 8) = true)
      (empty : span data 44 16 = (d.awaitedSecrets (span data 12 32)).seal.encEmpty)
  | cookie (kind : wireguardGetMessageType data = .cookieReply)
      (awaited : peerLookupByHandshake d (u8to32Little data 4) = true) (cookie : Bytes)
      (sealed : span data 32 32 = xchacha20poly1305Encrypt cookie d.peer.handshakeMac1
        (span data 8 24) d.peer.labelCookieKey)
  | transport (kind : wireguardGetMessageType data = .transportData) (slot : KeypairSlot)
      (found : d.peer.getPeerKeypairForIdx (u8to32Little data 4) = some slot) (pkt : Bytes)
      (sealed : data.drop 16 = chacha20poly1305Encrypt pkt [] (u8to64Little data 8)
        (d.peer.keypair slot).receivingKey)

/-- The lengths that the kinds of messages have. -/
theorem length_of_wireguardGetMessageType (data : Bytes) :
    match wireguardGetMessageType data with
    | .invalid => True
    | .handshakeInitiation => data.length = 148
    | .handshakeResponse => data.length = 92
    | .cookieReply => data.length = 64
    | .transportData => 32 ≤ data.length := by
  rw [wireguardGetMessageType]
  split_ifs with _ _ h _ h _ h _ h
  · exact h
  · trivial
  · exact h
  · trivial
  · exact h
  · trivial
  · exact h
  · trivial
  · trivial
  · trivial

theorem length_wireguardMacKey (publicKey label : Bytes) :
    (wireguardMacKey publicKey label).length = 32 := length_blake2sDigest _

/-- A keyed hash has 16 bytes, so it is compared in full. -/
theorem wireguardCheckMac1_iff {d : WireguardDevice} (hkey : d.labelMac1Key.length = 32)
    (data : Bytes) {mac1 : Bytes} (h : mac1.length = 16) :
    wireguardCheckMac1 d data mac1 = true ↔ mac1 = wireguardMac data d.labelMac1Key := by
  rw [wireguardCheckMac1, cryptoEqual_iff (by rw [length_wireguardMac data (Nat.le_of_eq hkey), h])]
  exact eq_comm

/-- A datagram that was not made with the keys of the device and its peer is not answered and not
handed on, and changes nothing but that it may destroy a key that is past its use. -/
theorem wireguardifNetworkRx_silent (d : WireguardDevice) (data : Bytes) (addr : IpAddr)
    (port : UInt16) (env : NetworkEnv) (hkey : d.labelMac1Key.length = 32)
    (h : ¬ Authentic d data) :
    (wireguardifNetworkRx d data addr port env).2 = [] ∧
      ((wireguardifNetworkRx d data addr port env).1 = d ∨
        ∃ slot, (d.peer.keypair slot).receives env.data.expiredNow = false ∧
          (wireguardifNetworkRx d data addr port env).1 =
            { d with peer := d.peer.keypairDestroy slot }) := by
  have lengths := length_of_wireguardGetMessageType data
  rw [wireguardifNetworkRx]
  cases kind : wireguardGetMessageType data with
  | invalid => exact ⟨rfl, .inl rfl⟩
  | handshakeInitiation =>
    rw [kind] at lengths
    simp only [wireguardifCheckMessage_eq]
    split
    case isFalse => exact ⟨rfl, .inl rfl⟩
    case isTrue mac1 =>
      have mac1 := (wireguardCheckMac1_iff hkey _ (length_span (by omega))).mp mac1
      cases taken : wireguardProcessInitiationMessage d (.ofBytes data) env.initiationNow with
      | none => exact ⟨rfl, .inl rfl⟩
      | some d' =>
        obtain ⟨_, _, _, t, later, static, timestamp, _⟩ :=
          (wireguardProcessInitiationMessage_eq_some_iff _ _ _ _).mp taken
        exact absurd (.initiation kind t mac1 static timestamp later) h
  | handshakeResponse =>
    rw [kind] at lengths
    simp only [wireguardifCheckMessage_eq]
    split
    case isFalse => exact ⟨rfl, .inl rfl⟩
    case isTrue mac1 =>
      have mac1 := (wireguardCheckMac1_iff hkey _ (length_span (by omega))).mp mac1
      split
      case isFalse => exact ⟨rfl, .inl rfl⟩
      case isTrue awaited =>
        rw [wireguardifProcessResponseMessage]
        cases taken : wireguardProcessHandshakeResponse d (.ofBytes data) with
        | none => exact ⟨rfl, .inl rfl⟩
        | some d' =>
          have room : (MessageHandshakeResponse.ofBytes data).encEmpty.length = 16 :=
            length_span (by omega)
          obtain ⟨_, _, _, _, empty, _⟩ :=
            (wireguardProcessHandshakeResponse_eq_some_iff _ _ _ room).mp taken
          exact absurd (.response kind mac1 awaited empty) h
  | cookieReply =>
    dsimp only
    split
    case isFalse => exact ⟨rfl, .inl rfl⟩
    case isTrue awaited =>
      cases taken : wireguardProcessCookieMessage d (.ofBytes data) env.cookieNow with
      | none => exact ⟨rfl, .inl rfl⟩
      | some d' =>
        simp only [wireguardProcessCookieMessage, guard, Option.bind_eq_bind,
          Option.bind_eq_some_iff, xchacha20poly1305Decrypt] at taken
        obtain ⟨_, _, cookie, opened, _⟩ := taken
        have sealed := encrypt_of_decrypt opened
        exact absurd (.cookie kind awaited cookie sealed) h
  | transportData =>
    dsimp only
    split
    case isFalse => exact ⟨rfl, .inl rfl⟩
    case isTrue =>
      apply wireguardifProcessDataMessage_of_not_opens
      intro slot pkt opens
      exact h (.transport kind slot opens.found pkt (encrypt_of_decrypt opens.opened))

/-- A header without payload, from 10.0.0.1. -/
def innerPacket : Bytes := [0x45, 0, 0, 20, 0, 0, 0, 0, 64, 0, 0, 0, 10, 0, 0, 1, 10, 0, 0, 2]

/-- A responder that waits for the first packet under its new key, and allows any source. -/
def waitingDevice : WireguardDevice where
  valid := true
  labelMac1Key := wireguardMacKey zeroKey labelMac1
  peer := {
    valid := true
    allowedSourceIps := #v[⟨true, .v4 Ip4.any, .v4 Ip4.any⟩, {}]
    nextKeypair := { valid := true, receivingValid := true, localIndex := 7 } }

/-- The packet sealed for that device, and the same with a bit of the tag flipped. -/
def innerDatagram : Bytes := transportHeader 7 0 ++ chacha20poly1305Encrypt innerPacket [] 0 zeroKey

def forgedDatagram : Bytes :=
  transportHeader 7 0 ++ (chacha20poly1305Encrypt innerPacket [] 0 zeroKey).modify 35 (· ^^^ 1)

/-- A header and a sealed packet of at least no bytes make a transport message. -/
theorem wireguardGetMessageType_transport (receiver : UInt32) (counter : UInt64) {enc : Bytes}
    (long : 16 ≤ enc.length) :
    wireguardGetMessageType (transportHeader receiver counter ++ enc) = .transportData := by
  have length : 16 + 16 ≤ (transportHeader receiver counter ++ enc).length := by
    rw [List.length_append]
    exact Nat.add_le_add_left long 16
  rw [wireguardGetMessageType, if_pos ⟨by omega, rfl, rfl, rfl⟩]
  have kind : byte (transportHeader receiver counter ++ enc) 0 = 4 := rfl
  rw [kind, if_neg (by decide), if_neg (by decide), if_neg (by decide), if_pos rfl, if_pos length]

/-- The device has nothing to say to the forged datagram, though it takes the other. -/
theorem wireguardifNetworkRx_silent_forged :
    Authentic waitingDevice innerDatagram ∧
      (wireguardifNetworkRx waitingDevice forgedDatagram (.v4 Ip4.any) 51820 default).2 = [] := by
  have sealed : (chacha20poly1305Encrypt innerPacket [] 0 zeroKey).length = 36 :=
    length_chacha20poly1305Encrypt innerPacket [] 0 zeroKey
  have kind : wireguardGetMessageType innerDatagram = .transportData :=
    wireguardGetMessageType_transport 7 0 (by rw [sealed]; decide)
  have kind' : wireguardGetMessageType forgedDatagram = .transportData :=
    wireguardGetMessageType_transport 7 0 (by rw [List.length_modify, sealed]; decide)
  have forged : ¬ Authentic waitingDevice forgedDatagram := by
    rintro (other | other | other | ⟨-, slot, found, pkt, other⟩)
    · exact absurd (kind'.symm.trans other) (by decide)
    · exact absurd (kind'.symm.trans other) (by decide)
    · exact absurd (kind'.symm.trans other) (by decide)
    · obtain rfl : slot = .next := Option.some.inj (found.symm.trans rfl)
      have flips (x : UInt8) : x ^^^ 1 ≠ x := by
        intro h
        have one := congrArg (x ^^^ ·) h
        simp only [← UInt8.xor_assoc, UInt8.xor_self, UInt8.zero_xor] at one
        exact absurd one (by decide)
      exact chacha20poly1305Encrypt_modify_tag_ne flips (by decide) (by decide) pkt other
  constructor
  · exact .transport kind .next rfl innerPacket rfl
  have hkey : waitingDevice.labelMac1Key.length = 32 := by
    rw [waitingDevice, length_wireguardMacKey]
  have quiet := wireguardifNetworkRx_silent waitingDevice forgedDatagram (.v4 Ip4.any) 51820 default
    hkey forged
  exact quiet.1

/-! ### Initiations -/

/-- What outlasts a handshake: the device's keys, the peer's, the cookie and the greatest
timestamp. -/
structure LongTerm where
  privateKey : Bytes
  publicKey : Bytes
  ownMac : Bytes
  known : Bool
  peerKey : Bytes
  peerDh : Bytes
  peerMac : Bytes
  psk : Bytes
  cookie : Bytes
  greatestTimestamp : Bytes

/-- What the device judges an initiation by, and makes one with. -/
def WireguardDevice.longTerm (d : WireguardDevice) : LongTerm where
  privateKey := d.privateKey
  publicKey := d.publicKey
  ownMac := d.labelMac1Key
  known := d.peer.valid
  peerKey := d.peer.publicKey
  peerDh := d.peer.publicKeyDh
  peerMac := d.peer.labelMac1Key
  psk := d.peer.presharedKey
  cookie := d.peer.cookie
  greatestTimestamp := d.peer.greatestTimestamp

theorem longTerm_setKeypair (d : WireguardDevice) (slot : KeypairSlot) (k : WireguardKeypair) :
    { d with peer := d.peer.setKeypair slot k }.longTerm = d.longTerm := by
  cases slot <;> rfl

theorem wireguardifOutputToPeer_longTerm (d : WireguardDevice) (q : Option Bytes)
    (env : OutputEnv) : (wireguardifOutputToPeer d q env).1.longTerm = d.longTerm := by
  rw [wireguardifOutputToPeer]
  generalize d.peer.sendingSlot = slot
  dsimp only
  split_ifs
  all_goals cases slot <;> rfl

theorem wireguardStartHandshake_longTerm (d : WireguardDevice) (env : StartEnv) :
    (wireguardStartHandshake d env).1.longTerm = d.longTerm := by
  obtain ⟨handshake, made⟩ := wireguardCreateHandshakeInitiation_frame d env.initiation
  rw [wireguardStartHandshake]
  generalize wireguardCreateHandshakeInitiation d env.initiation = result at made ⊢
  obtain ⟨d', msg⟩ := result
  obtain rfl : d' = { d with peer.handshake := handshake } := made
  cases msg with
  | none => rfl
  | some msg =>
    dsimp only
    split
    · rfl
    · rfl

theorem WireguardDevice.startSession_longTerm (d : WireguardDevice) (initiator : Bool)
    (now : UInt32) : (d.startSession initiator now).1.longTerm = d.longTerm := by
  rw [startSession, WireguardPeer.wireguardStartSession, WireguardPeer.addNewKeypair]
  dsimp only
  split_ifs <;> rfl

theorem wireguardifSendHandshakeResponse_longTerm (d : WireguardDevice) (env : SendResponseEnv) :
    (wireguardifSendHandshakeResponse d env).1.longTerm = d.longTerm := by
  obtain ⟨handshake, made⟩ := wireguardCreateHandshakeResponse_frame d env.response
  rw [wireguardifSendHandshakeResponse]
  generalize wireguardCreateHandshakeResponse d env.response = result at made ⊢
  obtain ⟨d', msg⟩ := result
  obtain rfl : d' = { d with peer.handshake := handshake } := made
  cases msg with
  | none => rfl
  | some msg => exact WireguardDevice.startSession_longTerm _ false env.sessionNow

theorem wireguardifProcessResponseMessage_longTerm (d : WireguardDevice)
    (response : MessageHandshakeResponse) (addr : IpAddr) (port : UInt16) (env : ResponseRxEnv) :
    (wireguardifProcessResponseMessage d response addr port env).1.longTerm = d.longTerm := by
  rw [wireguardifProcessResponseMessage]
  cases taken : wireguardProcessHandshakeResponse d response with
  | none => rfl
  | some d' =>
    have same : d'.longTerm = d.longTerm := by
      simp only [wireguardProcessHandshakeResponse, guard, Option.bind_eq_bind,
        Option.bind_eq_some_iff, Option.pure_def, Option.some.injEq] at taken
      obtain ⟨_, _, _, _, _, _, _, _, rfl⟩ := taken
      rfl
    exact ((wireguardifOutputToPeer_longTerm _ none env.keepalive).trans
      (WireguardDevice.startSession_longTerm _ true env.sessionNow)).trans same

theorem wireguardifProcessDataMessage_longTerm (d : WireguardDevice) (data : Bytes)
    (addr : IpAddr) (port : UInt16) (env : DataEnv) :
    (wireguardifProcessDataMessage d data addr port env).1.longTerm = d.longTerm := by
  have received (slot : KeypairSlot) :
      { d with peer := d.peer.packetReceived slot addr port env }.longTerm = d.longTerm := by
    rw [WireguardPeer.packetReceived, WireguardPeer.keypairUpdate]
    cases slot <;> rfl
  rw [wireguardifProcessDataMessage]
  cases d.peer.getPeerKeypairForIdx (u8to32Little data 4) with
  | none => rfl
  | some slot =>
    dsimp only
    split
    case isFalse => exact longTerm_setKeypair d slot {}
    case isTrue =>
      split
      case isFalse => rfl
      case isTrue =>
        cases chacha20poly1305Decrypt (data.drop 16) [] (u8to64Little data 8)
            (d.peer.keypair slot).receivingKey with
        | none => rfl
        | some pkt =>
          dsimp only
          split
          · exact received slot
          · exact (longTerm_setKeypair
              { d with peer := d.peer.packetReceived slot addr port env } slot _).trans
              (received slot)

theorem wireguardifTmr_longTerm (d : WireguardDevice) (env : TimerEnv) :
    (wireguardifTmr d env).1.longTerm = d.longTerm := by
  rw [wireguardifTmr]
  split
  case isFalse => rfl
  case isTrue =>
    have reset : (if shouldResetPeer d.peer env.resetNow then
        { d with peer := d.peer.destroyKeypairs.updateAddr d.peer.connectIp d.peer.connectPort }
        else d).longTerm = d.longTerm := by
      split
      · rfl
      · rfl
    dsimp only
    generalize (if shouldResetPeer d.peer env.resetNow then
      { d with peer := d.peer.destroyKeypairs.updateAddr d.peer.connectIp d.peer.connectPort }
      else d) = d1 at reset ⊢
    have destroyed : (if shouldDestroyCurrentKeypair d1.peer env.destroyNow then
        { d1 with peer := d1.peer.keypairDestroy .curr } else d1).longTerm = d1.longTerm := by
      split
      · rfl
      · rfl
    generalize (if shouldDestroyCurrentKeypair d1.peer env.destroyNow then
      { d1 with peer := d1.peer.keypairDestroy .curr } else d1) = d2 at destroyed ⊢
    have kept : (if shouldSendKeepalive d2.peer env.keepaliveNow then
        wireguardifSendKeepalive d2 env.keepalive else (d2, [])).1.longTerm = d2.longTerm := by
      split
      · exact wireguardifOutputToPeer_longTerm d2 none env.keepalive
      · rfl
    generalize (if shouldSendKeepalive d2.peer env.keepaliveNow then
      wireguardifSendKeepalive d2 env.keepalive else (d2, [])) = d3 at kept ⊢
    have started : (if shouldSendInitiation d3.1.peer env.canNow env.expiredNow then
        wireguardStartHandshake d3.1 env.start else (d3.1, [])).1.longTerm = d3.1.longTerm := by
      split
      · exact wireguardStartHandshake_longTerm d3.1 env.start
      · rfl
    exact started.trans (kept.trans (destroyed.trans reset))

/-- The datagram of a call that is accepted as an initiation, with the timestamp in it. -/
def WireguardDevice.accepts (d : WireguardDevice) : WireguardifCall → Option (Bytes × Bytes)
  | .networkRx data addr port env =>
    if wireguardGetMessageType data = .handshakeInitiation ∧
        (wireguardifCheckMessage d data 148 addr port env.check).2.1 = true then
      (wireguardProcessInitiationMessage d (.ofBytes data) env.initiationNow).map fun d' =>
        (data, d'.peer.greatestTimestamp)
    else none
  | _ => none

theorem accepts_datagram {accepted : Bytes × Bytes} {env : NetworkEnv}
    (h : d.accepts (.networkRx data addr port env) = some accepted) : accepted.1 = data := by
  rw [WireguardDevice.accepts] at h
  split at h
  case isFalse => cases h
  case isTrue =>
    obtain ⟨d', -, rfl⟩ := Option.map_eq_some_iff.mp h
    rfl

/-- The initiations accepted in a run. -/
def WireguardDevice.acceptedInitiations (d : WireguardDevice) :
    List WireguardifCall → List (Bytes × Bytes)
  | [] => []
  | c :: cs => (d.accepts c).toList ++ (d.call c).1.acceptedInitiations cs

/-- The call neither adds nor removes a peer. -/
def WireguardifCall.keepsPeer : WireguardifCall → Bool
  | .removePeer => false
  | .addPeer _ => false
  | _ => true

/-- The timestamp is sealed in the datagram with what the device shares with its peer. -/
def LongTerm.Seals (l : LongTerm) (data t : Bytes) : Prop :=
  span data 88 28 = ((InitiationSecrets.mk l.publicKey (span data 8 32)
    (wireguardX25519 l.privateKey (span data 8 32)).1 l.peerDh).seal l.peerKey t).encTimestamp

/-- A datagram seals one timestamp. -/
theorem LongTerm.Seals.unique {l : LongTerm} {data t t' : Bytes} (h : l.Seals data t)
    (h' : l.Seals data t') : t = t' := by
  have same := h.symm.trans h'
  simp only [InitiationSecrets.seal] at same
  exact chacha20poly1305Encrypt_inj same

/-- All that is kept of it, but that a cookie of 16 bytes may have come. -/
def WireguardDevice.KeepsLongTerm (d d' : WireguardDevice) : Prop :=
  ∃ cookie, (cookie = d.peer.cookie ∨ cookie.length = 16) ∧
    d'.longTerm = { d.longTerm with cookie := cookie }

theorem WireguardDevice.KeepsLongTerm.of_eq {d d' : WireguardDevice}
    (h : d'.longTerm = d.longTerm) : d.KeepsLongTerm d' := ⟨_, .inl rfl, h⟩

/-- A cookie that is taken has 16 bytes. -/
theorem wireguardProcessCookieMessage_longTerm {data : Bytes} {d d' : WireguardDevice}
    {now : UInt32} (hdata : data.length = 64)
    (h : wireguardProcessCookieMessage d (.ofBytes data) now = some d') : d.KeepsLongTerm d' := by
  simp only [wireguardProcessCookieMessage, guard, Option.bind_eq_bind, Option.bind_eq_some_iff,
    Option.pure_def, Option.some.injEq, xchacha20poly1305Decrypt] at h
  obtain ⟨_, _, cookie, opened, rfl⟩ := h
  refine ⟨cookie, .inr ?_, rfl⟩
  have lengths := congrArg List.length (encrypt_of_decrypt opened)
  have room : (MessageCookieReply.ofBytes data).encCookie.length = 32 := length_span (by omega)
  rw [length_chacha20poly1305Encrypt] at lengths
  omega

/-- A call that accepts no initiation keeps what initiations are judged by; one that accepts one
takes its timestamp over, which is greater. -/
theorem WireguardDevice.call_longTerm (d : WireguardDevice) {c : WireguardifCall}
    (hc : c.keepsPeer = true) :
    (d.accepts c = none ∧ d.KeepsLongTerm (d.call c).1) ∨
      ∃ data t, d.accepts c = some (data, t) ∧ d.longTerm.Seals data t ∧
        d.peer.greatestTimestamp < t ∧
        (d.call c).1.longTerm = { d.longTerm with greatestTimestamp := t } := by
  cases c with
  | output q ipaddr env =>
    refine .inl ⟨rfl, .of_eq ?_⟩
    rw [call, wireguardifOutput]
    split
    · exact wireguardifOutputToPeer_longTerm d (some q) env
    · rfl
  | networkRx data addr port env =>
    have lengths := length_of_wireguardGetMessageType data
    rw [call, wireguardifNetworkRx, accepts]
    cases kind : wireguardGetMessageType data with
    | invalid => exact .inl ⟨if_neg fun h => (by cases h.1), .of_eq rfl⟩
    | handshakeInitiation =>
      simp only [wireguardifCheckMessage_eq, true_and]
      split
      case isFalse => exact .inl ⟨rfl, .of_eq rfl⟩
      case isTrue =>
        cases taken : wireguardProcessInitiationMessage d (.ofBytes data) env.initiationNow with
        | none => exact .inl ⟨rfl, .of_eq rfl⟩
        | some d' =>
          obtain ⟨_, _, _, t, later, _, timestamp, rfl⟩ :=
            (wireguardProcessInitiationMessage_eq_some_iff _ _ _ _).mp taken
          exact .inr ⟨data, t, rfl, timestamp, later,
            wireguardifSendHandshakeResponse_longTerm _ env.sendResponse⟩
    | handshakeResponse =>
      refine .inl ⟨if_neg fun h => (by cases h.1), .of_eq ?_⟩
      simp only [wireguardifCheckMessage_eq]
      split
      case isFalse => rfl
      case isTrue =>
        split
        · exact wireguardifProcessResponseMessage_longTerm d _ addr port env.response
        · rfl
    | cookieReply =>
      rw [kind] at lengths
      refine .inl ⟨if_neg fun h => (by cases h.1), ?_⟩
      dsimp only
      split
      case isFalse => exact .of_eq rfl
      case isTrue =>
        cases taken : wireguardProcessCookieMessage d (.ofBytes data) env.cookieNow with
        | none => exact .of_eq rfl
        | some d' =>
          obtain ⟨cookie, length, same⟩ := wireguardProcessCookieMessage_longTerm lengths taken
          exact ⟨cookie, length, same⟩
    | transportData =>
      refine .inl ⟨if_neg fun h => (by cases h.1), .of_eq ?_⟩
      dsimp only
      split
      · exact wireguardifProcessDataMessage_longTerm d data addr port env.data
      · rfl
  | tmr env => exact .inl ⟨rfl, .of_eq (wireguardifTmr_longTerm d env)⟩
  | connect =>
    refine .inl ⟨rfl, .of_eq ?_⟩
    rw [call, wireguardifConnect]
    split_ifs <;> rfl
  | disconnect =>
    refine .inl ⟨rfl, .of_eq ?_⟩
    rw [call, wireguardifDisconnect]
    split <;> rfl
  | updateEndpoint ip port =>
    refine .inl ⟨rfl, .of_eq ?_⟩
    rw [call, wireguardifUpdateEndpoint]
    split <;> rfl
  | removePeer => cases hc
  | addPeer p => cases hc

/-- What is accepted in a run is sealed with what the device judged by at its start, and newer than
what it had seen, each newer than those before it. -/
private theorem acceptedInitiations_later (d : WireguardDevice) (cs : List WireguardifCall)
    (kept : ∀ c ∈ cs, c.keepsPeer = true) :
    (∀ a ∈ d.acceptedInitiations cs, d.longTerm.Seals a.1 a.2 ∧ d.peer.greatestTimestamp < a.2) ∧
      (d.acceptedInitiations cs).Pairwise fun a b => a.2 < b.2 := by
  induction cs generalizing d with
  | nil => exact ⟨fun a ha => absurd ha List.not_mem_nil, List.Pairwise.nil⟩
  | cons c cs ih =>
    obtain ⟨all, order⟩ := ih (d.call c).1 fun c' hc' => kept c' (List.mem_cons_of_mem c hc')
    have times (l : WireguardDevice) : l.peer.greatestTimestamp = l.longTerm.greatestTimestamp :=
      rfl
    rw [WireguardDevice.acceptedInitiations]
    rcases d.call_longTerm (kept c List.mem_cons_self) with
      ⟨none, cookie, -, same⟩ | ⟨data, t, some, sealed, later, same⟩
    · rw [times, same] at all
      rw [none]
      exact ⟨all, order⟩
    · rw [times, same] at all
      rw [some, Option.toList_some, List.singleton_append]
      refine ⟨fun a ha => ?_, List.pairwise_cons.mpr ⟨fun a ha => (all a ha).2, order⟩⟩
      rcases List.mem_cons.mp ha with rfl | after
      · exact ⟨sealed, later⟩
      · exact ⟨(all a after).1, List.lt_trans later (all a after).2⟩

/-- In every run that keeps the peer, from any state, the initiations accepted have rising
timestamps, so none is accepted twice. -/
theorem acceptedInitiations_nodup (d : WireguardDevice) (cs : List WireguardifCall)
    (kept : ∀ c ∈ cs, c.keepsPeer = true) :
    (d.acceptedInitiations cs).Pairwise (fun a b => a.2 < b.2) ∧
      ((d.acceptedInitiations cs).map Prod.fst).Nodup := by
  obtain ⟨all, order⟩ := acceptedInitiations_later d cs kept
  refine ⟨order, ?_⟩
  rw [List.Nodup, List.pairwise_map]
  refine order.imp_of_mem fun {a b} ha hb later same => ?_
  have sealed := (all a ha).1
  rw [same] at sealed
  rw [sealed.unique (all b hb).1] at later
  exact List.lt_irrefl b.2 later

end Molewire
