/-
# WireGuard: agreement

Two devices that were given each other's public keys and the same preshared key
come to share two session keys. What the responder makes of an initiation is what
the initiator keeps of it, since both compute the same secrets; and when the
responder answers, the initiator takes the answer as long as its handshake is
pending, and both ends of the new session cross: what one sends with, the other
receives with, under the index the other has chosen.
-/

import Molewire.WireguardPairing
import Molewire.X25519Value

namespace Molewire

open ByteBuffer LittleEndian

/-! ### Messages in memory -/

private theorem span_mid (before mid after : Bytes) :
    span (before ++ (mid ++ after)) before.length mid.length = mid := by
  rw [span, List.drop_left, List.take_left]

/-- A word is read back from where it was written. -/
theorem u8to32Little_mid (before after : Bytes) (v : UInt32) :
    u8to32Little (before ++ (u32to8Little v ++ after)) before.length = v := by
  apply UInt32.toNat_inj.mp
  have small := v.toNat_lt
  rw [u8to32Little_toNat, ← leVal_drop, List.drop_left, leVal_append, u32to8Little_eq,
    leVal_leBytes, length_leBytes]
  omega

/-- The members have the lengths of the arrays. -/
structure MessageHandshakeInitiation.Sized (m : MessageHandshakeInitiation) : Prop where
  ephemeral : m.ephemeral.length = 32
  encStatic : m.encStatic.length = 48
  encTimestamp : m.encTimestamp.length = 28
  mac1 : m.mac1.length = 16
  mac2 : m.mac2.length = 16

namespace MessageHandshakeInitiation

variable {m : MessageHandshakeInitiation}

theorem Sized.length_body (h : m.Sized) : m.body.length = 116 := by
  simp only [body, List.length_append, length_u32to8Little, h.ephemeral, h.encStatic,
    h.encTimestamp, List.length_cons, List.length_nil]

theorem Sized.length_toBytes (h : m.Sized) : m.toBytes.length = 148 := by
  rw [toBytes, List.length_append, List.length_append, h.length_body, h.mac1, h.mac2]

theorem Sized.ofBytes_toBytes (h : m.Sized) : ofBytes m.toBytes = m := by
  have word := u8to32Little_mid [1, 0, 0, 0]
    (m.ephemeral ++ m.encStatic ++ m.encTimestamp ++ m.mac1 ++ m.mac2) m.sender
  have ephemeral := span_mid ([1, 0, 0, 0] ++ u32to8Little m.sender) m.ephemeral
    (m.encStatic ++ m.encTimestamp ++ m.mac1 ++ m.mac2)
  have encStatic := span_mid ([1, 0, 0, 0] ++ u32to8Little m.sender ++ m.ephemeral) m.encStatic
    (m.encTimestamp ++ m.mac1 ++ m.mac2)
  have encTimestamp := span_mid
    ([1, 0, 0, 0] ++ u32to8Little m.sender ++ m.ephemeral ++ m.encStatic) m.encTimestamp
    (m.mac1 ++ m.mac2)
  have mac1 := span_mid m.body m.mac1 m.mac2
  have mac2 := span_mid (m.body ++ m.mac1) m.mac2 []
  simp only [List.length_append, length_u32to8Little, h.ephemeral, h.encStatic,
    h.encTimestamp, h.mac1, h.mac2, h.length_body, List.length_cons, List.length_nil,
    Nat.reduceAdd, List.append_nil] at word ephemeral encStatic encTimestamp mac1 mac2
  simp only [body, ← List.append_assoc] at word ephemeral encStatic encTimestamp mac1 mac2
  rw [ofBytes]
  simp only [toBytes, body, word, ephemeral, encStatic, encTimestamp, mac1, mac2]

theorem Sized.messageType (h : m.Sized) :
    wireguardGetMessageType m.toBytes = .handshakeInitiation := by
  have start : 4 ≤ m.toBytes.length ∧ byte m.toBytes 1 = 0 ∧ byte m.toBytes 2 = 0 ∧
      byte m.toBytes 3 = 0 := ⟨by rw [h.length_toBytes]; decide, rfl, rfl, rfl⟩
  rw [wireguardGetMessageType, if_pos start, if_pos (show byte m.toBytes 0 = 1 from rfl),
    if_pos h.length_toBytes]

theorem Sized.take_toBytes (h : m.Sized) : m.toBytes.take 116 = m.body := by
  rw [toBytes, List.append_assoc, ← h.length_body, List.take_left]

end MessageHandshakeInitiation

/-- The members have the lengths of the arrays. -/
structure MessageHandshakeResponse.Sized (m : MessageHandshakeResponse) : Prop where
  ephemeral : m.ephemeral.length = 32
  encEmpty : m.encEmpty.length = 16
  mac1 : m.mac1.length = 16
  mac2 : m.mac2.length = 16

namespace MessageHandshakeResponse

variable {m : MessageHandshakeResponse}

theorem Sized.length_body (h : m.Sized) : m.body.length = 60 := by
  simp only [body, List.length_append, length_u32to8Little, h.ephemeral, h.encEmpty,
    List.length_cons, List.length_nil]

theorem Sized.length_toBytes (h : m.Sized) : m.toBytes.length = 92 := by
  rw [toBytes, List.length_append, List.length_append, h.length_body, h.mac1, h.mac2]

theorem receiver_toBytes (m : MessageHandshakeResponse) :
    u8to32Little m.toBytes 8 = m.receiver := by
  have word := u8to32Little_mid ([2, 0, 0, 0] ++ u32to8Little m.sender)
    (m.ephemeral ++ m.encEmpty ++ m.mac1 ++ m.mac2) m.receiver
  simp only [← List.append_assoc] at word
  exact word

theorem Sized.ofBytes_toBytes (h : m.Sized) : ofBytes m.toBytes = m := by
  have sender := u8to32Little_mid [2, 0, 0, 0]
    (u32to8Little m.receiver ++ m.ephemeral ++ m.encEmpty ++ m.mac1 ++ m.mac2) m.sender
  have receiver := receiver_toBytes m
  have ephemeral := span_mid ([2, 0, 0, 0] ++ u32to8Little m.sender ++ u32to8Little m.receiver)
    m.ephemeral (m.encEmpty ++ m.mac1 ++ m.mac2)
  have encEmpty := span_mid
    ([2, 0, 0, 0] ++ u32to8Little m.sender ++ u32to8Little m.receiver ++ m.ephemeral) m.encEmpty
    (m.mac1 ++ m.mac2)
  have mac1 := span_mid m.body m.mac1 m.mac2
  have mac2 := span_mid (m.body ++ m.mac1) m.mac2 []
  simp only [List.length_append, length_u32to8Little, h.ephemeral, h.encEmpty, h.mac1, h.mac2,
    h.length_body, List.length_cons, List.length_nil, Nat.reduceAdd,
    List.append_nil] at sender ephemeral encEmpty mac1 mac2
  simp only [toBytes, body, ← List.append_assoc] at sender receiver ephemeral encEmpty mac1 mac2
  rw [ofBytes]
  simp only [toBytes, body, sender, receiver, ephemeral, encEmpty, mac1, mac2]

theorem Sized.messageType (h : m.Sized) :
    wireguardGetMessageType m.toBytes = .handshakeResponse := by
  have start : 4 ≤ m.toBytes.length ∧ byte m.toBytes 1 = 0 ∧ byte m.toBytes 2 = 0 ∧
      byte m.toBytes 3 = 0 := ⟨by rw [h.length_toBytes]; decide, rfl, rfl, rfl⟩
  have kind : byte m.toBytes 0 = 2 := rfl
  rw [wireguardGetMessageType, if_pos start, kind, if_neg (by decide), if_pos rfl,
    if_pos h.length_toBytes]

theorem Sized.take_toBytes (h : m.Sized) : m.toBytes.take 60 = m.body := by
  rw [toBytes, List.append_assoc, ← h.length_body, List.take_left]

end MessageHandshakeResponse

/-! ### Shared secrets -/

theorem length_of_generated {k key : Bytes} (h : wireguardGeneratePublicKey k = some key) :
    key.length = 32 := by
  rw [generated_eq h]
  exact length_wireguardX25519 rfl k

/-- What the initiator seals an initiation with is what the responder opens it with. -/
theorem initiatorSecrets_eq {a b : WireguardDevice} (hab : Paired a b) (hba : Paired b a)
    {ephemeralPrivate ephemeral : Bytes}
    (generated : wireguardGeneratePublicKey ephemeralPrivate = some ephemeral) :
    a.initiatorSecrets ephemeralPrivate ephemeral = b.responderSecrets ephemeral := by
  have es := wireguardX25519_publicKey generated hba.own
  have ss := wireguardX25519_publicKey hab.own hba.own
  rw [WireguardDevice.initiatorSecrets, WireguardDevice.responderSecrets, hab.peerKey, hab.peerDh,
    hba.peerDh, es, ss]

/-- What the responder seals a response with is what the initiator opens it with. -/
theorem answerSecrets_eq {a b : WireguardDevice} (hab : Paired a b) (hba : Paired b a)
    {ephemeralPrivate ephemeral : Bytes}
    (ours : wireguardGeneratePublicKey a.peer.handshake.ephemeralPrivate =
      some b.peer.handshake.remoteEphemeral)
    (theirs : wireguardGeneratePublicKey ephemeralPrivate = some ephemeral)
    (hash : a.peer.handshake.hash = b.peer.handshake.hash)
    (chain : a.peer.handshake.chainingKey = b.peer.handshake.chainingKey) :
    b.answerSecrets ephemeralPrivate ephemeral = a.awaitedSecrets ephemeral := by
  have ee := wireguardX25519_publicKey ours theirs
  have se := wireguardX25519_publicKey hab.own theirs
  rw [WireguardDevice.answerSecrets, WireguardDevice.awaitedSecrets, hash, chain, hba.peerKey,
    hab.psk, ee, se]

/-! ### The messages that are made -/

theorem length_mac2Of {peer : WireguardPeer} (h : peer.cookie.length = 16) (message : Bytes)
    (now : UInt32) : (mac2Of peer message now).length = 16 := by
  rw [mac2Of]
  split
  · exact List.length_replicate
  · exact length_wireguardMac message (by omega)

theorem length_wireguardTai64nNow (bootCount now : UInt32) :
    (wireguardTai64nNow bootCount now).length = 12 := by
  rw [wireguardTai64nNow_eq, List.length_append, BigEndian.beBytes_length,
    BigEndian.beBytes_length]

theorem Paired.length_peerMac {a b : WireguardDevice} (h : Paired a b) :
    a.peer.labelMac1Key.length = 32 := by
  rw [h.peerMac]
  exact length_wireguardMacKey _ _

theorem Paired.sized_initiation {a b a' : WireguardDevice} (h : Paired a b) {env : InitiationEnv}
    {msg : MessageHandshakeInitiation}
    (made : wireguardCreateHandshakeInitiation a env = (a', some msg)) : msg.Sized := by
  obtain ⟨sealed, rfl, generated, static, timestamp, -, mac1, mac2, -⟩ :=
    wireguardCreateHandshakeInitiation_some made
  refine ⟨length_of_generated generated, ?_, ?_, ?_, ?_⟩
  · rw [static, InitiationSecrets.seal, length_chacha20poly1305Encrypt, length_of_generated h.own]
  · rw [timestamp, InitiationSecrets.seal, length_chacha20poly1305Encrypt,
      length_wireguardTai64nNow]
  · rw [mac1]
    exact length_wireguardMac _ h.length_peerMac.le
  · rw [mac2]
    exact length_mac2Of h.cookie _ _

theorem Paired.sized_response {a b b' : WireguardDevice} (h : Paired b a) {env : ResponseEnv}
    {msg : MessageHandshakeResponse}
    (made : wireguardCreateHandshakeResponse b env = (b', some msg)) : msg.Sized := by
  obtain ⟨sealed, rfl, generated, -, -, empty, -, -, mac1, mac2, -⟩ :=
    wireguardCreateHandshakeResponse_some made
  refine ⟨length_of_generated generated, ?_, ?_, ?_⟩
  · rw [empty, ResponseSecrets.seal, length_chacha20poly1305Encrypt]
    rfl
  · rw [mac1]
    exact length_wireguardMac _ h.length_peerMac.le
  · rw [mac2]
    exact length_mac2Of h.cookie _ _

/-- A message with the keyed hash of the receiver's public key passes the check. -/
theorem Paired.checkMac1 {a b : WireguardDevice} (hab : Paired a b) (hba : Paired b a)
    (body : Bytes) : wireguardCheckMac1 b body (wireguardMac body a.peer.labelMac1Key) = true := by
  rw [wireguardCheckMac1, hba.ownMac, ← hab.peerMac]
  exact (cryptoEqual_iff rfl).mpr rfl

/-- The key exchanges of a response that is made do not come out zero. -/
theorem wireguardCreateHandshakeResponse_nonzero {device device' : WireguardDevice}
    {env : ResponseEnv} {msg : MessageHandshakeResponse}
    (h : wireguardCreateHandshakeResponse device env = (device', some msg)) :
    cryptoEqual (device.answerSecrets (wireguardClampPrivateKey env.random) msg.ephemeral).ee
        zeroKey = false ∧
      cryptoEqual (device.answerSecrets (wireguardClampPrivateKey env.random) msg.ephemeral).se
        zeroKey = false := by
  rw [wireguardCreateHandshakeResponse] at h
  dsimp only at h
  split at h
  case isFalse => cases h
  case isTrue =>
    split at h
    case h_1 => cases h
    case h_2 =>
      split at h
      case isTrue => cases h
      case isFalse ee =>
        split at h
        case isTrue => cases h
        case isFalse se =>
          simp only [WireguardDevice.answerSecrets]
          exact ⟨Bool.eq_false_iff.mpr ee, Bool.eq_false_iff.mpr se⟩

/-! ### The three calls -/

/-- A handshake that is started sends the message it makes. -/
theorem wireguardStartHandshake_send {a a' : WireguardDevice} {env : StartEnv} {data : Bytes}
    {ip : IpAddr} {port : UInt16}
    (h : wireguardStartHandshake a env = (a', [.send data ip port])) :
    ∃ made msg, wireguardCreateHandshakeInitiation a env.initiation = (made, some msg) ∧
      data = msg.toBytes ∧ a'.peer.handshake = made.peer.handshake := by
  rw [wireguardStartHandshake] at h
  split at h
  case h_1 => cases h
  case h_2 made msg result =>
    split at h
    case isFalse => cases h
    case isTrue =>
      obtain ⟨rfl, sent⟩ := Prod.mk.inj h
      cases sent
      exact ⟨made, msg, result, rfl, rfl⟩

theorem startSession_effects (d : WireguardDevice) (initiator : Bool) (now : UInt32) :
    (d.startSession initiator now).2 =
      [.session (d.peer.newKeypair initiator now).sendingKey
        (d.peer.newKeypair initiator now).receivingKey initiator] := rfl

/-- An initiation that is answered was taken, and the answer is the message made for it. -/
theorem wireguardifNetworkRx_answer {b b' : WireguardDevice} {msg : MessageHandshakeInitiation}
    (sized : msg.Sized) {addr ip : IpAddr} {port port' : UInt16} {env : NetworkEnv}
    {sendingKey receivingKey data : Bytes}
    (h : wireguardifNetworkRx b msg.toBytes addr port env =
      (b', [.session sendingKey receivingKey false, .send data ip port'])) :
    ∃ taken made packet, wireguardProcessInitiationMessage b msg env.initiationNow = some taken ∧
      wireguardCreateHandshakeResponse { taken with peer := taken.peer.updateAddr addr port }
        env.sendResponse.response = (made, some packet) ∧
      packet.toBytes = data ∧
      (made.startSession false env.sendResponse.sessionNow).1 = b' ∧
      (made.peer.newKeypair false env.sendResponse.sessionNow).sendingKey = sendingKey ∧
      (made.peer.newKeypair false env.sendResponse.sessionNow).receivingKey = receivingKey := by
  rw [wireguardifNetworkRx, sized.messageType] at h
  simp only [wireguardifCheckMessage_eq, sized.ofBytes_toBytes] at h
  split at h
  case isFalse => cases h
  case isTrue =>
    cases process : wireguardProcessInitiationMessage b msg env.initiationNow with
    | none =>
      rw [process] at h
      cases h
    | some taken =>
      rw [process] at h
      dsimp only at h
      rw [wireguardifSendHandshakeResponse] at h
      cases create : wireguardCreateHandshakeResponse
          { taken with peer := taken.peer.updateAddr addr port } env.sendResponse.response with
      | mk made packet =>
        rw [create] at h
        cases packet with
        | none => cases h
        | some packet =>
          dsimp only at h
          obtain ⟨rfl, effects⟩ := Prod.mk.inj h
          rw [startSession_effects] at effects
          split at effects
          case isFalse =>
            have lengths := congrArg List.length effects
            simp only [List.length_append, List.length_cons, List.length_nil] at lengths
            omega
          case isTrue =>
            rw [List.singleton_append] at effects
            obtain ⟨session, sent⟩ := List.cons.inj effects
            obtain ⟨sending, receiving, -⟩ := Effect.session.inj session
            obtain ⟨datagram, -, -⟩ := Effect.send.inj (List.cons.inj sent).1
            exact ⟨taken, made, packet, rfl, create, datagram, rfl, sending, receiving⟩

/-! ### Agreement -/

/-- What one end sends with, the other receives with, under the index the other has chosen. -/
structure Matched (k k' : WireguardKeypair) : Prop where
  sending : k.sendingKey = k'.receivingKey
  receiving : k.receivingKey = k'.sendingKey
  ours : k.localIndex = k'.remoteIndex
  theirs : k.remoteIndex = k'.localIndex

/-- From one chain and crossing indices, the two roles make matching keys. -/
theorem matched_newKeypair {p q : WireguardPeer}
    (chain : p.handshake.chainingKey = q.handshake.chainingKey)
    (ours : p.handshake.localIndex = q.handshake.remoteIndex)
    (theirs : p.handshake.remoteIndex = q.handshake.localIndex) (now now' : UInt32) :
    Matched (p.newKeypair true now) (q.newKeypair false now') := by
  refine ⟨?_, ?_, ours, theirs⟩
  · simp only [WireguardPeer.newKeypair, chain, if_true, Bool.false_eq_true, if_false]
  · simp only [WireguardPeer.newKeypair, chain, if_true, Bool.false_eq_true, if_false]

theorem wireguardStartSession_curr (peer : WireguardPeer) (now : UInt32) :
    (peer.wireguardStartSession true now).currKeypair = peer.newKeypair true now := by
  have role : (peer.newKeypair true now).initiator = true := rfl
  rw [WireguardPeer.wireguardStartSession, WireguardPeer.addNewKeypair, if_pos role]
  split
  · rfl
  · rfl

theorem wireguardStartSession_next (peer : WireguardPeer) (now : UInt32) :
    (peer.wireguardStartSession false now).nextKeypair = peer.newKeypair false now := by
  have role : ¬ (peer.newKeypair false now).initiator = true := Bool.false_ne_true
  rw [WireguardPeer.wireguardStartSession, WireguardPeer.addNewKeypair, if_neg role]

/-- A keep-alive leaves the keys and the indices, or destroys the pair. -/
theorem Matched.keepalive {d : WireguardDevice} {k' : WireguardKeypair}
    (h : Matched d.peer.currKeypair k') (env : OutputEnv) :
    (wireguardifSendKeepalive d env).1.peer.currKeypair.valid = true →
      Matched (wireguardifSendKeepalive d env).1.peer.currKeypair k' := by
  rw [wireguardifSendKeepalive, wireguardifOutputToPeer]
  generalize d.peer.sendingSlot = slot
  dsimp only
  split_ifs
  all_goals
    intro valid
    cases slot
    all_goals first
      | exact ⟨h.sending, h.receiving, h.ours, h.theirs⟩
      | cases valid

theorem InitiationSecrets.seal_inj {s : InitiationSecrets} {static t t' : Bytes}
    (h : (s.seal static t).encTimestamp = (s.seal static t').encTimestamp) : t = t' :=
  chacha20poly1305Encrypt_inj h

/-- A response that is taken starts a session, and its key pair becomes the current one. -/
theorem wireguardifProcessResponseMessage_session {d taken : WireguardDevice}
    {packet : MessageHandshakeResponse}
    (process : wireguardProcessHandshakeResponse d packet = some taken) {k' : WireguardKeypair}
    {env : ResponseRxEnv} (matched : Matched (taken.peer.newKeypair true env.sessionNow) k')
    (addr : IpAddr) (port : UInt16) :
    (∃ kept, (wireguardifProcessResponseMessage d packet addr port env).2 =
      .session k'.receivingKey k'.sendingKey true :: kept) ∧
      ((wireguardifProcessResponseMessage d packet addr port env).1.peer.currKeypair.valid =
        true →
        Matched (wireguardifProcessResponseMessage d packet addr port env).1.peer.currKeypair
          k') := by
  rw [wireguardifProcessResponseMessage, process]
  dsimp only
  have same : (taken.peer.updateAddr addr port).newKeypair true env.sessionNow =
      taken.peer.newKeypair true env.sessionNow := rfl
  rw [← same] at matched
  generalize hd : ({ taken with peer := taken.peer.updateAddr addr port } : WireguardDevice) = t
  have peer : t.peer = taken.peer.updateAddr addr port := by rw [← hd]
  rw [← peer] at matched
  refine ⟨⟨(wireguardifSendKeepalive (t.startSession true env.sessionNow).1 env.keepalive).2, ?_⟩,
    fun valid => ?_⟩
  · rw [startSession_effects, matched.sending, matched.receiving]
    rfl
  · apply Matched.keepalive _ env.keepalive valid
    rw [WireguardDevice.startSession]
    dsimp only
    rw [wireguardStartSession_curr]
    exact matched

/-- The initiator takes the answer to the handshake it has pending. -/
private theorem wireguardifNetworkRx_answered {later b made : WireguardDevice}
    {packet : MessageHandshakeResponse} {env : ResponseEnv} (hab : Paired later b)
    (hba : Paired b later)
    (create : wireguardCreateHandshakeResponse b env = (made, some packet))
    (waiting : later.peer.handshake.valid = true) (role : later.peer.handshake.initiator = true)
    (ours : later.peer.handshake.localIndex = b.peer.handshake.remoteIndex)
    (generated : wireguardGeneratePublicKey later.peer.handshake.ephemeralPrivate =
      some b.peer.handshake.remoteEphemeral)
    (hash : later.peer.handshake.hash = b.peer.handshake.hash)
    (chain : later.peer.handshake.chainingKey = b.peer.handshake.chainingKey)
    (addr : IpAddr) (port : UInt16) (env' : NetworkEnv) (now : UInt32) :
    (∃ kept, (wireguardifNetworkRx later packet.toBytes addr port env').2 =
      .session (made.peer.newKeypair false now).receivingKey
        (made.peer.newKeypair false now).sendingKey true :: kept) ∧
      ((wireguardifNetworkRx later packet.toBytes addr port env').1.peer.currKeypair.valid = true →
        Matched (wireguardifNetworkRx later packet.toBytes addr port env').1.peer.currKeypair
          (made.peer.newKeypair false now)) := by
  have sized := hba.sized_response create
  have nonzero := wireguardCreateHandshakeResponse_nonzero create
  obtain ⟨sealed, rfl, theirs, -, -, empty, -, receiver, mac1, -, rfl⟩ :=
    wireguardCreateHandshakeResponse_some create
  rw [answerSecrets_eq hab hba generated theirs hash chain] at nonzero empty ⊢
  have check : wireguardCheckMac1 later (packet.toBytes.take 60)
      (span packet.toBytes 60 16) = true := by
    have stored : span packet.toBytes 60 16 = packet.mac1 :=
      congrArg MessageHandshakeResponse.mac1 sized.ofBytes_toBytes
    rw [stored, sized.take_toBytes, mac1]
    exact hba.checkMac1 hab packet.body
  have awaited : peerLookupByHandshake later (u8to32Little packet.toBytes 8) = true := by
    rw [peerLookupByHandshake, MessageHandshakeResponse.receiver_toBytes, receiver, hab.known,
      waiting, role, ours, beq_self_eq_true]
    rfl
  simp only [WireguardDevice.awaitedSecrets] at nonzero
  have process : wireguardProcessHandshakeResponse later packet =
      some (later.responded packet (later.awaitedSecrets packet.ephemeral).seal) :=
    (wireguardProcessHandshakeResponse_eq_some_iff _ _ _ sized.encEmpty).mpr
      ⟨waiting, role, nonzero.1, nonzero.2, empty, rfl⟩
  rw [wireguardifNetworkRx, sized.messageType]
  simp only [wireguardifCheckMessage_eq, sized.ofBytes_toBytes]
  rw [if_pos check, if_pos awaited]
  apply wireguardifProcessResponseMessage_session process
  apply matched_newKeypair
  · rfl
  · exact ours
  · rfl

/-- The configuration is not touched by an initiation. -/
private theorem Paired.initiated {a b : WireguardDevice} (hab : Paired a b) (hba : Paired b a)
    (msg : MessageHandshakeInitiation) (sealed : InitiationSeal) (t : Bytes) (now : UInt32)
    (addr : IpAddr) (port : UInt16) :
    Paired a { b.initiated msg sealed t now with
        peer := (b.initiated msg sealed t now).peer.updateAddr addr port } ∧
      Paired { b.initiated msg sealed t now with
        peer := (b.initiated msg sealed t now).peer.updateAddr addr port } a := by
  apply And.symm
  exact hba.frame hab rfl hba.cookie

/-- When a device answers the initiation of its peer, and the peer, whatever it did meanwhile, still
has that handshake pending when the answer comes, the peer starts the same session: its keys cross,
and unless its pair is past its use at once, it matches the one the other end keeps waiting. -/
theorem handshake_agrees {a a' later b b' : WireguardDevice} (hab : Paired a b)
    (hba : Paired b a) (hab' : Paired later b) (hba' : Paired b later) {start : StartEnv}
    {first second sendingKey receivingKey : Bytes} {ip ip' addr addr' : IpAddr}
    {port port' port₁ port₂ : UInt16} {env env' : NetworkEnv}
    (started : wireguardStartHandshake a start = (a', [.send first ip port]))
    (answered : wireguardifNetworkRx b first addr port₁ env =
      (b', [.session sendingKey receivingKey false, .send second ip' port']))
    (pending : later.peer.handshake = a'.peer.handshake) :
    (b'.peer.nextKeypair.sendingKey = sendingKey ∧
      b'.peer.nextKeypair.receivingKey = receivingKey) ∧
    (∃ kept, (wireguardifNetworkRx later second addr' port₂ env').2 =
      .session receivingKey sendingKey true :: kept) ∧
    ((wireguardifNetworkRx later second addr' port₂ env').1.peer.currKeypair.valid = true →
      Matched (wireguardifNetworkRx later second addr' port₂ env').1.peer.currKeypair
        b'.peer.nextKeypair) := by
  obtain ⟨made, msg, create, rfl, handshake⟩ := wireguardStartHandshake_send started
  have sized := hab.sized_initiation create
  obtain ⟨sealed, seals, generated, -, timestamp, -, -, -, rfl⟩ :=
    wireguardCreateHandshakeInitiation_some create
  obtain ⟨taken, answer, packet, process, create', rfl, rfl, rfl, rfl⟩ :=
    wireguardifNetworkRx_answer sized answered
  obtain ⟨-, -, -, t, -, -, time, rfl⟩ :=
    (wireguardProcessInitiationMessage_eq_some_iff _ _ _ _).mp process
  -- the responder opens the very seal that the initiator made
  rw [initiatorSecrets_eq hab hba generated, ← hba.peerKey] at seals
  rw [timestamp, seals] at time
  rw [← InitiationSecrets.seal_inj time, ← seals] at create'
  obtain ⟨paired, paired'⟩ := hab'.initiated hba' msg sealed
    (wireguardTai64nNow start.initiation.bootCount start.initiation.stampNow) env.initiationNow
    addr port₁
  have next : (answer.startSession false env.sendResponse.sessionNow).1.peer.nextKeypair =
      answer.peer.newKeypair false env.sendResponse.sessionNow := wireguardStartSession_next _ _
  rw [next]
  rw [handshake] at pending
  refine ⟨⟨rfl, rfl⟩, ?_⟩
  apply wireguardifNetworkRx_answered paired paired' create'
  · rw [pending]
  · rw [pending]
  · rw [pending]
    rfl
  · rw [pending]
    exact generated
  · rw [pending]
    rfl
  · rw [pending]
    rfl

end Molewire
