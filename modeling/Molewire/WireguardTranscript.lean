/-
# WireGuard: transcripts

Both messages of the handshake are sealed: what the sender knows goes into the
keys and hashes under which their members are encrypted. Here the sealing is a
function of what the two sides share, the initiator's and the responder's code is
shown to make exactly such messages, and to accept exactly such messages.
-/

import Molewire.WireguardHandshake

namespace Molewire

open ByteBuffer

/-! ### The first message -/

/-- What an initiation is sealed with: the responder's public key, the ephemeral public key, and
the secrets of the ephemeral and of the static key with the responder's static key. -/
structure InitiationSecrets where
  responder : Bytes
  ephemeral : Bytes
  es : Bytes
  ss : Bytes

/-- What sealing a message gives: its encrypted members, and where hash and chain stand after
it. -/
structure InitiationSeal where
  encStatic : Bytes
  encTimestamp : Bytes
  hash : Bytes
  chainingKey : Bytes

/-- The initiator's public key and the timestamp are encrypted one after the other, each under the
transcript in front of it. -/
def InitiationSecrets.seal (s : InitiationSecrets) (static timestamp : Bytes) : InitiationSeal :=
  let hash := wireguardMixHash (wireguardMixHash identifierHash s.responder) s.ephemeral
  let keys := wireguardKdf2 (wireguardKdf1 constructionHash s.ephemeral) s.es
  let encStatic := chacha20poly1305Encrypt static hash 0 keys.2
  let hash := wireguardMixHash hash encStatic
  let keys := wireguardKdf2 keys.1 s.ss
  let encTimestamp := chacha20poly1305Encrypt timestamp hash 0 keys.2
  ⟨encStatic, encTimestamp, wireguardMixHash hash encTimestamp, keys.1⟩

/-- The device after an initiation with this seal. -/
def WireguardDevice.initiated (device : WireguardDevice) (msg : MessageHandshakeInitiation)
    (sealed : InitiationSeal) (timestamp : Bytes) (now : UInt32) : WireguardDevice :=
  { device with
    peer.lastInitiationRx := now
    peer.greatestTimestamp := timestamp
    peer.handshake.remoteEphemeral := msg.ephemeral
    peer.handshake.hash := sealed.hash
    peer.handshake.chainingKey := sealed.chainingKey
    peer.handshake.remoteIndex := msg.sender
    peer.handshake.valid := true
    peer.handshake.initiator := false }

/-- What the responder shares with the sender of a message, if the sender is its peer. -/
def WireguardDevice.responderSecrets (device : WireguardDevice) (ephemeral : Bytes) :
    InitiationSecrets :=
  ⟨device.publicKey, ephemeral, (wireguardX25519 device.privateKey ephemeral).1,
    device.peer.publicKeyDh⟩

/-- The responder accepts the messages that seal the public key of its peer and a timestamp greater
than any before, when an initiation is not too soon, and no others. -/
theorem wireguardProcessInitiationMessage_eq_some_iff (device device' : WireguardDevice)
    (msg : MessageHandshakeInitiation) (now : UInt32) :
    wireguardProcessInitiationMessage device msg now = some device' ↔
      device.peer.valid = true ∧
      cryptoEqual (wireguardX25519 device.privateKey msg.ephemeral).1 zeroKey = false ∧
      ¬ device.peer.lastInitiationRx - now < 1000 / 2 ∧
      ∃ t, device.peer.greatestTimestamp < t ∧
        msg.encStatic =
          ((device.responderSecrets msg.ephemeral).seal device.peer.publicKey t).encStatic ∧
        msg.encTimestamp =
          ((device.responderSecrets msg.ephemeral).seal device.peer.publicKey t).encTimestamp ∧
        device' = device.initiated msg
          ((device.responderSecrets msg.ephemeral).seal device.peer.publicKey t) t now := by
  simp only [wireguardProcessInitiationMessage, guard, Option.bind_eq_bind, Option.bind_eq_some_iff,
    Option.pure_def, Option.some.injEq, chacha20poly1305Decrypt_eq_some_iff, Bool.not_eq_false',
    decide_eq_true_eq, decide_eq_false_iff_not]
  constructor
  · rintro ⟨_, nonzero, s, static, _, known, t, time, _, new, rfl⟩
    split at nonzero
    case isFalse => cases nonzero
    case isTrue es =>
      split at known
      case isFalse => cases known
      case isTrue here =>
        split at new
        case isFalse => cases new
        case isTrue later =>
          obtain ⟨valid, rfl⟩ := here
          have sealed : msg.encTimestamp = ((device.responderSecrets msg.ephemeral).seal
              device.peer.publicKey t).encTimestamp := by
            simp only [InitiationSecrets.seal, WireguardDevice.responderSecrets]
            rw [← static]
            exact time
          refine ⟨valid, es, later.2, t, later.1, ?_, sealed, ?_⟩
          · simp only [InitiationSecrets.seal, WireguardDevice.responderSecrets]
            exact static
          · simp only [WireguardDevice.initiated, InitiationSecrets.seal,
              WireguardDevice.responderSecrets]
            rw [← static, ← time]
  · rintro ⟨valid, es, soon, t, later, static, time, rfl⟩
    simp only [InitiationSecrets.seal, WireguardDevice.responderSecrets] at static time
    rw [← static] at time
    refine ⟨(), if_pos es, device.peer.publicKey, static, (), if_pos ⟨valid, rfl⟩, t, time, (),
      if_pos ⟨later, soon⟩, ?_⟩
    simp only [WireguardDevice.initiated, InitiationSecrets.seal, WireguardDevice.responderSecrets]
    rw [← static, ← time]

/-- A message accepted leaves the session keys and the device's own keys alone. -/
theorem WireguardDevice.initiated_keypair (device : WireguardDevice)
    (msg : MessageHandshakeInitiation) (sealed : InitiationSeal) (timestamp : Bytes)
    (now : UInt32) :
    (device.initiated msg sealed timestamp now).peer.keypair = device.peer.keypair := rfl

/-- What the initiator shares with its peer, under an ephemeral private key. -/
def WireguardDevice.initiatorSecrets (device : WireguardDevice)
    (ephemeralPrivate ephemeral : Bytes) : InitiationSecrets :=
  ⟨device.peer.publicKey, ephemeral, (wireguardX25519 ephemeralPrivate device.peer.publicKey).1,
    device.peer.publicKeyDh⟩

/-- A message the initiator makes seals its own public key and the time, and the handshake keeps
what the seal gives. -/
theorem wireguardCreateHandshakeInitiation_some {device device' : WireguardDevice}
    {env : InitiationEnv} {msg : MessageHandshakeInitiation}
    (h : wireguardCreateHandshakeInitiation device env = (device', some msg)) :
    ∃ sealed, sealed = (device.initiatorSecrets (wireguardClampPrivateKey env.random)
        msg.ephemeral).seal device.publicKey (wireguardTai64nNow env.bootCount env.stampNow) ∧
      wireguardGeneratePublicKey (wireguardClampPrivateKey env.random) = some msg.ephemeral ∧
      msg.encStatic = sealed.encStatic ∧ msg.encTimestamp = sealed.encTimestamp ∧
      msg.sender = wireguardGenerateUniqueIndex device env.words ∧
      msg.mac1 = wireguardMac msg.body device.peer.labelMac1Key ∧
      msg.mac2 = mac2Of device.peer (msg.body ++ msg.mac1) env.cookieNow ∧
      device' = { device with
        peer.handshake.chainingKey := sealed.chainingKey
        peer.handshake.hash := sealed.hash
        peer.handshake.ephemeralPrivate := wireguardClampPrivateKey env.random
        peer.handshake.valid := true
        peer.handshake.initiator := true
        peer.handshake.localIndex := msg.sender } := by
  rw [wireguardCreateHandshakeInitiation] at h
  dsimp only at h
  split at h
  case h_1 => cases h
  case h_2 ephemeral generated =>
    split at h
    case isTrue => cases h
    case isFalse =>
      obtain ⟨rfl, made⟩ := Prod.mk.inj h
      obtain rfl := Option.some.inj made
      refine ⟨_, rfl, generated, ?_, ?_, rfl, rfl, rfl, ?_⟩
      · simp only [InitiationSecrets.seal, WireguardDevice.initiatorSecrets]
      · simp only [InitiationSecrets.seal, WireguardDevice.initiatorSecrets]
      · simp only [InitiationSecrets.seal, WireguardDevice.initiatorSecrets]

/-! ### The second message -/

/-- What a response is sealed with: hash and chain after the initiation, the ephemeral public key
of the responder, the secrets of it with the initiator's ephemeral and static keys, and the
preshared key. -/
structure ResponseSecrets where
  hash : Bytes
  chainingKey : Bytes
  ephemeral : Bytes
  ee : Bytes
  se : Bytes
  psk : Bytes

/-- What sealing a response gives. The initiator does not put the seal into its hash. -/
structure ResponseSeal where
  encEmpty : Bytes
  hash : Bytes
  chainingKey : Bytes

/-- Nothing is encrypted, under everything. -/
def ResponseSecrets.seal (s : ResponseSecrets) : ResponseSeal :=
  let chainingKey := wireguardKdf1 (wireguardKdf1 (wireguardKdf1 s.chainingKey s.ephemeral) s.ee) s.se
  let keys := wireguardKdf3 chainingKey s.psk
  let hash := wireguardMixHash (wireguardMixHash s.hash s.ephemeral) keys.2.1
  ⟨chacha20poly1305Encrypt [] hash 0 keys.2.2, hash, keys.1⟩

/-- What the initiator shares with the sender of a response. -/
def WireguardDevice.awaitedSecrets (device : WireguardDevice) (ephemeral : Bytes) :
    ResponseSecrets where
  hash := device.peer.handshake.hash
  chainingKey := device.peer.handshake.chainingKey
  ephemeral := ephemeral
  ee := (wireguardX25519 device.peer.handshake.ephemeralPrivate ephemeral).1
  se := (wireguardX25519 device.privateKey ephemeral).1
  psk := device.peer.presharedKey

/-- What the responder shares with its peer, under an ephemeral private key. -/
def WireguardDevice.answerSecrets (device : WireguardDevice)
    (ephemeralPrivate ephemeral : Bytes) : ResponseSecrets where
  hash := device.peer.handshake.hash
  chainingKey := device.peer.handshake.chainingKey
  ephemeral := ephemeral
  ee := (wireguardX25519 ephemeralPrivate device.peer.handshake.remoteEphemeral).1
  se := (wireguardX25519 ephemeralPrivate device.peer.publicKey).1
  psk := device.peer.presharedKey

/-- The device after a response with this seal. -/
def WireguardDevice.responded (device : WireguardDevice) (msg : MessageHandshakeResponse)
    (sealed : ResponseSeal) : WireguardDevice :=
  { device with
    peer.handshake.remoteEphemeral := msg.ephemeral
    peer.handshake.hash := sealed.hash
    peer.handshake.chainingKey := sealed.chainingKey
    peer.handshake.remoteIndex := msg.sender }

/-- The initiator accepts the response that is sealed with its secrets, and no other. A response
is an encryption of no bytes, or else one of more bytes than it has room for. -/
theorem wireguardProcessHandshakeResponse_eq_some_iff (device device' : WireguardDevice)
    (msg : MessageHandshakeResponse) (hlen : msg.encEmpty.length = 16) :
    wireguardProcessHandshakeResponse device msg = some device' ↔
      device.peer.handshake.valid = true ∧ device.peer.handshake.initiator = true ∧
      cryptoEqual (wireguardX25519 device.peer.handshake.ephemeralPrivate msg.ephemeral).1
        zeroKey = false ∧
      cryptoEqual (wireguardX25519 device.privateKey msg.ephemeral).1 zeroKey = false ∧
      msg.encEmpty = (device.awaitedSecrets msg.ephemeral).seal.encEmpty ∧
      device' = device.responded msg (device.awaitedSecrets msg.ephemeral).seal := by
  simp only [wireguardProcessHandshakeResponse, guard, Option.bind_eq_bind,
    Option.bind_eq_some_iff, Option.pure_def, Option.some.injEq,
    chacha20poly1305Decrypt_eq_some_iff]
  constructor
  · rintro ⟨_, ready, _, ee, _, se, m, empty, rfl⟩
    split at ready
    case isFalse => cases ready
    case isTrue waiting =>
      split at ee
      case isFalse => cases ee
      case isTrue eeNonzero =>
        split at se
        case isFalse => cases se
        case isTrue seNonzero =>
          have nothing : m = [] := by
            apply List.eq_nil_of_length_eq_zero
            have := congrArg List.length empty
            rw [hlen, length_chacha20poly1305Encrypt] at this
            omega
          subst nothing
          refine ⟨waiting.1, waiting.2, eeNonzero, seNonzero, ?_, ?_⟩
          · simp only [ResponseSecrets.seal, WireguardDevice.awaitedSecrets]
            exact empty
          · simp only [ResponseSecrets.seal, WireguardDevice.awaitedSecrets,
              WireguardDevice.responded]
  · rintro ⟨valid, initiator, ee, se, empty, rfl⟩
    simp only [ResponseSecrets.seal, WireguardDevice.awaitedSecrets] at empty
    refine ⟨(), if_pos ⟨valid, initiator⟩, (), if_pos ee, (), if_pos se, [], empty, ?_⟩
    simp only [ResponseSecrets.seal, WireguardDevice.awaitedSecrets, WireguardDevice.responded]

/-- A response the responder makes is sealed with its secrets, and the handshake keeps the chain. -/
theorem wireguardCreateHandshakeResponse_some {device device' : WireguardDevice}
    {env : ResponseEnv} {msg : MessageHandshakeResponse}
    (h : wireguardCreateHandshakeResponse device env = (device', some msg)) :
    ∃ sealed, sealed = (device.answerSecrets (wireguardClampPrivateKey env.random)
        msg.ephemeral).seal ∧
      wireguardGeneratePublicKey (wireguardClampPrivateKey env.random) = some msg.ephemeral ∧
      device.peer.handshake.valid = true ∧ device.peer.handshake.initiator = false ∧
      msg.encEmpty = sealed.encEmpty ∧
      msg.sender = wireguardGenerateUniqueIndex device env.words ∧
      msg.receiver = device.peer.handshake.remoteIndex ∧
      msg.mac1 = wireguardMac msg.body device.peer.labelMac1Key ∧
      msg.mac2 = mac2Of device.peer (msg.body ++ msg.mac1) env.cookieNow ∧
      device' = { device with
        peer.handshake.chainingKey := sealed.chainingKey
        peer.handshake.hash := wireguardMixHash sealed.hash sealed.encEmpty
        peer.handshake.ephemeralPrivate := wireguardClampPrivateKey env.random
        peer.handshake.localIndex := msg.sender } := by
  rw [wireguardCreateHandshakeResponse] at h
  dsimp only at h
  split at h
  case isFalse => cases h
  case isTrue ready =>
    split at h
    case h_1 => cases h
    case h_2 ephemeral generated =>
      split at h
      case isTrue => cases h
      case isFalse =>
        split at h
        case isTrue => cases h
        case isFalse =>
          obtain ⟨rfl, made⟩ := Prod.mk.inj h
          obtain rfl := Option.some.inj made
          refine ⟨_, rfl, generated, ready.1, ready.2, ?_, rfl, rfl, rfl, rfl, ?_⟩
          · simp only [ResponseSecrets.seal, WireguardDevice.answerSecrets]
          · simp only [ResponseSecrets.seal, WireguardDevice.answerSecrets]

/-! ### What a message that is made leaves alone -/

/-- Whether a message comes of it or not, making one writes the handshake only. -/
theorem wireguardCreateHandshakeInitiation_frame (device : WireguardDevice)
    (env : InitiationEnv) :
    ∃ handshake, (wireguardCreateHandshakeInitiation device env).1 =
      { device with peer.handshake := handshake } := by
  rw [wireguardCreateHandshakeInitiation]
  dsimp only
  split
  · exact ⟨_, rfl⟩
  · split
    · exact ⟨_, rfl⟩
    · exact ⟨_, rfl⟩

theorem wireguardCreateHandshakeResponse_frame (device : WireguardDevice) (env : ResponseEnv) :
    ∃ handshake, (wireguardCreateHandshakeResponse device env).1 =
      { device with peer.handshake := handshake } := by
  rw [wireguardCreateHandshakeResponse]
  dsimp only
  split
  case isFalse => exact ⟨_, rfl⟩
  case isTrue =>
    split
    · exact ⟨_, rfl⟩
    · split
      · exact ⟨_, rfl⟩
      · split
        · exact ⟨_, rfl⟩
        · exact ⟨_, rfl⟩

end Molewire
