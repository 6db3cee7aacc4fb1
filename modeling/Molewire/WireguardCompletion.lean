/-
# WireGuard: completion

Two devices that are set up with each other's public keys can always make a
session: none of their key exchanges comes out zero, so the initiator always has
an initiation to send, and the responder answers it unless it takes the time for
old or the initiation for too soon. The session that both start is then the same.
-/

import Molewire.KeyText
import Molewire.WireguardAgreement
import Molewire.X25519Order

namespace Molewire

open ByteBuffer

/-! ### Setting up -/

/-- The device has a key pair, and its peer a public key. -/
structure Configured (a : WireguardDevice) (k key peerKey psk : Bytes) : Prop where
  privateKey : a.privateKey = wireguardClampPrivateKey k
  publicKey : a.publicKey = key
  ownMac : a.labelMac1Key = wireguardMacKey a.publicKey labelMac1
  known : a.peer.valid = true
  peerKey : a.peer.publicKey = peerKey
  peerDh : a.peer.publicKeyDh = (wireguardX25519 a.privateKey a.peer.publicKey).1
  peerMac : a.peer.labelMac1Key = wireguardMacKey a.peer.publicKey labelMac1
  psk : a.peer.presharedKey = psk
  cookie : a.peer.cookie.length = 16

theorem Configured.paired {a b : WireguardDevice} {k k' peerKey psk : Bytes} (hk : k.length = 32)
    (h : Configured a k (wireguardX25519 k basepoint).1 peerKey psk)
    (h' : Configured b k' peerKey (wireguardX25519 k basepoint).1 psk) : Paired a b := by
  have peerKey : a.peer.publicKey = b.publicKey := h.peerKey.trans h'.publicKey.symm
  refine ⟨h.known, ?_, peerKey, ?_, h.ownMac, ?_, h.psk.trans h'.psk.symm, h.cookie⟩
  · rw [h.privateKey, h.publicKey]
    exact wireguardGeneratePublicKey_clamp hk
  · rw [h.peerDh, peerKey]
  · rw [h.peerMac, peerKey]

theorem wireguardDeviceInit_eq {k : Bytes} (hk : k.length = 32) (set : k ≠ zeroKey)
    (secret : Bytes) (now : UInt32) :
    wireguardDeviceInit k secret now =
      { privateKey := wireguardClampPrivateKey k
        publicKey := (wireguardX25519 k basepoint).1
        valid := true
        cookieSecret := secret
        cookieSecretMillis := now
        labelMac1Key := wireguardMacKey (wireguardX25519 k basepoint).1 labelMac1
        labelCookieKey := wireguardMacKey (wireguardX25519 k basepoint).1 labelCookie } := by
  rw [wireguardDeviceInit, wireguardGeneratePublicKey_eq hk, if_neg set]

/-- The first address that is allowed takes the first place. -/
theorem peerAddIp_first {peer : WireguardPeer} (none : peer.allowedSourceIps = #v[{}, {}])
    (ip mask : IpAddr) :
    (peerAddIp peer ip mask).1 =
      { peer with allowedSourceIps := #v[⟨true, ip, mask⟩, {}] } := by
  obtain ⟨_, _⟩ := peer
  obtain rfl := none
  rfl

/-- A device that is initialised and given a peer by its public key. The peer is as new. -/
theorem configured_addPeer {k k' : Bytes} (hk : k.length = 32) (hk' : k'.length = 32)
    (set : k ≠ zeroKey) (secret : Bytes) (now : UInt32) {p : WireguardifPeer}
    (known : base64Decode 32 p.publicKey = some (wireguardX25519 k' basepoint).1) :
    Configured (wireguardifAddPeer (wireguardDeviceInit k secret now) p).1 k
        (wireguardX25519 k basepoint).1 (wireguardX25519 k' basepoint).1
        (p.presharedKey.getD zeroKey) ∧
      (wireguardifAddPeer (wireguardDeviceInit k secret now) p).1.peer.greatestTimestamp =
        p.greatestTimestamp ∧
      (wireguardifAddPeer (wireguardDeviceInit k secret now) p).1.peer.lastInitiationRx = 0 ∧
      (wireguardifAddPeer (wireguardDeviceInit k secret now) p).1.peer.allowedSourceIps =
        #v[⟨true, p.allowedIp, p.allowedMask⟩, {}] := by
  have length := @length_wireguardX25519 basepoint rfl k'
  have shared := (wireguardX25519_shared (length_clamp hk) hk').2
  rw [wireguardDeviceInit_eq hk set, wireguardifAddPeer, known]
  generalize (wireguardX25519 k' basepoint).1 = peerKey at length shared ⊢
  generalize (wireguardX25519 k basepoint).1 = key
  dsimp only
  rw [if_pos length, if_neg (fun h => Bool.false_ne_true h.1), if_neg Bool.false_ne_true,
    wireguardPeerInit]
  dsimp only
  rw [if_pos rfl, shared]
  rw [if_neg Bool.false_ne_true, if_pos rfl]
  dsimp only
  rw [peerAddIp_first rfl]
  refine ⟨?_, rfl, rfl, rfl⟩
  constructor
  case cookie => exact List.length_replicate
  all_goals dsimp only

/-- Two devices that were set up with each other's public keys and one preshared key are paired,
whatever each has done since, but for removing its peer. -/
theorem paired_setUp {k k' : Bytes} (hk : k.length = 32) (hk' : k'.length = 32)
    (set : k ≠ zeroKey) (set' : k' ≠ zeroKey) (secret secret' : Bytes) (now now' : UInt32)
    {p p' : WireguardifPeer}
    (known : base64Decode 32 p.publicKey = some (wireguardX25519 k' basepoint).1)
    (known' : base64Decode 32 p'.publicKey = some (wireguardX25519 k basepoint).1)
    (psk : p.presharedKey.getD zeroKey = p'.presharedKey.getD zeroKey)
    {cs cs' : List WireguardifCall} (kept : ∀ c ∈ cs, c ≠ .removePeer)
    (kept' : ∀ c ∈ cs', c ≠ .removePeer) :
    let a := ((wireguardDeviceInit k secret now).calls (.addPeer p :: cs)).1
    let b := ((wireguardDeviceInit k' secret' now').calls (.addPeer p' :: cs')).1
    (Paired a b ∧ Paired b a) ∧ a.privateKey.length = 32 ∧ b.privateKey.length = 32 := by
  obtain ⟨ca, -, -, -⟩ := configured_addPeer hk hk' set secret now known
  obtain ⟨cb, -, -, -⟩ := configured_addPeer hk' hk set' secret' now' known'
  rw [← psk] at cb
  rw [WireguardDevice.calls, WireguardDevice.calls, WireguardDevice.call, WireguardDevice.call]
  generalize (wireguardifAddPeer (wireguardDeviceInit k secret now) p).1 = a at ca ⊢
  generalize (wireguardifAddPeer (wireguardDeviceInit k' secret' now') p').1 = b at cb ⊢
  intro a' b'
  obtain ⟨hab, hba⟩ := (ca.paired hk cb).calls (cb.paired hk' ca) kept
  refine ⟨(hba.calls hab kept').symm, ?_, ?_⟩
  · rw [WireguardDevice.calls_privateKey, ca.privateKey]
    exact length_clamp hk
  · rw [WireguardDevice.calls_privateKey, cb.privateKey]
    exact length_clamp hk'

/-! ### No key exchange comes out zero -/

theorem cryptoEqual_shared {own k key : Bytes} (hown : own.length = 32) (hk : k.length = 32)
    (generated : wireguardGeneratePublicKey k = some key) :
    cryptoEqual (wireguardX25519 own key).1 zeroKey = false := by
  have length : (wireguardX25519 own key).1.length = zeroKey.length :=
    length_wireguardX25519 (length_of_generated generated) own
  have nonzero := (wireguardX25519_shared hown hk).1
  rw [← generated_eq generated] at nonzero
  exact Bool.eq_false_iff.mpr (mt (cryptoEqual_iff length).mp nonzero)

/-- An initiation to a peer whose public key was generated is always made. -/
theorem wireguardCreateHandshakeInitiation_made {a : WireguardDevice} {env : InitiationEnv}
    {k : Bytes} (random : env.random.length = 32) (hk : k.length = 32)
    (static : wireguardGeneratePublicKey k = some a.peer.publicKey) :
    ∃ a' msg, wireguardCreateHandshakeInitiation a env = (a', some msg) := by
  have nonzero := cryptoEqual_shared (length_clamp random) hk static
  rw [wireguardCreateHandshakeInitiation]
  dsimp only
  rw [wireguardGeneratePublicKey_clamp random]
  dsimp only
  rw [nonzero]
  exact ⟨_, _, rfl⟩

/-- An initiation that was taken from such a peer is always answered. -/
theorem wireguardCreateHandshakeResponse_made {b : WireguardDevice} {env : ResponseEnv}
    {e k : Bytes} (random : env.random.length = 32) (taken : b.peer.handshake.valid = true)
    (role : b.peer.handshake.initiator = false) (he : e.length = 32)
    (ephemeral : wireguardGeneratePublicKey e = some b.peer.handshake.remoteEphemeral)
    (hk : k.length = 32) (static : wireguardGeneratePublicKey k = some b.peer.publicKey) :
    ∃ b' msg, wireguardCreateHandshakeResponse b env = (b', some msg) := by
  have ee := cryptoEqual_shared (length_clamp random) he ephemeral
  have se := cryptoEqual_shared (length_clamp random) hk static
  rw [wireguardCreateHandshakeResponse]
  dsimp only
  rw [if_pos ⟨taken, role⟩, wireguardGeneratePublicKey_clamp random]
  dsimp only
  rw [ee, se]
  exact ⟨_, _, rfl⟩

/-! ### The handshake -/

/-- A handshake that is started sends an initiation to where the peer is. -/
theorem Paired.starts {a b : WireguardDevice} (hab : Paired a b) (hba : Paired b a)
    (hb : b.privateKey.length = 32) {env : StartEnv} (random : env.initiation.random.length = 32)
    (pbuf : env.pbuf = true) :
    ∃ made msg, wireguardCreateHandshakeInitiation a env.initiation = (made, some msg) ∧
      ∃ a', wireguardStartHandshake a env = (a', [.send msg.toBytes a.peer.ip a.peer.port]) ∧
        Paired a' b ∧ Paired b a' := by
  have static : wireguardGeneratePublicKey b.privateKey = some a.peer.publicKey := by
    rw [hab.peerKey]
    exact hba.own
  obtain ⟨made, msg, create⟩ := wireguardCreateHandshakeInitiation_made random hb static
  obtain ⟨_, -, -, -, -, -, -, -, frame⟩ := wireguardCreateHandshakeInitiation_some create
  refine ⟨made, msg, create, ?_⟩
  rw [wireguardStartHandshake, create]
  dsimp only
  rw [if_pos pbuf, frame]
  exact ⟨_, rfl, hab.of_longTerm hba rfl⟩

/-- The responder takes an initiation with a timestamp that is new, when it is not too soon. -/
theorem Paired.takes {a b made : WireguardDevice} (hab : Paired a b) (hba : Paired b a)
    (hb : b.privateKey.length = 32) {start : InitiationEnv} {msg : MessageHandshakeInitiation}
    (random : start.random.length = 32)
    (create : wireguardCreateHandshakeInitiation a start = (made, some msg)) {now : UInt32}
    (later : b.peer.greatestTimestamp < wireguardTai64nNow start.bootCount start.stampNow)
    (spaced : ¬ b.peer.lastInitiationRx - now < 1000 / 2) :
    wireguardCheckMac1 b (msg.toBytes.take 116) (span msg.toBytes 116 16) = true ∧
      ∃ sealed, wireguardProcessInitiationMessage b msg now =
        some (b.initiated msg sealed (wireguardTai64nNow start.bootCount start.stampNow) now) := by
  have sized := hab.sized_initiation create
  obtain ⟨sealed, seals, generated, static, timestamp, -, mac1, -, -⟩ :=
    wireguardCreateHandshakeInitiation_some create
  rw [initiatorSecrets_eq hab hba generated, ← hba.peerKey] at seals
  constructor
  · have stored : span msg.toBytes 116 16 = msg.mac1 :=
      congrArg MessageHandshakeInitiation.mac1 sized.ofBytes_toBytes
    rw [stored, sized.take_toBytes, mac1]
    exact hab.checkMac1 hba msg.body
  · refine ⟨sealed, (wireguardProcessInitiationMessage_eq_some_iff _ _ _ _).mpr ?_⟩
    refine ⟨hba.known, cryptoEqual_shared hb (length_clamp random) generated, spaced, _, later, ?_⟩
    rw [← seals]
    exact ⟨static, timestamp, rfl⟩

/-- The responder answers an initiation with a timestamp that is new, when it is not too soon. -/
theorem Paired.answers {a b made : WireguardDevice} (hab : Paired a b) (hba : Paired b a)
    (ha : a.privateKey.length = 32) (hb : b.privateKey.length = 32) {start : InitiationEnv}
    {msg : MessageHandshakeInitiation} (random : start.random.length = 32)
    (create : wireguardCreateHandshakeInitiation a start = (made, some msg)) {env : NetworkEnv}
    (random' : env.sendResponse.response.random.length = 32) (pbuf : env.sendResponse.pbuf = true)
    (later : b.peer.greatestTimestamp < wireguardTai64nNow start.bootCount start.stampNow)
    (spaced : ¬ b.peer.lastInitiationRx - env.initiationNow < 1000 / 2)
    (addr : IpAddr) (port : UInt16) :
    ∃ b' second sendingKey receivingKey, wireguardifNetworkRx b msg.toBytes addr port env =
      (b', [.session sendingKey receivingKey false, .send second addr port]) := by
  have sized := hab.sized_initiation create
  obtain ⟨-, -, generated, -⟩ := wireguardCreateHandshakeInitiation_some create
  obtain ⟨check, sealed, process⟩ := hab.takes hba hb random create later spaced
  generalize ht : ({ b.initiated msg sealed (wireguardTai64nNow start.bootCount start.stampNow)
    env.initiationNow with peer := (b.initiated msg sealed (wireguardTai64nNow start.bootCount
      start.stampNow) env.initiationNow).peer.updateAddr addr port } : WireguardDevice) = taken
  have ephemeral : taken.peer.handshake.remoteEphemeral = msg.ephemeral := by rw [← ht]; rfl
  have peerKey : taken.peer.publicKey = a.publicKey := by rw [← ht]; exact hba.peerKey
  obtain ⟨answer, packet, create'⟩ := wireguardCreateHandshakeResponse_made random'
    (b := taken) (by rw [← ht]; rfl) (by rw [← ht]; rfl) (length_clamp random)
    (by rw [ephemeral]; exact generated) ha (by rw [peerKey]; exact hab.own)
  obtain ⟨_, -, -, -, -, -, -, -, -, -, frame⟩ := wireguardCreateHandshakeResponse_some create'
  rw [wireguardifNetworkRx, sized.messageType]
  simp only [wireguardifCheckMessage_eq, sized.ofBytes_toBytes]
  rw [if_pos check, process]
  dsimp only
  rw [ht, wireguardifSendHandshakeResponse, create']
  dsimp only
  rw [startSession_effects, if_pos pbuf, frame, ← ht]
  exact ⟨_, _, _, _, rfl⟩

/-- What is taken is accepted as an initiation. -/
theorem Paired.accepts {a b made : WireguardDevice} (hab : Paired a b) (hba : Paired b a)
    (hb : b.privateKey.length = 32) {start : InitiationEnv} {msg : MessageHandshakeInitiation}
    (random : start.random.length = 32)
    (create : wireguardCreateHandshakeInitiation a start = (made, some msg)) {env : NetworkEnv}
    (later : b.peer.greatestTimestamp < wireguardTai64nNow start.bootCount start.stampNow)
    (spaced : ¬ b.peer.lastInitiationRx - env.initiationNow < 1000 / 2)
    (addr : IpAddr) (port : UInt16) :
    b.accepts (.networkRx msg.toBytes addr port env) =
      some (msg.toBytes, wireguardTai64nNow start.bootCount start.stampNow) := by
  have sized := hab.sized_initiation create
  obtain ⟨check, sealed, process⟩ := hab.takes hba hb random create later spaced
  rw [WireguardDevice.accepts, wireguardifCheckMessage_eq, if_pos ⟨sized.messageType, check⟩,
    sized.ofBytes_toBytes, process]
  rfl

/-- Between two devices that have each other's public keys a handshake always comes to a session:
the initiation is sent, the responder answers it if its timestamp is new and it is not too soon, and
the initiator starts the same session, whatever it did meanwhile, if that handshake is pending. The
key pairs of the two ends then match. -/
theorem handshake_completes {a b : WireguardDevice} (hab : Paired a b) (hba : Paired b a)
    (ha : a.privateKey.length = 32) (hb : b.privateKey.length = 32) {start : StartEnv}
    {env : NetworkEnv} (random : start.initiation.random.length = 32)
    (random' : env.sendResponse.response.random.length = 32) (pbuf : start.pbuf = true)
    (pbuf' : env.sendResponse.pbuf = true)
    (later : b.peer.greatestTimestamp <
      wireguardTai64nNow start.initiation.bootCount start.initiation.stampNow)
    (spaced : ¬ b.peer.lastInitiationRx - env.initiationNow < 1000 / 2)
    (addr : IpAddr) (port : UInt16) :
    ∃ a' first b' second sendingKey receivingKey,
      wireguardStartHandshake a start = (a', [.send first a.peer.ip a.peer.port]) ∧
      wireguardifNetworkRx b first addr port env =
        (b', [.session sendingKey receivingKey false, .send second addr port]) ∧
      (Paired a' b ∧ Paired b a') ∧
      ∀ waiting : WireguardDevice, Paired waiting b → Paired b waiting →
        waiting.peer.handshake = a'.peer.handshake → ∀ addr' port' env',
          let taken := wireguardifNetworkRx waiting second addr' port' env'
          (∃ kept, taken.2 = .session receivingKey sendingKey true :: kept) ∧
            (taken.1.peer.currKeypair.valid = true →
              Matched taken.1.peer.currKeypair b'.peer.nextKeypair) := by
  obtain ⟨made, msg, create, a', started, paired⟩ := hab.starts hba hb random pbuf
  obtain ⟨b', second, sendingKey, receivingKey, answered⟩ :=
    hab.answers hba ha hb random create random' pbuf' later spaced addr port
  refine ⟨a', msg.toBytes, b', second, sendingKey, receivingKey, started, answered, paired, ?_⟩
  intro waiting hwb hbw pending addr' port' env'
  exact (handshake_agrees hab hba hwb hbw started answered pending).2

/-- Two devices that are just set up, with the private keys eight and sixteen. -/
theorem handshake_completes_fresh :
    let peer (k : Bytes) : WireguardifPeer := ⟨base64Encode (wireguardX25519 k basepoint).1, none,
      List.replicate 12 0, .v4 Ip4.any, .v4 Ip4.any, .v4 Ip4.any, 51820, 0⟩
    let a := (wireguardifAddPeer (wireguardDeviceInit (8 :: List.replicate 31 0) zeroKey 0)
      (peer (16 :: List.replicate 31 0))).1
    let b := (wireguardifAddPeer (wireguardDeviceInit (16 :: List.replicate 31 0) zeroKey 0)
      (peer (8 :: List.replicate 31 0))).1
    let start : StartEnv := ⟨⟨zeroKey, 0, 0, default, 0⟩, true, 0⟩
    let env : NetworkEnv := { (default : NetworkEnv) with
      initiationNow := 1000, sendResponse := ⟨⟨zeroKey, default, 0⟩, 0, true⟩ }
    ∃ a' first b' second sendingKey receivingKey kept,
      wireguardStartHandshake a start = (a', [.send first a.peer.ip a.peer.port]) ∧
      wireguardifNetworkRx b first (.v4 Ip4.any) 51820 env =
        (b', [.session sendingKey receivingKey false, .send second (.v4 Ip4.any) 51820]) ∧
      (wireguardifNetworkRx a' second (.v4 Ip4.any) 51820 default).2 =
        .session receivingKey sendingKey true :: kept := by
  intro peer
  have known (k : Bytes) :
      base64Decode 32 (peer k).publicKey = some (wireguardX25519 k basepoint).1 := by
    have length := @length_wireguardX25519 basepoint rfl k
    dsimp only [peer]
    generalize (wireguardX25519 k basepoint).1 = key at length ⊢
    exact base64Decode_encode length.le
  obtain ⟨ca, -, -, -⟩ := configured_addPeer (k := 8 :: List.replicate 31 0) rfl rfl (by decide)
    zeroKey 0 (known (16 :: List.replicate 31 0))
  obtain ⟨cb, timestamp, last, -⟩ := configured_addPeer (k := 16 :: List.replicate 31 0) rfl rfl
    (by decide) zeroKey 0 (known (8 :: List.replicate 31 0))
  -- the two devices are set aside, so that nothing computes their keys
  generalize (wireguardifAddPeer (wireguardDeviceInit (8 :: List.replicate 31 0) zeroKey 0)
    (peer (16 :: List.replicate 31 0))).1 = a at ca ⊢
  generalize (wireguardifAddPeer (wireguardDeviceInit (16 :: List.replicate 31 0) zeroKey 0)
    (peer (8 :: List.replicate 31 0))).1 = b at cb timestamp last ⊢
  intro _ _ start env
  have ha : a.privateKey.length = 32 := by
    rw [ca.privateKey]
    rfl
  have hb : b.privateKey.length = 32 := by
    rw [cb.privateKey]
    rfl
  have later : b.peer.greatestTimestamp < wireguardTai64nNow 0 0 := by
    rw [timestamp]
    decide
  have spaced : ¬ b.peer.lastInitiationRx - 1000 < 1000 / 2 := by
    rw [last]
    decide
  obtain ⟨a', first, b', second, sendingKey, receivingKey, started, answered, paired, session⟩ :=
    @handshake_completes a b (ca.paired rfl cb) (cb.paired rfl ca) ha hb start env rfl rfl rfl rfl
      later spaced (.v4 Ip4.any) 51820
  obtain ⟨⟨kept, same⟩, -⟩ := session a' paired.1 paired.2 rfl (.v4 Ip4.any) 51820 default
  exact ⟨a', first, b', second, sendingKey, receivingKey, kept, started, answered, same⟩

end Molewire
