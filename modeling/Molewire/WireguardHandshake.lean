/-
# WireGuard: the handshake

The messages of `wireguard.h` as their bytes, and the functions of `wireguard.c`
that make and take them. What is made of a message received is kept in locals
until the message has proved good, so those functions either change the device or
leave it as it was. The functions that make a message write the handshake as they
go, and leave it half written where the key exchange fails.
-/

import Molewire.HandshakeTime
import Molewire.Wireguard

namespace Molewire

open ByteBuffer

/-! ### Messages -/

/-- `MESSAGE_INVALID` and the four types. -/
inductive MessageType | invalid | handshakeInitiation | handshakeResponse | cookieReply | transportData
  deriving DecidableEq, Repr

/-- `wireguard_get_message_type`. -/
def wireguardGetMessageType (data : Bytes) : MessageType :=
  if 4 ≤ data.length ∧ byte data 1 = 0 ∧ byte data 2 = 0 ∧ byte data 3 = 0 then
    if byte data 0 = 1 then if data.length = 148 then .handshakeInitiation else .invalid
    else if byte data 0 = 2 then if data.length = 92 then .handshakeResponse else .invalid
    else if byte data 0 = 3 then if data.length = 64 then .cookieReply else .invalid
    else if byte data 0 = 4 then if 16 + 16 ≤ data.length then .transportData else .invalid
    else .invalid
  else .invalid

/-- `struct message_handshake_initiation`, without the reserved bytes. -/
structure MessageHandshakeInitiation where
  sender : UInt32
  ephemeral : Bytes
  encStatic : Bytes
  encTimestamp : Bytes
  mac1 : Bytes
  mac2 : Bytes

namespace MessageHandshakeInitiation

/-- The bytes that `mac1` covers. -/
def body (m : MessageHandshakeInitiation) : Bytes :=
  [1, 0, 0, 0] ++ u32to8Little m.sender ++ m.ephemeral ++ m.encStatic ++ m.encTimestamp

/-- The message in memory. -/
def toBytes (m : MessageHandshakeInitiation) : Bytes := m.body ++ m.mac1 ++ m.mac2

/-- The members of 148 bytes. -/
def ofBytes (data : Bytes) : MessageHandshakeInitiation where
  sender := u8to32Little data 4
  ephemeral := span data 8 32
  encStatic := span data 40 48
  encTimestamp := span data 88 28
  mac1 := span data 116 16
  mac2 := span data 132 16

end MessageHandshakeInitiation

/-- `struct message_handshake_response`, without the reserved bytes. -/
structure MessageHandshakeResponse where
  sender : UInt32
  receiver : UInt32
  ephemeral : Bytes
  encEmpty : Bytes
  mac1 : Bytes
  mac2 : Bytes

namespace MessageHandshakeResponse

/-- The bytes that `mac1` covers. -/
def body (m : MessageHandshakeResponse) : Bytes :=
  [2, 0, 0, 0] ++ u32to8Little m.sender ++ u32to8Little m.receiver ++ m.ephemeral ++ m.encEmpty

/-- The message in memory. -/
def toBytes (m : MessageHandshakeResponse) : Bytes := m.body ++ m.mac1 ++ m.mac2

/-- The members of 92 bytes. -/
def ofBytes (data : Bytes) : MessageHandshakeResponse where
  sender := u8to32Little data 4
  receiver := u8to32Little data 8
  ephemeral := span data 12 32
  encEmpty := span data 44 16
  mac1 := span data 60 16
  mac2 := span data 76 16

end MessageHandshakeResponse

/-- `struct message_cookie_reply`, without the reserved bytes. -/
structure MessageCookieReply where
  receiver : UInt32
  nonce : Bytes
  encCookie : Bytes

namespace MessageCookieReply

/-- The message in memory. -/
def toBytes (m : MessageCookieReply) : Bytes :=
  [3, 0, 0, 0] ++ u32to8Little m.receiver ++ m.nonce ++ m.encCookie

/-- The members of 64 bytes. -/
def ofBytes (data : Bytes) : MessageCookieReply where
  receiver := u8to32Little data 4
  nonce := span data 8 24
  encCookie := span data 32 32

end MessageCookieReply

/-! ### Cookies -/

/-- What `generate_peer_cookie` may ask the platform for. -/
structure CookieEnv where
  expiredNow : UInt32
  random : Bytes
  secretNow : UInt32
  deriving Inhabited

/-- `generate_peer_cookie`, with `generate_cookie_secret` where the secret is too old. -/
def generatePeerCookie (device : WireguardDevice) (sourceAddrPort : Bytes) (env : CookieEnv) :
    WireguardDevice × Bytes :=
  let device :=
    if wireguardExpired env.expiredNow device.cookieSecretMillis cookieSecretMaxAge then
      { device with cookieSecret := env.random, cookieSecretMillis := env.secretNow }
    else device
  (device, wireguardMac sourceAddrPort device.cookieSecret)

/-- `wireguard_check_mac1`. -/
def wireguardCheckMac1 (device : WireguardDevice) (data mac1 : Bytes) : Bool :=
  cryptoEqual (wireguardMac data device.labelMac1Key) mac1

/-- `wireguard_check_mac2`. -/
def wireguardCheckMac2 (device : WireguardDevice) (data sourceAddrPort mac2 : Bytes)
    (env : CookieEnv) : WireguardDevice × Bool :=
  let cookie := generatePeerCookie device sourceAddrPort env
  (cookie.1, cryptoEqual (wireguardMac data cookie.2) mac2)

/-- `wireguard_create_cookie_reply`, with the 24 random bytes of its nonce. -/
def wireguardCreateCookieReply (device : WireguardDevice) (mac1 : Bytes) (index : UInt32)
    (sourceAddrPort nonce : Bytes) (env : CookieEnv) : WireguardDevice × MessageCookieReply :=
  let cookie := generatePeerCookie device sourceAddrPort env
  (cookie.1, {
    receiver := index
    nonce := nonce
    encCookie := xchacha20poly1305Encrypt cookie.2 mac1 nonce device.labelCookieKey })

/-- `wireguard_process_cookie_message`, where it succeeds. -/
def wireguardProcessCookieMessage (device : WireguardDevice) (src : MessageCookieReply)
    (now : UInt32) : Option WireguardDevice := do
  guard device.peer.handshakeMac1Valid
  let cookie ← xchacha20poly1305Decrypt src.encCookie device.peer.handshakeMac1 src.nonce
    device.peer.labelCookieKey
  return { device with
    peer.cookie := cookie
    peer.cookieMillis := now
    peer.handshakeMac1Valid := false }

/-- `mac2` of a message: over what stands in front of it if the peer has sent a cookie that is not
too old, else zeros. -/
def mac2Of (peer : WireguardPeer) (message : Bytes) (now : UInt32) : Bytes :=
  if peer.cookieMillis = 0 ∨ wireguardExpired now peer.cookieMillis cookieSecretMaxAge then
    List.replicate 16 0
  else wireguardMac message peer.cookie

/-! ### Initiation -/

/-- What the making of an initiation takes from the platform. -/
structure InitiationEnv where
  random : Bytes
  bootCount : UInt32
  stampNow : UInt32
  words : RandomWords
  cookieNow : UInt32
  deriving Inhabited

/-- `wireguard_create_handshake_initiation`. -/
def wireguardCreateHandshakeInitiation (device : WireguardDevice) (env : InitiationEnv) :
    WireguardDevice × Option MessageHandshakeInitiation :=
  let peer := device.peer
  let handshake := { peer.handshake with
    chainingKey := constructionHash
    hash := wireguardMixHash identifierHash peer.publicKey
    ephemeralPrivate := wireguardClampPrivateKey env.random }
  match wireguardGeneratePublicKey handshake.ephemeralPrivate with
  | none => ({ device with peer.handshake := handshake }, none)
  | some ephemeral =>
    let handshake := { handshake with
      chainingKey := wireguardKdf1 handshake.chainingKey ephemeral
      hash := wireguardMixHash handshake.hash ephemeral }
    let dhCalculation := (wireguardX25519 handshake.ephemeralPrivate peer.publicKey).1
    if cryptoEqual dhCalculation zeroKey then ({ device with peer.handshake := handshake }, none)
    else
      let keys := wireguardKdf2 handshake.chainingKey dhCalculation
      let encStatic := chacha20poly1305Encrypt device.publicKey handshake.hash 0 keys.2
      let handshake := { handshake with
        chainingKey := keys.1
        hash := wireguardMixHash handshake.hash encStatic }
      let keys := wireguardKdf2 handshake.chainingKey peer.publicKeyDh
      let timestamp := wireguardTai64nNow env.bootCount env.stampNow
      let encTimestamp := chacha20poly1305Encrypt timestamp handshake.hash 0 keys.2
      let sender := wireguardGenerateUniqueIndex device env.words
      let handshake := { handshake with
        chainingKey := keys.1
        hash := wireguardMixHash handshake.hash encTimestamp
        valid := true
        initiator := true
        localIndex := sender }
      let dst : MessageHandshakeInitiation :=
        ⟨sender, ephemeral, encStatic, encTimestamp, [], []⟩
      let dst := { dst with mac1 := wireguardMac dst.body peer.labelMac1Key }
      let dst := { dst with mac2 := mac2Of peer (dst.body ++ dst.mac1) env.cookieNow }
      ({ device with peer.handshake := handshake }, some dst)

/-- `wireguard_process_initiation_message`, where it finds the peer. The age it limits the rate by
is taken the wrong way round. -/
def wireguardProcessInitiationMessage (device : WireguardDevice)
    (msg : MessageHandshakeInitiation) (now : UInt32) : Option WireguardDevice := do
  let hash := wireguardMixHash identifierHash device.publicKey
  let chainingKey := wireguardKdf1 constructionHash msg.ephemeral
  let hash := wireguardMixHash hash msg.ephemeral
  let dhCalculation := (wireguardX25519 device.privateKey msg.ephemeral).1
  guard (cryptoEqual dhCalculation zeroKey = false)
  let keys := wireguardKdf2 chainingKey dhCalculation
  let s ← chacha20poly1305Decrypt msg.encStatic hash 0 keys.2
  let hash := wireguardMixHash hash msg.encStatic
  -- `peer_lookup_by_pubkey`
  guard (device.peer.valid ∧ device.peer.publicKey = s)
  let keys := wireguardKdf2 keys.1 device.peer.publicKeyDh
  let t ← chacha20poly1305Decrypt msg.encTimestamp hash 0 keys.2
  let hash := wireguardMixHash hash msg.encTimestamp
  let replay := !decide (device.peer.greatestTimestamp < t)
  let rateLimit := decide (device.peer.lastInitiationRx - now < 1000 / 2)
  guard (replay = false ∧ rateLimit = false)
  return { device with
    peer.lastInitiationRx := now
    peer.greatestTimestamp := t
    peer.handshake.remoteEphemeral := msg.ephemeral
    peer.handshake.hash := hash
    peer.handshake.chainingKey := keys.1
    peer.handshake.remoteIndex := msg.sender
    peer.handshake.valid := true
    peer.handshake.initiator := false }

/-! ### Response -/

/-- What the making of a response takes from the platform. -/
structure ResponseEnv where
  random : Bytes
  words : RandomWords
  cookieNow : UInt32
  deriving Inhabited

/-- `wireguard_create_handshake_response`. -/
def wireguardCreateHandshakeResponse (device : WireguardDevice) (env : ResponseEnv) :
    WireguardDevice × Option MessageHandshakeResponse :=
  let peer := device.peer
  let handshake := peer.handshake
  if handshake.valid ∧ handshake.initiator = false then
    let handshake := { handshake with
      ephemeralPrivate := wireguardClampPrivateKey env.random }
    match wireguardGeneratePublicKey handshake.ephemeralPrivate with
    | none => ({ device with peer.handshake := handshake }, none)
    | some ephemeral =>
      let handshake := { handshake with
        chainingKey := wireguardKdf1 handshake.chainingKey ephemeral
        hash := wireguardMixHash handshake.hash ephemeral }
      let dhCalculation :=
        (wireguardX25519 handshake.ephemeralPrivate handshake.remoteEphemeral).1
      if cryptoEqual dhCalculation zeroKey then ({ device with peer.handshake := handshake }, none)
      else
        let handshake := { handshake with
          chainingKey := wireguardKdf1 handshake.chainingKey dhCalculation }
        let dhCalculation := (wireguardX25519 handshake.ephemeralPrivate peer.publicKey).1
        if cryptoEqual dhCalculation zeroKey then
          ({ device with peer.handshake := handshake }, none)
        else
          let handshake := { handshake with
            chainingKey := wireguardKdf1 handshake.chainingKey dhCalculation }
          let keys := wireguardKdf3 handshake.chainingKey peer.presharedKey
          let hash := wireguardMixHash handshake.hash keys.2.1
          let encEmpty := chacha20poly1305Encrypt [] hash 0 keys.2.2
          let sender := wireguardGenerateUniqueIndex device env.words
          let handshake := { handshake with
            chainingKey := keys.1
            hash := wireguardMixHash hash encEmpty
            localIndex := sender }
          let dst : MessageHandshakeResponse :=
            ⟨sender, handshake.remoteIndex, ephemeral, encEmpty, [], []⟩
          let dst := { dst with mac1 := wireguardMac dst.body peer.labelMac1Key }
          let dst := { dst with mac2 := mac2Of peer (dst.body ++ dst.mac1) env.cookieNow }
          ({ device with peer.handshake := handshake }, some dst)
  else (device, none)

/-- `wireguard_process_handshake_response`, where it succeeds. -/
def wireguardProcessHandshakeResponse (device : WireguardDevice)
    (src : MessageHandshakeResponse) : Option WireguardDevice := do
  let handshake := device.peer.handshake
  guard (handshake.valid ∧ handshake.initiator)
  let chainingKey := wireguardKdf1 handshake.chainingKey src.ephemeral
  let hash := wireguardMixHash handshake.hash src.ephemeral
  let dhCalculation := (wireguardX25519 handshake.ephemeralPrivate src.ephemeral).1
  guard (cryptoEqual dhCalculation zeroKey = false)
  let chainingKey := wireguardKdf1 chainingKey dhCalculation
  let dhCalculation := (wireguardX25519 device.privateKey src.ephemeral).1
  guard (cryptoEqual dhCalculation zeroKey = false)
  let chainingKey := wireguardKdf1 chainingKey dhCalculation
  let keys := wireguardKdf3 chainingKey device.peer.presharedKey
  let hash := wireguardMixHash hash keys.2.1
  let _ ← chacha20poly1305Decrypt src.encEmpty hash 0 keys.2.2
  return { device with
    peer.handshake.remoteEphemeral := src.ephemeral
    peer.handshake.hash := hash
    peer.handshake.chainingKey := keys.1
    peer.handshake.remoteIndex := src.sender }

/-! ### Setup -/

/-- A peer of zeros. -/
def WireguardPeer.zeroed : WireguardPeer := {}

/-- `wireguard_peer_init`: the peer afterwards, which is valid where it succeeds. -/
def wireguardPeerInit (device : WireguardDevice) (publicKey : Bytes)
    (presharedKey : Option Bytes) : WireguardPeer :=
  if device.valid then
    let peer : WireguardPeer :=
      { publicKey := publicKey, presharedKey := presharedKey.getD zeroKey }
    let result := wireguardX25519 device.privateKey publicKey
    if result.2 then peer
    else
      { peer with
        publicKeyDh := result.1
        labelMac1Key := wireguardMacKey publicKey labelMac1
        labelCookieKey := wireguardMacKey publicKey labelCookie
        valid := true }
  else .zeroed

/-- `wireguard_device_init` on a cleared device, with the random bytes of its cookie secret. -/
def wireguardDeviceInit (privateKey secret : Bytes) (now : UInt32) : WireguardDevice :=
  match wireguardGeneratePublicKey privateKey with
  | none => {}
  | some publicKey =>
    { privateKey := wireguardClampPrivateKey privateKey
      publicKey := publicKey
      valid := true
      cookieSecret := secret
      cookieSecretMillis := now
      labelMac1Key := wireguardMacKey publicKey labelMac1
      labelCookieKey := wireguardMacKey publicKey labelCookie }

end Molewire
