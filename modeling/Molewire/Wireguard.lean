/-
# WireGuard: state and primitives

The structures of `wireguard.h`, and of `wireguard.c` what the handshake and the
data path are made of: the keyed hashes, the key derivation, the replay check
and the moves of the three session keys of a peer. `WIREGUARD_MAX_PEERS` is 1,
so the device holds one peer and the loops over the peers look at it once. A
pointer to one of the peer's session keys is the name of its place, since what
it points to changes when the keys move.
-/

import Molewire.Blake2s
import Molewire.ChaCha20Poly1305
import Molewire.Ipv4
import Molewire.X25519

namespace Molewire

open ByteBuffer

/-! ### Constants -/

/-- `REJECT_AFTER_MESSAGES`. -/
def rejectAfterMessages : UInt64 := (0xFFFFFFFFFFFFFFFF : UInt64) - (1 : UInt64) <<< 13

/-- `REKEY_AFTER_MESSAGES`. -/
def rekeyAfterMessages : UInt64 := (1 : UInt64) <<< 60

/-- `REKEY_AFTER_TIME`. -/
def rekeyAfterTime : UInt32 := 120

/-- `REJECT_AFTER_TIME`. -/
def rejectAfterTime : UInt32 := 180

/-- `REKEY_TIMEOUT`. -/
def rekeyTimeout : UInt32 := 5

/-- `COOKIE_SECRET_MAX_AGE`. -/
def cookieSecretMaxAge : UInt32 := 120

/-- `CONSTRUCTION`. -/
def construction : Bytes := "Noise_IKpsk2_25519_ChaChaPoly_BLAKE2s".toList.map fun c => c.val.toUInt8

/-- `IDENTIFIER`. -/
def identifier : Bytes := "WireGuard v1 zx2c4 Jason@zx2c4.com".toList.map fun c => c.val.toUInt8

/-- `LABEL_MAC1`. -/
def labelMac1 : Bytes := "mac1----".toList.map fun c => c.val.toUInt8

/-- `LABEL_COOKIE`. -/
def labelCookie : Bytes := "cookie--".toList.map fun c => c.val.toUInt8

/-- `zero_key`. -/
def zeroKey : Bytes := List.replicate 32 0

/-! ### State -/

/-- An `ip_addr_t` of the dual-stack build, by its type: one word, or four. -/
inductive IpAddr
  | v4 (a : Ip4)
  | v6 (a b c d : Ip4)
  deriving DecidableEq, Repr

namespace IpAddr

/-- `ip_2_ip4`: the first word of the union, whatever the type. -/
def ip4 : IpAddr → Ip4
  | .v4 a => a
  | .v6 a _ _ _ => a

/-- `ip_addr_isany`. -/
def isAny : IpAddr → Bool
  | .v4 a => a == Ip4.any
  | .v6 a b c d => a == Ip4.any && b == Ip4.any && c == Ip4.any && d == Ip4.any

end IpAddr

/-- `struct wireguard_keypair`. -/
structure WireguardKeypair where
  valid : Bool := false
  initiator : Bool := false
  keypairMillis : UInt32 := 0
  sendingKey : Bytes := zeroKey
  sendingValid : Bool := false
  sendingCounter : UInt64 := 0
  receivingKey : Bytes := zeroKey
  receivingValid : Bool := false
  lastTx : UInt32 := 0
  lastRx : UInt32 := 0
  replayBitmap : UInt32 := 0
  replayCounter : UInt64 := 0
  localIndex : UInt32 := 0
  remoteIndex : UInt32 := 0

/-- `struct wireguard_handshake`. -/
structure WireguardHandshake where
  valid : Bool := false
  initiator : Bool := false
  localIndex : UInt32 := 0
  remoteIndex : UInt32 := 0
  ephemeralPrivate : Bytes := zeroKey
  remoteEphemeral : Bytes := zeroKey
  hash : Bytes := zeroKey
  chainingKey : Bytes := zeroKey

/-- `struct wireguard_allowed_ip`. -/
structure WireguardAllowedIp where
  valid : Bool := false
  ip : IpAddr := .v4 Ip4.any
  mask : IpAddr := .v4 Ip4.any

/-- `struct wireguard_peer`. -/
structure WireguardPeer where
  valid : Bool := false
  active : Bool := false
  connectIp : IpAddr := .v4 Ip4.any
  connectPort : UInt16 := 0
  ip : IpAddr := .v4 Ip4.any
  port : UInt16 := 0
  keepaliveInterval : UInt16 := 0
  allowedSourceIps : Vector WireguardAllowedIp 2 := #v[{}, {}]
  publicKey : Bytes := zeroKey
  presharedKey : Bytes := zeroKey
  publicKeyDh : Bytes := zeroKey
  currKeypair : WireguardKeypair := {}
  prevKeypair : WireguardKeypair := {}
  nextKeypair : WireguardKeypair := {}
  greatestTimestamp : Bytes := List.replicate 12 0
  handshake : WireguardHandshake := {}
  cookieMillis : UInt32 := 0
  cookie : Bytes := List.replicate 16 0
  handshakeMac1Valid : Bool := false
  handshakeMac1 : Bytes := List.replicate 16 0
  labelCookieKey : Bytes := zeroKey
  labelMac1Key : Bytes := zeroKey
  lastInitiationRx : UInt32 := 0
  lastInitiationTx : UInt32 := 0
  lastTx : UInt32 := 0
  lastRx : UInt32 := 0
  sendHandshake : Bool := false

/-- `struct wireguard_device`, with the link flag of its interface. -/
structure WireguardDevice where
  publicKey : Bytes := zeroKey
  privateKey : Bytes := zeroKey
  cookieSecret : Bytes := zeroKey
  cookieSecretMillis : UInt32 := 0
  labelCookieKey : Bytes := zeroKey
  labelMac1Key : Bytes := zeroKey
  peer : WireguardPeer := {}
  valid : Bool := false
  linkUp : Bool := false

/-- `wireguard_expired`, where the clock shows `now`. -/
def wireguardExpired (now createdMillis validSeconds : UInt32) : Bool :=
  decide (validSeconds * 1000 ≤ now - createdMillis)

/-! ### Hashes -/

/-- The digest of 32 bytes without a key, over the pieces in turn. -/
def blake2sDigest (pieces : List Bytes) : Bytes :=
  blake2sFinal (pieces.foldl blake2sUpdate (.fresh 32 0))

/-- The static `construction_hash` as `wireguard_init` leaves it. -/
def constructionHash : Bytes := blake2sDigest [construction]

/-- The static `identifier_hash` as `wireguard_init` leaves it. -/
def identifierHash : Bytes := blake2sDigest [constructionHash, identifier]

/-- `wireguard_mac`. Its keys are short enough for the hash never to refuse. -/
def wireguardMac (message key : Bytes) : Bytes := (blake2s 16 key message).getD []

/-- `wireguard_mac_key`. -/
def wireguardMacKey (publicKey label : Bytes) : Bytes := blake2sDigest [label, publicKey]

/-- `wireguard_mix_hash`. -/
def wireguardMixHash (hash src : Bytes) : Bytes := blake2sDigest [hash, src]

/-- `wireguard_hmac`. -/
def wireguardHmac (key text : Bytes) : Bytes :=
  let key := if 64 < key.length then blake2sDigest [key] else key
  let padded := key ++ List.replicate (64 - key.length) 0
  let digest := blake2sDigest [padded.map (· ^^^ 0x36), text]
  blake2sDigest [padded.map (· ^^^ 0x5c), digest]

/-- `wireguard_kdf1`. -/
def wireguardKdf1 (chainingKey data : Bytes) : Bytes :=
  let tau0 := wireguardHmac chainingKey data
  wireguardHmac tau0 [1]

/-- `wireguard_kdf2`. -/
def wireguardKdf2 (chainingKey data : Bytes) : Bytes × Bytes :=
  let tau0 := wireguardHmac chainingKey data
  let tau1 := wireguardHmac tau0 [1]
  (tau1, wireguardHmac tau0 (tau1 ++ [2]))

/-- `wireguard_kdf3`. -/
def wireguardKdf3 (chainingKey data : Bytes) : Bytes × Bytes × Bytes :=
  let tau0 := wireguardHmac chainingKey data
  let tau1 := wireguardHmac tau0 [1]
  let tau2 := wireguardHmac tau0 (tau1 ++ [2])
  (tau1, tau2, wireguardHmac tau0 (tau2 ++ [3]))

@[simp] theorem length_blake2sDigest (pieces : List Bytes) :
    (blake2sDigest pieces).length = 32 := by
  have same (ctx : Blake2sCtx) : (pieces.foldl blake2sUpdate ctx).outlen = ctx.outlen := by
    induction pieces generalizing ctx with
    | nil => rfl
    | cons piece pieces ih => rw [List.foldl_cons, ih, blake2sUpdate_outlen]
  rw [blake2sDigest, length_blake2sFinal, same]
  rfl

theorem length_wireguardMac (message : Bytes) {key : Bytes} (h : key.length ≤ 32) :
    (wireguardMac message key).length = 16 := by
  have short : ¬ (16 = 0 ∨ 32 < 16 ∨ 32 < key.length) := by omega
  rw [wireguardMac]
  cases digest : blake2s 16 key message with
  | none =>
    rw [blake2s, Option.map_eq_none_iff, blake2sInit, if_neg short] at digest
    dsimp only at digest
    split at digest
    · cases digest
    · cases digest
  | some digest' => exact length_of_blake2s digest

/-! ### Key exchange -/

/-- `wireguard_x25519`: the bytes written, and whether the answer is -1. -/
def wireguardX25519 (scalar point : Bytes) : Bytes × Bool := x25519 scalar point true

/-- `wireguard_clamp_private_key`. -/
def wireguardClampPrivateKey (key : Bytes) : Bytes :=
  (key.set 0 (byte key 0 &&& 248)).set 31 (byte key 31 &&& 127 ||| 64)

/-- The point of `wireguard_generate_public_key`. -/
def basepoint : Bytes := 9 :: List.replicate 31 0

/-- `wireguard_generate_public_key`, where it succeeds. -/
def wireguardGeneratePublicKey (privateKey : Bytes) : Option Bytes :=
  if privateKey = zeroKey then none
  else
    let result := wireguardX25519 privateKey basepoint
    if result.2 then none else some result.1

/-! ### Session keys -/

/-- Where a session key of a peer stands. -/
inductive KeypairSlot | curr | next | prev
  deriving DecidableEq, Repr

namespace WireguardPeer

/-- What the pointer points to. -/
def keypair (peer : WireguardPeer) : KeypairSlot → WireguardKeypair
  | .curr => peer.currKeypair
  | .next => peer.nextKeypair
  | .prev => peer.prevKeypair

/-- A write through the pointer. -/
def setKeypair (peer : WireguardPeer) (slot : KeypairSlot) (k : WireguardKeypair) :
    WireguardPeer :=
  match slot with
  | .curr => { peer with currKeypair := k }
  | .next => { peer with nextKeypair := k }
  | .prev => { peer with prevKeypair := k }

/-- `keypair_destroy`: all zeros. -/
def keypairDestroy (peer : WireguardPeer) (slot : KeypairSlot) : WireguardPeer :=
  peer.setKeypair slot {}

/-- `get_peer_keypair_for_idx`. -/
def getPeerKeypairForIdx (peer : WireguardPeer) (idx : UInt32) : Option KeypairSlot :=
  if peer.currKeypair.valid && peer.currKeypair.localIndex == idx then some .curr
  else if peer.nextKeypair.valid && peer.nextKeypair.localIndex == idx then some .next
  else if peer.prevKeypair.valid && peer.prevKeypair.localIndex == idx then some .prev
  else none

/-- `keypair_update`. -/
def keypairUpdate (peer : WireguardPeer) (received : KeypairSlot) : WireguardPeer :=
  if received = .next then
    { peer with
      prevKeypair := peer.currKeypair
      currKeypair := peer.nextKeypair
      nextKeypair := {} }
  else peer

/-- `add_new_keypair`. -/
def addNewKeypair (peer : WireguardPeer) (new : WireguardKeypair) : WireguardPeer :=
  if new.initiator then
    if peer.nextKeypair.valid then
      { peer with prevKeypair := peer.nextKeypair, nextKeypair := {}, currKeypair := new }
    else { peer with prevKeypair := peer.currKeypair, currKeypair := new }
  else { peer with nextKeypair := new, prevKeypair := {} }

/-- The key pair that `wireguard_start_session` makes of the handshake. -/
def newKeypair (peer : WireguardPeer) (initiator : Bool) (now : UInt32) : WireguardKeypair :=
  let keys := wireguardKdf2 peer.handshake.chainingKey []
  { valid := true
    initiator := initiator
    keypairMillis := now
    sendingKey := if initiator then keys.1 else keys.2
    sendingValid := true
    receivingKey := if initiator then keys.2 else keys.1
    receivingValid := true
    localIndex := peer.handshake.localIndex
    remoteIndex := peer.handshake.remoteIndex }

/-- `wireguard_start_session`. The role of the wiped handshake stays as it was. -/
def wireguardStartSession (peer : WireguardPeer) (initiator : Bool) (now : UInt32) :
    WireguardPeer :=
  addNewKeypair { peer with handshake := { initiator := peer.handshake.initiator } }
    (peer.newKeypair initiator now)

end WireguardPeer

/-- `wireguard_check_replay`: the keypair afterwards, and whether the packet may pass. The distance
is a 32-bit value. -/
def wireguardCheckReplay (keypair : WireguardKeypair) (seq : UInt64) : WireguardKeypair × Bool :=
  let seq := seq + 1
  if seq ≠ 0 then
    if keypair.replayCounter < seq then
      let diff : UInt32 := (seq - keypair.replayCounter).toUInt32
      let replayBitmap := if diff < 32 then keypair.replayBitmap <<< diff ||| 1 else 1
      ({ keypair with replayBitmap := replayBitmap, replayCounter := seq }, true)
    else
      let diff : UInt32 := (keypair.replayCounter - seq).toUInt32
      if diff < 32 then
        if keypair.replayBitmap &&& (1 : UInt32) <<< diff ≠ 0 then (keypair, false)
        else
          ({ keypair with replayBitmap := keypair.replayBitmap ||| (1 : UInt32) <<< diff }, true)
      else (keypair, false)
  else (keypair, false)

/-! ### Fresh indices -/

/-- Random 32-bit words in the order they are drawn. Among them is one outside any six. -/
structure RandomWords where
  draw : Nat → UInt32
  varied : ∀ taken : List UInt32, taken.length ≤ 6 → ∃ i, draw i ∉ taken

/-- The words counted up from zero. -/
instance : Inhabited RandomWords where
  default := {
    draw := UInt32.ofNat
    varied := by
      intro taken short
      by_contra all
      have within : (List.range 7).map UInt32.ofNat ⊆ taken := by
        intro w hw
        obtain ⟨i, _, rfl⟩ := List.mem_map.mp hw
        by_contra out
        exact all ⟨i, out⟩
      have distinct : ((List.range 7).map UInt32.ofNat).Nodup := by decide
      have := (List.subperm_of_subset distinct within).length_le
      rw [List.length_map, List.length_range] at this
      omega }

/-- The values `wireguard_generate_unique_index` draws again for. -/
def WireguardDevice.takenIndices (device : WireguardDevice) : List UInt32 :=
  [0, 0xFFFFFFFF, device.peer.currKeypair.localIndex, device.peer.prevKeypair.localIndex,
    device.peer.nextKeypair.localIndex, device.peer.handshake.localIndex]

/-- `wireguard_generate_unique_index`: the first word drawn that is not taken. -/
def wireguardGenerateUniqueIndex (device : WireguardDevice) (random : RandomWords) : UInt32 :=
  random.draw (Nat.find (random.varied device.takenIndices (Nat.le_refl 6)))

theorem wireguardGenerateUniqueIndex_not_mem (device : WireguardDevice) (random : RandomWords) :
    wireguardGenerateUniqueIndex device random ∉ device.takenIndices :=
  Nat.find_spec (random.varied device.takenIndices (Nat.le_refl 6))

end Molewire
