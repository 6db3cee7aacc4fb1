/-
# WireGuard: the interface

The functions of `wireguardif.c`: what the IP stack, the UDP port, the timer and
the control calls do to the device. Every reading of the clock, every allocation
and every answer of the UDP layer is an argument of its own, named after the place
where the code asks for it, so nothing is assumed about how they hang together.
What a call does beside changing the device is the list of its effects.
-/

import Molewire.CString
import Molewire.EthCsum
import Molewire.WireguardHandshake

namespace Molewire

open ByteBuffer

/-! ### Effects -/

/-- The values of `err_t` that occur. -/
inductive ErrT | ok | mem | conn | rte | arg | other
  deriving DecidableEq, Repr, Inhabited

/-- What a call does to the world. A session is started in a role; a packet is encrypted under a key
and a counter; a packet that is handed to the IP layer came under a key and a counter. -/
inductive Effect
  | session (sendingKey receivingKey : Bytes) (initiator : Bool)
  | encrypt (key : Bytes) (counter : UInt64) (src : Bytes)
  | send (datagram : Bytes) (ip : IpAddr) (port : UInt16)
  | input (key : Bytes) (counter : UInt64) (pkt : Bytes)
  deriving DecidableEq

/-! ### Addresses -/

/-- `update_peer_addr`. -/
def WireguardPeer.updateAddr (peer : WireguardPeer) (addr : IpAddr) (port : UInt16) :
    WireguardPeer :=
  { peer with ip := addr, port := port }

/-- One of the allowed addresses holds an IPv4 address. -/
def WireguardAllowedIp.holds (allowed : WireguardAllowedIp) (a : Ip4) : Bool :=
  allowed.valid && Ip4.netEq a allowed.ip.ip4 allowed.mask.ip4

/-- `peer_lookup_by_allowed_ip`, with the peer if there is one. -/
def peerLookupByAllowedIp (device : WireguardDevice) (a : Ip4) : Bool :=
  device.peer.valid && device.peer.allowedSourceIps.toList.any (·.holds a)

/-- `peer_lookup_by_receiver`. -/
def peerLookupByReceiver (device : WireguardDevice) (receiver : UInt32) : Bool :=
  device.peer.valid &&
    (device.peer.currKeypair.valid && device.peer.currKeypair.localIndex == receiver ||
      device.peer.nextKeypair.valid && device.peer.nextKeypair.localIndex == receiver ||
      device.peer.prevKeypair.valid && device.peer.prevKeypair.localIndex == receiver)

/-- `peer_lookup_by_handshake`. -/
def peerLookupByHandshake (device : WireguardDevice) (receiver : UInt32) : Bool :=
  device.peer.valid && device.peer.handshake.valid && device.peer.handshake.initiator &&
    device.peer.handshake.localIndex == receiver

/-- `peer_add_ip`: the peer afterwards, and whether there was room. -/
def peerAddIp (peer : WireguardPeer) (ip mask : IpAddr) : WireguardPeer × Bool :=
  if peer.allowedSourceIps.toList.any fun a => a.valid && a.ip == ip && a.mask == mask then
    (peer, true)
  else
    match peer.allowedSourceIps.toList.findIdx? (!·.valid) with
    | some i =>
      ({ peer with allowedSourceIps := peer.allowedSourceIps.setIfInBounds i ⟨true, ip, mask⟩ },
        true)
    | none => (peer, false)

/-- `get_source_addr_port`, into a buffer of 18 bytes. -/
def getSourceAddrPort (addr : IpAddr) (port : UInt16) : Bytes :=
  (match addr with
    | .v4 a => a.octets
    | .v6 a b c d => a.octets ++ b.octets ++ c.octets ++ d.octets) ++
    [(port >>> 8).toUInt8, port.toUInt8]

/-! ### Sending -/

/-- The answers `wireguardif_output_to_peer` gets: the clock at the check of the key's age, whether
there is memory, what the UDP layer says, the clock after sending and at the check for a rekey. -/
structure OutputEnv where
  expiredNow : UInt32
  pbuf : Bool
  udp : ErrT
  txNow : UInt32
  rekeyNow : UInt32
  deriving Inhabited

/-- `struct message_transport_data` in front of a packet. -/
def transportHeader (receiver : UInt32) (counter : UInt64) : Bytes :=
  [4, 0, 0, 0] ++ u32to8Little receiver ++ u64to8Little counter

/-- The packet as it is encrypted: its checksums restored, filled up to a multiple of 16. -/
def paddedPacket (q : Bytes) : Bytes :=
  (wireguardifFixChecksums q).getD q ++ List.replicate ((q.length + 15) / 16 * 16 - q.length) 0

/-- The place of the key `wireguardif_output_to_peer` sends with. -/
def WireguardPeer.sendingSlot (peer : WireguardPeer) : KeypairSlot :=
  if peer.currKeypair.valid && !peer.currKeypair.initiator && peer.currKeypair.lastRx == 0 then
    .prev
  else .curr

/-- `wireguardif_output_to_peer`, of a packet or, without one, of a keep-alive. -/
def wireguardifOutputToPeer (device : WireguardDevice) (q : Option Bytes) (env : OutputEnv) :
    WireguardDevice × ErrT × List Effect :=
  let slot := device.peer.sendingSlot
  let keypair := device.peer.keypair slot
  if keypair.valid && (keypair.initiator || keypair.lastRx != 0) then
    if !wireguardExpired env.expiredNow keypair.keypairMillis rejectAfterTime &&
        decide (keypair.sendingCounter < rejectAfterMessages) then
      if env.pbuf then
        let src := (q.map paddedPacket).getD []
        let enc := chacha20poly1305Encrypt src [] keypair.sendingCounter keypair.sendingKey
        let datagram := transportHeader keypair.remoteIndex keypair.sendingCounter ++ enc
        let effects :=
          [.encrypt keypair.sendingKey keypair.sendingCounter src,
            .send datagram device.peer.ip device.peer.port]
        let keypair := { keypair with sendingCounter := keypair.sendingCounter + 1 }
        let peer := device.peer
        let (peer, keypair) :=
          if env.udp = .ok then
            ({ peer with lastTx := env.txNow }, { keypair with lastTx := env.txNow })
          else (peer, keypair)
        let rekey := decide (rekeyAfterMessages ≤ keypair.sendingCounter) ||
          keypair.initiator &&
            wireguardExpired env.rekeyNow keypair.keypairMillis rekeyAfterTime
        let peer := { peer with sendHandshake := rekey || peer.sendHandshake }
        ({ device with peer := peer.setKeypair slot keypair }, env.udp, effects)
      else (device, .mem, [])
    else ({ device with peer := device.peer.keypairDestroy slot }, .conn, [])
  else (device, .conn, [])

/-- `wireguardif_output`, of a packet to an address inside the tunnel. -/
def wireguardifOutput (device : WireguardDevice) (q : Bytes) (ipaddr : Ip4) (env : OutputEnv) :
    WireguardDevice × ErrT × List Effect :=
  if peerLookupByAllowedIp device ipaddr then wireguardifOutputToPeer device (some q) env
  else (device, .rte, [])

/-- `wireguardif_send_keepalive`. -/
def wireguardifSendKeepalive (device : WireguardDevice) (env : OutputEnv) :
    WireguardDevice × List Effect :=
  let result := wireguardifOutputToPeer device none env
  (result.1, result.2.2)

/-! ### Handshakes -/

/-- The answers a handshake that is started gets. -/
structure StartEnv where
  initiation : InitiationEnv
  pbuf : Bool
  txNow : UInt32
  deriving Inhabited

/-- `wireguard_start_handshake`, with `wireguardif_initiate_handshake`. -/
def wireguardStartHandshake (device : WireguardDevice) (env : StartEnv) :
    WireguardDevice × List Effect :=
  match wireguardCreateHandshakeInitiation device env.initiation with
  | (device, none) => (device, [])
  | (device, some msg) =>
    if env.pbuf then
      ({ device with
          peer.sendHandshake := false
          peer.lastInitiationTx := env.txNow
          peer.handshakeMac1 := msg.mac1
          peer.handshakeMac1Valid := true },
        [.send msg.toBytes device.peer.ip device.peer.port])
    else (device, [])

/-- `wireguard_start_session` on the device's peer. -/
def WireguardDevice.startSession (device : WireguardDevice) (initiator : Bool) (now : UInt32) :
    WireguardDevice × List Effect :=
  let keypair := device.peer.newKeypair initiator now
  ({ device with peer := device.peer.wireguardStartSession initiator now },
    [.session keypair.sendingKey keypair.receivingKey initiator])

/-- The answers a handshake response gets. -/
structure SendResponseEnv where
  response : ResponseEnv
  sessionNow : UInt32
  pbuf : Bool
  deriving Inhabited

/-- `wireguardif_send_handshake_response`. -/
def wireguardifSendHandshakeResponse (device : WireguardDevice) (env : SendResponseEnv) :
    WireguardDevice × List Effect :=
  match wireguardCreateHandshakeResponse device env.response with
  | (device, none) => (device, [])
  | (device, some packet) =>
    let started := device.startSession false env.sessionNow
    (started.1, started.2 ++
      if env.pbuf then [.send packet.toBytes device.peer.ip device.peer.port] else [])

/-- The answers a received handshake response gets. -/
structure ResponseRxEnv where
  sessionNow : UInt32
  keepalive : OutputEnv
  deriving Inhabited

/-- `wireguardif_process_response_message`. -/
def wireguardifProcessResponseMessage (device : WireguardDevice)
    (response : MessageHandshakeResponse) (addr : IpAddr) (port : UInt16) (env : ResponseRxEnv) :
    WireguardDevice × List Effect :=
  match wireguardProcessHandshakeResponse device response with
  | none => (device, [])
  | some device =>
    let device := { device with peer := device.peer.updateAddr addr port }
    let started := device.startSession true env.sessionNow
    let kept := wireguardifSendKeepalive started.1 env.keepalive
    ({ kept.1 with linkUp := true }, started.2 ++ kept.2)

/-! ### Cookies -/

/-- `wireguard_is_under_load` of `wg.c`. -/
def wireguardIsUnderLoad : Bool := false

/-- The answers a message that is checked gets. -/
structure CheckEnv where
  cookie : CookieEnv
  nonce : Bytes
  replyCookie : CookieEnv
  pbuf : Bool
  deriving Inhabited

/-- `wireguardif_send_handshake_cookie`. -/
def wireguardifSendHandshakeCookie (device : WireguardDevice) (mac1 : Bytes) (index : UInt32)
    (addr : IpAddr) (port : UInt16) (env : CheckEnv) : WireguardDevice × List Effect :=
  let packet := wireguardCreateCookieReply device mac1 index (getSourceAddrPort addr port)
    env.nonce env.replyCookie
  (packet.1, if env.pbuf then [.send packet.2.toBytes addr port] else [])

/-- `wireguardif_check_initiation_message` and `wireguardif_check_response_message`: `mac1` stands
at `len - 32`, `mac2` at `len - 16` of a message of `len` bytes. -/
def wireguardifCheckMessage (device : WireguardDevice) (data : Bytes) (len : Nat)
    (addr : IpAddr) (port : UInt16) (env : CheckEnv) : WireguardDevice × Bool × List Effect :=
  let mac1 := span data (len - 32) 16
  if wireguardCheckMac1 device (data.take (len - 32)) mac1 then
    if !wireguardIsUnderLoad then (device, true, [])
    else
      let checked := wireguardCheckMac2 device (data.take (len - 16)) (getSourceAddrPort addr port)
        (span data (len - 16) 16) env.cookie
      if checked.2 then (checked.1, true, [])
      else
        let replied := wireguardifSendHandshakeCookie checked.1 mac1 (u8to32Little data 4)
          addr port env
        (replied.1, false, replied.2)
  else (device, false, [])

/-! ### Receiving -/

/-- The answers a transport message gets: the clock at the check of the key's age, whether there is
memory, the clock where the packet counts as received and at the check for a rekey, and what
stands in memory behind the packet. -/
structure DataEnv where
  expiredNow : UInt32
  pbuf : Bool
  rxNow : UInt32
  rekeyNow : UInt32
  slack : Bytes
  deriving Inhabited

/-- Whether a decrypted packet may come from where it says, and the length in its header; IPv6
packets pass. `iphdr` is the packet with what stands behind it in memory. -/
def WireguardPeer.sourceOk (peer : WireguardPeer) (iphdr : Bytes) : Bool × Nat :=
  if ipVersion iphdr = 4 then
    if peer.allowedSourceIps.toList.any (·.holds (ipSrc iphdr)) then (true, ipTotalLen iphdr)
    else (false, 0xFFFF)
  else if ipVersion iphdr = 6 then (true, ipTotalLen iphdr)
  else (false, 0xFFFF)

/-- What a packet that authenticates does to the peer before it is looked at: the endpoint and the
times are taken over, a waiting key becomes the current one, and an old one asks for a rekey. The
key pair is looked up again at its place after `keypair_update`, as the code's pointer does. -/
def WireguardPeer.packetReceived (peer : WireguardPeer) (slot : KeypairSlot) (addr : IpAddr)
    (port : UInt16) (env : DataEnv) : WireguardPeer :=
  let keypair := peer.keypair slot
  let peer := { peer.updateAddr addr port with lastRx := env.rxNow }
  let peer := peer.setKeypair slot { keypair with lastRx := env.rxNow }
  let peer := peer.keypairUpdate slot
  let rekey := (peer.keypair slot).initiator &&
    wireguardExpired env.rekeyNow (peer.keypair slot).keypairMillis
      (rejectAfterTime - peer.keepaliveInterval.toUInt32 - rekeyTimeout)
  { peer with sendHandshake := rekey || peer.sendHandshake }

/-- `wireguardif_process_data_message`, on the whole datagram. -/
def wireguardifProcessDataMessage (device : WireguardDevice) (data : Bytes) (addr : IpAddr)
    (port : UInt16) (env : DataEnv) : WireguardDevice × List Effect :=
  match device.peer.getPeerKeypairForIdx (u8to32Little data 4) with
  | none => (device, [])
  | some slot =>
    let keypair := device.peer.keypair slot
    if keypair.receivingValid &&
        !wireguardExpired env.expiredNow keypair.keypairMillis rejectAfterTime &&
        decide (keypair.sendingCounter < rejectAfterMessages) then
      if env.pbuf then
        let nonce := u8to64Little data 8
        match chacha20poly1305Decrypt (data.drop 16) [] nonce keypair.receivingKey with
        | none => (device, [])
        | some pkt =>
          let peer := device.peer.packetReceived slot addr port env
          if pkt = [] then ({ device with peer := peer, linkUp := true }, [])
          else
            let replay := wireguardCheckReplay (peer.keypair slot) nonce
            let source := peer.sourceOk (pkt ++ env.slack)
            ({ device with peer := peer.setKeypair slot replay.1, linkUp := true },
              if replay.2 && decide (source.2 ≤ pkt.length) && source.1 then
                [.input keypair.receivingKey nonce pkt]
              else [])
      else (device, [])
    else ({ device with peer := device.peer.keypairDestroy slot }, [])

/-- The answers a datagram gets, by what it turns out to be. -/
structure NetworkEnv where
  check : CheckEnv
  initiationNow : UInt32
  sendResponse : SendResponseEnv
  response : ResponseRxEnv
  cookieNow : UInt32
  data : DataEnv
  deriving Inhabited

/-- `wireguardif_network_rx`, on a datagram in one buffer. -/
def wireguardifNetworkRx (device : WireguardDevice) (data : Bytes) (addr : IpAddr) (port : UInt16)
    (env : NetworkEnv) : WireguardDevice × List Effect :=
  match wireguardGetMessageType data with
  | .handshakeInitiation =>
    let checked := wireguardifCheckMessage device data 148 addr port env.check
    if checked.2.1 then
      match wireguardProcessInitiationMessage checked.1 (.ofBytes data) env.initiationNow with
      | none => (checked.1, [])
      | some device =>
        wireguardifSendHandshakeResponse
          { device with peer := device.peer.updateAddr addr port } env.sendResponse
    else (checked.1, checked.2.2)
  | .handshakeResponse =>
    let checked := wireguardifCheckMessage device data 92 addr port env.check
    if checked.2.1 then
      if peerLookupByHandshake checked.1 (u8to32Little data 8) then
        wireguardifProcessResponseMessage checked.1 (.ofBytes data) addr port env.response
      else (checked.1, [])
    else (checked.1, checked.2.2)
  | .cookieReply =>
    if peerLookupByHandshake device (u8to32Little data 4) then
      match wireguardProcessCookieMessage device (.ofBytes data) env.cookieNow with
      | none => (device, [])
      | some device => ({ device with peer := device.peer.updateAddr addr port }, [])
    else (device, [])
  | .transportData =>
    if peerLookupByReceiver device (u8to32Little data 4) then
      wireguardifProcessDataMessage device data addr port env.data
    else (device, [])
  | .invalid => (device, [])

/-! ### The timer -/

/-- `wireguardif_can_send_initiation`. -/
def wireguardifCanSendInitiation (peer : WireguardPeer) (now : UInt32) : Bool :=
  peer.lastInitiationTx == 0 || wireguardExpired now peer.lastInitiationTx rekeyTimeout

/-- `should_send_initiation`, with the clock at its two checks. -/
def shouldSendInitiation (peer : WireguardPeer) (canNow expiredNow : UInt32) : Bool :=
  wireguardifCanSendInitiation peer canNow &&
    (peer.sendHandshake ||
      peer.currKeypair.valid && !peer.currKeypair.initiator &&
        wireguardExpired expiredNow peer.currKeypair.keypairMillis
          (rejectAfterTime - peer.keepaliveInterval.toUInt32) ||
      !peer.currKeypair.valid && peer.active)

/-- `should_send_keepalive`. -/
def shouldSendKeepalive (peer : WireguardPeer) (now : UInt32) : Bool :=
  decide (0 < peer.keepaliveInterval) && (peer.currKeypair.valid || peer.prevKeypair.valid) &&
    wireguardExpired now peer.lastTx peer.keepaliveInterval.toUInt32

/-- `should_destroy_current_keypair`. -/
def shouldDestroyCurrentKeypair (peer : WireguardPeer) (now : UInt32) : Bool :=
  peer.currKeypair.valid &&
    (wireguardExpired now peer.currKeypair.keypairMillis rejectAfterTime ||
      decide (rejectAfterMessages ≤ peer.currKeypair.sendingCounter))

/-- `should_reset_peer`. -/
def shouldResetPeer (peer : WireguardPeer) (now : UInt32) : Bool :=
  peer.currKeypair.valid &&
    wireguardExpired now peer.currKeypair.keypairMillis (rejectAfterTime * 3)

/-- All three key pairs destroyed. -/
def WireguardPeer.destroyKeypairs (peer : WireguardPeer) : WireguardPeer :=
  ((peer.keypairDestroy .next).keypairDestroy .curr).keypairDestroy .prev

/-- The answers the timer gets. -/
structure TimerEnv where
  resetNow : UInt32
  destroyNow : UInt32
  keepaliveNow : UInt32
  keepalive : OutputEnv
  canNow : UInt32
  expiredNow : UInt32
  start : StartEnv
  deriving Inhabited

/-- `wireguardif_tmr`. -/
def wireguardifTmr (device : WireguardDevice) (env : TimerEnv) : WireguardDevice × List Effect :=
  if device.peer.valid then
    let device :=
      if shouldResetPeer device.peer env.resetNow then
        { device with
          peer := device.peer.destroyKeypairs.updateAddr device.peer.connectIp
            device.peer.connectPort }
      else device
    let device :=
      if shouldDestroyCurrentKeypair device.peer env.destroyNow then
        { device with peer := device.peer.keypairDestroy .curr }
      else device
    let kept :=
      if shouldSendKeepalive device.peer env.keepaliveNow then
        wireguardifSendKeepalive device env.keepalive
      else (device, [])
    let started :=
      if shouldSendInitiation kept.1.peer env.canNow env.expiredNow then
        wireguardStartHandshake kept.1 env.start
      else (kept.1, [])
    let linkUp := started.1.peer.currKeypair.valid || started.1.peer.prevKeypair.valid
    ({ started.1 with linkUp := linkUp && started.1.linkUp }, kept.2 ++ started.2)
  else ({ device with linkUp := false }, [])

/-! ### Control -/

/-- `wireguardif_lookup_peer`, of the only peer index. -/
def wireguardifLookupPeer (device : WireguardDevice) : Bool := device.valid && device.peer.valid

/-- `wireguardif_connect`. -/
def wireguardifConnect (device : WireguardDevice) : WireguardDevice × ErrT :=
  if wireguardifLookupPeer device then
    if !device.peer.connectIp.isAny && decide (0 < device.peer.connectPort) then
      ({ device with
          peer := { device.peer with active := true }.updateAddr device.peer.connectIp
            device.peer.connectPort }, .ok)
    else (device, .arg)
  else (device, .arg)

/-- `wireguardif_disconnect`. -/
def wireguardifDisconnect (device : WireguardDevice) : WireguardDevice × ErrT :=
  if wireguardifLookupPeer device then
    ({ device with peer := { device.peer with active := false }.destroyKeypairs }, .ok)
  else (device, .arg)

/-- `wireguardif_peer_is_up`. -/
def wireguardifPeerIsUp (device : WireguardDevice) : ErrT :=
  if wireguardifLookupPeer device then
    if device.peer.currKeypair.valid || device.peer.prevKeypair.valid then .ok else .conn
  else .arg

/-- `wireguardif_remove_peer`. -/
def wireguardifRemovePeer (device : WireguardDevice) : WireguardDevice × ErrT :=
  if wireguardifLookupPeer device then ({ device with peer := .zeroed }, .ok) else (device, .arg)

/-- `wireguardif_update_endpoint`. -/
def wireguardifUpdateEndpoint (device : WireguardDevice) (ip : IpAddr) (port : UInt16) :
    WireguardDevice × ErrT :=
  if wireguardifLookupPeer device then
    ({ device with peer := { device.peer with connectIp := ip, connectPort := port } }, .ok)
  else (device, .arg)

/-- `struct wireguardif_peer`. -/
structure WireguardifPeer where
  publicKey : CStr
  presharedKey : Option Bytes
  greatestTimestamp : Bytes
  allowedIp : IpAddr
  allowedMask : IpAddr
  endpointIp : IpAddr
  endportPort : UInt16
  keepAlive : UInt16

/-- `wireguardif_add_peer`, with the answer and whether `*peer_index` is valid. -/
def wireguardifAddPeer (device : WireguardDevice) (p : WireguardifPeer) :
    WireguardDevice × ErrT × Bool :=
  match base64Decode 32 p.publicKey with
  | none => (device, .arg, false)
  | some publicKey =>
    if publicKey.length = 32 then
      if device.peer.valid ∧ device.peer.publicKey = publicKey then (device, .ok, true)
      -- `peer_alloc`
      else if device.peer.valid then (device, .mem, false)
      else
        let peer := wireguardPeerInit device publicKey p.presharedKey
        if peer.valid then
          let peer := { peer with
            connectIp := p.endpointIp
            connectPort := p.endportPort
            ip := p.endpointIp
            port := p.endportPort
            keepaliveInterval := if p.keepAlive = 0xFFFF then 10 else p.keepAlive }
          let peer := (peerAddIp peer p.allowedIp p.allowedMask).1
          ({ device with peer := { peer with greatestTimestamp := p.greatestTimestamp } },
            .ok, true)
        else ({ device with peer := peer }, .arg, true)
    else (device, .arg, false)

end Molewire
