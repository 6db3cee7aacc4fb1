/-
# WireGuard: traffic

What a session is for. The responder of a handshake waits for the first packet under
its new key, and from then on packets go both ways: what an end is given to send
leaves it sealed under its key and the next counter, and what arrives under its key
is handed on if the counter is new to its window. So a packet that one end of a
session is given comes out of the other.
-/

import Molewire.WireguardCompletion
import Molewire.WireguardReplay

namespace Molewire

open ByteBuffer

/-! ### Datagrams -/

/-- A packet sealed for a session under a counter. -/
def transportDatagram (receiver : UInt32) (key : Bytes) (n : UInt64) (pkt : Bytes) : Bytes :=
  transportHeader receiver n ++ chacha20poly1305Encrypt pkt [] n key

variable {receiver : UInt32} {key pkt : Bytes} {n : UInt64}

theorem transportDatagram_type :
    wireguardGetMessageType (transportDatagram receiver key n pkt) = .transportData := by
  apply wireguardGetMessageType_transport
  rw [length_chacha20poly1305Encrypt]
  exact Nat.le_add_left 16 _

theorem transportDatagram_receiver :
    u8to32Little (transportDatagram receiver key n pkt) 4 = receiver := by
  have word := u8to32Little_mid [4, 0, 0, 0]
    (u64to8Little n ++ chacha20poly1305Encrypt pkt [] n key) receiver
  rw [← List.append_assoc, ← List.append_assoc] at word
  exact word

theorem transportDatagram_counter :
    u8to64Little (transportDatagram receiver key n pkt) 8 = n :=
  u8to64Little_u64to8Little n (chacha20poly1305Encrypt pkt [] n key)

theorem transportDatagram_opened :
    chacha20poly1305Decrypt ((transportDatagram receiver key n pkt).drop 16) [] n key =
      some pkt :=
  decrypt_encrypt pkt [] n key

/-- What the datagram carries under any key is its counter. -/
theorem Carries.counter {key' pkt' : Bytes} {m : UInt64}
    (h : Carries (transportDatagram receiver key n pkt) key' m pkt') : m = n := by
  obtain ⟨rfl, -⟩ := h
  exact transportDatagram_counter

/-! ### The two ends -/

/-- The peer may send the packet, which is followed by `slack` in memory: its source is allowed and
it is not longer than what came. -/
def Permitted (allowed : Vector WireguardAllowedIp 2) (pkt slack : Bytes) : Prop :=
  let source := ({ allowedSourceIps := allowed } : WireguardPeer).sourceOk (pkt ++ slack)
  source.2 ≤ pkt.length ∧ source.1 = true

/-- The key pair waits at the device for its first packet. -/
structure Waiting (d : WireguardDevice) (allowed : Vector WireguardAllowedIp 2)
    (k : WireguardKeypair) : Prop where
  known : d.peer.valid = true
  sources : d.peer.allowedSourceIps = allowed
  valid : k.valid = true
  next : d.peer.nextKeypair = k
  found : d.peer.getPeerKeypairForIdx k.localIndex = some .next

/-- The key pair is the one in use at the device, and it may be sent with. -/
structure Speaking (d : WireguardDevice) (allowed : Vector WireguardAllowedIp 2)
    (k : WireguardKeypair) : Prop where
  known : d.peer.valid = true
  sources : d.peer.allowedSourceIps = allowed
  valid : k.valid = true
  curr : d.peer.currKeypair = k
  confirmed : k.initiator = true ∨ k.lastRx ≠ 0

variable {d b b' : WireguardDevice} {allowed : Vector WireguardAllowedIp 2} {k : WireguardKeypair}
  {addr : IpAddr} {port : UInt16}

/-- The key pair of a session that is answered waits, and nothing else of the peer moves but its
previous key. -/
private theorem wireguardStartSession_responder (peer : WireguardPeer) (now : UInt32) :
    peer.wireguardStartSession false now =
      { peer with
        handshake := { initiator := peer.handshake.initiator }
        nextKeypair := peer.newKeypair false now
        prevKeypair := {} } := by
  have role : ¬ (peer.newKeypair false now).initiator = true := Bool.false_ne_true
  rw [WireguardPeer.wireguardStartSession, WireguardPeer.addNewKeypair, if_neg role]

/-- All of the key pair but its two keys. -/
private theorem newKeypair_responder (peer : WireguardPeer) (now : UInt32) :
    peer.newKeypair false now =
      { valid := true, keypairMillis := now
        sendingKey := (peer.newKeypair false now).sendingKey, sendingValid := true
        receivingKey := (peer.newKeypair false now).receivingKey, receivingValid := true
        localIndex := peer.handshake.localIndex, remoteIndex := peer.handshake.remoteIndex } := by
  simp only [WireguardPeer.newKeypair]

/-- The session that a responder starts waits for its first packet. -/
private theorem startSession_waiting (known : d.peer.valid = true)
    (fresh : d.peer.currKeypair.localIndex ≠ d.peer.handshake.localIndex) (now : UInt32) :
    Waiting (d.startSession false now).1 d.peer.allowedSourceIps (d.peer.newKeypair false now) := by
  rw [WireguardDevice.startSession, wireguardStartSession_responder]
  exact ⟨known, rfl, rfl, rfl, getPeerKeypairForIdx_waiting fresh rfl rfl⟩

/-- The index that an answer draws is not that of the key in use. -/
private theorem wireguardCreateHandshakeResponse_fresh {env : ResponseEnv}
    {packet : MessageHandshakeResponse}
    (create : wireguardCreateHandshakeResponse b env = (b', some packet)) :
    b'.peer.currKeypair.localIndex ≠ b'.peer.handshake.localIndex := by
  obtain ⟨sealed, -, -, -, -, -, sender, -, -, -, frame⟩ :=
    wireguardCreateHandshakeResponse_some create
  rw [frame]
  show b.peer.currKeypair.localIndex ≠ packet.sender
  rw [sender]
  intro same
  apply wireguardGenerateUniqueIndex_not_mem b env.words
  rw [← same]
  exact List.mem_cons_of_mem _ (List.mem_cons_of_mem _ List.mem_cons_self)

/-- A responder that answers waits with the key pair of the session. -/
theorem wireguardifNetworkRx_waiting {msg : MessageHandshakeInitiation} (sized : msg.Sized)
    {env : NetworkEnv} {sendingKey receivingKey data : Bytes} {ip : IpAddr} {port' : UInt16}
    (answered : wireguardifNetworkRx b msg.toBytes addr port env =
      (b', [.session sendingKey receivingKey false, .send data ip port'])) :
    ∃ ours theirs, Waiting b' b.peer.allowedSourceIps
      { valid := true, keypairMillis := env.sendResponse.sessionNow
        sendingKey := sendingKey, sendingValid := true
        receivingKey := receivingKey, receivingValid := true
        localIndex := ours, remoteIndex := theirs } := by
  obtain ⟨taken, made, packet, process, create, -, rfl, rfl, rfl⟩ :=
    wireguardifNetworkRx_answer sized answered
  obtain ⟨known, -, -, t, -, -, -, took⟩ :=
    (wireguardProcessInitiationMessage_eq_some_iff _ _ _ _).mp process
  have fresh := wireguardCreateHandshakeResponse_fresh create
  obtain ⟨_, -, -, -, -, -, -, -, -, -, frame⟩ := wireguardCreateHandshakeResponse_some create
  have known' : made.peer.valid = true := by
    rw [frame, took]
    exact known
  have sources : made.peer.allowedSourceIps = b.peer.allowedSourceIps := by
    rw [frame, took]
    rfl
  have waits := startSession_waiting known' fresh env.sendResponse.sessionNow
  rw [newKeypair_responder, sources] at waits
  exact ⟨made.peer.handshake.localIndex, made.peer.handshake.remoteIndex, waits⟩

/-! ### Receiving -/

theorem WireguardKeypair.receives_of {now : UInt32} (receiving : k.receivingValid = true)
    (young : wireguardExpired now k.keypairMillis rejectAfterTime = false)
    (room : k.sendingCounter < rejectAfterMessages) : k.receives now = true := by
  rw [receives, receiving, young, decide_eq_true room]
  rfl

/-- What came last is not looked at by the check. -/
theorem wireguardCheckReplay_lastRx (k : WireguardKeypair) (rx : UInt32) (n : UInt64) :
    wireguardCheckReplay { k with lastRx := rx } n =
      ({ (wireguardCheckReplay k n).1 with lastRx := rx }, (wireguardCheckReplay k n).2) := by
  simp only [wireguardCheckReplay]
  split_ifs <;> rfl

private theorem Permitted.sourceOk {slack : Bytes} (h : Permitted allowed pkt slack)
    {peer : WireguardPeer} (sources : peer.allowedSourceIps = allowed) :
    (peer.sourceOk (pkt ++ slack)).2 ≤ pkt.length ∧ (peer.sourceOk (pkt ++ slack)).1 = true := by
  obtain rfl := sources
  exact h

/-- A datagram under a key pair that is found is opened with it. -/
private theorem wireguardifNetworkRx_datagram (n : UInt64) (pkt : Bytes) (addr : IpAddr)
    (port : UInt16) {slot : KeypairSlot} (looked : peerLookupByReceiver d k.localIndex = true)
    (found : d.peer.getPeerKeypairForIdx k.localIndex = some slot) (here : d.peer.keypair slot = k)
    {env : NetworkEnv} (receives : k.receives env.data.expiredNow = true)
    (memory : env.data.pbuf = true) :
    let data := transportDatagram k.localIndex k.receivingKey n pkt
    Opens d data env.data slot pkt ∧ wireguardifNetworkRx d data addr port env =
      wireguardifProcessDataMessage d data addr port env.data := by
  obtain rfl := here
  refine ⟨⟨?_, receives, memory, ?_⟩, ?_⟩
  · rw [transportDatagram_receiver]
    exact found
  · rw [transportDatagram_counter]
    exact transportDatagram_opened
  · rw [wireguardifNetworkRx_transport addr port env transportDatagram_type,
      transportDatagram_receiver, if_pos looked]

/-- The first packet under a key that waits takes it into use, and is handed on. -/
theorem Waiting.receive (h : Waiting d allowed k) {env : NetworkEnv}
    (receives : k.receives env.data.expiredNow = true) (memory : env.data.pbuf = true)
    (heard : env.data.rxNow ≠ 0) (some : pkt ≠ []) (passes : (wireguardCheckReplay {} n).2 = true)
    (permitted : Permitted allowed pkt env.data.slack) (addr : IpAddr) (port : UInt16) :
    ∃ d', wireguardifNetworkRx d (transportDatagram k.localIndex k.receivingKey n pkt) addr port
        env = (d', [.input k.receivingKey n pkt]) ∧
      Speaking d' allowed { k with lastRx := env.data.rxNow } := by
  obtain ⟨known, sources, valid, rfl, found⟩ := h
  have looked : peerLookupByReceiver d d.peer.nextKeypair.localIndex = true := by
    rw [peerLookupByReceiver, known, valid, beq_self_eq_true, Bool.and_true, Bool.or_true]
    rfl
  obtain ⟨opens, handed⟩ :=
    wireguardifNetworkRx_datagram n pkt addr port looked found rfl receives memory
  have used := current_of_next addr port opens some
  rw [handed]
  refine ⟨_, Prod.ext rfl ?_, used.valid.trans known, used.sources.trans sources, valid, used.curr,
    .inr heard⟩
  obtain ⟨length, source⟩ := permitted.sourceOk sources
  -- the check is made against the key pair that is destroyed
  have gone : (d.peer.packetReceived .next addr port env.data).keypair .next = {} := rfl
  rw [wireguardifProcessDataMessage_of_opens opens some, gone, transportDatagram_counter, passes,
    packetReceived_sourceOk, decide_eq_true length, source]
  rfl

/-- A packet under the key in use is handed on if its counter passes the check. -/
theorem Speaking.receive (h : Speaking d allowed k) {k' : WireguardKeypair} {passes : Bool}
    (check : wireguardCheckReplay k n = (k', passes)) {env : NetworkEnv}
    (receives : k.receives env.data.expiredNow = true) (memory : env.data.pbuf = true)
    (heard : env.data.rxNow ≠ 0) (some : pkt ≠ [])
    (permitted : Permitted allowed pkt env.data.slack) (addr : IpAddr) (port : UInt16) :
    ∃ d', wireguardifNetworkRx d (transportDatagram k.localIndex k.receivingKey n pkt) addr port
        env = (d', if passes then [.input k.receivingKey n pkt] else []) ∧
      Speaking d' allowed { k' with lastRx := env.data.rxNow } := by
  obtain ⟨known, sources, valid, rfl, -⟩ := h
  have looked := peerLookupByReceiver_curr known valid rfl
  have found := getPeerKeypairForIdx_curr valid rfl
  obtain ⟨opens, handed⟩ :=
    wireguardifNetworkRx_datagram n pkt addr port looked found rfl receives memory
  have used := current_of_curr addr port opens some
  rw [transportDatagram_counter, wireguardCheckReplay_lastRx, check] at used
  have valid' : k'.valid = true := by
    rw [← wireguardCheckReplay_valid d.peer.currKeypair n, check] at valid
    exact valid
  rw [handed]
  refine ⟨_, Prod.ext rfl ?_, used.valid.trans known, used.sources.trans sources, valid',
    used.curr, .inr heard⟩
  obtain ⟨length, source⟩ := permitted.sourceOk sources
  have here : (d.peer.packetReceived .curr addr port env.data).keypair .curr =
      { d.peer.currKeypair with lastRx := env.data.rxNow } := by
    rw [WireguardPeer.packetReceived_keypair _ _ _ _ (by decide), Function.update_self]
    rfl
  rw [wireguardifProcessDataMessage_of_opens opens some, here, transportDatagram_counter,
    wireguardCheckReplay_lastRx, check, packetReceived_sourceOk, decide_eq_true length, source,
    Bool.and_true, Bool.and_true]
  rfl

/-! ### Sending -/

/-- A packet is sent under the key in use and its next counter. -/
theorem Speaking.output (h : Speaking d allowed k) {ipaddr : Ip4}
    (reaches : allowed.toList.any (·.holds ipaddr) = true) {env : OutputEnv}
    (young : wireguardExpired env.expiredNow k.keypairMillis rejectAfterTime = false)
    (room : k.sendingCounter < rejectAfterMessages) (memory : env.pbuf = true)
    (sent : env.udp = .ok) (q : Bytes) :
    ∃ d', wireguardifOutput d q ipaddr env =
        (d', .ok, [.encrypt k.sendingKey k.sendingCounter (paddedPacket q),
          .send (transportDatagram k.remoteIndex k.sendingKey k.sendingCounter (paddedPacket q))
            d.peer.ip d.peer.port]) ∧
      Speaking d' allowed
        { k with sendingCounter := k.sendingCounter + 1, lastTx := env.txNow } := by
  obtain ⟨known, rfl, valid, rfl, confirmed⟩ := h
  have found : peerLookupByAllowedIp d ipaddr = true := by
    rw [peerLookupByAllowedIp, known, reaches]
    rfl
  have ready : d.peer.currKeypair.initiator = true ∨ (d.peer.currKeypair.lastRx != 0) = true :=
    confirmed.imp id bne_iff_ne.mpr
  have slot : d.peer.sendingSlot = .curr := by
    rw [WireguardPeer.sendingSlot, if_neg]
    simp only [Bool.and_eq_true, Bool.not_eq_true', beq_iff_eq, not_and]
    rintro ⟨-, responder⟩ unheard
    rcases confirmed with initiator | heard
    · exact Bool.false_ne_true (responder.symm.trans initiator)
    · exact heard unheard
  have may : ((d.peer.keypair .curr).valid &&
      ((d.peer.keypair .curr).initiator || (d.peer.keypair .curr).lastRx != 0)) = true :=
    Bool.and_eq_true_iff.mpr ⟨valid, Bool.or_eq_true_iff.mpr ready⟩
  have still : (!wireguardExpired env.expiredNow (d.peer.keypair .curr).keypairMillis
      rejectAfterTime && decide ((d.peer.keypair .curr).sendingCounter < rejectAfterMessages)) =
      true :=
    Bool.and_eq_true_iff.mpr ⟨(Bool.not_eq_true' _).mpr young, decide_eq_true room⟩
  rw [wireguardifOutput, if_pos found, wireguardifOutputToPeer, slot]
  dsimp only
  rw [if_pos may, if_pos still, if_pos memory, if_pos sent, sent]
  exact ⟨_, rfl, known, rfl, valid, rfl, confirmed⟩

/-- A packet that one end of a session is given comes out of the other, if the counter it is sent
under is new there and its source allowed. -/
theorem Matched.delivers {a : WireguardDevice} {allowed' : Vector WireguardAllowedIp 2}
    {k' : WireguardKeypair} (matched : Matched k k') (ha : Speaking a allowed k)
    (hb : Speaking b allowed' k') {ipaddr : Ip4}
    (reaches : allowed.toList.any (·.holds ipaddr) = true) {env : OutputEnv} {env' : NetworkEnv}
    (young : wireguardExpired env.expiredNow k.keypairMillis rejectAfterTime = false)
    (room : k.sendingCounter < rejectAfterMessages) (memory : env.pbuf = true)
    (sent : env.udp = .ok) (receives : k'.receives env'.data.expiredNow = true)
    (memory' : env'.data.pbuf = true) (heard : env'.data.rxNow ≠ 0) {q : Bytes}
    (some : paddedPacket q ≠ []) (permitted : Permitted allowed' (paddedPacket q) env'.data.slack)
    (new : (wireguardCheckReplay k' k.sendingCounter).2 = true) (addr : IpAddr) (port : UInt16) :
    ∃ datagram, (wireguardifOutput a q ipaddr env).2.2 =
        [.encrypt k.sendingKey k.sendingCounter (paddedPacket q),
          .send datagram a.peer.ip a.peer.port] ∧
      (wireguardifNetworkRx b datagram addr port env').2 =
        [.input k'.receivingKey k.sendingCounter (paddedPacket q)] := by
  obtain ⟨_, result, -⟩ := ha.output reaches young room memory sent q
  have check : wireguardCheckReplay k' k.sendingCounter =
      ((wireguardCheckReplay k' k.sendingCounter).1, true) := Prod.ext rfl new
  obtain ⟨_, handed, -⟩ := hb.receive check receives memory' heard some permitted addr port
  rw [if_pos rfl] at handed
  rw [result, matched.theirs, matched.sending]
  exact ⟨_, rfl, congrArg Prod.snd handed⟩

/-! ### An exchange -/

/-- The peer with this private key, at any address, and without a preshared key. -/
def peerOf (k : Bytes) : WireguardifPeer where
  publicKey := base64Encode (wireguardX25519 k basepoint).1
  presharedKey := none
  greatestTimestamp := List.replicate 12 0
  allowedIp := .v4 Ip4.any
  allowedMask := .v4 Ip4.any
  endpointIp := .v4 Ip4.any
  endportPort := 51820
  keepAlive := 0

theorem peerOf_known (k : Bytes) :
    base64Decode 32 (peerOf k).publicKey = some (wireguardX25519 k basepoint).1 := by
  have length := @length_wireguardX25519 basepoint rfl k
  dsimp only [peerOf]
  generalize (wireguardX25519 k basepoint).1 = key at length ⊢
  exact base64Decode_encode length.le

/-- The clock shows one second, and no memory is short. -/
def exchangeEnv : NetworkEnv :=
  { (default : NetworkEnv) with
    initiationNow := 1000
    sendResponse := ⟨⟨zeroKey, default, 0⟩, 1000, true⟩
    data := ⟨1000, true, 1000, 1000, []⟩ }

/-- What a device does whose peer starts a handshake, sends two packets, each of which comes twice,
and is sent two. -/
def exchangeCalls (peer : WireguardifPeer) (initiation : Bytes) (index : UInt32) (key : Bytes) :
    List WireguardifCall :=
  let rx (n : UInt64) : WireguardifCall :=
    .networkRx (transportDatagram index key n innerPacket) (.v4 Ip4.any) 51820 exchangeEnv
  let output : WireguardifCall := .output innerPacket Ip4.any ⟨1000, true, .ok, 1000, 1000⟩
  [.addPeer peer, .networkRx initiation (.v4 Ip4.any) 51820 exchangeEnv, rx 0, rx 0, rx 1, rx 1,
    output, output]

/-- Between two devices that are just set up there is an initiation that is accepted and answered. -/
theorem exists_initiation {k k' : Bytes} (hk : k.length = 32) (hk' : k'.length = 32)
    (set : k ≠ zeroKey) (set' : k' ≠ zeroKey) :
    let b := (wireguardifAddPeer (wireguardDeviceInit k' zeroKey 0) (peerOf k)).1
    ∃ first, wireguardGetMessageType first = .handshakeInitiation ∧
      b.accepts (.networkRx first (.v4 Ip4.any) 51820 exchangeEnv) =
        some (first, wireguardTai64nNow 0 0) ∧
      ∃ b' sendingKey receivingKey second ours theirs,
        wireguardifNetworkRx b first (.v4 Ip4.any) 51820 exchangeEnv =
          (b', [.session sendingKey receivingKey false, .send second (.v4 Ip4.any) 51820]) ∧
        Waiting b' #v[⟨true, .v4 Ip4.any, .v4 Ip4.any⟩, {}]
          { valid := true, keypairMillis := 1000, sendingKey := sendingKey, sendingValid := true
            receivingKey := receivingKey, receivingValid := true
            localIndex := ours, remoteIndex := theirs } := by
  obtain ⟨ca, -, -, -⟩ := configured_addPeer hk hk' set zeroKey 0 (peerOf_known k')
  obtain ⟨cb, timestamp, last, sources⟩ :=
    configured_addPeer hk' hk set' zeroKey 0 (peerOf_known k)
  generalize (wireguardifAddPeer (wireguardDeviceInit k zeroKey 0) (peerOf k')).1 = a at ca
  generalize (wireguardifAddPeer (wireguardDeviceInit k' zeroKey 0) (peerOf k)).1 = b
    at cb timestamp last sources ⊢
  dsimp only
  have hab := ca.paired hk cb
  have hba := cb.paired hk' ca
  have ha : a.privateKey.length = 32 := by
    rw [ca.privateKey]
    exact length_clamp hk
  have hb : b.privateKey.length = 32 := by
    rw [cb.privateKey]
    exact length_clamp hk'
  have later : b.peer.greatestTimestamp < wireguardTai64nNow 0 0 := by
    rw [timestamp]
    show List.replicate 12 0 < wireguardTai64nNow 0 0
    decide
  have spaced : ¬ b.peer.lastInitiationRx - 1000 < 1000 / 2 := by
    rw [last]
    decide
  obtain ⟨made, msg, create, -⟩ :=
    @Paired.starts a b hab hba hb ⟨⟨zeroKey, 0, 0, default, 0⟩, true, 0⟩ rfl rfl
  have sized := hab.sized_initiation create
  have accepted := @Paired.accepts a b made hab hba hb _ msg rfl create exchangeEnv later spaced
    (.v4 Ip4.any) 51820
  obtain ⟨b', second, sendingKey, receivingKey, answered⟩ :=
    @Paired.answers a b made hab hba ha hb _ msg rfl create exchangeEnv rfl rfl later spaced
      (.v4 Ip4.any) 51820
  obtain ⟨ours, theirs, waits⟩ := wireguardifNetworkRx_waiting sized answered
  rw [sources] at waits
  exact ⟨msg.toBytes, sized.messageType, accepted, b', sendingKey, receivingKey, second, ours,
    theirs, answered, waits⟩

/-- The key pair of the exchange, by its window, its counter and the last times. -/
private def exchangeKeypair (sendingKey receivingKey : Bytes) (ours theirs : UInt32)
    (bitmap : UInt32) (top sent : UInt64) (rx tx : UInt32) : WireguardKeypair where
  valid := true
  keypairMillis := 1000
  sendingKey := sendingKey
  sendingValid := true
  sendingCounter := sent
  receivingKey := receivingKey
  receivingValid := true
  lastTx := tx
  lastRx := rx
  replayBitmap := bitmap
  replayCounter := top
  localIndex := ours
  remoteIndex := theirs

section Exchange

variable {sendingKey receivingKey : Bytes} {ours theirs bitmap rx tx : UInt32}
  {top sent : UInt64}

private theorem young : wireguardExpired 1000 1000 rejectAfterTime = false := by decide

private theorem exchange_receives :
    (exchangeKeypair sendingKey receivingKey ours theirs bitmap top 0 rx tx).receives
      exchangeEnv.data.expiredNow = true := by
  have room : (0 : UInt64) < rejectAfterMessages := by decide
  exact WireguardKeypair.receives_of rfl young room

private theorem exchange_permitted :
    Permitted #v[⟨true, .v4 Ip4.any, .v4 Ip4.any⟩, {}] innerPacket [] :=
  ⟨by decide, by decide⟩

private theorem exchange_receive (n : UInt64) (bitmap' : UInt32) (top' : UInt64) (passes : Bool)
    (h : Speaking d #v[⟨true, .v4 Ip4.any, .v4 Ip4.any⟩, {}]
      (exchangeKeypair sendingKey receivingKey ours theirs bitmap top 0 1000 0))
    (check : wireguardCheckReplay
        (exchangeKeypair sendingKey receivingKey ours theirs bitmap top 0 1000 0) n =
      (exchangeKeypair sendingKey receivingKey ours theirs bitmap' top' 0 1000 0, passes)) :
    ∃ d', d.call (.networkRx (transportDatagram ours receivingKey n innerPacket) (.v4 Ip4.any)
        51820 exchangeEnv) = (d', if passes then [.input receivingKey n innerPacket] else []) ∧
      Speaking d' #v[⟨true, .v4 Ip4.any, .v4 Ip4.any⟩, {}]
        (exchangeKeypair sendingKey receivingKey ours theirs bitmap' top' 0 1000 0) :=
  h.receive check exchange_receives rfl (by decide) (by decide) exchange_permitted (.v4 Ip4.any)
    51820

private theorem exchange_output
    (h : Speaking d #v[⟨true, .v4 Ip4.any, .v4 Ip4.any⟩, {}]
      (exchangeKeypair sendingKey receivingKey ours theirs bitmap top sent 1000 tx))
    (room : sent < rejectAfterMessages) :
    ∃ d' datagram ip port,
      d.call (.output innerPacket Ip4.any ⟨1000, true, .ok, 1000, 1000⟩) =
        (d', [.encrypt sendingKey sent (paddedPacket innerPacket), .send datagram ip port]) ∧
      Speaking d' #v[⟨true, .v4 Ip4.any, .v4 Ip4.any⟩, {}]
        (exchangeKeypair sendingKey receivingKey ours theirs bitmap top (sent + 1) 1000 1000) := by
  obtain ⟨d', output, spoken⟩ :=
    @Speaking.output d _ _ h Ip4.any (by decide) ⟨1000, true, .ok, 1000, 1000⟩ young room rfl rfl
      innerPacket
  rw [WireguardDevice.call, output]
  exact ⟨d', _, _, _, rfl, spoken⟩

end Exchange

private theorem WireguardDevice.call_networkRx (d : WireguardDevice) (data : Bytes) (addr : IpAddr)
    (port : UInt16) (env : NetworkEnv) :
    d.call (.networkRx data addr port env) = wireguardifNetworkRx d data addr port env := rfl

/-- The effects of a call, and of those after it. -/
private theorem calls_of_call {d d' : WireguardDevice} {c : WireguardifCall}
    {effects : List Effect} (h : d.call c = (d', effects)) (cs : List WireguardifCall) :
    (d.calls (c :: cs)).2 = effects ++ (d'.calls cs).2 := by
  rw [WireguardDevice.calls, h]

/-- The whole exchange: the first packet comes through twice, the second once, and the two packets
out have their own counters. -/
theorem exists_exchange {k k' : Bytes} (hk : k.length = 32) (hk' : k'.length = 32)
    (set : k ≠ zeroKey) (set' : k' ≠ zeroKey) :
    ∃ first index key sendingKey second datagram ip port datagram' ip' port',
      wireguardGetMessageType first = .handshakeInitiation ∧
        ((wireguardDeviceInit k' zeroKey 0).calls (exchangeCalls (peerOf k) first index key)).2 =
          [.session sendingKey key false, .send second (.v4 Ip4.any) 51820,
            .input key 0 innerPacket, .input key 0 innerPacket, .input key 1 innerPacket,
            .encrypt sendingKey 0 (paddedPacket innerPacket), .send datagram ip port,
            .encrypt sendingKey 1 (paddedPacket innerPacket), .send datagram' ip' port'] := by
  obtain ⟨first, kind, -, b', sendingKey, key, second, index, theirs, answered, waits⟩ :=
    exists_initiation hk hk' set set'
  generalize hb : (wireguardifAddPeer (wireguardDeviceInit k' zeroKey 0) (peerOf k)).1 = b
    at answered
  have added : (wireguardDeviceInit k' zeroKey 0).call (.addPeer (peerOf k)) = (b, []) := by
    rw [WireguardDevice.call, hb]
  rw [← WireguardDevice.call_networkRx] at answered
  change Waiting b' _ (exchangeKeypair sendingKey key index theirs 0 0 0 0 0) at waits
  obtain ⟨d₀, rx₀, s₀⟩ : ∃ d', wireguardifNetworkRx b' (transportDatagram index key 0 innerPacket)
        (.v4 Ip4.any) 51820 exchangeEnv = (d', [.input key 0 innerPacket]) ∧
      Speaking d' _ (exchangeKeypair sendingKey key index theirs 0 0 0 1000 0) :=
    waits.receive exchange_receives rfl (by decide) (by decide) (by decide) exchange_permitted
      (.v4 Ip4.any) 51820
  rw [← WireguardDevice.call_networkRx] at rx₀
  obtain ⟨d₁, rx₁, s₁⟩ := exchange_receive 0 1 1 true s₀
    (by simp [wireguardCheckReplay, exchangeKeypair])
  obtain ⟨d₂, rx₂, s₂⟩ := exchange_receive 1 3 2 true s₁
    (by simp [wireguardCheckReplay, exchangeKeypair]; decide)
  obtain ⟨d₃, rx₃, s₃⟩ := exchange_receive 1 3 2 false s₂
    (by simp [wireguardCheckReplay, exchangeKeypair]; decide)
  obtain ⟨d₄, datagram, ip, port, tx₀, s₄⟩ := exchange_output s₃ (by decide)
  obtain ⟨d₅, datagram', ip', port', tx₁, -⟩ := exchange_output s₄ (by decide)
  refine ⟨first, index, key, sendingKey, second, datagram, ip, port, datagram', ip', port', kind, ?_⟩
  rw [exchangeCalls, calls_of_call added, calls_of_call answered, calls_of_call rx₀,
    calls_of_call rx₁, calls_of_call rx₂, calls_of_call rx₃, calls_of_call tx₀, calls_of_call tx₁]
  rfl

/-- The two packets out are encrypted under the counters 0 and 1. -/
theorem encryptCounters_increase_exchange :
    ∃ first index key sendingKey,
      let effects := ((wireguardDeviceInit (16 :: List.replicate 31 0) zeroKey 0).calls
        (exchangeCalls (peerOf (8 :: List.replicate 31 0)) first index key)).2
      encryptCounters sendingKey effects = [0, 1] ∧
        (encryptCounters sendingKey effects).Pairwise (· < ·) := by
  obtain ⟨first, index, key, sendingKey, second, datagram, ip, port, datagram', ip', port', -,
    effects⟩ := @exists_exchange (8 :: List.replicate 31 0) (16 :: List.replicate 31 0) rfl rfl
      (by decide) (by decide)
  refine ⟨first, index, key, sendingKey, ?_, ?_⟩
  · rw [effects]
    simp [encryptCounters, Effect.encryptCounter, List.filterMap_cons]
  · refine (encryptCounters_increase (16 :: List.replicate 31 0) zeroKey 0 _ sendingKey ?_).1
    rw [effects]
    simp [sendingSessions, Effect.startsSending]

/-- Of the packets in, the first comes through twice, and no other counter does. -/
theorem inputCounters_tail_nodup_exchange :
    ∃ first index key,
      let effects := ((wireguardDeviceInit (16 :: List.replicate 31 0) zeroKey 0).calls
        (exchangeCalls (peerOf (8 :: List.replicate 31 0)) first index key)).2
      inputCounters key effects = [0, 0, 1] ∧ (inputCounters key effects).tail.Nodup := by
  obtain ⟨first, index, key, sendingKey, second, datagram, ip, port, datagram', ip', port', kind,
    effects⟩ := @exists_exchange (8 :: List.replicate 31 0) (16 :: List.replicate 31 0) rfl rfl
      (by decide) (by decide)
  refine ⟨first, index, key, ?_, ?_⟩
  · rw [effects]
    simp [inputCounters, Effect.inputCounter, List.filterMap_cons]
  · refine inputCounters_tail_nodup (16 :: List.replicate 31 0) zeroKey 0 _ key ?_ ?_
    · rw [effects]
      simp [receivingSessions, Effect.startsReceiving]
    · -- only the counters 0 and 1 arrive
      have few (n : UInt64) : (∃ pkt, Arrived (exchangeCalls (peerOf (8 :: List.replicate 31 0))
          first index key) key n pkt) → n = 0 ∨ n = 1 := by
        rintro ⟨pkt, data, addr, port, env, called, transport, carries⟩
        simp only [exchangeCalls, List.mem_cons, List.not_mem_nil, or_false, reduceCtorEq,
          false_or, or_self, WireguardifCall.networkRx.injEq] at called
        rcases called with ⟨rfl, -⟩ | ⟨rfl, -⟩ | ⟨rfl, -⟩ | ⟨rfl, -⟩
        · rw [kind] at transport
          cases transport
        · exact .inl carries.counter
        · exact .inl carries.counter
        · exact .inr carries.counter
      intro m n hm hn
      rcases few m hm with rfl | rfl
      · exact Nat.lt_add_left _ (by decide)
      · exact Nat.lt_add_left _ (by decide)

/-- An initiation that comes again is not accepted again. -/
theorem acceptedInitiations_nodup_exchange :
    let b := (wireguardifAddPeer (wireguardDeviceInit (16 :: List.replicate 31 0) zeroKey 0)
      (peerOf (8 :: List.replicate 31 0))).1
    ∃ first timestamp,
      b.acceptedInitiations [.networkRx first (.v4 Ip4.any) 51820 exchangeEnv,
        .networkRx first (.v4 Ip4.any) 51820 exchangeEnv] = [(first, timestamp)] := by
  obtain ⟨first, -, accepted, -⟩ := @exists_initiation (8 :: List.replicate 31 0)
    (16 :: List.replicate 31 0) rfl rfl (by decide) (by decide)
  generalize (wireguardifAddPeer (wireguardDeviceInit (16 :: List.replicate 31 0) zeroKey 0)
    (peerOf (8 :: List.replicate 31 0))).1 = b at accepted ⊢
  refine ⟨first, wireguardTai64nNow 0 0, ?_⟩
  have nodup := (acceptedInitiations_nodup b [.networkRx first (.v4 Ip4.any) 51820 exchangeEnv,
    .networkRx first (.v4 Ip4.any) 51820 exchangeEnv] (by simp [WireguardifCall.keepsPeer])).2
  simp only [WireguardDevice.acceptedInitiations, accepted] at nodup ⊢
  generalize (b.call (.networkRx first (.v4 Ip4.any) 51820 exchangeEnv)).1 = d at nodup ⊢
  cases again : d.accepts (.networkRx first (.v4 Ip4.any) 51820 exchangeEnv) with
  | none => rfl
  | some accepted' =>
    rw [again] at nodup
    have same := accepts_datagram again
    simp [same] at nodup

end Molewire
