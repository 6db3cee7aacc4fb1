/-
# WireGuard: runs

The calls that reach the interface, in any order and with any arguments and answers,
from a device as `wireguard_device_init` leaves it. A sending key that was derived
once in such a run never encrypts two packets under one counter, and stops before
its counters run out.
-/

import Molewire.WireguardSessions

namespace Molewire

open ByteBuffer KeyedRows

/-! ### Calls -/

/-- A call of the interface with its arguments and the answers it gets. -/
inductive WireguardifCall
  | output (q : Bytes) (ipaddr : Ip4) (env : OutputEnv)
  | networkRx (data : Bytes) (addr : IpAddr) (port : UInt16) (env : NetworkEnv)
  | tmr (env : TimerEnv)
  | connect
  | disconnect
  | removePeer
  | updateEndpoint (ip : IpAddr) (port : UInt16)
  | addPeer (p : WireguardifPeer)

/-- The call. -/
def WireguardDevice.call (d : WireguardDevice) : WireguardifCall → WireguardDevice × List Effect
  | .output q ipaddr env => ((wireguardifOutput d q ipaddr env).1,
      (wireguardifOutput d q ipaddr env).2.2)
  | .networkRx data addr port env => wireguardifNetworkRx d data addr port env
  | .tmr env => wireguardifTmr d env
  | .connect => ((wireguardifConnect d).1, [])
  | .disconnect => ((wireguardifDisconnect d).1, [])
  | .removePeer => ((wireguardifRemovePeer d).1, [])
  | .updateEndpoint ip port => ((wireguardifUpdateEndpoint d ip port).1, [])
  | .addPeer p => ((wireguardifAddPeer d p).1, [])

/-- The device after some calls, and their effects in order. -/
def WireguardDevice.calls (d : WireguardDevice) :
    List WireguardifCall → WireguardDevice × List Effect
  | [] => (d, [])
  | c :: cs =>
    let rest := (d.call c).1.calls cs
    (rest.1, (d.call c).2 ++ rest.2)

/-! ### The table of a call -/

/-- The port is never under load, so a message is judged by its `mac1`. -/
theorem wireguardifCheckMessage_eq (d : WireguardDevice) (data : Bytes) (len : Nat)
    (addr : IpAddr) (port : UInt16) (env : CheckEnv) :
    wireguardifCheckMessage d data len addr port env =
      (d, wireguardCheckMac1 d (data.take (len - 32)) (span data (len - 32) 16), []) := by
  rw [wireguardifCheckMessage, wireguardIsUnderLoad]
  cases wireguardCheckMac1 d (data.take (len - 32)) (span data (len - 32) 16) <;> rfl

variable {authentic : Bytes → UInt64 → Bytes → Prop}

theorem wireguardProcessInitiationMessage_keypair {d d' : WireguardDevice}
    {msg : MessageHandshakeInitiation} {now : UInt32}
    (h : wireguardProcessInitiationMessage d msg now = some d') :
    d'.peer.keypair = d.peer.keypair := by
  obtain ⟨_, _, _, t, _, _, _, eq⟩ := (wireguardProcessInitiationMessage_eq_some_iff _ _ _ _).mp h
  rw [eq, WireguardDevice.initiated_keypair]

theorem wireguardifNetworkRx_goes (d : WireguardDevice) (data : Bytes) (addr : IpAddr)
    (port : UInt16) (env : NetworkEnv)
    (hauth : wireguardGetMessageType data = .transportData →
      ∀ key n pkt, Carries data key n pkt → authentic key n pkt) :
    Goes authentic d.peer.keypair (wireguardifNetworkRx d data addr port env).2
      (wireguardifNetworkRx d data addr port env).1.peer.keypair := by
  rw [wireguardifNetworkRx]
  cases kind : wireguardGetMessageType data with
  | invalid => exact .refl rfl
  | handshakeInitiation =>
    simp only [wireguardifCheckMessage_eq]
    split
    case isFalse => exact .refl rfl
    case isTrue =>
      cases taken : wireguardProcessInitiationMessage d (.ofBytes data) env.initiationNow with
      | none => exact .refl rfl
      | some d' =>
        rw [← wireguardProcessInitiationMessage_keypair taken]
        exact wireguardifSendHandshakeResponse_goes
          { d' with peer := d'.peer.updateAddr addr port } env.sendResponse
  | handshakeResponse =>
    simp only [wireguardifCheckMessage_eq]
    split
    case isFalse => exact .refl rfl
    case isTrue =>
      split
      · exact wireguardifProcessResponseMessage_goes d _ addr port env.response
      · exact .refl rfl
  | cookieReply =>
    dsimp only
    split
    · cases taken : wireguardProcessCookieMessage d (.ofBytes data) env.cookieNow with
      | none => exact .refl rfl
      | some d' =>
        simp only [wireguardProcessCookieMessage, guard, Option.bind_eq_bind,
          Option.bind_eq_some_iff, Option.pure_def, Option.some.injEq] at taken
        obtain ⟨_, _, _, _, rfl⟩ := taken
        exact .refl rfl
    · exact .refl rfl
  | transportData =>
    dsimp only
    split
    · exact wireguardifProcessDataMessage_goes d data addr port env.data (hauth kind)
    · exact .refl rfl

private theorem Goes.destroyKeypairs (peer : WireguardPeer) :
    Goes authentic peer.keypair [] peer.destroyKeypairs.keypair := by
  simp only [WireguardPeer.destroyKeypairs, WireguardPeer.keypairDestroy,
    WireguardPeer.keypair_setKeypair]
  exact (Goes.destroy .next).trans ((Goes.destroy .curr).trans (.destroy .prev))

theorem wireguardifTmr_goes (d : WireguardDevice) (env : TimerEnv) :
    Goes authentic d.peer.keypair (wireguardifTmr d env).2
      (wireguardifTmr d env).1.peer.keypair := by
  rw [wireguardifTmr]
  split
  case isFalse => exact .refl rfl
  case isTrue =>
    -- one part of the timer after the other
    have reset : Goes authentic d.peer.keypair [] (if shouldResetPeer d.peer env.resetNow then
        { d with peer := d.peer.destroyKeypairs.updateAddr d.peer.connectIp d.peer.connectPort }
        else d).peer.keypair := by
      split
      · exact Goes.destroyKeypairs d.peer
      · exact .refl rfl
    dsimp only
    generalize (if shouldResetPeer d.peer env.resetNow then
      { d with peer := d.peer.destroyKeypairs.updateAddr d.peer.connectIp d.peer.connectPort }
      else d) = d1 at reset ⊢
    have destroyed : Goes authentic d1.peer.keypair []
        (if shouldDestroyCurrentKeypair d1.peer env.destroyNow then
          { d1 with peer := d1.peer.keypairDestroy .curr } else d1).peer.keypair := by
      split
      · simp only [WireguardPeer.keypairDestroy, WireguardPeer.keypair_setKeypair]
        exact .destroy .curr
      · exact .refl rfl
    generalize (if shouldDestroyCurrentKeypair d1.peer env.destroyNow then
      { d1 with peer := d1.peer.keypairDestroy .curr } else d1) = d2 at destroyed ⊢
    have kept : Goes authentic d2.peer.keypair
        (if shouldSendKeepalive d2.peer env.keepaliveNow then
          wireguardifSendKeepalive d2 env.keepalive else (d2, [])).2
        (if shouldSendKeepalive d2.peer env.keepaliveNow then
          wireguardifSendKeepalive d2 env.keepalive else (d2, [])).1.peer.keypair := by
      split
      · exact wireguardifSendKeepalive_goes d2 env.keepalive
      · exact .refl rfl
    generalize (if shouldSendKeepalive d2.peer env.keepaliveNow then
      wireguardifSendKeepalive d2 env.keepalive else (d2, [])) = d3 at kept ⊢
    have started : Goes authentic d3.1.peer.keypair
        (if shouldSendInitiation d3.1.peer env.canNow env.expiredNow then
          wireguardStartHandshake d3.1 env.start else (d3.1, [])).2
        (if shouldSendInitiation d3.1.peer env.canNow env.expiredNow then
          wireguardStartHandshake d3.1 env.start else (d3.1, [])).1.peer.keypair := by
      split
      · exact wireguardStartHandshake_goes d3.1 env.start
      · exact .refl rfl
    exact (reset.trans destroyed).trans (kept.trans started)

/-- Adding a peer leaves the session keys alone, or there are none afterwards. -/
theorem wireguardifAddPeer_keypair (d : WireguardDevice) (p : WireguardifPeer) :
    (wireguardifAddPeer d p).1.peer.keypair = d.peer.keypair ∨
      ∀ slot, (wireguardifAddPeer d p).1.peer.keypair slot = {} := by
  have clear (key : Bytes) (psk : Option Bytes) (slot : KeypairSlot) :
      (wireguardPeerInit d key psk).keypair slot = {} := by
    rw [wireguardPeerInit]
    dsimp only
    split
    · split <;> cases slot <;> rfl
    · cases slot <;> rfl
  have kept (peer : WireguardPeer) (ip mask : IpAddr) (slot : KeypairSlot) :
      (peerAddIp peer ip mask).1.keypair slot = peer.keypair slot := by
    rw [peerAddIp]
    split
    · rfl
    · split
      · cases slot <;> rfl
      · rfl
  rw [wireguardifAddPeer]
  split
  · exact .inl rfl
  case h_2 publicKey _ =>
    split
    case isFalse => exact .inl rfl
    case isTrue =>
      split
      case isTrue => exact .inl rfl
      case isFalse =>
        split
        case isTrue => exact .inl rfl
        case isFalse =>
          dsimp only
          split
          · refine .inr fun slot => ?_
            have added := kept
              { wireguardPeerInit d publicKey p.presharedKey with
                connectIp := p.endpointIp
                connectPort := p.endportPort
                ip := p.endpointIp
                port := p.endportPort
                keepaliveInterval := if p.keepAlive = 0xFFFF then 10 else p.keepAlive }
              p.allowedIp p.allowedMask slot
            have init := clear publicKey p.presharedKey slot
            cases slot <;> exact added.trans init
          · exact .inr (clear publicKey p.presharedKey)

/-- Where all keys are clear, the table is empty. -/
theorem sessionRows_clear {kp : KeypairSlot → WireguardKeypair} (h : ∀ slot, kp slot = {}) :
    sessionRows kp = 0 := by
  rw [sessionRows, h, h, h]
  rfl

private theorem Goes.clear {kp kp' : KeypairSlot → WireguardKeypair} (h : ∀ slot, kp' slot = {}) :
    Goes authentic kp [] kp' :=
  ⟨[], Leads.refl.forget (by rw [sessionRows_clear h]; exact Multiset.zero_le _), rfl⟩

/-- A call is a run of the table, where the datagram it may bring is authentic. -/
theorem WireguardDevice.call_goes (d : WireguardDevice) (c : WireguardifCall)
    (hauth : ∀ data addr port env, c = .networkRx data addr port env →
      wireguardGetMessageType data = .transportData →
      ∀ key n pkt, Carries data key n pkt → authentic key n pkt) :
    Goes authentic d.peer.keypair (d.call c).2 (d.call c).1.peer.keypair := by
  cases c with
  | output q ipaddr env =>
    rw [WireguardDevice.call, wireguardifOutput]
    split
    · exact wireguardifOutputToPeer_goes d (some q) env
    · exact .refl rfl
  | networkRx data addr port env =>
    exact wireguardifNetworkRx_goes d data addr port env (hauth data addr port env rfl)
  | tmr env => exact wireguardifTmr_goes d env
  | connect =>
    rw [WireguardDevice.call, wireguardifConnect]
    split
    · split
      · exact .refl rfl
      · exact .refl rfl
    · exact .refl rfl
  | disconnect =>
    rw [WireguardDevice.call, wireguardifDisconnect]
    split
    · exact Goes.destroyKeypairs { d.peer with active := false }
    · exact .refl rfl
  | removePeer =>
    rw [WireguardDevice.call, wireguardifRemovePeer]
    split
    · exact Goes.clear fun slot => by cases slot <;> rfl
    · exact .refl rfl
  | updateEndpoint ip port =>
    rw [WireguardDevice.call, wireguardifUpdateEndpoint]
    split
    · exact .refl rfl
    · exact .refl rfl
  | addPeer p =>
    rcases wireguardifAddPeer_keypair d p with same | clear
    · exact .same same rfl
    · exact .clear clear

/-- Some transport datagram of the calls carries a counter and a packet that authenticates under a
key. -/
def Arrived (cs : List WireguardifCall) (key : Bytes) (n : UInt64) (pkt : Bytes) : Prop :=
  ∃ data addr port env, .networkRx data addr port env ∈ cs ∧
    wireguardGetMessageType data = .transportData ∧ Carries data key n pkt

theorem WireguardDevice.calls_goes (d : WireguardDevice) (cs : List WireguardifCall)
    (hauth : ∀ key n pkt, Arrived cs key n pkt → authentic key n pkt) :
    Goes authentic d.peer.keypair (d.calls cs).2 (d.calls cs).1.peer.keypair := by
  induction cs generalizing d with
  | nil => exact .refl rfl
  | cons c cs ih =>
    have first := d.call_goes c fun data addr port env eq kind key n pkt carries =>
      hauth key n pkt ⟨data, addr, port, env, eq ▸ List.mem_cons_self, kind, carries⟩
    have rest := ih (d.call c).1 fun key n pkt ⟨data, addr, port, env, hmem, carried⟩ =>
      hauth key n pkt ⟨data, addr, port, env, List.mem_cons_of_mem c hmem, carried⟩
    exact first.trans rest

/-- From a device just set up, the calls are a run of the empty table. -/
theorem wireguardDeviceInit_goes (privateKey secret : Bytes) (now : UInt32)
    (cs : List WireguardifCall) :
    ∃ log, Leads FreshSession (SessionStep (Arrived cs)) 0 log
        (sessionRows ((wireguardDeviceInit privateKey secret now).calls cs).1.peer.keypair) ∧
      log.map entryEffect = keyed ((wireguardDeviceInit privateKey secret now).calls cs).2 := by
  have clear : ∀ slot, (wireguardDeviceInit privateKey secret now).peer.keypair slot = {} := by
    intro slot
    rw [wireguardDeviceInit]
    split <;> cases slot <;> rfl
  obtain ⟨log, run, seen⟩ := (wireguardDeviceInit privateKey secret now).calls_goes cs
    fun _ _ _ received => received
  rw [sessionRows_clear clear] at run
  exact ⟨log, run, seen⟩

/-! ### Counters -/

/-- A session with this sending key is started. -/
def Effect.startsSending (key : Bytes) : Effect → Bool
  | .session sendingKey _ _ => decide (sendingKey = key)
  | _ => false

/-- The counter of a packet encrypted under this key. -/
def Effect.encryptCounter (key : Bytes) : Effect → Option UInt64
  | .encrypt key' n _ => if key' = key then some n else none
  | _ => none

/-- How many sessions were started with this sending key. -/
def sendingSessions (key : Bytes) (effects : List Effect) : Nat :=
  effects.countP (Effect.startsSending key)

/-- The counters packets were encrypted with under a key, in order. -/
def encryptCounters (key : Bytes) (effects : List Effect) : List UInt64 :=
  effects.filterMap (Effect.encryptCounter key)

/-- The counter of an encryption. -/
private def encryptCounter : SessionEvent → Option UInt64
  | .encrypt n _ => some n
  | .input _ _ => none

/-- What is counted by the sending key is seen in the table under the renamed key. -/
private theorem encrypt_log (key : Bytes) {log : List (Entry SessionKeys SessionEvent)}
    {effects : List Effect} (h : log.map entryEffect = keyed effects) :
    opens key (log.map (Entry.rename Prod.fst)) = sendingSessions key effects ∧
      (history key (log.map (Entry.rename Prod.fst))).filterMap encryptCounter =
        encryptCounters key effects := by
  constructor
  · rw [sendingSessions, ← countP_log (fun _ _ _ => rfl) h, opens, List.countP_map]
    apply List.countP_congr
    intro entry _
    cases entry with
    | opened keys => exact Iff.rfl
    | did keys event => cases event <;> exact Iff.rfl
  · rw [encryptCounters, ← filterMap_log (fun _ _ _ => rfl) h, history, List.filterMap_map,
      List.filterMap_filterMap]
    congr 1
    funext entry
    cases entry with
    | opened keys => rfl
    | did keys event =>
      by_cases this : keys.1 = key
      · cases event <;> simp [Entry.rename, entryEffect, encryptCounter, Effect.encryptCounter, this]
      · cases event <;> simp [Entry.rename, entryEffect, Effect.encryptCounter, this]

/-- The steps of a row under its sending key alone. -/
private def SendingStep (authentic : Bytes → UInt64 → Bytes → Prop) (key : Bytes)
    (s : SessionRow) (o : Option SessionEvent) (s' : SessionRow) : Prop :=
  ∃ rest, SessionStep authentic (key, rest) s o s'

/-- The counters of one row rise, and stay below its own. -/
private theorem path_counters {key : Bytes} {s₀ s : SessionRow} {es : List SessionEvent}
    (path : Path (SendingStep authentic) key s₀ es s) :
    (es.filterMap encryptCounter).Pairwise (· < ·) ∧
      ∀ n ∈ es.filterMap encryptCounter, n < s.2.sendingCounter ∧ n < rejectAfterMessages := by
  induction path with
  | refl => exact ⟨.nil, fun n hn => by cases hn⟩
  | silent _ ht ih =>
    refine ⟨ih.1, fun n hn => ?_⟩
    have known := ih.2 n hn
    obtain ⟨_, ht⟩ := ht
    cases ht with
    | retire => exact known
    | promote => exact known
    | touch => exact known
    | accept =>
      simp only [wireguardCheckReplay_sendingCounter]
      exact known
  | did _ ht ih =>
    obtain ⟨_, ht⟩ := ht
    rw [List.filterMap_append]
    cases ht with
    | @encrypt slot k src tx room =>
      have next : k.sendingCounter < k.sendingCounter + 1 := by
        have below := UInt64.lt_iff_toNat_lt.mp room
        have limit : rejectAfterMessages.toNat = 2 ^ 64 - 1 - 2 ^ 13 := by decide
        rw [UInt64.lt_iff_toNat_lt, UInt64.toNat_add]
        simp only [UInt64.reduceToNat]
        omega
      refine ⟨List.pairwise_append.mpr ⟨ih.1, List.pairwise_singleton _ _, ?_⟩, ?_⟩
      · intro n hn m hm
        obtain rfl := List.mem_singleton.mp hm
        exact (ih.2 n hn).1
      · intro n hn
        rcases List.mem_append.mp hn with before | now
        · exact ⟨UInt64.lt_trans (ih.2 n before).1 next, (ih.2 n before).2⟩
        · obtain rfl := List.mem_singleton.mp now
          exact ⟨next, room⟩
    | @promote _ n pkt _ _ _ ho =>
      obtain none | eq := ho
      · cases none
      · obtain rfl := Option.some.inj eq
        rw [show [SessionEvent.input n pkt].filterMap encryptCounter = [] from rfl,
          List.append_nil]
        exact ih
    | @accept _ _ n pkt _ _ _ _ ho =>
      obtain none | eq := ho
      · cases none
      · obtain rfl := Option.some.inj eq
        rw [show [SessionEvent.input n pkt].filterMap encryptCounter = [] from rfl,
          List.append_nil]
        simp only [wireguardCheckReplay_sendingCounter]
        exact ih

/-- In every run, a sending key that was derived at most once encrypts with rising counters, all of
them below the limit. -/
theorem encryptCounters_increase (privateKey secret : Bytes) (now : UInt32)
    (cs : List WireguardifCall) (key : Bytes)
    (once : sendingSessions key
      ((wireguardDeviceInit privateKey secret now).calls cs).2 ≤ 1) :
    (encryptCounters key ((wireguardDeviceInit privateKey secret now).calls cs).2).Pairwise
        (· < ·) ∧
      ∀ n ∈ encryptCounters key ((wireguardDeviceInit privateKey secret now).calls cs).2,
        n < rejectAfterMessages := by
  obtain ⟨log, run, seen⟩ := wireguardDeviceInit_goes privateKey secret now cs
  obtain ⟨opened, counters⟩ := encrypt_log key seen
  have renamed : Leads FreshSession (SendingStep (Arrived cs)) 0
      (log.map (Entry.rename Prod.fst)) _ :=
    run.rename Prod.fst fun keys _ _ _ step => ⟨keys.2, step⟩
  rw [← opened] at once
  rw [← counters]
  -- the table under the sending keys shows what one row did
  rcases renamed.history once with silent | ⟨s₀, s, _, path⟩
  · rw [silent]
    exact ⟨.nil, fun n hn => by cases hn⟩
  · obtain ⟨rising, bounded⟩ := path_counters path
    exact ⟨rising, fun n hn => (bounded n hn).2⟩

/-! ### Authenticity -/

/-- An effect that is no datagram is in the log. -/
private theorem mem_log {log : List (Entry SessionKeys SessionEvent)} {effects : List Effect}
    (h : log.map entryEffect = keyed effects) {e : Effect} (he : e.isSend = false) :
    e ∈ effects ↔ ∃ entry ∈ log, entryEffect entry = e := by
  rw [← List.mem_map, h, keyed, List.mem_filter, he]
  exact (and_iff_left rfl).symm

/-- A row that nothing authentic came for has received nothing. -/
private theorem path_silent {keys : SessionKeys} (nothing : ∀ n pkt, ¬ authentic keys.2.1 n pkt)
    {s₀ s : SessionRow} {es : List SessionEvent} (fresh : FreshSession s₀)
    (path : Path (SessionStep authentic) keys s₀ es s) : s.2.lastRx = 0 := by
  induction path with
  | refl => exact fresh.rx
  | silent _ ht ih =>
    cases ht with
    | retire => exact ih
    | promote _ hn => exact absurd hn (nothing _ _)
    | touch _ hn => exact absurd hn (nothing _ _)
    | accept _ hn => exact absurd hn (nothing _ _)
  | did _ ht ih =>
    cases ht with
    | encrypt => exact ih
    | promote _ hn => exact absurd hn (nothing _ _)
    | accept _ hn => exact absurd hn (nothing _ _)

/-- A packet came in a datagram of the calls, sealed under a key and a counter. -/
def Sealed (cs : List WireguardifCall) (key : Bytes) (n : UInt64) (pkt : Bytes) : Prop :=
  ∃ data addr port env, .networkRx data addr port env ∈ cs ∧ u8to64Little data 8 = n ∧
    data.drop 16 = chacha20poly1305Encrypt pkt [] n key

theorem Arrived.sealed {cs : List WireguardifCall} {key : Bytes} {n : UInt64} {pkt : Bytes}
    (h : Arrived cs key n pkt) : Sealed cs key n pkt := by
  obtain ⟨data, addr, port, env, hmem, -, rfl, opens⟩ := h
  exact ⟨data, addr, port, env, hmem, rfl, encrypt_of_decrypt opens⟩

/-- What is done under a key rests on a session that was started: a packet handed to the IP layer
came sealed under its receiving key, and a responder encrypts only under a session whose keys some
packet has confirmed. -/
structure Genuine (cs : List WireguardifCall) (effects : List Effect) : Prop where
  input : ∀ key n pkt, .input key n pkt ∈ effects →
    (∃ sendingKey initiator, .session sendingKey key initiator ∈ effects) ∧ Sealed cs key n pkt
  encrypt : ∀ key n src, .encrypt key n src ∈ effects →
    ∃ receivingKey initiator, .session key receivingKey initiator ∈ effects ∧
      (initiator = true ∨ ∃ m pkt, Sealed cs receivingKey m pkt)

/-- Every run is genuine, and so is all of it up to any of its calls. -/
theorem calls_genuine (privateKey secret : Bytes) (now : UInt32) (cs : List WireguardifCall) :
    Genuine cs ((wireguardDeviceInit privateKey secret now).calls cs).2 := by
  obtain ⟨log, run, seen⟩ := wireguardDeviceInit_goes privateKey secret now cs
  constructor
  · intro key n pkt h
    obtain ⟨entry, hentry, eq⟩ := (mem_log seen rfl).mp h
    match entry, eq with
    | .did (sendingKey, _, initiator) (.input _ _), rfl =>
      obtain ⟨opened, s₀, s, es, s', _, _, step⟩ := run.path_of_did hentry
      refine ⟨⟨sendingKey, initiator, (mem_log seen rfl).mpr ⟨_, opened, rfl⟩⟩, ?_⟩
      cases step with
      | promote _ hn ho =>
        obtain none | eq := ho
        · cases none
        · cases eq
          exact hn.sealed
      | accept _ hn _ ho =>
        obtain none | eq := ho
        · cases none
        · cases eq
          exact hn.sealed
  · intro key n src h
    obtain ⟨entry, hentry, eq⟩ := (mem_log seen rfl).mp h
    match entry, eq with
    | .did (_, receivingKey, initiator) (.encrypt _ _), rfl =>
      obtain ⟨opened, s₀, s, es, s', fresh, path, step⟩ := run.path_of_did hentry
      refine ⟨receivingKey, initiator, (mem_log seen rfl).mpr ⟨_, opened, rfl⟩, ?_⟩
      cases step with
      | promote _ hn => exact .inr ⟨_, _, hn.sealed⟩
      | accept _ hn => exact .inr ⟨_, _, hn.sealed⟩
      | encrypt _ _ _ ready =>
        rcases ready with initiator | heard
        · exact .inl initiator
        · by_contra none
          have nothing : ∀ m pkt, ¬ Arrived cs receivingKey m pkt :=
            fun m pkt received => none (.inr ⟨m, pkt, received.sealed⟩)
          exact heard (path_silent nothing fresh path)

end Molewire
