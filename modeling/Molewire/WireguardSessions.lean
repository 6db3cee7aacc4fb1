/-
# WireGuard: the sessions of a run

A device holds up to three session keys, which move between their places, are
lost and are replaced. Seen as a table of rows, each under its pair of keys, a
call of the interface opens rows, moves and drops them, and takes single steps on
them. What a row does rests on packets that came in and authenticate under its
receiving key, and this is said with each step.
-/

import Mathlib.Logic.Function.Basic
import Molewire.Library.KeyedRows
import Molewire.WireguardTranscript
import Molewire.Wireguardif

namespace Molewire

open ByteBuffer KeyedRows

/-! ### The table -/

/-- A row: the place of a session key and the key pair. -/
abbrev SessionRow := KeypairSlot × WireguardKeypair

/-- The sending and the receiving key, and whether the device is the initiator. -/
abbrev SessionKeys := Bytes × Bytes × Bool

/-- The keys and the role of a key pair. -/
def WireguardKeypair.keys (k : WireguardKeypair) : SessionKeys :=
  (k.sendingKey, k.receivingKey, k.initiator)

/-- What is seen of a row. -/
inductive SessionEvent
  | encrypt (counter : UInt64) (src : Bytes)
  | input (counter : UInt64) (pkt : Bytes)

/-- The row of one place, if the key there is valid. -/
def sessionRow (slot : KeypairSlot) (k : WireguardKeypair) :
    Multiset (SessionKeys × SessionRow) :=
  if k.valid then {(k.keys, (slot, k))} else 0

/-- The rows of the three places. -/
def sessionRows (kp : KeypairSlot → WireguardKeypair) : Multiset (SessionKeys × SessionRow) :=
  sessionRow .curr (kp .curr) + sessionRow .next (kp .next) + sessionRow .prev (kp .prev)

/-- A session as it starts: the initiator's is used at once, the responder's waits. -/
structure FreshSession (row : SessionRow) : Prop where
  place : row.1 = if row.2.initiator then .curr else .next
  counter : row.2.sendingCounter = 0
  rx : row.2.lastRx = 0
  bitmap : row.2.replayBitmap = 0
  top : row.2.replayCounter = 0

/-- The steps of a row. `authentic` says which packets came with a counter and authenticate under a
receiving key. -/
inductive SessionStep (authentic : Bytes → UInt64 → Bytes → Prop) (keys : SessionKeys) :
    SessionRow → Option SessionEvent → SessionRow → Prop
  | encrypt {slot : KeypairSlot} {k : WireguardKeypair} (src : Bytes) (tx : UInt32)
      (h : k.sendingCounter < rejectAfterMessages) (ready : keys.2.2 = true ∨ k.lastRx ≠ 0) :
      SessionStep authentic keys (slot, k) (some (.encrypt k.sendingCounter src))
        (slot, { k with sendingCounter := k.sendingCounter + 1, lastTx := tx })
  | retire {slot : KeypairSlot} {k : WireguardKeypair} :
      SessionStep authentic keys (slot, k) none (.prev, k)
  | promote {k : WireguardKeypair} {n : UInt64} {pkt : Bytes} (rx : UInt32)
      (hn : authentic keys.2.1 n pkt) {o : Option SessionEvent}
      (ho : o = none ∨ o = some (.input n pkt)) :
      SessionStep authentic keys (.next, k) o (.curr, { k with lastRx := rx })
  | touch {slot : KeypairSlot} {k : WireguardKeypair} {n : UInt64} {pkt : Bytes} (rx : UInt32)
      (hn : authentic keys.2.1 n pkt) :
      SessionStep authentic keys (slot, k) none (slot, { k with lastRx := rx })
  | accept {slot : KeypairSlot} {k : WireguardKeypair} {n : UInt64} {pkt : Bytes}
      (hslot : slot ≠ .next) (hn : authentic keys.2.1 n pkt)
      (h : (wireguardCheckReplay k n).2 = true) {o : Option SessionEvent}
      (ho : o = none ∨ o = some (.input n pkt)) :
      SessionStep authentic keys (slot, k) o (slot, (wireguardCheckReplay k n).1)

/-- An entry of the table's log as the effect of a call. -/
def entryEffect : Entry SessionKeys SessionEvent → Effect
  | .opened keys => .session keys.1 keys.2.1 keys.2.2
  | .did keys (.encrypt n src) => .encrypt keys.1 n src
  | .did keys (.input n pkt) => .input keys.2.1 n pkt

/-- Whether an effect is a datagram sent, which is no entry of the table. -/
def Effect.isSend : Effect → Bool
  | .send .. => true
  | _ => false

/-- The effects that are entries of the table. -/
def keyed (effects : List Effect) : List Effect := effects.filter (!·.isSend)

@[simp] theorem keyed_append (a b : List Effect) : keyed (a ++ b) = keyed a ++ keyed b :=
  List.filter_append ..

/-- A call is a run of the table, with these effects. -/
def Goes (authentic : Bytes → UInt64 → Bytes → Prop) (kp : KeypairSlot → WireguardKeypair)
    (effects : List Effect) (kp' : KeypairSlot → WireguardKeypair) : Prop :=
  ∃ log, Leads FreshSession (SessionStep authentic) (sessionRows kp) log (sessionRows kp') ∧
    log.map entryEffect = keyed effects

variable {authentic : Bytes → UInt64 → Bytes → Prop} {kp kp' kp'' : KeypairSlot → WireguardKeypair}
  {effects effects' : List Effect}

theorem Goes.trans (h : Goes authentic kp effects kp') (h' : Goes authentic kp' effects' kp'') :
    Goes authentic kp (effects ++ effects') kp'' := by
  obtain ⟨log, run, seen⟩ := h
  obtain ⟨log', run', seen'⟩ := h'
  exact ⟨log ++ log', run.trans run', by rw [List.map_append, seen, seen', keyed_append]⟩

theorem Goes.refl (he : keyed effects = []) : Goes authentic kp effects kp := ⟨[], .refl, he.symm⟩

/-- Where no key is touched and nothing is done under one. -/
theorem Goes.same (h : kp' = kp) (he : keyed effects = []) : Goes authentic kp effects kp' :=
  h ▸ .refl he

/-- What is picked from a table's log is picked from the effects, if nothing is from datagrams. -/
theorem filterMap_log {γ : Type*} {pick : Effect → Option γ}
    (hsend : ∀ datagram ip port, pick (.send datagram ip port) = none)
    {log : List (Entry SessionKeys SessionEvent)} (h : log.map entryEffect = keyed effects) :
    log.filterMap (pick ∘ entryEffect) = effects.filterMap pick := by
  rw [← List.filterMap_map, h, keyed, List.filterMap_filter]
  congr 1
  funext effect
  cases effect with
  | send datagram ip port => exact (hsend datagram ip port).symm
  | session => rfl
  | encrypt => rfl
  | input => rfl

theorem countP_log {p : Effect → Bool}
    (hsend : ∀ datagram ip port, p (.send datagram ip port) = false)
    {log : List (Entry SessionKeys SessionEvent)} (h : log.map entryEffect = keyed effects) :
    log.countP (p ∘ entryEffect) = effects.countP p := by
  rw [← List.countP_map, h, keyed, List.countP_filter]
  apply List.countP_congr
  intro effect _
  cases effect with
  | send datagram ip port =>
    rw [hsend datagram ip port]
    exact Iff.rfl
  | session => simp [Effect.isSend]
  | encrypt => simp [Effect.isSend]
  | input => simp [Effect.isSend]

/-! ### One place -/

/-- The rows of the other two places. -/
private def otherRows (kp : KeypairSlot → WireguardKeypair) :
    KeypairSlot → Multiset (SessionKeys × SessionRow)
  | .curr => sessionRow .next (kp .next) + sessionRow .prev (kp .prev)
  | .next => sessionRow .curr (kp .curr) + sessionRow .prev (kp .prev)
  | .prev => sessionRow .curr (kp .curr) + sessionRow .next (kp .next)

private theorem sessionRows_eq (kp : KeypairSlot → WireguardKeypair) (slot : KeypairSlot) :
    sessionRows kp = sessionRow slot (kp slot) + otherRows kp slot := by
  cases slot with
  | curr => rw [sessionRows, otherRows, Multiset.add_assoc]
  | next => rw [sessionRows, otherRows, Multiset.add_comm (sessionRow .curr _), Multiset.add_assoc]
  | prev => rw [sessionRows, otherRows, Multiset.add_comm]

private theorem otherRows_update (kp : KeypairSlot → WireguardKeypair) (slot : KeypairSlot)
    (k : WireguardKeypair) : otherRows (Function.update kp slot k) slot = otherRows kp slot := by
  cases slot <;> rfl

private theorem sessionRows_update (kp : KeypairSlot → WireguardKeypair) (slot : KeypairSlot)
    (k : WireguardKeypair) :
    sessionRows (Function.update kp slot k) = sessionRow slot k + otherRows kp slot := by
  rw [sessionRows_eq _ slot, otherRows_update, Function.update_self]

@[simp] theorem sessionRow_invalid {slot : KeypairSlot} {k : WireguardKeypair}
    (h : k.valid = false) : sessionRow slot k = 0 := by
  rw [sessionRow, h]
  rfl

theorem sessionRow_valid {slot : KeypairSlot} {k : WireguardKeypair} (h : k.valid = true) :
    sessionRow slot k = {(k.keys, (slot, k))} := by
  rw [sessionRow, h]
  rfl

/-- A key that is destroyed is a row that is dropped. -/
theorem Goes.destroy (slot : KeypairSlot) : Goes authentic kp [] (Function.update kp slot {}) := by
  refine ⟨[], Leads.refl.forget ?_, rfl⟩
  rw [sessionRows_update, sessionRow_invalid rfl, Multiset.zero_add, sessionRows_eq kp slot]
  exact Multiset.le_add_left _ _

/-- A key that is written back is a step of its row. -/
theorem Goes.write {slot : KeypairSlot} {k : WireguardKeypair} {o : Option SessionEvent}
    (old : (kp slot).valid = true) (new : k.valid = true) (hkeys : k.keys = (kp slot).keys)
    (step : SessionStep authentic (kp slot).keys (slot, kp slot) o (slot, k))
    (seen : (o.toList.map fun e => entryEffect (.did (kp slot).keys e)) = keyed effects) :
    Goes authentic kp effects (Function.update kp slot k) := by
  rw [Goes, sessionRows_eq kp slot, sessionRow_valid old, sessionRows_update, sessionRow_valid new,
    hkeys]
  cases o with
  | none => exact ⟨[], Leads.refl.silent step, seen⟩
  | some e =>
    refine ⟨_, Leads.refl.did step, ?_⟩
    exact seen

/-! ### Moves -/

/-- The row of a place retires. -/
private theorem leads_retire (authentic : Bytes → UInt64 → Bytes → Prop)
    (t : Multiset (SessionKeys × SessionRow)) (slot : KeypairSlot) (k : WireguardKeypair) :
    Leads FreshSession (SessionStep authentic) (sessionRow slot k + t) []
      (sessionRow .prev k + t) := by
  cases hk : k.valid with
  | false =>
    rw [sessionRow_invalid hk, sessionRow_invalid hk]
    exact .refl
  | true =>
    rw [sessionRow_valid hk, sessionRow_valid hk]
    exact Leads.refl.silent .retire

/-- `keypair_update` with a packet under the key that waits. -/
theorem Goes.promote {k : WireguardKeypair} {n : UInt64} {pkt : Bytes} {rx : UInt32}
    {o : Option SessionEvent} (here : kp .next = k) (waits : k.valid = true)
    (hn : authentic k.receivingKey n pkt) (ho : o = none ∨ o = some (.input n pkt))
    (curr : kp' .curr = { k with lastRx := rx }) (prev : kp' .prev = kp .curr)
    (next : (kp' .next).valid = false)
    (seen : (o.toList.map fun e => entryEffect (.did k.keys e)) = keyed effects) :
    Goes authentic kp effects kp' := by
  have before : sessionRows kp = sessionRow .curr (kp .curr) +
      ({(k.keys, (.next, k))} + sessionRow .prev (kp .prev)) := by
    rw [sessionRows, here, sessionRow_valid waits, Multiset.add_assoc]
  have promoted : sessionRow .curr { k with lastRx := rx } =
      {(k.keys, (.curr, { k with lastRx := rx }))} :=
    sessionRow_valid waits
  have after : sessionRows kp' =
      {(k.keys, (.curr, { k with lastRx := rx }))} +
        sessionRow .prev (kp .curr) := by
    rw [sessionRows, curr, prev, sessionRow_invalid next, promoted, Multiset.add_zero]
  -- the key that was there is lost, the current one takes its place
  have moved := leads_retire authentic
    {(k.keys, (KeypairSlot.next, k))} .curr (kp .curr)
  rw [Multiset.add_comm (sessionRow .prev _)] at moved
  have lost : Leads FreshSession (SessionStep authentic) (sessionRows kp) []
      (sessionRow .curr (kp .curr) +
        {(k.keys, (KeypairSlot.next, k))}) := by
    rw [before, ← Multiset.add_assoc]
    exact Leads.refl.forget (Multiset.le_add_right _ _)
  have ready := lost.trans moved
  rw [List.append_nil] at ready
  rw [Goes, after]
  cases o with
  | none => exact ⟨[], ready.silent (.promote rx hn (.inl rfl)), seen⟩
  | some e =>
    refine ⟨_, ready.did (.promote rx hn ho), ?_⟩
    exact seen

/-- `add_new_keypair`. -/
theorem Goes.addNew (peer : WireguardPeer) {new : WireguardKeypair} (valid : new.valid = true)
    (counter : new.sendingCounter = 0) (rx : new.lastRx = 0) (bitmap : new.replayBitmap = 0)
    (top : new.replayCounter = 0) :
    Goes authentic peer.keypair [.session new.sendingKey new.receivingKey new.initiator]
      (peer.addNewKeypair new).keypair := by
  -- what is left of the rows, and then the new one
  have open_ {rest : Multiset (SessionKeys × SessionRow)} {kp' : KeypairSlot → WireguardKeypair}
      (left : Leads FreshSession (SessionStep authentic) (sessionRows peer.keypair) [] rest)
      (after : sessionRows kp' =
        sessionRow (if new.initiator then .curr else .next) new + rest) :
      Goes authentic peer.keypair [.session new.sendingKey new.receivingKey new.initiator]
        kp' := by
    rw [Goes, after, sessionRow_valid valid]
    exact ⟨_, left.opened ⟨rfl, counter, rx, bitmap, top⟩, rfl⟩
  rw [WireguardPeer.addNewKeypair]
  by_cases role : new.initiator = true
  · rw [if_pos role]
    cases waits : peer.nextKeypair.valid with
    | true =>
      rw [if_pos rfl]
      have kept : Leads FreshSession (SessionStep authentic) (sessionRows peer.keypair) []
          (sessionRow .next peer.nextKeypair + 0) := by
        apply Leads.refl.forget
        rw [Multiset.add_zero, sessionRows_eq peer.keypair .next]
        exact Multiset.le_add_right _ _
      apply open_ (kept.trans (leads_retire authentic 0 .next peer.nextKeypair))
      rw [if_pos role, Multiset.add_zero]
      show sessionRow .curr new + sessionRow .next {} + sessionRow .prev peer.nextKeypair = _
      rw [sessionRow_invalid (k := {}) rfl, Multiset.add_zero]
    | false =>
      rw [if_neg Bool.false_ne_true]
      have kept : Leads FreshSession (SessionStep authentic) (sessionRows peer.keypair) []
          (sessionRow .curr peer.currKeypair + 0) := by
        apply Leads.refl.forget
        rw [Multiset.add_zero, sessionRows_eq peer.keypair .curr]
        exact Multiset.le_add_right _ _
      apply open_ (kept.trans (leads_retire authentic 0 .curr peer.currKeypair))
      rw [if_pos role, Multiset.add_zero]
      show sessionRow .curr new + sessionRow .next peer.nextKeypair +
        sessionRow .prev peer.currKeypair = _
      rw [sessionRow_invalid waits, Multiset.add_zero]
  · rw [if_neg role]
    have kept : Leads FreshSession (SessionStep authentic) (sessionRows peer.keypair) []
        (sessionRow .curr peer.currKeypair) := by
      apply Leads.refl.forget
      rw [sessionRows_eq peer.keypair .curr]
      exact Multiset.le_add_right _ _
    apply open_ kept
    rw [if_neg role]
    show sessionRow .curr peer.currKeypair + sessionRow .next new + sessionRow .prev {} = _
    rw [sessionRow_invalid (k := {}) rfl, Multiset.add_zero, Multiset.add_comm]

/-! ### Calls -/

@[simp] theorem WireguardPeer.keypair_setKeypair (peer : WireguardPeer) (slot : KeypairSlot)
    (k : WireguardKeypair) :
    (peer.setKeypair slot k).keypair = Function.update peer.keypair slot k := by
  funext slot'
  cases slot <;> cases slot' <;> rfl

@[simp] theorem wireguardCheckReplay_valid (k : WireguardKeypair) (n : UInt64) :
    (wireguardCheckReplay k n).1.valid = k.valid := by
  simp only [wireguardCheckReplay]
  split_ifs <;> rfl

@[simp] theorem wireguardCheckReplay_keys (k : WireguardKeypair) (n : UInt64) :
    (wireguardCheckReplay k n).1.keys = k.keys := by
  simp only [wireguardCheckReplay]
  split_ifs <;> rfl

@[simp] theorem wireguardCheckReplay_sendingCounter (k : WireguardKeypair) (n : UInt64) :
    (wireguardCheckReplay k n).1.sendingCounter = k.sendingCounter := by
  simp only [wireguardCheckReplay]
  split_ifs <;> rfl

/-- A counter that is refused changes nothing. -/
theorem wireguardCheckReplay_refused {k : WireguardKeypair} {n : UInt64}
    (h : (wireguardCheckReplay k n).2 = false) : (wireguardCheckReplay k n).1 = k := by
  simp only [wireguardCheckReplay] at h ⊢
  split_ifs at h ⊢ <;> rfl

theorem wireguardifOutputToPeer_goes (d : WireguardDevice) (q : Option Bytes) (env : OutputEnv) :
    Goes authentic d.peer.keypair (wireguardifOutputToPeer d q env).2.2
      (wireguardifOutputToPeer d q env).1.peer.keypair := by
  rw [wireguardifOutputToPeer]
  generalize d.peer.sendingSlot = slot
  by_cases usable : ((d.peer.keypair slot).valid &&
      ((d.peer.keypair slot).initiator || (d.peer.keypair slot).lastRx != 0)) = true
  case neg =>
    simp only [if_neg usable]
    exact .refl rfl
  obtain ⟨valid, ready⟩ := Bool.and_eq_true_iff.mp usable
  have ready : (d.peer.keypair slot).keys.2.2 = true ∨ (d.peer.keypair slot).lastRx ≠ 0 := by
    rw [Bool.or_eq_true, bne_iff_ne] at ready
    exact ready
  simp only [if_pos usable]
  split
  case isFalse =>
    -- the key is too old
    simp only [WireguardPeer.keypairDestroy, WireguardPeer.keypair_setKeypair]
    exact .destroy slot
  case isTrue young =>
    have room : (d.peer.keypair slot).sendingCounter < rejectAfterMessages :=
      of_decide_eq_true (Bool.and_eq_true _ _ ▸ young).2
    split
    case isFalse => exact .refl rfl
    case isTrue =>
      by_cases sent : env.udp = .ok
      · simp only [if_pos sent, WireguardPeer.keypair_setKeypair]
        exact Goes.write valid valid rfl (.encrypt _ env.txNow room ready) rfl
      · simp only [if_neg sent, WireguardPeer.keypair_setKeypair]
        exact Goes.write valid valid rfl (.encrypt _ _ room ready) rfl

theorem wireguardifSendKeepalive_goes (d : WireguardDevice) (env : OutputEnv) :
    Goes authentic d.peer.keypair (wireguardifSendKeepalive d env).2
      (wireguardifSendKeepalive d env).1.peer.keypair :=
  wireguardifOutputToPeer_goes d none env

theorem wireguardStartHandshake_goes (d : WireguardDevice) (env : StartEnv) :
    Goes authentic d.peer.keypair (wireguardStartHandshake d env).2
      (wireguardStartHandshake d env).1.peer.keypair := by
  obtain ⟨handshake, made⟩ := wireguardCreateHandshakeInitiation_frame d env.initiation
  rw [wireguardStartHandshake]
  generalize wireguardCreateHandshakeInitiation d env.initiation = result at made ⊢
  obtain ⟨d', msg⟩ := result
  obtain rfl : d' = { d with peer.handshake := handshake } := made
  cases msg with
  | none => exact .refl rfl
  | some msg =>
    dsimp only
    split
    · exact .refl rfl
    · exact .refl rfl

theorem WireguardDevice.startSession_goes (d : WireguardDevice) (initiator : Bool)
    (now : UInt32) :
    Goes authentic d.peer.keypair (d.startSession initiator now).2
      (d.startSession initiator now).1.peer.keypair :=
  Goes.addNew { d.peer with handshake := { initiator := d.peer.handshake.initiator } }
    rfl rfl rfl rfl rfl

theorem wireguardifSendHandshakeResponse_goes (d : WireguardDevice) (env : SendResponseEnv) :
    Goes authentic d.peer.keypair (wireguardifSendHandshakeResponse d env).2
      (wireguardifSendHandshakeResponse d env).1.peer.keypair := by
  obtain ⟨handshake, made⟩ := wireguardCreateHandshakeResponse_frame d env.response
  rw [wireguardifSendHandshakeResponse]
  generalize wireguardCreateHandshakeResponse d env.response = result at made ⊢
  obtain ⟨d', msg⟩ := result
  obtain rfl : d' = { d with peer.handshake := handshake } := made
  cases msg with
  | none => exact .refl rfl
  | some msg =>
    have started : Goes authentic d.peer.keypair _ _ :=
      WireguardDevice.startSession_goes { d with peer.handshake := handshake } false env.sessionNow
    apply started.trans (Goes.refl _)
    split
    · rfl
    · rfl

theorem wireguardifProcessResponseMessage_goes (d : WireguardDevice)
    (response : MessageHandshakeResponse) (addr : IpAddr) (port : UInt16) (env : ResponseRxEnv) :
    Goes authentic d.peer.keypair
      (wireguardifProcessResponseMessage d response addr port env).2
      (wireguardifProcessResponseMessage d response addr port env).1.peer.keypair := by
  rw [wireguardifProcessResponseMessage]
  cases taken : wireguardProcessHandshakeResponse d response with
  | none => exact .refl rfl
  | some d' =>
    have same : d'.peer.keypair = d.peer.keypair := by
      simp only [wireguardProcessHandshakeResponse, guard, Option.bind_eq_bind,
        Option.bind_eq_some_iff, Option.pure_def, Option.some.injEq] at taken
      obtain ⟨_, _, _, _, _, _, _, _, rfl⟩ := taken
      rfl
    have started : Goes authentic d'.peer.keypair _ _ :=
      WireguardDevice.startSession_goes { d' with peer := d'.peer.updateAddr addr port } true
        env.sessionNow
    rw [same] at started
    exact started.trans (wireguardifSendKeepalive_goes _ env.keepalive)

/-- Under a key that does not wait, a packet that authenticates leaves the keys where they are. -/
theorem WireguardPeer.packetReceived_keypair (peer : WireguardPeer) {slot : KeypairSlot}
    (addr : IpAddr) (port : UInt16) (env : DataEnv) (h : slot ≠ .next) :
    (peer.packetReceived slot addr port env).keypair =
      Function.update peer.keypair slot { peer.keypair slot with lastRx := env.rxNow } := by
  have stays (p : WireguardPeer) : p.keypairUpdate slot = p := if_neg h
  rw [packetReceived]
  simp only [stays]
  exact keypair_setKeypair _ slot _

/-- A datagram carries a counter and a packet that authenticates under a key. -/
def Carries (data key : Bytes) (n : UInt64) (pkt : Bytes) : Prop :=
  n = u8to64Little data 8 ∧ chacha20poly1305Decrypt (data.drop 16) [] n key = some pkt

theorem wireguardifProcessDataMessage_goes (d : WireguardDevice) (data : Bytes) (addr : IpAddr)
    (port : UInt16) (env : DataEnv)
    (hauth : ∀ key n pkt, Carries data key n pkt → authentic key n pkt) :
    Goes authentic d.peer.keypair (wireguardifProcessDataMessage d data addr port env).2
      (wireguardifProcessDataMessage d data addr port env).1.peer.keypair := by
  rw [wireguardifProcessDataMessage]
  cases found : d.peer.getPeerKeypairForIdx (u8to32Little data 4) with
  | none => exact .refl rfl
  | some slot =>
    have valid : (d.peer.keypair slot).valid = true := by
      rw [WireguardPeer.getPeerKeypairForIdx] at found
      split at found
      case isTrue curr =>
        cases found
        exact (Bool.and_eq_true _ _ ▸ curr).1
      case isFalse =>
        split at found
        case isTrue next =>
          cases found
          exact (Bool.and_eq_true _ _ ▸ next).1
        case isFalse =>
          split at found
          case isTrue prev =>
            cases found
            exact (Bool.and_eq_true _ _ ▸ prev).1
          case isFalse => cases found
    dsimp only
    split
    case isFalse =>
      simp only [WireguardPeer.keypairDestroy, WireguardPeer.keypair_setKeypair]
      exact .destroy slot
    case isTrue =>
      split
      case isFalse => exact .refl rfl
      case isTrue =>
        cases opened : chacha20poly1305Decrypt (data.drop 16) [] (u8to64Little data 8)
            (d.peer.keypair slot).receivingKey with
        | none => exact .refl rfl
        | some pkt =>
          have carried : authentic (d.peer.keypair slot).receivingKey (u8to64Little data 8) pkt :=
            hauth _ _ _ ⟨rfl, opened⟩
          dsimp only
          by_cases waits : slot = .next
          · -- the pointer goes on to a key that is destroyed
            subst waits
            split
            · exact Goes.promote (o := none) rfl valid carried (.inl rfl) rfl rfl rfl rfl
            · have gone : ((d.peer.packetReceived .next addr port env).setKeypair .next
                  (wireguardCheckReplay {} (u8to64Little data 8)).1).nextKeypair.valid = false :=
                wireguardCheckReplay_valid {} _
              split
              · exact Goes.promote (o := some (.input (u8to64Little data 8) pkt)) rfl valid
                  carried (.inr rfl) rfl rfl gone rfl
              · exact Goes.promote (o := none) rfl valid carried (.inl rfl) rfl rfl gone rfl
          · have touched : (d.peer.packetReceived slot addr port env).keypair =
                Function.update d.peer.keypair slot
                  { d.peer.keypair slot with lastRx := env.rxNow } :=
              d.peer.packetReceived_keypair addr port env waits
            have touch : Goes authentic d.peer.keypair []
                (d.peer.packetReceived slot addr port env).keypair := by
              rw [touched]
              exact Goes.write (o := none) valid valid rfl (.touch env.rxNow carried) rfl
            split
            · exact touch
            · simp only [WireguardPeer.keypair_setKeypair]
              have valid' : ((d.peer.packetReceived slot addr port env).keypair slot).valid =
                  true := by
                rw [touched, Function.update_self]
                exact valid
              have key' : ((d.peer.packetReceived slot addr port env).keypair slot).receivingKey =
                  (d.peer.keypair slot).receivingKey := by
                rw [touched, Function.update_self]
              generalize (d.peer.packetReceived slot addr port env).keypair = kp at *
              rw [← key'] at carried ⊢
              cases fresh : (wireguardCheckReplay (kp slot) (u8to64Little data 8)).2 with
              | false =>
                rw [wireguardCheckReplay_refused fresh, Function.update_eq_self]
                exact touch
              | true =>
                rw [← List.nil_append (ite _ _ _)]
                apply touch.trans
                split
                · exact Goes.write (o := some (.input (u8to64Little data 8) pkt)) valid'
                    ((wireguardCheckReplay_valid _ _).trans valid') (wireguardCheckReplay_keys _ _)
                    (.accept waits carried fresh (.inr rfl)) rfl
                · exact Goes.write (o := none) valid'
                    ((wireguardCheckReplay_valid _ _).trans valid') (wireguardCheckReplay_keys _ _)
                    (.accept waits carried fresh (.inl rfl)) rfl

end Molewire
