/-
# Sessions of the bridge

One client at a time has the line. A session begins when a connection is
accepted, on either port, and ends when the client closes or its connection
fails; both ends restore what the session may have changed. Connections that are
refused, and segments of connections that are no longer the client's, come in
between.

A run remembers which connections were taken and neither closed nor failed since,
what each connection has sent since it came in, and at which port. An error is
reported only for a connection whose callback is installed.
-/

import Molewire.Library.Transition
import Molewire.Netif
import Molewire.TelnetReplies

namespace Molewire

open Telnet Transition

/-! ### Connections -/

/-- What is asked of lwIP for a connection. -/
inductive PcbCall
  | close (pcb : Nat)
  | abort (pcb : Nat)
  deriving DecidableEq, Repr

/-- `ERR_OK`, `ERR_VAL` and `ERR_ABRT`. -/
inductive AcceptErr | ok | val | abrt
  deriving DecidableEq, Repr

/-- The bridge with the connection of its client, and the connections that have its callbacks. -/
structure BridgeSession where
  bridge : Bridge
  client : Option Nat
  same : bridge.client = client.isSome
  recvOn : Nat → Bool := fun _ => false
  errOn : Nat → Bool := fun _ => false
  calls : List PcbCall := []

/-- The bridge after `serial_bridge_init`: the statics, and the reset lines deasserted. -/
def serialBridgeInit : Bridge where
  client := false
  telnetMode := false
  cdcConnected := false
  rx := .empty
  curBaud := 115200
  curDatabits := 8
  curStop := 1
  curParity := .none
  tnState := .data
  tnVerb := 0
  sbBuf := []
  comportActive := false
  dtrPin := true
  rtsPin := true
  uartRx := []
  cdcRx := []
  uartTx := []
  cdcTx := []
  sock := []
  recved := 0

namespace BridgeSession

/-- `tcp_drop_client`. -/
def tcpDropClient (s : BridgeSession) (doAbort closeOk : Bool) : BridgeSession :=
  let b : Bridge :=
    { s.bridge with
      rx := if s.bridge.rx.pbufs = [] then s.bridge.rx else .empty
      dtrPin := true
      rtsPin := true
      telnetMode := false
      comportActive := false
      tnState := .data }
  match s.client with
  | none => { s with bridge := b, same := s.same }
  | some pcb =>
    { bridge := { b with client := false }
      client := none
      same := rfl
      recvOn := Function.update s.recvOn pcb false
      errOn := Function.update s.errOn pcb false
      calls := s.calls ++
        if doAbort then [.abort pcb] else if closeOk then [.close pcb]
        else [.close pcb, .abort pcb] }

/-- `bridge_recv`. No data is the end of the connection. -/
def bridgeRecv (s : BridgeSession) (pcb : Nat) (data : Option (Pbuf × List Pbuf))
    (closeOk : Bool) : BridgeSession :=
  match data with
  | none =>
    if s.client = some pcb then tcpDropClient s false closeOk
    else { s with calls := s.calls ++ [.close pcb] }
  | some (p, next) =>
    -- a segment that is not the client's is freed
    if s.client = some pcb then
      { s with bridge := { s.bridge with rx := s.bridge.rx.cat p next }, same := s.same }
    else s

/-- `bridge_err`. The connection is gone already. -/
def bridgeErr (s : BridgeSession) : BridgeSession :=
  { s with
    bridge :=
      { s.bridge with
        client := false
        rx := if s.bridge.rx.pbufs = [] then s.bridge.rx else .empty
        dtrPin := true
        rtsPin := true
        telnetMode := false
        comportActive := false
        tnState := .data }
    client := none
    same := rfl }

/-- `bridge_accept`, where `arg` marks the RFC 2217 port. The socket of a new client is one to
which nothing was written. -/
def bridgeAccept (s : BridgeSession) (arg : Bool) (newpcb : Option Nat) (errOk : Bool)
    (current : NetifId) (wgActive : Option NetifId) : AcceptErr × BridgeSession :=
  match newpcb with
  | none => (.val, s)
  | some pcb =>
    if !errOk then (.val, s)
    else if current ≠ .usb ∧ some current ≠ wgActive then
      (.abrt, { s with calls := s.calls ++ [.abort pcb] })
    else if s.client.isSome then (.abrt, { s with calls := s.calls ++ [.abort pcb] })
    else
      (.ok,
        { bridge :=
            { s.bridge with
              client := true
              telnetMode := arg
              comportActive := false
              tnState := .data
              sock := []
              recved := 0 }
          client := some pcb
          same := rfl
          recvOn := Function.update s.recvOn pcb true
          errOn := Function.update s.errOn pcb true
          calls := s.calls })

end BridgeSession

/-! ### What the line leaves alone -/

/-- The two states are in the same place of the session. -/
structure Bridge.SamePlace (b b' : Bridge) : Prop where
  client : b'.client = b.client
  telnetMode : b'.telnetMode = b.telnetMode
  rx : b'.rx = b.rx
  tnState : b'.tnState = b.tnState
  comportActive : b'.comportActive = b.comportActive
  dtrPin : b'.dtrPin = b.dtrPin
  rtsPin : b'.rtsPin = b.rtsPin

theorem Bridge.SamePlace.refl (b : Bridge) : b.SamePlace b :=
  ⟨rfl, rfl, rfl, rfl, rfl, rfl, rfl⟩

theorem Bridge.SamePlace.trans {b b₁ b₂ : Bridge} (h₁ : b.SamePlace b₁) (h₂ : b₁.SamePlace b₂) :
    b.SamePlace b₂ :=
  ⟨h₂.client.trans h₁.client, h₂.telnetMode.trans h₁.telnetMode, h₂.rx.trans h₁.rx,
    h₂.tnState.trans h₁.tnState, h₂.comportActive.trans h₁.comportActive,
    h₂.dtrPin.trans h₁.dtrPin, h₂.rtsPin.trans h₁.rtsPin⟩

theorem uartLoop_samePlace (budget : Nat) (looks : Nat → Look) (b : Bridge) :
    b.SamePlace (uartLoop budget looks b) := by
  induction budget generalizing b with
  | zero => exact .refl b
  | succ budget ih =>
    rw [uartLoop]
    split
    · split_ifs
      · refine Bridge.SamePlace.trans ?_ (ih _)
        exact ⟨rfl, rfl, rfl, rfl, rfl, rfl, rfl⟩
      · exact .refl b
    · exact .refl b

theorem cdcLoop_samePlace (budget : Nat) (looks : Nat → Look) (b : Bridge) :
    b.SamePlace (cdcLoop budget looks b) := by
  induction budget generalizing b with
  | zero => exact .refl b
  | succ budget ih =>
    rw [cdcLoop]
    split
    · split_ifs
      · refine Bridge.SamePlace.trans ?_ (ih _)
        exact ⟨rfl, rfl, rfl, rfl, rfl, rfl, rfl⟩
      · exact .refl b
    · exact .refl b

/-- The loop over the held chain changes nothing if it consumes nothing. -/
theorem tcpLoop_of_zero {budget : Nat} {looks : Nat → Look} {b : Bridge}
    (h : (tcpLoop budget looks b).2 = 0) : (tcpLoop budget looks b).1 = b := by
  cases budget with
  | zero => rfl
  | succ budget =>
    rw [tcpLoop] at h ⊢
    cases hbyte : b.rx.byte? with
    | none => rfl
    | some x =>
      simp only [hbyte] at h ⊢
      split_ifs at h ⊢ with hwait
      rfl

theorem pump_of_zero {ls : Looks} {b : Bridge} (h : (pump ls b).2 = 0) :
    b.SamePlace (pump ls b).1 := by
  have hloop := tcpLoop_of_zero (h : (tcpLoop tickByteBudget ls.tcp _).2 = 0)
  rw [pump, hloop]
  exact (uartLoop_samePlace _ _ b).trans (cdcLoop_samePlace _ _ _)

theorem RxChain.bytes_of_nil {rx : RxChain} (h : rx.pbufs = []) : rx.bytes = [] := by
  rw [RxChain.bytes, h]
  exact List.drop_nil

/-- What an event that brings no segment does to the place in the session: some of the held bytes
are consumed, the parser follows them, and if there are none nothing changes. -/
theorem Bridge.step_place (b : Bridge) {e : BridgeEvent} (he : ∀ p next, e ≠ .recv p next) :
    ∃ taken, taken ++ (b.step e).rx.bytes = b.rx.bytes ∧
      (b.step e).client = b.client ∧ (b.step e).telnetMode = b.telnetMode ∧
      (b.step e).tnState.phase =
        (if b.telnetMode then b.tnState.phase.after taken else b.tnState.phase) ∧
      (taken = [] → b.SamePlace (b.step e)) := by
  obtain ⟨taken, hmoved, -, -⟩ := b.step_moved e
  have hpending := hmoved.pending .tcp
  have hnone : e.arrives b.client .tcp = [] := by
    cases e with
    | recv p next => exact absurd rfl (he p next)
    | _ => rfl
  rw [hnone, List.append_nil] at hpending
  refine ⟨taken .tcp, hpending, hmoved.client, hmoved.telnetMode, hmoved.phase, fun htaken => ?_⟩
  cases e with
  | uart bs => exact ⟨rfl, rfl, rfl, rfl, rfl, rfl, rfl⟩
  | cdc bs => exact ⟨rfl, rfl, rfl, rfl, rfl, rfl, rfl⟩
  | recv p next => exact absurd rfl (he p next)
  | coding bitRate dataBits parity stopBits =>
    obtain ⟨baud, databits, stop, par, hstep⟩ := applyCoding_eq b bitRate dataBits parity stopBits
    rw [Bridge.step, hstep]
    exact ⟨rfl, rfl, rfl, rfl, rfl, rfl, rfl⟩
  | task ls =>
    rw [htaken, List.nil_append] at hpending
    rcases serialBridgeTask_cases ls b with hfast | hpump
    · rw [Bridge.step, hfast]
      exact .refl b
    · -- what is held is what was held, so the loop consumed nothing
      rw [Bridge.step, hpump, tcpRecved_eq] at hpending ⊢
      have hcount := pump_count ls b
      have hlen : ((pump ls b).1.pending .tcp).length = (b.pending .tcp).length :=
        congrArg List.length hpending
      have hplace : b.SamePlace (pump ls b).1 := pump_of_zero (by omega)
      exact ⟨hplace.client, hplace.telnetMode, hplace.rx, hplace.tnState, hplace.comportActive,
        hplace.dtrPin, hplace.rtsPin⟩

/-! ### Runs -/

/-- The bridge with the connections that were taken and are still up, what each connection has sent
since it came in, and whether it came in at the RFC 2217 port. -/
structure SessionRun where
  session : BridgeSession
  live : Nat → Bool := fun _ => false
  heard : Nat → List UInt8 := fun _ => []
  port : Nat → Bool := fun _ => false

inductive SessionOp
  | accept (arg : Bool) (newpcb : Option Nat) (errOk : Bool) (current : NetifId)
      (wgActive : Option NetifId)
  | recv (pcb : Nat) (data : Option (Pbuf × List Pbuf)) (closeOk : Bool)
  | err (pcb : Nat)
  /-- The port of the host is opened or closed. -/
  | cdcPort (connected : Bool)
  /-- Anything but a segment. -/
  | line (e : BridgeEvent)

namespace SessionRun

/-- The bytes of a segment. -/
def bytesOf (data : Option (Pbuf × List Pbuf)) : List UInt8 :=
  data.elim [] fun d => (d.1 :: d.2).flatMap Pbuf.payload

def step (r : SessionRun) : SessionOp → SessionRun
  | .accept arg newpcb errOk current wgActive =>
    let answer := r.session.bridgeAccept arg newpcb errOk current wgActive
    { session := answer.2
      live := newpcb.elim r.live fun pcb => Function.update r.live pcb (answer.1 = .ok)
      heard := newpcb.elim r.heard fun pcb => Function.update r.heard pcb []
      port := newpcb.elim r.port fun pcb => Function.update r.port pcb arg }
  | .recv pcb data closeOk =>
    { r with
      session := r.session.bridgeRecv pcb data closeOk
      live := if data.isNone then Function.update r.live pcb false else r.live
      heard := Function.update r.heard pcb (r.heard pcb ++ bytesOf data) }
  | .err pcb =>
    -- lwIP has freed the connection, and its callbacks with it
    { r with
      session :=
        { r.session.bridgeErr with
          recvOn := Function.update r.session.recvOn pcb false
          errOn := Function.update r.session.errOn pcb false }
      live := Function.update r.live pcb false }
  | .cdcPort connected =>
    { r with
      session :=
        { r.session with
          bridge := { r.session.bridge with cdcConnected := connected }
          same := r.session.same } }
  | .line e =>
    { r with
      session :=
        { r.session with
          bridge := r.session.bridge.step e
          same := by
            obtain ⟨taken, hmoved, -, -⟩ := r.session.bridge.step_moved e
            rw [hmoved.client, r.session.same] } }

/-- A new connection is not one with callbacks, an error is reported where the callback is
installed, and a segment comes as such. -/
def admits (r : SessionRun) : SessionOp → Prop
  | .accept _ newpcb _ _ _ => ∀ pcb, newpcb = some pcb → r.session.recvOn pcb = false
  | .err pcb => r.session.errOn pcb
  | .line e => ∀ p next, e ≠ .recv p next
  | _ => True

/-- After `serial_bridge_init`. -/
def start : SessionRun where
  session := { bridge := serialBridgeInit, client := none, same := rfl }

def Reachable (r : SessionRun) : Prop := Reach (· = start) admits step r

/-! ### The invariant -/

/-- The line as it is without a client. -/
structure Released (b : Bridge) : Prop where
  dtrPin : b.dtrPin = true
  rtsPin : b.rtsPin = true
  rx : b.rx.pbufs = []
  telnetMode : b.telnetMode = false
  tnState : b.tnState = .data
  comportActive : b.comportActive = false

/-- The bridge of a session that came in at `port`, whose client has sent `heard`: what is held is
the end of that, and the parser is where what is consumed of it leads to. -/
def InSession (b : Bridge) (port : Bool) (heard : List UInt8) : Prop :=
  b.telnetMode = port ∧ ∃ consumed, heard = consumed ++ b.rx.bytes ∧
    b.tnState.phase = (if port then Phase.data.after consumed else .data) ∧
    (consumed = [] → b.comportActive = false ∧ b.dtrPin = true ∧ b.rtsPin = true)

structure Inv (r : SessionRun) : Prop where
  live : ∀ pcb, r.live pcb = true ↔ r.session.client = some pcb
  recvOn : ∀ pcb, r.session.recvOn pcb = true ↔ r.session.client = some pcb
  errOn : ∀ pcb, r.session.errOn pcb = true ↔ r.session.client = some pcb
  idle : r.session.client = none → Released r.session.bridge
  active : ∀ pcb, r.session.client = some pcb →
    InSession r.session.bridge (r.port pcb) (r.heard pcb)

theorem released_rx (rx : RxChain) :
    (if rx.pbufs = [] then rx else RxChain.empty).pbufs = [] := by
  split_ifs with h
  · exact h
  · rfl

theorem Released.samePlace {b b' : Bridge} (h : Released b) (hplace : b.SamePlace b') :
    Released b' where
  dtrPin := hplace.dtrPin.trans h.dtrPin
  rtsPin := hplace.rtsPin.trans h.rtsPin
  rx := (congrArg RxChain.pbufs hplace.rx).trans h.rx
  telnetMode := hplace.telnetMode.trans h.telnetMode
  tnState := hplace.tnState.trans h.tnState
  comportActive := hplace.comportActive.trans h.comportActive

/-! ### Steps -/

/-- A released line takes a new client, whichever the earlier sessions were. -/
theorem Released.accepted {b : Bridge} (h : Released b) (arg : Bool) :
    InSession
      { b with
        client := true
        telnetMode := arg
        comportActive := false
        tnState := .data
        sock := []
        recved := 0 } arg [] := by
  refine ⟨rfl, [], (RxChain.bytes_of_nil h.rx).symm, ?_, fun _ => ⟨rfl, h.dtrPin, h.rtsPin⟩⟩
  split_ifs <;> rfl

/-- A segment of the client is held behind what is held. -/
theorem InSession.segment {b : Bridge} {port : Bool} {heard : List UInt8}
    (h : InSession b port heard) (p : Pbuf) (next : List Pbuf) :
    InSession { b with rx := b.rx.cat p next } port
      (heard ++ (p :: next).flatMap Pbuf.payload) := by
  obtain ⟨hmode, consumed, hheard, hphase, hfresh⟩ := h
  refine ⟨hmode, consumed, ?_, hphase, hfresh⟩
  rw [hheard, RxChain.cat_bytes, List.append_assoc]

/-- The line goes on with the session. -/
theorem InSession.line {b : Bridge} {port : Bool} {heard : List UInt8}
    (h : InSession b port heard) {e : BridgeEvent} (he : ∀ p next, e ≠ .recv p next) :
    InSession (b.step e) port heard := by
  obtain ⟨hmode, consumed, hheard, hphase, hfresh⟩ := h
  obtain ⟨taken, htaken, -, hmode', hphase', hplace⟩ := b.step_place he
  refine ⟨hmode'.trans hmode, consumed ++ taken, ?_, ?_, fun hnil => ?_⟩
  · rw [hheard, ← htaken, List.append_assoc]
  · rw [hphase', hmode, hphase]
    split_ifs
    · exact (Phase.after_append _ _ _).symm
    · rfl
  · obtain ⟨hconsumed, hnone⟩ := List.append_eq_nil_iff.mp hnil
    obtain ⟨hcomport, hdtr, hrts⟩ := hfresh hconsumed
    have hsame := hplace hnone
    exact ⟨hsame.comportActive.trans hcomport, hsame.dtrPin.trans hdtr, hsame.rtsPin.trans hrts⟩

theorem Released.line {b : Bridge} (h : Released b) {e : BridgeEvent}
    (he : ∀ p next, e ≠ .recv p next) : Released (b.step e) := by
  obtain ⟨taken, htaken, -, -, -, hplace⟩ := b.step_place he
  rw [RxChain.bytes_of_nil h.rx] at htaken
  exact h.samePlace (hplace (List.append_eq_nil_iff.mp htaken).1)

/-- Dropping the client releases the line, and takes the callbacks from its connection. -/
theorem tcpDropClient_of_client {s : BridgeSession} {pcb : Nat} (h : s.client = some pcb)
    (doAbort closeOk : Bool) :
    (s.tcpDropClient doAbort closeOk).client = none ∧
      Released (s.tcpDropClient doAbort closeOk).bridge ∧
      (s.tcpDropClient doAbort closeOk).recvOn = Function.update s.recvOn pcb false ∧
      (s.tcpDropClient doAbort closeOk).errOn = Function.update s.errOn pcb false := by
  obtain ⟨bridge, client, same, recvOn, errOn, calls⟩ := s
  obtain rfl : client = some pcb := h
  exact ⟨rfl, ⟨rfl, rfl, released_rx _, rfl, rfl, rfl⟩, rfl, rfl⟩

/-- So does an error. -/
theorem released_bridgeErr (s : BridgeSession) : Released s.bridgeErr.bridge :=
  ⟨rfl, rfl, released_rx _, rfl, rfl, rfl⟩

/-- The callbacks of a connection that goes are gone with it. -/
theorem Inv.hooks_of_dropped {r : SessionRun} {pcb : Nat} {on : Nat → Bool}
    (hclient : r.session.client = some pcb)
    (hon : ∀ x, on x = true ↔ r.session.client = some x) (x : Nat) :
    Function.update on pcb false x = true ↔ (none : Option Nat) = some x := by
  rcases eq_or_ne x pcb with rfl | hne
  · simp
  · rw [Function.update_of_ne hne, hon, hclient]
    simp [hne.symm]

/-- A connection that is not the client's has no callbacks to lose. -/
theorem Inv.hooks_of_other {r : SessionRun} {pcb : Nat} {on : Nat → Bool}
    (hother : r.session.client ≠ some pcb)
    (hon : ∀ x, on x = true ↔ r.session.client = some x) (x : Nat) :
    Function.update on pcb false x = true ↔ r.session.client = some x := by
  rcases eq_or_ne x pcb with rfl | hne
  · simp [hother]
  · rw [Function.update_of_ne hne]
    exact hon x

theorem Inv.accept {r : SessionRun} (h : r.Inv) {arg errOk : Bool} {newpcb : Option Nat}
    {current : NetifId} {wgActive : Option NetifId}
    (ha : r.admits (.accept arg newpcb errOk current wgActive)) :
    (r.step (.accept arg newpcb errOk current wgActive)).Inv := by
  cases newpcb with
  | none => exact h
  | some pcb =>
    have hother : r.session.client ≠ some pcb := fun hclient =>
      Bool.false_ne_true ((ha pcb rfl).symm.trans ((h.recvOn pcb).mpr hclient))
    -- a connection that is refused is not the client's
    have hrefused : ∀ calls, Inv
        { session := { r.session with calls := calls, same := r.session.same }
          live := Function.update r.live pcb false
          heard := Function.update r.heard pcb []
          port := Function.update r.port pcb arg } := by
      refine fun calls => { live := Inv.hooks_of_other hother h.live, recvOn := h.recvOn,
                            errOn := h.errOn, idle := h.idle, active := ?_ }
      intro x hx
      have hne : x ≠ pcb := by
        rintro rfl
        exact hother hx
      dsimp only
      rw [Function.update_of_ne hne, Function.update_of_ne hne]
      exact h.active x hx
    have hval : (AcceptErr.val = .ok) = False := eq_false (by decide)
    have habrt : (AcceptErr.abrt = .ok) = False := eq_false (by decide)
    simp only [step, Option.elim_some, BridgeSession.bridgeAccept]
    split_ifs with herr hnetif hbusy
    · exact hrefused _
    · exact hrefused _
    · exact hrefused _
    · have hnone : r.session.client = none := by simpa using hbusy
      have hinstalled : ∀ on : Nat → Bool, (∀ x, on x = true ↔ r.session.client = some x) →
          ∀ x, Function.update on pcb true x = true ↔ some pcb = some x := by
        intro on hon x
        rcases eq_or_ne x pcb with rfl | hne
        · simp
        · rw [Function.update_of_ne hne, hon, hnone]
          simp [hne.symm]
      refine { live := hinstalled _ h.live, recvOn := hinstalled _ h.recvOn,
               errOn := hinstalled _ h.errOn, idle := fun hx => (nomatch hx), active := ?_ }
      rintro x hx
      obtain rfl : pcb = x := Option.some.inj hx
      dsimp only
      rw [Function.update_self, Function.update_self]
      exact (h.idle hnone).accepted arg

theorem Inv.recv {r : SessionRun} (h : r.Inv) (pcb : Nat) (data : Option (Pbuf × List Pbuf))
    (closeOk : Bool) : (r.step (.recv pcb data closeOk)).Inv := by
  by_cases hclient : r.session.client = some pcb
  · cases data with
    | none =>
      obtain ⟨hnone, hreleased, hrecv, herr⟩ := tcpDropClient_of_client hclient false closeOk
      simp only [step, BridgeSession.bridgeRecv, if_pos hclient]
      refine { live := fun x => ?_, recvOn := fun x => ?_, errOn := fun x => ?_,
               idle := fun _ => hreleased, active := fun x hx => ?_ }
      · rw [hnone]
        exact Inv.hooks_of_dropped hclient h.live x
      · rw [hrecv, hnone]
        exact Inv.hooks_of_dropped hclient h.recvOn x
      · rw [herr, hnone]
        exact Inv.hooks_of_dropped hclient h.errOn x
      · rw [hnone] at hx
        cases hx
    | some segment =>
      obtain ⟨p, next⟩ := segment
      simp only [step, BridgeSession.bridgeRecv, if_pos hclient]
      refine { live := h.live, recvOn := h.recvOn, errOn := h.errOn, idle := fun hx => ?_,
               active := fun x hx => ?_ }
      · rw [hclient] at hx
        cases hx
      · obtain rfl : pcb = x := Option.some.inj (hclient.symm.trans hx)
        dsimp only
        rw [Function.update_self]
        exact (h.active pcb hclient).segment p next
  · -- what another connection sends is nothing of the client's
    have hactive : ∀ x, r.session.client = some x →
        InSession r.session.bridge (r.port x)
          (Function.update r.heard pcb (r.heard pcb ++ bytesOf data) x) := by
      intro x hx
      have hne : x ≠ pcb := by
        rintro rfl
        exact hclient hx
      rw [Function.update_of_ne hne]
      exact h.active x hx
    cases data with
    | none =>
      simp only [step, BridgeSession.bridgeRecv, if_neg hclient]
      exact { live := Inv.hooks_of_other hclient h.live, recvOn := h.recvOn, errOn := h.errOn,
              idle := h.idle, active := hactive }
    | some segment =>
      simp only [step, BridgeSession.bridgeRecv, if_neg hclient]
      exact { live := h.live, recvOn := h.recvOn, errOn := h.errOn, idle := h.idle,
              active := hactive }

/-- Every step keeps the invariant. -/
theorem Inv.step {r : SessionRun} (h : r.Inv) {a : SessionOp} (ha : r.admits a) :
    (r.step a).Inv := by
  cases a with
  | accept arg newpcb errOk current wgActive => exact h.accept ha
  | recv pcb data closeOk => exact h.recv pcb data closeOk
  | err pcb =>
    have hclient : r.session.client = some pcb := (h.errOn pcb).mp ha
    exact { live := Inv.hooks_of_dropped hclient h.live
            recvOn := Inv.hooks_of_dropped hclient h.recvOn
            errOn := Inv.hooks_of_dropped hclient h.errOn
            idle := fun _ => released_bridgeErr r.session
            active := fun x hx => nomatch hx }
  | cdcPort connected =>
    exact { live := h.live
            recvOn := h.recvOn
            errOn := h.errOn
            idle := fun hx => (h.idle hx).samePlace ⟨rfl, rfl, rfl, rfl, rfl, rfl, rfl⟩
            active := fun x hx => h.active x hx }
  | line e =>
    exact { live := h.live
            recvOn := h.recvOn
            errOn := h.errOn
            idle := fun hx => (h.idle hx).line ha
            active := fun x hx => (h.active x hx).line ha }

theorem Reachable.inv {r : SessionRun} (hr : r.Reachable) : r.Inv := by
  refine Reach.invariant ?_ (fun s a _ ha hs => hs.step ha) hr
  rintro s rfl
  have hoff : ∀ pcb : Nat, false = true ↔ (none : Option Nat) = some pcb := fun pcb => by simp
  exact { live := hoff
          recvOn := hoff
          errOn := hoff
          idle := fun _ => ⟨rfl, rfl, rfl, rfl, rfl, rfl⟩
          active := fun pcb hpcb => nomatch hpcb }

/-! ### What a session finds -/

/-- A connection accepted at the RFC 2217 port begins a session of a telnet client. -/
theorem fresh_of_accepted {s : BridgeSession} {newpcb : Option Nat} {errOk : Bool}
    {current : NetifId} {wgActive : Option NetifId}
    (h : (s.bridgeAccept true newpcb errOk current wgActive).1 = .ok) :
    (s.bridgeAccept true newpcb errOk current wgActive).2.bridge.Fresh := by
  cases newpcb with
  | none => cases h
  | some pcb =>
    unfold BridgeSession.bridgeAccept at h ⊢
    dsimp only at h ⊢
    split_ifs at h ⊢
    exact ⟨rfl, rfl, rfl, rfl⟩

/-- What becomes of the first byte of a session, by its port alone. -/
def firstByte (l : Look) (port : Bool) (b : Bridge) (x : UInt8) : Bridge :=
  if port ∧ x = tnIac then { b with tnState := .iac } else fanOut l b .tcp x

theorem tcpByte_first {b : Bridge} (hstate : b.tnState = .data) (l : Look) (x : UInt8) :
    tcpByte l b x = firstByte l b.telnetMode b x := by
  rw [tcpByte, firstByte, tnProcess, hstate]
  by_cases hmode : b.telnetMode = true
  · by_cases hx : x = tnIac
    · simp [hmode, hx]
    · simp [hmode, hx]
  · simp [hmode]

/-- The phase of plain data is that state of the parser. -/
theorem tnState_of_phase {t : TnState} (h : t.phase = .data) : t = .data := by
  cases t <;> first | rfl | cases h

/-- In every state of every run: the client is the connection that was taken and is still up, and
the callbacks are on that one only; with no connection up the reset lines are deasserted, nothing is
held and telnet is at plain data with COM-PORT inactive; what is held is the end of what the client
has sent, and telnet is where the rest of that leads to; and while nothing of it is consumed, the
next byte is taken by the port alone. -/
theorem bridge_session_leaves_nothing {r : SessionRun} (hr : r.Reachable) :
    (∀ pcb, (r.session.client = some pcb ↔ r.live pcb = true) ∧
      (r.session.recvOn pcb = true ↔ r.live pcb = true) ∧
      (r.session.errOn pcb = true ↔ r.live pcb = true)) ∧
    ((∀ pcb, r.live pcb = false) →
      r.session.client = none ∧
      r.session.bridge.dtrPin = true ∧ r.session.bridge.rtsPin = true ∧
      r.session.bridge.rx.pbufs = [] ∧ r.session.bridge.tnState = .data ∧
      r.session.bridge.comportActive = false) ∧
    (r.session.bridge.rx.pbufs ≠ [] → ∃ pcb, r.live pcb = true ∧
      r.session.bridge.rx.bytes <:+ r.heard pcb) ∧
    ∀ pcb, r.live pcb = true →
      ∃ consumed, r.heard pcb = consumed ++ r.session.bridge.rx.bytes ∧
        r.session.bridge.tnState.phase =
          (if r.port pcb then Phase.data.after consumed else .data) ∧
        (consumed = [] →
          r.session.bridge.tnState = .data ∧ r.session.bridge.comportActive = false ∧
          r.session.bridge.dtrPin = true ∧ r.session.bridge.rtsPin = true ∧
          ∀ l x, tcpByte l r.session.bridge x = firstByte l (r.port pcb) r.session.bridge x ∧
            tnNextIsData r.session.bridge x = (!(r.port pcb) || x != tnIac)) := by
  have h := hr.inv
  refine ⟨?_, ?_, ?_, ?_⟩
  · intro pcb
    rw [h.live, h.recvOn, h.errOn]
    exact ⟨Iff.rfl, Iff.rfl, Iff.rfl⟩
  · intro hdown
    have hnone : r.session.client = none := by
      rw [Option.eq_none_iff_forall_ne_some]
      intro pcb hpcb
      exact Bool.false_ne_true ((hdown pcb).symm.trans ((h.live pcb).mpr hpcb))
    have hreleased := h.idle hnone
    exact ⟨hnone, hreleased.dtrPin, hreleased.rtsPin, hreleased.rx, hreleased.tnState,
      hreleased.comportActive⟩
  · intro hheld
    cases hclient : r.session.client with
    | none => exact absurd (h.idle hclient).rx hheld
    | some pcb =>
      obtain ⟨-, consumed, hheard, -⟩ := h.active pcb hclient
      exact ⟨pcb, (h.live pcb).mpr hclient, consumed, hheard.symm⟩
  · intro pcb hpcb
    obtain ⟨hmode, consumed, hheard, hphase, hfresh⟩ := h.active pcb ((h.live pcb).mp hpcb)
    refine ⟨consumed, hheard, hphase, ?_⟩
    intro hnone
    obtain ⟨hcomport, hdtr, hrts⟩ := hfresh hnone
    have hstate : r.session.bridge.tnState = .data := by
      refine tnState_of_phase (hphase.trans ?_)
      rw [hnone]
      split_ifs <;> rfl
    refine ⟨hstate, hcomport, hdtr, hrts, fun l x => ⟨?_, ?_⟩⟩
    · rw [tcpByte_first hstate, hmode]
    · unfold tnNextIsData
      rw [hmode, hstate]
      by_cases hx : x = tnIac
      · simp [hx]
      · simp [hx]

/-- A telnet client pulls a reset line and sends on, and another connection is refused. -/
def holding : List SessionOp :=
  [.accept true (some 1) true .usb none,
    .recv 1 (some (⟨[255, 250, 44, 5, 8, 255, 240], by decide⟩, [])) true,
    .line (.task ⟨readyLook, fun _ => readyLook, fun _ => readyLook, fun _ => readyLook⟩),
    .recv 1 (some (⟨[255, 250, 44], by decide⟩, [])) true, .accept false (some 2) true .usb none]

/-- Its connection fails while the line is held and its bytes are not consumed. -/
theorem bridge_session_leaves_nothing_failed :
    ((holding.foldl step start).live 1 = true ∧
      (holding.foldl step start).session.bridge.dtrPin = false ∧
      (holding.foldl step start).session.bridge.rx.bytes = [255, 250, 44]) ∧
    ((holding.foldl step start).step (.err 1)).session.client = none ∧
      ((holding.foldl step start).step (.err 1)).session.bridge.dtrPin = true ∧
      ((holding.foldl step start).step (.err 1)).session.bridge.rx.pbufs = [] ∧
      ((holding.foldl step start).step (.err 1)).session.bridge.comportActive = false := by
  have hall : AdmitsAll admits step start (holding ++ [.err 1]) := by
    refine ⟨fun pcb _ => rfl, trivial, fun p next h => (nomatch h), trivial, ?_, rfl, trivial⟩
    rintro pcb ⟨⟩
    rfl
  have h0 : Reachable start := .start rfl
  obtain ⟨-, hdown, -⟩ := bridge_session_leaves_nothing (Reach.foldl h0 hall)
  rw [List.foldl_append] at hdown
  have hlive : ((holding.foldl step start).step (.err 1)).live = Function.update (Function.update
      (Function.update (fun _ => false) 1 true) 2 false) 1 false := rfl
  obtain ⟨hclient, hdtr, -, hheld, -, hcomport⟩ := hdown fun pcb => by
    change ((holding.foldl step start).step (.err 1)).live pcb = false
    rw [hlive]
    by_cases h1 : pcb = 1 <;> by_cases h2 : pcb = 2 <;> simp [Function.update, h1, h2]
  exact ⟨⟨rfl, rfl, rfl⟩, hclient, hdtr, hheld, hcomport⟩

end SessionRun

end Molewire
