/-
# The party line

Every turn of a loop of `serial_bridge_task` consumes one byte: a byte of the
line goes to each end but its own, a byte of the telnet protocol may be
answered. So over any run the ends have received what was consumed from each
of the others, all of it and in order.
-/

import Mathlib.Data.List.Induction
import Mathlib.Logic.Relation
import Molewire.SerialBridge

namespace Molewire

open Telnet (Phase Item)

/-! ### What goes in and what comes out -/

/-- The phase of the telnet parser. -/
def TnState.phase : TnState → Phase
  | .data => .data
  | .iac => .iac
  | .verb => .verb
  | .sb => .sub
  | .sbIac => .subIac

/-- What an end has for the line. -/
def Bridge.pending (b : Bridge) : Src → List UInt8
  | .uart => b.uartRx
  | .cdc => b.cdcRx
  | .tcp => b.rx.bytes

/-- The end takes bytes off the line. -/
def Bridge.active (b : Bridge) : Src → Bool
  | .uart => true
  | .cdc => b.cdcConnected
  | .tcp => b.client

/-- The byte of the line that a write to the client is. -/
def Written.line? (w : Written) : Option (Src × UInt8) :=
  match w.origin with
  | .line src x => some (src, x)
  | _ => none

/-- What an end was sent, each byte with the end it is from. -/
def Bridge.sent (b : Bridge) : Src → List (Src × UInt8)
  | .uart => b.uartTx
  | .cdc => b.cdcTx
  | .tcp => b.sock.filterMap Written.line?

/-- What an end was sent of another. -/
def Bridge.got (b : Bridge) (sink src : Src) : List UInt8 :=
  (b.sent sink).filterMap fun s => if s.1 = src then some s.2 else none

/-- The bytes of the line among what an end had for it. -/
def Bridge.lineOf (b : Bridge) (src : Src) (bs : List UInt8) : List UInt8 :=
  if src = .tcp ∧ b.telnetMode then b.tnState.phase.keep bs else bs

/-- A byte from one end at every other. -/
def Bridge.deliver (b : Bridge) (src : Src) (x : UInt8) : Bridge :=
  { b with
    cdcTx := if src ≠ .cdc ∧ b.cdcConnected then b.cdcTx ++ [(src, x)] else b.cdcTx
    sock :=
      if src ≠ .tcp ∧ b.client then b.sock ++ [⟨.line src x, b.toClient x⟩] else b.sock
    uartTx := if src ≠ .uart then b.uartTx ++ [(src, x)] else b.uartTx }

@[simp] theorem Bridge.deliver_pending (b : Bridge) (src s : Src) (x : UInt8) :
    (b.deliver src x).pending s = b.pending s := by
  cases s <;> rfl

theorem Bridge.deliver_sent (b : Bridge) (src sink : Src) (x : UInt8) :
    (b.deliver src x).sent sink =
      b.sent sink ++ if src ≠ sink ∧ b.active sink then [(src, x)] else [] := by
  cases sink with
  | uart => by_cases hto : src = .uart <;> simp [Bridge.deliver, Bridge.sent, Bridge.active, hto]
  | cdc =>
    by_cases hto : src ≠ .cdc ∧ b.cdcConnected = true
    · simp [Bridge.deliver, Bridge.sent, Bridge.active, hto]
    · have hsink : ¬(src ≠ .cdc ∧ b.active .cdc = true) := hto
      rw [if_neg hsink, List.append_nil]
      simp only [Bridge.deliver, Bridge.sent, if_neg hto]
  | tcp =>
    by_cases hto : src ≠ .tcp ∧ b.client = true
    · simp [Bridge.deliver, Bridge.sent, Bridge.active, hto, Written.line?]
    · have hsink : ¬(src ≠ .tcp ∧ b.active .tcp = true) := hto
      rw [if_neg hsink, List.append_nil]
      simp only [Bridge.deliver, Bridge.sent, if_neg hto]

theorem Bridge.deliver_got (b : Bridge) (src sink s : Src) (x : UInt8) :
    (b.deliver src x).got sink s =
      b.got sink s ++ if s = src ∧ src ≠ sink ∧ b.active sink then [x] else [] := by
  rw [Bridge.got, Bridge.deliver_sent, List.filterMap_append, ← Bridge.got]
  by_cases hto : src ≠ sink ∧ b.active sink
  · by_cases hs : s = src
    · subst hs
      simp [hto]
    · simp [hto, hs, Ne.symm hs]
  · rw [if_neg hto, if_neg fun h => hto h.2, List.filterMap_nil]

/-- Ends that are ready take the byte. -/
theorem fanOut_eq_deliver {l : Look} {b : Bridge} {src : Src} (h : sinksReady l b src)
    (x : UInt8) : fanOut l b src x = b.deliver src x := by
  have hcdc : src ≠ .cdc ∧ b.cdcConnected = true → 0 < l.cdcRoom := by
    rintro ⟨hsrc, hcon⟩
    by_contra hroom
    have hzero : l.cdcRoom = 0 := by omega
    simp [sinksReady, hsrc, hcon, hzero] at h
  have htcp : src ≠ .tcp ∧ b.client = true → l.accepts (b.toClient x).length = true := by
    rintro ⟨hsrc, hclient⟩
    refine l.fits _ ?_
    have hlen : (b.toClient x).length ≤ 2 := by
      rw [Bridge.toClient]
      split_ifs <;> simp
    by_contra hfull
    have hsnd : l.sndbuf < 2 := by omega
    simp [sinksReady, hsrc, hclient, hsnd] at h
  have hc : (src ≠ .cdc ∧ b.cdcConnected = true ∧ 0 < l.cdcRoom) ↔
      (src ≠ .cdc ∧ b.cdcConnected = true) :=
    ⟨fun h => ⟨h.1, h.2.1⟩, fun h => ⟨h.1, h.2, hcdc h⟩⟩
  have ht : (src ≠ .tcp ∧ b.client = true ∧ l.accepts (b.toClient x).length = true) ↔
      (src ≠ .tcp ∧ b.client = true) :=
    ⟨fun h => ⟨h.1, h.2.1⟩, fun h => ⟨h.1, h.2, htcp h⟩⟩
  simp only [fanOut, Bridge.deliver, hc, ht]

/-! ### Answers to the client -/

/-- A write that answers the client, a byte of whose protocol comes in. -/
inductive TnReply (b : Bridge) (x : UInt8) : Written → Prop
  | verb {r opt : UInt8} (h : tnWill ≤ r ∧ r ≤ tnDont) :
      TnReply b x ⟨.reply r opt, [tnIac, r, opt]⟩
  | notify : TnReply b x ⟨.ack 7 [0x30], ackBytes 7 [0x30]⟩
  | ack {cmd : UInt8} {pl : List UInt8} (payload : List UInt8)
      (hends : b.tnState.phase.ends x = true) (h : b.sbBuf = tnoptComport :: cmd :: pl) :
      TnReply b x ⟨.ack cmd payload, ackBytes cmd payload⟩

/-- The protocol does nothing to the line. -/
structure Bridge.Answers (b b' : Bridge) (x : UInt8) : Prop where
  client : b'.client = b.client
  telnetMode : b'.telnetMode = b.telnetMode
  cdcConnected : b'.cdcConnected = b.cdcConnected
  rx : b'.rx = b.rx
  uartRx : b'.uartRx = b.uartRx
  cdcRx : b'.cdcRx = b.cdcRx
  uartTx : b'.uartTx = b.uartTx
  cdcTx : b'.cdcTx = b.cdcTx
  recved : b'.recved = b.recved
  sbBuf : b'.sbBuf = b.sbBuf
  tnState : b'.tnState = b.tnState
  sock : ∃ ws, b'.sock = b.sock ++ ws ∧ ∀ w ∈ ws, TnReply b x w

variable {x : UInt8}

theorem Bridge.Answers.refl (b : Bridge) : b.Answers b x :=
  ⟨rfl, rfl, rfl, rfl, rfl, rfl, rfl, rfl, rfl, rfl, rfl, [], (List.append_nil _).symm, nofun⟩

theorem TnReply.of_same {b b' : Bridge} (h : b.Answers b' x) {w : Written} (hw : TnReply b' x w) :
    TnReply b x w := by
  cases hw with
  | verb h => exact .verb h
  | notify => exact .notify
  | ack payload hends hbuf => exact .ack payload (h.tnState ▸ hends) (h.sbBuf ▸ hbuf)

theorem Bridge.Answers.trans {b b₁ b₂ : Bridge} (h₁ : b.Answers b₁ x) (h₂ : b₁.Answers b₂ x) :
    b.Answers b₂ x := by
  obtain ⟨ws₁, hsock₁, hws₁⟩ := h₁.sock
  obtain ⟨ws₂, hsock₂, hws₂⟩ := h₂.sock
  refine ⟨h₂.client.trans h₁.client, h₂.telnetMode.trans h₁.telnetMode,
    h₂.cdcConnected.trans h₁.cdcConnected, h₂.rx.trans h₁.rx, h₂.uartRx.trans h₁.uartRx,
    h₂.cdcRx.trans h₁.cdcRx, h₂.uartTx.trans h₁.uartTx, h₂.cdcTx.trans h₁.cdcTx,
    h₂.recved.trans h₁.recved, h₂.sbBuf.trans h₁.sbBuf, h₂.tnState.trans h₁.tnState, ws₁ ++ ws₂,
    by rw [hsock₂, hsock₁, List.append_assoc], fun w hw => ?_⟩
  rcases List.mem_append.mp hw with hw | hw
  · exact hws₁ w hw
  · exact (hws₂ w hw).of_same h₁

theorem tnSend_answers (l : Look) {b : Bridge} {origin : Origin} {d : List UInt8}
    (h : TnReply b x ⟨origin, d⟩) : b.Answers (tnSend l b origin d) x := by
  rw [tnSend]
  split_ifs with hfits
  · exact ⟨rfl, rfl, rfl, rfl, rfl, rfl, rfl, rfl, rfl, rfl, rfl, _, rfl,
      fun w hw => List.mem_singleton.mp hw ▸ h⟩
  · exact .refl b

theorem replyVerb_range {verb opt r : UInt8} (h : replyVerb verb opt = some r) :
    tnWill ≤ r ∧ r ≤ tnDont := by
  rw [replyVerb] at h
  split_ifs at h <;> obtain rfl := Option.some.inj h <;> decide

theorem tnHandleVerb_answers (l : Look) (b : Bridge) (verb opt : UInt8) :
    b.Answers (tnHandleVerb l b verb opt) x := by
  -- COM-PORT control, once agreed, is followed by a notice of the modem state
  have hnotice {b' : Bridge} (h : b.Answers b' x) :
      b.Answers (tnComportAck l { b' with comportActive := true } 7 [0x30]) x := by
    refine h.trans (.trans ?_ (tnSend_answers l .notify))
    exact ⟨rfl, rfl, rfl, rfl, rfl, rfl, rfl, rfl, rfl, rfl, rfl, [],
      (List.append_nil _).symm, List.forall_mem_nil _⟩
  rw [tnHandleVerb]
  cases hr : replyVerb verb opt with
  | none =>
    dsimp only
    split_ifs
    · exact hnotice (.refl b)
    · exact .refl b
  | some r =>
    have hreply : b.Answers (tnSend l b (.reply r opt) [tnIac, r, opt]) x :=
      tnSend_answers l (.verb (replyVerb_range hr))
    dsimp only
    split_ifs
    · exact hnotice hreply
    · exact hreply

/-- A change of the format or of a pin is no answer yet. -/
theorem Bridge.Answers.of_format (b : Bridge) (baud : UInt32) (databits stop : UInt8)
    (parity : UartParity) (dtr rts : Bool) :
    b.Answers { b with
      curBaud := baud, curDatabits := databits, curStop := stop, curParity := parity,
      dtrPin := dtr, rtsPin := rts } x :=
  ⟨rfl, rfl, rfl, rfl, rfl, rfl, rfl, rfl, rfl, rfl, rfl, [], (List.append_nil _).symm, nofun⟩

theorem setBaudrate_answers (b : Bridge) (pl : List UInt8) : b.Answers (setBaudrate b pl) x := by
  unfold setBaudrate
  split
  · dsimp only
    split_ifs
    · exact .of_format b ..
    · exact .refl b
  · exact .refl b

theorem setDatasize_answers (b : Bridge) (pl : List UInt8) : b.Answers (setDatasize b pl) x := by
  cases pl with
  | nil => exact .refl b
  | cons p pl =>
    rw [setDatasize]
    split_ifs
    · exact .of_format b ..
    · exact .refl b

theorem setParity_answers (b : Bridge) (pl : List UInt8) : b.Answers (setParity b pl) x := by
  cases pl with
  | nil => exact .refl b
  | cons p pl =>
    rw [setParity]
    split_ifs <;> exact .of_format b ..

theorem setStopsize_answers (b : Bridge) (pl : List UInt8) : b.Answers (setStopsize b pl) x := by
  cases pl with
  | nil => exact .refl b
  | cons p pl =>
    rw [setStopsize]
    split_ifs
    · exact .of_format b ..
    · exact .refl b

theorem setControl_answers (b : Bridge) (p : UInt8) : b.Answers (setControl b p) x := by
  rw [setControl]
  split_ifs <;> exact .of_format b ..

/-- A subnegotiation that has ended is answered under its own command. -/
theorem tnHandleSb_answers (l : Look) {b : Bridge} (hends : b.tnState.phase.ends x = true) :
    b.Answers (tnHandleSb l b) x := by
  rw [tnHandleSb]
  split
  case h_2 => exact .refl b
  case h_1 opt cmd pl hbuf =>
    split_ifs with hopt
    · exact .refl b
    · obtain rfl : opt = tnoptComport := not_not.mp hopt
      -- the acknowledgement of the state behind the command
      have hack {b' : Bridge} (h : b.Answers b' x) (payload : List UInt8) :
          b.Answers (tnComportAck l b' cmd payload) x :=
        h.trans (tnSend_answers l (.ack payload (h.tnState ▸ hends) (h.sbBuf.trans hbuf)))
      unfold tnHandleCmd
      split_ifs
      · exact hack (setBaudrate_answers b pl) _
      · exact hack (setDatasize_answers b pl) _
      · exact hack (setParity_answers b pl) _
      · exact hack (setStopsize_answers b pl) _
      · split
        · exact hack (setControl_answers b _) _
        · exact .refl b
      · exact hack (.refl b) _

theorem sbPush_take (got : List UInt8) (x : UInt8) :
    sbPush (got.take sbBufSize) x = (got ++ [x]).take sbBufSize := by
  rw [sbPush, List.take_append]
  split_ifs with hroom
  · have hlen : got.length < sbBufSize := by
      rw [List.length_take] at hroom
      omega
    rw [List.take_of_length_le (Nat.le_of_lt hlen), List.take_of_length_le]
    simp only [List.length_singleton]
    omega
  · have hlen : sbBufSize ≤ got.length := by
      rw [List.length_take] at hroom
      omega
    simp [Nat.sub_eq_zero_of_le hlen]

/-- The parser is inside a subnegotiation. -/
def TnState.InSub (t : TnState) : Prop := t = .sb ∨ t = .sbIac

/-- What a byte of the protocol does: it may be answered, and the parser goes on. -/
structure Bridge.Parses (b b' : Bridge) (x : UInt8) : Prop where
  phase : b'.tnState.phase = b.tnState.phase.next x
  sbBuf : b'.tnState.InSub → ∀ got, (b.tnState.InSub → b.sbBuf = got.take sbBufSize) →
    b'.sbBuf = (b.tnState.phase.hold got x).take sbBufSize
  answers : ∃ b₁ : Bridge, b.Answers b₁ x ∧
    b' = { b₁ with tnState := b'.tnState, tnVerb := b'.tnVerb, sbBuf := b'.sbBuf }

/-- A byte with no answer only moves the parser. -/
theorem Bridge.Parses.of_quiet {b : Bridge} (t : TnState) (verb : UInt8) (buf : List UInt8)
    (hphase : t.phase = b.tnState.phase.next x)
    (hbuf : t.InSub → ∀ got, (b.tnState.InSub → b.sbBuf = got.take sbBufSize) →
      buf = (b.tnState.phase.hold got x).take sbBufSize) :
    b.Parses { b with tnState := t, tnVerb := verb, sbBuf := buf } x :=
  ⟨hphase, hbuf, b, .refl b, rfl⟩

theorem TnState.not_inSub {t : TnState} (h : t = .data ∨ t = .iac ∨ t = .verb) : ¬t.InSub := by
  rcases h with rfl | rfl | rfl <;> rintro (h | h) <;> cases h

/-- `tnProcess` follows the phases: what is data, it finds, and anything else it parses. -/
theorem tnProcess_spec (l : Look) (b : Bridge) (x : UInt8) :
    (b.tnState.phase.isData x = true →
      tnProcess l b x = ({ b with tnState := .data }, some x)) ∧
    (b.tnState.phase.isData x = false →
      (tnProcess l b x).2 = none ∧ b.Parses (tnProcess l b x).1 x) := by
  cases hstate : b.tnState with
  | data =>
    by_cases hx : x = tnIac
    · refine ⟨fun h => absurd hx (by simpa [Phase.isData, TnState.phase] using h), fun _ => ?_⟩
      simp only [tnProcess, hstate, if_pos hx, true_and]
      exact .of_quiet .iac _ _ (by simp [hstate, TnState.phase, Phase.next, hx])
        fun h => absurd h (TnState.not_inSub (.inr (.inl rfl)))
    · refine ⟨fun _ => ?_, fun h => absurd h (by simpa [Phase.isData, TnState.phase] using hx)⟩
      simp only [tnProcess, hstate, if_neg hx]
      rw [← hstate]
  | iac =>
    by_cases hx : x = tnIac
    · refine ⟨fun _ => ?_, fun h => absurd hx (by simpa [Phase.isData, TnState.phase] using h)⟩
      simp only [tnProcess, hstate, if_pos hx]
    · refine ⟨fun h => absurd (by simpa [Phase.isData, TnState.phase] using h) hx, fun _ => ?_⟩
      simp only [tnProcess, hstate, if_neg hx]
      split_ifs with hsb hverb
      · exact ⟨rfl, .of_quiet .sb _ _ (by rw [hstate, hsb]; rfl)
          fun _ got _ => by simp [hstate, TnState.phase, Phase.hold, hsb]⟩
      · exact ⟨rfl, .of_quiet .verb _ _
          (by simp [hstate, TnState.phase, Phase.next, hx, hsb, hverb])
          fun h => absurd h (TnState.not_inSub (.inr (.inr rfl)))⟩
      · exact ⟨rfl, .of_quiet .data _ _
          (by simp [hstate, TnState.phase, Phase.next, hx, hsb, hverb])
          fun h => absurd h (TnState.not_inSub (.inl rfl))⟩
  | verb =>
    refine ⟨fun h => Bool.noConfusion h, fun _ => ?_⟩
    simp only [tnProcess, hstate, true_and]
    exact ⟨by simp [hstate, TnState.phase, Phase.next],
      fun h => absurd h (TnState.not_inSub (.inl rfl)), _, tnHandleVerb_answers l b b.tnVerb x, rfl⟩
  | sb =>
    refine ⟨fun h => Bool.noConfusion h, fun _ => ?_⟩
    have hin : b.tnState.InSub := .inl hstate
    simp only [tnProcess, hstate]
    split_ifs with hx
    · exact ⟨rfl, .of_quiet .sbIac _ _ (by simp [hstate, TnState.phase, Phase.next, hx])
        fun _ got hgot => by simpa [hstate, TnState.phase, Phase.hold, hx] using hgot hin⟩
    · exact ⟨rfl, .of_quiet .sb _ _ (by simp [hstate, TnState.phase, Phase.next, hx])
        fun _ got hgot => by
          simp [hstate, TnState.phase, Phase.hold, hx, hgot hin, sbPush_take]⟩
  | sbIac =>
    refine ⟨fun h => Bool.noConfusion h, fun _ => ?_⟩
    have hin : b.tnState.InSub := .inr hstate
    simp only [tnProcess, hstate]
    split_ifs with hx
    · exact ⟨rfl, .of_quiet .sb _ _ (by simp [hstate, TnState.phase, Phase.next, hx])
        fun _ got hgot => by
          simp [hstate, TnState.phase, Phase.hold, hx, hgot hin, sbPush_take]⟩
    · have hends : b.tnState.phase.ends x = true := by
        simpa [hstate, TnState.phase, Phase.ends] using hx
      exact ⟨rfl, by simp [hstate, TnState.phase, Phase.next, hx],
        fun h => absurd h (TnState.not_inSub (.inl rfl)), _, tnHandleSb_answers l hends, rfl⟩

/-- The look ahead agrees with the parser. -/
theorem tnNextIsData_eq {b : Bridge} (h : b.telnetMode) (x : UInt8) :
    tnNextIsData b x = b.tnState.phase.isData x := by
  cases hstate : b.tnState <;> simp [tnNextIsData, h, hstate, TnState.phase, Phase.isData]

/-! ### Turns -/

/-- One turn of a loop of the task. -/
inductive Turn (b : Bridge) : Bridge → Prop
  | uart {x : UInt8} {rest : List UInt8} (h : b.uartRx = x :: rest) :
      Turn b (({ b with uartRx := rest } : Bridge).deliver .uart x)
  | cdc {x : UInt8} {rest : List UInt8} (h : b.cdcRx = x :: rest) :
      Turn b (({ b with cdcRx := rest } : Bridge).deliver .cdc x)
  | raw {x : UInt8} {rest : List UInt8} (hmode : b.telnetMode = false)
      (h : b.rx.bytes = x :: rest) :
      Turn b (({ b with rx := b.rx.advance } : Bridge).deliver .tcp x)
  | data {x : UInt8} {rest : List UInt8} (hmode : b.telnetMode = true)
      (h : b.rx.bytes = x :: rest) (hdata : b.tnState.phase.isData x = true) :
      Turn b (({ b with rx := b.rx.advance, tnState := .data } : Bridge).deliver .tcp x)
  | protocol {x : UInt8} {rest : List UInt8} {b' : Bridge} (hmode : b.telnetMode = true)
      (h : b.rx.bytes = x :: rest) (hdata : b.tnState.phase.isData x = false)
      (hparses : ({ b with rx := b.rx.advance } : Bridge).Parses b' x) : Turn b b'

/-- Some turns. -/
abbrev Turns : Bridge → Bridge → Prop := Relation.ReflTransGen Turn

theorem uartLoop_turns (budget : Nat) (looks : Nat → Look) (b : Bridge) :
    Turns b (uartLoop budget looks b) := by
  induction budget generalizing b with
  | zero => exact .refl
  | succ budget ih =>
    rw [uartLoop]
    split
    · rename_i x rest hrx
      split_ifs with hready
      · refine .head ?_ (ih _)
        rw [fanOut_eq_deliver (b := { b with uartRx := rest }) hready.2]
        exact .uart hrx
      · exact .refl
    · exact .refl

theorem cdcLoop_turns (budget : Nat) (looks : Nat → Look) (b : Bridge) :
    Turns b (cdcLoop budget looks b) := by
  induction budget generalizing b with
  | zero => exact .refl
  | succ budget ih =>
    rw [cdcLoop]
    split
    · rename_i x rest hrx
      split_ifs with hready
      · refine .head ?_ (ih _)
        rw [fanOut_eq_deliver (b := { b with cdcRx := rest }) hready.2]
        exact .cdc hrx
      · exact .refl
    · exact .refl

theorem tcpByte_raw {l : Look} {b : Bridge} (hmode : b.telnetMode = false) (x : UInt8) :
    tcpByte l b x = fanOut l b .tcp x := by
  simp [tcpByte, hmode]

theorem tcpByte_data {l : Look} {b : Bridge} {x : UInt8} (hmode : b.telnetMode = true)
    (hdata : b.tnState.phase.isData x = true) :
    tcpByte l b x = fanOut l { b with tnState := .data } .tcp x := by
  simp [tcpByte, hmode, (tnProcess_spec l b x).1 hdata]

theorem tcpByte_protocol {l : Look} {b : Bridge} {x : UInt8} (hmode : b.telnetMode = true)
    (hdata : b.tnState.phase.isData x = false) : b.Parses (tcpByte l b x) x := by
  obtain ⟨hnone, hparses⟩ := (tnProcess_spec l b x).2 hdata
  have hbyte : tcpByte l b x = (tnProcess l b x).1 := by
    simp only [tcpByte, hmode, not_true_eq_false, if_false]
    split
    · rename_i data heq
      rw [heq] at hnone
      cases hnone
    · rename_i heq
      rw [heq]
  rw [hbyte]
  exact hparses

/-- A byte is only taken where the line has room for it, or where it is none of the line. -/
theorem tcpByte_turn {l : Look} {b : Bridge} {x : UInt8} (hx : b.rx.byte? = some x)
    (hready : tnNextIsData b x = true → sinksReady l b .tcp = true) :
    Turn b (tcpByte l { b with rx := b.rx.advance } x) := by
  obtain ⟨rest, hrest⟩ : ∃ rest, b.rx.bytes = x :: rest := by
    rw [RxChain.byte?_eq] at hx
    exact List.head?_eq_some_iff.mp hx
  by_cases hmode : b.telnetMode = true
  case neg =>
    replace hmode : b.telnetMode = false := Bool.eq_false_iff.mpr hmode
    have hsinks : sinksReady l b .tcp = true := hready (by simp [tnNextIsData, hmode])
    rw [tcpByte_raw (b := { b with rx := b.rx.advance }) hmode,
      fanOut_eq_deliver (b := { b with rx := b.rx.advance }) hsinks]
    exact .raw hmode hrest
  case pos =>
    by_cases hdata : b.tnState.phase.isData x = true
    · have hsinks : sinksReady l b .tcp = true := hready ((tnNextIsData_eq hmode x).trans hdata)
      rw [tcpByte_data (b := { b with rx := b.rx.advance }) hmode hdata,
        fanOut_eq_deliver (b := { b with rx := b.rx.advance, tnState := .data }) hsinks]
      exact .data hmode hrest hdata
    · replace hdata : b.tnState.phase.isData x = false := Bool.eq_false_iff.mpr hdata
      exact .protocol hmode hrest hdata (tcpByte_protocol hmode hdata)

theorem tcpLoop_turns (budget : Nat) (looks : Nat → Look) (b : Bridge) :
    Turns b (tcpLoop budget looks b).1 := by
  induction budget generalizing b with
  | zero => exact .refl
  | succ budget ih =>
    rw [tcpLoop]
    split
    · rename_i x hx
      dsimp only
      split_ifs with hwait
      · exact .refl
      · refine .head (tcpByte_turn hx fun hnext => ?_) (ih _)
        by_contra hsinks
        exact hwait ⟨hnext, hsinks⟩
    · exact .refl

theorem fanOut_pending (l : Look) (b : Bridge) (src s : Src) (x : UInt8) :
    (fanOut l b src x).pending s = b.pending s := by
  cases s <;> rfl

/-- An answer takes nothing off the ends. -/
theorem Bridge.Parses.pending {b b' : Bridge} {x : UInt8} (h : b.Parses b' x) (src : Src) :
    b'.pending src = b.pending src := by
  obtain ⟨b₁, hans, heq⟩ := h.answers
  rw [heq]
  cases src with
  | uart => exact hans.uartRx
  | cdc => exact hans.cdcRx
  | tcp => exact congrArg RxChain.bytes hans.rx

theorem tcpByte_pending (l : Look) (b : Bridge) (x : UInt8) (s : Src) :
    (tcpByte l b x).pending s = b.pending s := by
  by_cases hmode : b.telnetMode = true
  · by_cases hdata : b.tnState.phase.isData x = true
    · rw [tcpByte_data hmode hdata, fanOut_pending]
      cases s <;> rfl
    · exact (tcpByte_protocol (l := l) hmode (Bool.eq_false_iff.mpr hdata)).pending s
  · rw [tcpByte_raw (Bool.eq_false_iff.mpr hmode), fanOut_pending]

theorem uartLoop_pending (budget : Nat) (looks : Nat → Look) (b : Bridge) {s : Src}
    (hs : s ≠ .uart) : (uartLoop budget looks b).pending s = b.pending s := by
  induction budget generalizing b with
  | zero => rfl
  | succ budget ih =>
    rw [uartLoop]
    split
    · split_ifs
      · rw [ih, fanOut_pending]
        cases s <;> first | rfl | exact absurd rfl hs
      · rfl
    · rfl

theorem cdcLoop_pending (budget : Nat) (looks : Nat → Look) (b : Bridge) {s : Src}
    (hs : s ≠ .cdc) : (cdcLoop budget looks b).pending s = b.pending s := by
  induction budget generalizing b with
  | zero => rfl
  | succ budget ih =>
    rw [cdcLoop]
    split
    · split_ifs
      · rw [ih, fanOut_pending]
        cases s <;> first | rfl | exact absurd rfl hs
      · rfl
    · rfl

theorem tcpLoop_pending (budget : Nat) (looks : Nat → Look) (b : Bridge) {s : Src}
    (hs : s ≠ .tcp) : (tcpLoop budget looks b).1.pending s = b.pending s := by
  induction budget generalizing b with
  | zero => rfl
  | succ budget ih =>
    rw [tcpLoop]
    split
    · dsimp only
      split_ifs
      · rfl
      · dsimp only
        rw [ih, tcpByte_pending]
        cases s <;> first | rfl | exact absurd rfl hs
    · rfl

/-- The loop counts what it consumes. -/
theorem tcpLoop_count (budget : Nat) (looks : Nat → Look) (b : Bridge) :
    (tcpLoop budget looks b).2 + ((tcpLoop budget looks b).1.pending .tcp).length =
      (b.pending .tcp).length := by
  induction budget generalizing b with
  | zero => exact Nat.zero_add _
  | succ budget ih =>
    rw [tcpLoop]
    split
    · rename_i x hx
      dsimp only
      split_ifs with hwait
      · exact Nat.zero_add _
      · have hrest := ih (tcpByte (looks budget) { b with rx := b.rx.advance } x)
        have hsome : b.pending .tcp ≠ [] := by
          intro h
          rw [RxChain.byte?_eq, show b.rx.bytes = [] from h] at hx
          cases hx
        have hpos := List.length_pos_of_ne_nil hsome
        have hone : ((tcpByte (looks budget) { b with rx := b.rx.advance } x).pending .tcp).length
            = (b.pending .tcp).length - 1 := by
          rw [tcpByte_pending]
          simp only [Bridge.pending, RxChain.advance_bytes, List.length_tail]
        dsimp only
        omega
    · exact Nat.zero_add _

/-! ### What has moved -/

/-- Between two states of a session: what came in, and what was consumed and sent. -/
structure Bridge.Moved (b₀ b : Bridge) (arrived taken : Src → List UInt8) : Prop where
  client : b.client = b₀.client
  telnetMode : b.telnetMode = b₀.telnetMode
  cdcConnected : b.cdcConnected = b₀.cdcConnected
  phase : b.tnState.phase =
    if b₀.telnetMode then b₀.tnState.phase.after (taken .tcp) else b₀.tnState.phase
  pending : ∀ src, taken src ++ b.pending src = b₀.pending src ++ arrived src
  got : ∀ sink src, b.got sink src =
    b₀.got sink src ++ if src ≠ sink ∧ b₀.active sink then b₀.lineOf src (taken src) else []

theorem Bridge.Moved.active {b₀ b : Bridge} {arrived taken : Src → List UInt8}
    (h : b₀.Moved b arrived taken) (sink : Src) : b.active sink = b₀.active sink := by
  cases sink
  · rfl
  · exact h.cdcConnected
  · exact h.client

theorem Bridge.Moved.refl (b : Bridge) : b.Moved b (fun _ => []) (fun _ => []) where
  client := rfl
  telnetMode := rfl
  cdcConnected := rfl
  phase := (ite_self _).symm
  pending src := (List.append_nil _).symm
  got sink src := by
    have hnone : b.lineOf src [] = [] := by rw [Bridge.lineOf]; split_ifs <;> rfl
    rw [hnone, ite_self, List.append_nil]

/-- The line of what is consumed is the line of its parts. -/
theorem Bridge.Moved.lineOf {b₀ b : Bridge} {arrived taken : Src → List UInt8}
    (h : b₀.Moved b arrived taken) (src : Src) (bs : List UInt8) :
    b₀.lineOf src (taken src ++ bs) = b₀.lineOf src (taken src) ++ b.lineOf src bs := by
  rw [Bridge.lineOf, Bridge.lineOf, Bridge.lineOf, h.telnetMode, h.phase]
  by_cases hsrc : src = .tcp ∧ b₀.telnetMode = true
  · obtain ⟨rfl, hmode⟩ := hsrc
    simp [hmode, Phase.keep_append]
  · rw [if_neg hsrc, if_neg hsrc, if_neg hsrc]

theorem Bridge.Moved.trans {b₀ b₁ b₂ : Bridge} {arrived₁ taken₁ arrived₂ taken₂ : Src → List UInt8}
    (h₁ : b₀.Moved b₁ arrived₁ taken₁) (h₂ : b₁.Moved b₂ arrived₂ taken₂) :
    b₀.Moved b₂ (fun src => arrived₁ src ++ arrived₂ src)
      (fun src => taken₁ src ++ taken₂ src) where
  client := h₂.client.trans h₁.client
  telnetMode := h₂.telnetMode.trans h₁.telnetMode
  cdcConnected := h₂.cdcConnected.trans h₁.cdcConnected
  phase := by
    rw [h₂.phase, h₁.telnetMode, h₁.phase]
    split_ifs with hmode
    · exact (Phase.after_append _ _ _).symm
    · rfl
  pending src := by
    rw [List.append_assoc, h₂.pending, ← List.append_assoc, h₁.pending, List.append_assoc]
  got sink src := by
    rw [h₂.got, h₁.got, h₁.active, h₁.lineOf]
    split_ifs
    · rw [List.append_assoc]
    · rw [List.append_nil, List.append_nil]

/-- One byte of one end. -/
def oneByte (src : Src) (x : UInt8) : Src → List UInt8 := fun s => if s = src then [x] else []

/-- A byte that goes to the others has moved. -/
theorem Bridge.Moved.of_deliver {b b' : Bridge} {src : Src} {x : UInt8} {rest : List UInt8}
    (hclient : b'.client = b.client) (hmode : b'.telnetMode = b.telnetMode)
    (hcdc : b'.cdcConnected = b.cdcConnected) (hsent : ∀ sink, b'.sent sink = b.sent sink)
    (hfrom : b.pending src = x :: rest) (hrest : b'.pending src = rest)
    (hother : ∀ s, s ≠ src → b'.pending s = b.pending s)
    (hphase : b'.tnState.phase =
      if b.telnetMode then b.tnState.phase.after (oneByte src x .tcp) else b.tnState.phase)
    (hline : b.lineOf src [x] = [x]) :
    b.Moved (b'.deliver src x) (fun _ => []) (oneByte src x) where
  client := hclient
  telnetMode := hmode
  cdcConnected := hcdc
  phase := hphase
  pending s := by
    by_cases hs : s = src
    · subst hs
      simp [oneByte, hrest, hfrom]
    · simp [oneByte, hs, hother s hs]
  got sink s := by
    have hactive : b'.active sink = b.active sink := by
      cases sink
      · rfl
      · exact hcdc
      · exact hclient
    rw [Bridge.deliver_got, hactive, Bridge.got, hsent, ← Bridge.got]
    by_cases hs : s = src
    · subst hs
      simp [oneByte, hline]
    · have hnone : b.lineOf s [] = [] := by rw [Bridge.lineOf]; split_ifs <;> rfl
      simp [oneByte, hs, hnone]

theorem TnReply.line?_none {b : Bridge} {w : Written} (h : TnReply b x w) : w.line? = none := by
  cases h <;> rfl

/-- An answer is nothing of the line. -/
theorem Bridge.Parses.sent {b b' : Bridge} {x : UInt8} (h : b.Parses b' x) (sink : Src) :
    b'.sent sink = b.sent sink := by
  obtain ⟨b₁, hans, heq⟩ := h.answers
  rw [heq]
  cases sink with
  | uart => exact hans.uartTx
  | cdc => exact hans.cdcTx
  | tcp =>
    obtain ⟨ws, hsock, hws⟩ := hans.sock
    have hnone : ws.filterMap Written.line? = [] :=
      List.filterMap_eq_nil_iff.mpr fun w hw => (hws w hw).line?_none
    simp only [Bridge.sent, hsock, List.filterMap_append, hnone, List.append_nil]

theorem Bridge.Parses.recved {b b' : Bridge} {x : UInt8} (h : b.Parses b' x) :
    b'.recved = b.recved := by
  obtain ⟨b₁, hans, heq⟩ := h.answers
  rw [heq]
  exact hans.recved

theorem Bridge.lineOf_of_ne {b : Bridge} {src : Src} (h : src ≠ .tcp) (bs : List UInt8) :
    b.lineOf src bs = bs := if_neg fun h' => h h'.1

theorem Bridge.lineOf_of_raw {b : Bridge} (h : b.telnetMode = false) (src : Src)
    (bs : List UInt8) : b.lineOf src bs = bs := if_neg fun h' => by simp [h] at h'

/-- A turn moves one byte. -/
theorem Turn.moved {b b' : Bridge} (h : Turn b b') :
    b'.recved = b.recved ∧ ∃ taken, b.Moved b' (fun _ => []) taken := by
  cases h with
  | uart h =>
    refine ⟨rfl, _, .of_deliver rfl rfl rfl (fun sink => by cases sink <;> rfl) h rfl
      (fun s hs => by cases s <;> first | rfl | exact absurd rfl hs) ?_
      (Bridge.lineOf_of_ne (by decide) _)⟩
    exact (ite_self _).symm
  | cdc h =>
    refine ⟨rfl, _, .of_deliver rfl rfl rfl (fun sink => by cases sink <;> rfl) h rfl
      (fun s hs => by cases s <;> first | rfl | exact absurd rfl hs) ?_
      (Bridge.lineOf_of_ne (by decide) _)⟩
    exact (ite_self _).symm
  | @raw x rest hmode h =>
    have hrest : b.rx.advance.bytes = rest := by rw [RxChain.advance_bytes, h, List.tail_cons]
    refine ⟨rfl, _, .of_deliver rfl rfl rfl (fun sink => by cases sink <;> rfl) h hrest
      (fun s hs => by cases s <;> first | rfl | exact absurd rfl hs) ?_
      (Bridge.lineOf_of_raw hmode _ _)⟩
    rw [hmode]
    rfl
  | @data x rest hmode h hdata =>
    have hrest : b.rx.advance.bytes = rest := by rw [RxChain.advance_bytes, h, List.tail_cons]
    refine ⟨rfl, _, .of_deliver rfl rfl rfl (fun sink => by cases sink <;> rfl) h hrest
      (fun s hs => by cases s <;> first | rfl | exact absurd rfl hs) ?_ ?_⟩
    · rw [hmode]
      exact (Phase.next_of_isData hdata).symm
    · rw [Bridge.lineOf, if_pos ⟨rfl, hmode⟩, Phase.keep_singleton, if_pos hdata]
  | @protocol x rest b' hmode h hdata hparses =>
    have hrest : b.rx.advance.bytes = rest := by rw [RxChain.advance_bytes, h, List.tail_cons]
    obtain ⟨b₁, hans, heq⟩ := hparses.answers
    refine ⟨hparses.recved, oneByte .tcp x, ?_, ?_, ?_, ?_, fun s => ?_, fun sink s => ?_⟩
    · rw [heq]
      exact hans.client
    · rw [heq]
      exact hans.telnetMode
    · rw [heq]
      exact hans.cdcConnected
    · rw [hparses.phase, hmode]
      rfl
    · rw [hparses.pending, List.append_nil]
      cases s with
      | uart => rfl
      | cdc => rfl
      | tcp => exact (congrArg (x :: ·) hrest).trans h.symm
    · have hnone : b.lineOf s (oneByte .tcp x s) = [] := by
        cases s with
        | uart => rfl
        | cdc => rfl
        | tcp => rw [Bridge.lineOf, if_pos ⟨rfl, hmode⟩, oneByte, if_pos rfl, Phase.keep_singleton,
            hdata, if_neg Bool.false_ne_true]
      rw [Bridge.got, hparses.sent, hnone, ite_self, List.append_nil]
      rfl

/-- And so do some turns. -/
theorem Turns.moved {b b' : Bridge} (h : Turns b b') :
    b'.recved = b.recved ∧ ∃ taken, b.Moved b' (fun _ => []) taken := by
  induction h with
  | refl => exact ⟨rfl, _, .refl b⟩
  | tail _ hturn ih =>
    obtain ⟨hrecved, taken, hmoved⟩ := ih
    obtain ⟨hrecved', taken', hmoved'⟩ := hturn.moved
    exact ⟨hrecved'.trans hrecved, _, hmoved.trans hmoved'⟩

/-! ### What is written to the client -/

/-- A write as its kind has it; only telnet has answers. -/
def Written.Framed (w : Written) (b : Bridge) : Prop :=
  match w.origin with
  | .line _ x => w.bytes = b.toClient x
  | .reply r opt => b.telnetMode ∧ w.bytes = [tnIac, r, opt] ∧ tnWill ≤ r ∧ r ≤ tnDont
  | .ack cmd payload => b.telnetMode ∧ w.bytes = ackBytes cmd payload

theorem TnReply.framed {b b' : Bridge} (hmode : b'.telnetMode = true) {w : Written}
    (h : TnReply b x w) : w.Framed b' := by
  cases h with
  | verb h => exact ⟨hmode, rfl, h⟩
  | notify => exact ⟨hmode, rfl⟩
  | ack => exact ⟨hmode, rfl⟩

theorem Bridge.deliver_sock (b : Bridge) (src : Src) (x : UInt8) :
    ∃ ws, (b.deliver src x).sock = b.sock ++ ws ∧ ∀ w ∈ ws, w.Framed b := by
  by_cases hto : src ≠ .tcp ∧ b.client = true
  · refine ⟨[⟨.line src x, b.toClient x⟩], if_pos hto, fun w hw => ?_⟩
    rw [List.mem_singleton.mp hw]
    rfl
  · exact ⟨[], (if_neg hto).trans (List.append_nil _).symm, nofun⟩

theorem Turn.wrote {b b' : Bridge} (h : Turn b b') :
    ∃ ws, b'.sock = b.sock ++ ws ∧ ∀ w ∈ ws, w.Framed b := by
  cases h with
  | uart h => exact Bridge.deliver_sock _ _ _
  | cdc h => exact Bridge.deliver_sock _ _ _
  | raw hmode h => exact Bridge.deliver_sock _ _ _
  | data hmode h hdata => exact Bridge.deliver_sock _ _ _
  | protocol hmode h hdata hparses =>
    obtain ⟨b₁, hans, heq⟩ := hparses.answers
    obtain ⟨ws, hsock, hws⟩ := hans.sock
    rw [heq]
    exact ⟨ws, hsock, fun w hw => (hws w hw).framed hmode⟩

theorem Turns.wrote {b b' : Bridge} (h : Turns b b') :
    ∃ ws, b'.sock = b.sock ++ ws ∧ ∀ w ∈ ws, w.Framed b := by
  induction h with
  | refl => exact ⟨[], (List.append_nil _).symm, nofun⟩
  | @tail b₁ b₂ hturns hturn ih =>
    obtain ⟨ws, hsock, hws⟩ := ih
    obtain ⟨ws', hsock', hws'⟩ := hturn.wrote
    obtain ⟨-, _, hmoved⟩ := Turns.moved hturns
    have hsame {w : Written} (hw : w.Framed b₁) : w.Framed b := by
      unfold Written.Framed at hw ⊢
      simpa only [Bridge.toClient, hmoved.telnetMode] using hw
    refine ⟨ws ++ ws', by rw [hsock', hsock, List.append_assoc], fun w hw => ?_⟩
    rcases List.mem_append.mp hw with hw | hw
    · exact hws w hw
    · exact hsame (hws' w hw)

/-! ### Runs -/

/-- What happens to the bridge while its ends stay what they are. -/
inductive BridgeEvent
  | uart (bs : List UInt8)
  | cdc (bs : List UInt8)
  | recv (p : Pbuf) (next : List Pbuf)
  | coding (bitRate : UInt32) (dataBits parity stopBits : UInt8)
  | task (ls : Looks)

def Bridge.step (b : Bridge) : BridgeEvent → Bridge
  | .uart bs => { b with uartRx := b.uartRx ++ bs }
  | .cdc bs => { b with cdcRx := b.cdcRx ++ bs }
  | .recv p next => bridgeRecv b p next
  | .coding bitRate dataBits parity stopBits => applyCoding b bitRate dataBits parity stopBits
  | .task ls => serialBridgeTask ls b

def Bridge.run (b : Bridge) (es : List BridgeEvent) : Bridge := es.foldl Bridge.step b

/-- What comes in for the line. -/
def BridgeEvent.arrives (e : BridgeEvent) (client : Bool) (src : Src) : List UInt8 :=
  match e, src with
  | .uart bs, .uart => bs
  | .cdc bs, .cdc => bs
  | .recv p next, .tcp => if client then (p :: next).flatMap Pbuf.payload else []
  | _, _ => []

/-- What came in over a run. -/
def arrived (es : List BridgeEvent) (client : Bool) (src : Src) : List UInt8 :=
  es.flatMap fun e => e.arrives client src

theorem pump_turns (ls : Looks) (b : Bridge) : Turns b (pump ls b).1 :=
  ((uartLoop_turns _ _ _).trans (cdcLoop_turns _ _ _)).trans (tcpLoop_turns _ _ _)

theorem pump_count (ls : Looks) (b : Bridge) :
    (pump ls b).2 + ((pump ls b).1.pending .tcp).length = (b.pending .tcp).length := by
  rw [pump, tcpLoop_count, cdcLoop_pending _ _ _ (by decide), uartLoop_pending _ _ _ (by decide)]

@[simp] theorem tcpRecved_recved (b : Bridge) (consumed : Nat) :
    (tcpRecved b consumed).recved = b.recved + if b.client then consumed else 0 := by
  rw [tcpRecved]
  by_cases hclient : b.client = true
  · by_cases hnone : consumed = 0
    · simp [hnone]
    · simp [hclient, hnone]
  · simp [hclient]

theorem tcpRecved_eq (b : Bridge) (consumed : Nat) :
    tcpRecved b consumed = { b with recved := (tcpRecved b consumed).recved } := by
  rw [tcpRecved]
  split_ifs <;> rfl

theorem Bridge.Moved.of_recved {b₀ b : Bridge} {arrived taken : Src → List UInt8}
    (h : b₀.Moved b arrived taken) (n : Nat) :
    b₀.Moved { b with recved := n } arrived taken := by
  refine ⟨h.client, h.telnetMode, h.cdcConnected, h.phase, fun src => ?_, fun sink src => ?_⟩
  · rw [← h.pending]
    cases src <;> rfl
  · rw [← h.got]
    cases sink <;> rfl

theorem serialBridgeTask_cases (ls : Looks) (b : Bridge) :
    serialBridgeTask ls b = b ∨
      serialBridgeTask ls b = tcpRecved (pump ls b).1 (pump ls b).2 := by
  rw [serialBridgeTask]
  split_ifs
  · exact .inl rfl
  · exact .inr rfl

/-- What a tick consumes, it sends, and tells TCP of what is the client's. -/
theorem serialBridgeTask_moved (ls : Looks) (b : Bridge) :
    ∃ taken, b.Moved (serialBridgeTask ls b) (fun _ => []) taken ∧
      (serialBridgeTask ls b).recved = b.recved + if b.client then (taken .tcp).length else 0 := by
  rcases serialBridgeTask_cases ls b with hfast | hpump
  · rw [hfast]
    exact ⟨_, .refl b, by rw [List.length_nil, ite_self, Nat.add_zero]⟩
  · rw [hpump]
    obtain ⟨hrecved, taken, hmoved⟩ := (pump_turns ls b).moved
    refine ⟨taken, by rw [tcpRecved_eq]; exact hmoved.of_recved _, ?_⟩
    have hcount := pump_count ls b
    have htaken : (taken .tcp).length + ((pump ls b).1.pending .tcp).length =
        (b.pending .tcp).length := by
      rw [← List.length_append, hmoved.pending, List.append_nil]
    have hlen : (pump ls b).2 = (taken .tcp).length := by omega
    rw [tcpRecved_recved, hrecved, hmoved.client, hlen]

theorem serialBridgeTask_wrote (ls : Looks) (b : Bridge) :
    ∃ ws, (serialBridgeTask ls b).sock = b.sock ++ ws ∧ ∀ w ∈ ws, w.Framed b := by
  rcases serialBridgeTask_cases ls b with hfast | hpump
  · rw [hfast]
    exact ⟨[], (List.append_nil _).symm, nofun⟩
  · rw [hpump, tcpRecved_eq]
    exact (pump_turns ls b).wrote

/-- An event that only brings something in. -/
theorem Bridge.Moved.of_arrival {b b' : Bridge} {arrived : Src → List UInt8}
    (hclient : b'.client = b.client) (hmode : b'.telnetMode = b.telnetMode)
    (hcdc : b'.cdcConnected = b.cdcConnected) (hstate : b'.tnState = b.tnState)
    (hsent : ∀ sink, b'.sent sink = b.sent sink)
    (hpending : ∀ src, b'.pending src = b.pending src ++ arrived src) :
    b.Moved b' arrived (fun _ => []) where
  client := hclient
  telnetMode := hmode
  cdcConnected := hcdc
  phase := by
    rw [hstate]
    exact (ite_self _).symm
  pending src := hpending src
  got sink src := by
    have hnone : b.lineOf src [] = [] := by rw [Bridge.lineOf]; split_ifs <;> rfl
    rw [hnone, ite_self, List.append_nil, Bridge.got, hsent, Bridge.got]

/-- Only the format is set from the host. -/
theorem applyCoding_eq (b : Bridge) (bitRate : UInt32) (dataBits parity stopBits : UInt8) :
    ∃ baud databits stop par, applyCoding b bitRate dataBits parity stopBits =
      { b with curBaud := baud, curDatabits := databits, curStop := stop, curParity := par } := by
  rw [applyCoding]
  split_ifs <;> exact ⟨_, _, _, _, rfl⟩

/-- What one event does. -/
theorem Bridge.step_moved (b : Bridge) (e : BridgeEvent) :
    ∃ taken, b.Moved (b.step e) (e.arrives b.client) taken ∧
      (b.step e).recved = b.recved + (if b.client then (taken .tcp).length else 0) ∧
      ∃ ws, (b.step e).sock = b.sock ++ ws ∧ ∀ w ∈ ws, w.Framed b := by
  have hquiet : b.recved = b.recved + if b.client then ([] : List UInt8).length else 0 := by
    rw [List.length_nil, ite_self, Nat.add_zero]
  have hsilent : ∃ ws, b.sock = b.sock ++ ws ∧ ∀ w ∈ ws, w.Framed b :=
    ⟨[], (List.append_nil _).symm, nofun⟩
  cases e with
  | uart bs =>
    refine ⟨_, .of_arrival rfl rfl rfl rfl (fun sink => by cases sink <;> rfl) fun src => ?_,
      hquiet, hsilent⟩
    cases src <;> first | rfl | exact (List.append_nil _).symm
  | cdc bs =>
    refine ⟨_, .of_arrival rfl rfl rfl rfl (fun sink => by cases sink <;> rfl) fun src => ?_,
      hquiet, hsilent⟩
    cases src <;> first | rfl | exact (List.append_nil _).symm
  | recv p next =>
    by_cases hclient : b.client = true
    · have hstep : b.step (.recv p next) = { b with rx := b.rx.cat p next } := if_pos hclient
      rw [hstep]
      refine ⟨_, .of_arrival rfl rfl rfl rfl (fun sink => by cases sink <;> rfl) fun src => ?_,
        hquiet, hsilent⟩
      cases src with
      | uart => exact (List.append_nil _).symm
      | cdc => exact (List.append_nil _).symm
      | tcp =>
        rw [BridgeEvent.arrives, if_pos hclient]
        exact RxChain.cat_bytes _ _ _
    · have hstep : b.step (.recv p next) = b := if_neg hclient
      rw [hstep]
      refine ⟨_, .of_arrival rfl rfl rfl rfl (fun sink => rfl) fun src => ?_, hquiet, hsilent⟩
      cases src with
      | uart => exact (List.append_nil _).symm
      | cdc => exact (List.append_nil _).symm
      | tcp => rw [BridgeEvent.arrives, if_neg hclient, List.append_nil]
  | coding bitRate dataBits parity stopBits =>
    obtain ⟨baud, databits, stop, par, hstep⟩ := applyCoding_eq b bitRate dataBits parity stopBits
    rw [Bridge.step, hstep]
    refine ⟨_, .of_arrival rfl rfl rfl rfl (fun sink => by cases sink <;> rfl) fun src => ?_,
      hquiet, hsilent⟩
    cases src <;> exact (List.append_nil _).symm
  | task ls =>
    obtain ⟨taken, hmoved, hrecved⟩ := serialBridgeTask_moved ls b
    have hnone : BridgeEvent.arrives (.task ls) b.client = fun _ => [] := by
      funext src
      cases src <;> rfl
    rw [hnone]
    exact ⟨taken, hmoved, hrecved, serialBridgeTask_wrote ls b⟩

/-- What a run does. -/
theorem Bridge.run_moved (b : Bridge) (es : List BridgeEvent) :
    ∃ taken, b.Moved (b.run es) (arrived es b.client) taken ∧
      (b.run es).recved = b.recved + (if b.client then (taken .tcp).length else 0) ∧
      ∃ ws, (b.run es).sock = b.sock ++ ws ∧ ∀ w ∈ ws, w.Framed b := by
  induction es using List.reverseRecOn with
  | nil =>
    exact ⟨_, .refl b, by rw [List.length_nil, ite_self, Nat.add_zero]; rfl, [],
      (List.append_nil _).symm, nofun⟩
  | append_singleton es e ih =>
    obtain ⟨taken, hmoved, hrecved, ws, hsock, hws⟩ := ih
    obtain ⟨taken', hmoved', hrecved', ws', hsock', hws'⟩ := (b.run es).step_moved e
    have hrun : b.run (es ++ [e]) = (b.run es).step e := List.foldl_concat ..
    rw [hrun]
    refine ⟨fun src => taken src ++ taken' src, ?_, ?_, ws ++ ws', ?_, fun w hw => ?_⟩
    · have hall : arrived (es ++ [e]) b.client =
          fun src => arrived es b.client src ++ e.arrives (b.run es).client src := by
        funext src
        simp [arrived, hmoved.client]
      rw [hall]
      exact hmoved.trans hmoved'
    · rw [hrecved', hrecved, hmoved.client, List.length_append, Nat.add_assoc]
      split_ifs <;> rfl
    · rw [hsock', hsock, List.append_assoc]
    · rcases List.mem_append.mp hw with hw | hw
      · exact hws w hw
      · have hsame := hws' w hw
        unfold Written.Framed at hsame ⊢
        simpa only [Bridge.toClient, hmoved.telnetMode] using hsame

/-! ### Progress -/

/-- Everything is there and every end has room. -/
structure Look.Roomy (l : Look) : Prop where
  uart : l.uartReadable = true
  cdc : l.cdcAvailable = true
  writable : l.uartWritable = true
  room : 0 < l.cdcRoom
  sndbuf : 2 ≤ l.sndbuf

structure Looks.Roomy (ls : Looks) : Prop where
  start : ls.start.Roomy
  uart : ∀ n, (ls.uart n).Roomy
  cdc : ∀ n, (ls.cdc n).Roomy
  tcp : ∀ n, (ls.tcp n).Roomy

theorem sinksReady_of_roomy {l : Look} (h : l.Roomy) (b : Bridge) (src : Src) :
    sinksReady l b src = true := by
  have hroom : l.cdcRoom ≠ 0 := Nat.pos_iff_ne_zero.mp h.room
  have hsnd : ¬l.sndbuf < 2 := Nat.not_lt.mpr h.sndbuf
  simp [sinksReady, hroom, hsnd, h.writable]

theorem uartLoop_roomy {looks : Nat → Look} (h : ∀ n, (looks n).Roomy) (budget : Nat)
    (b : Bridge) : (uartLoop budget looks b).pending .uart = (b.pending .uart).drop budget := by
  induction budget generalizing b with
  | zero => rfl
  | succ budget ih =>
    rw [uartLoop]
    split
    · rename_i x rest hrx
      rw [if_pos ⟨(h budget).uart, sinksReady_of_roomy (h budget) b .uart⟩, ih, fanOut_pending,
        show b.pending .uart = x :: rest from hrx, List.drop_succ_cons]
      rfl
    · rename_i hrx
      rw [show b.pending .uart = [] from hrx, List.drop_nil]

theorem cdcLoop_roomy {looks : Nat → Look} (h : ∀ n, (looks n).Roomy) (budget : Nat)
    (b : Bridge) : (cdcLoop budget looks b).pending .cdc = (b.pending .cdc).drop budget := by
  induction budget generalizing b with
  | zero => rfl
  | succ budget ih =>
    rw [cdcLoop]
    split
    · rename_i x rest hrx
      rw [if_pos ⟨(h budget).cdc, sinksReady_of_roomy (h budget) b .cdc⟩, ih, fanOut_pending,
        show b.pending .cdc = x :: rest from hrx, List.drop_succ_cons]
      rfl
    · rename_i hrx
      rw [show b.pending .cdc = [] from hrx, List.drop_nil]

theorem tcpLoop_roomy {looks : Nat → Look} (h : ∀ n, (looks n).Roomy) (budget : Nat)
    (b : Bridge) : (tcpLoop budget looks b).1.pending .tcp = (b.pending .tcp).drop budget := by
  induction budget generalizing b with
  | zero => rfl
  | succ budget ih =>
    rw [tcpLoop]
    split
    · dsimp only
      rw [if_neg fun hwait => hwait.2 (sinksReady_of_roomy (h budget) b .tcp)]
      dsimp only
      rw [ih, tcpByte_pending]
      simp only [Bridge.pending, RxChain.advance_bytes, List.drop_tail]
    · rename_i hnone
      rw [RxChain.byte?_eq, List.head?_eq_none_iff] at hnone
      rw [show b.pending .tcp = [] from hnone, List.drop_nil]

/-- Where every end has room, a tick takes all that there is, up to its budget. -/
theorem serialBridgeTask_roomy {ls : Looks} (h : ls.Roomy) (b : Bridge) (src : Src) :
    (serialBridgeTask ls b).pending src = (b.pending src).drop tickByteBudget := by
  rw [serialBridgeTask, h.start.uart, h.start.cdc]
  split_ifs with hfast
  · -- the fast path: there is nothing at any end
    obtain ⟨huart, hcdc, htcp⟩ := hfast
    have hnone : b.pending src = [] := by
      cases src with
      | uart => exact not_not.mp fun hne => huart ⟨rfl, hne⟩
      | cdc => exact not_not.mp fun hne => hcdc ⟨rfl, hne⟩
      | tcp => simp [Bridge.pending, RxChain.bytes, htcp]
    rw [hnone, List.drop_nil]
  · have hsame : (tcpRecved (pump ls b).1 (pump ls b).2).pending src =
        (pump ls b).1.pending src := by
      rw [tcpRecved_eq]
      cases src <;> rfl
    rw [hsame, pump]
    cases src with
    | uart =>
      rw [tcpLoop_pending _ _ _ (by decide), cdcLoop_pending _ _ _ (by decide),
        uartLoop_roomy h.uart]
    | cdc =>
      rw [tcpLoop_pending _ _ _ (by decide), cdcLoop_roomy h.cdc,
        uartLoop_pending _ _ _ (by decide)]
    | tcp =>
      rw [tcpLoop_roomy h.tcp, cdcLoop_pending _ _ _ (by decide),
        uartLoop_pending _ _ _ (by decide)]

/-! ### The line is lossless -/

/-- Over every run, in which the ends stay what they are, what is consumed of an end is a
prefix of what it had and of what came in, and every other end that is active was sent just
the line of it, in order; the client is sent a byte of the line as its port has it, and TCP
is told of what is consumed of the client's. Of a telnet stream the line is its data. And
where the ends have room, a tick goes on with each of them. -/
theorem Bridge.line_lossless (b : Bridge) (es : List BridgeEvent) :
    ∃ taken : Src → List UInt8,
      (∀ src, taken src ++ (b.run es).pending src =
        b.pending src ++ arrived es b.client src) ∧
      (∀ sink src, src ≠ sink → b.active sink = true →
        (b.run es).got sink src = b.got sink src ++ b.lineOf src (taken src)) ∧
      (∃ ws, (b.run es).sock = b.sock ++ ws ∧ ∀ w ∈ ws, w.Framed b) ∧
      (b.client = true → (b.run es).recved = b.recved + (taken .tcp).length) ∧
      (b.telnetMode = true → b.tnState = .data → ∀ items : List Item,
        (∀ item ∈ items, item.Proper) → taken .tcp = Telnet.stream items →
        ∀ sink, sink ≠ .tcp → b.active sink = true →
          (b.run es).got sink .tcp = b.got sink .tcp ++ Telnet.dataOf items) ∧
      ∀ ls : Looks, ls.Roomy → ∀ src,
        ((b.run es).step (.task ls)).pending src =
          ((b.run es).pending src).drop tickByteBudget := by
  obtain ⟨taken, hmoved, hrecved, hsock⟩ := b.run_moved es
  have hgot (sink src : Src) (hne : src ≠ sink) (hactive : b.active sink = true) :
      (b.run es).got sink src = b.got sink src ++ b.lineOf src (taken src) := by
    rw [hmoved.got, if_pos ⟨hne, hactive⟩]
  refine ⟨taken, hmoved.pending, hgot, hsock, fun hclient => ?_, fun hmode hdata items hproper
    hitems sink hne hactive => ?_, fun ls hls src => serialBridgeTask_roomy hls _ src⟩
  · rw [hrecved, if_pos hclient]
  · have hline : b.lineOf .tcp (taken .tcp) = Telnet.dataOf items := by
      rw [Bridge.lineOf, if_pos ⟨rfl, hmode⟩, hitems, hdata]
      exact Phase.keep_stream hproper
    rw [hgot sink .tcp (Ne.symm hne) hactive, hline]

end Molewire
