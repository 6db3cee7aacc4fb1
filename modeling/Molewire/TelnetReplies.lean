/-
# The telnet stream to the client

What is written to the socket of a telnet client are the bytes of the line, an
IAC sent twice, and the answers to its options and to its COM-PORT requests. An
acknowledgement escapes the payload, but not the code of the command: the
client reads its stream as it was meant unless it asks for the command whose
code plus 100 is an IAC.
-/

import Mathlib.Data.List.Forall2
import Molewire.PartyLine

namespace Molewire

open Telnet (Phase Item)

/-! ### Acknowledgements -/

/-- The loop takes a prefix of the payload, whose bytes it escapes. -/
theorem ackPayload_eq (payload buf : List UInt8) (h : buf.length ≤ sbBufSize - 2) :
    ∃ k, ackPayload payload buf = buf ++ Telnet.escape (payload.take k) ∧
      (ackPayload payload buf).length ≤ sbBufSize - 2 := by
  induction payload generalizing buf with
  | nil => exact ⟨0, by simp [ackPayload, Telnet.escape], h⟩
  | cons p payload ih =>
    rw [ackPayload]
    split_ifs with hroom hp
    · -- two bytes for one
      obtain ⟨k, heq, hlen⟩ := ih (buf ++ [tnIac, p]) (by
        rw [List.length_append]
        change buf.length + 2 ≤ _
        omega)
      refine ⟨k + 1, ?_, hlen⟩
      rw [heq, hp]
      simp [Telnet.escape]
    · obtain ⟨k, heq, hlen⟩ := ih (buf ++ [p]) (by
        rw [List.length_append, List.length_singleton]
        omega)
      refine ⟨k + 1, ?_, hlen⟩
      rw [heq]
      simp [Telnet.escape, hp]
    · exact ⟨0, by simp [Telnet.escape], h⟩

/-- It never exceeds its buffer. -/
theorem ackBytes_length (cmd : UInt8) (payload : List UInt8) :
    (ackBytes cmd payload).length ≤ sbBufSize := by
  obtain ⟨k, -, hlen⟩ := ackPayload_eq payload [tnIac, tnSb, tnoptComport, cmd + 100]
    (by change 4 ≤ 22; decide)
  have hsize : sbBufSize = 24 := rfl
  rw [ackBytes, List.length_append, List.length_cons, List.length_singleton]
  omega

/-- A code that is no IAC makes a subnegotiation. -/
theorem ackBytes_render {cmd : UInt8} (h : cmd ≠ 155) (payload : List UInt8) :
    ∃ k, ackBytes cmd payload =
      (Item.sub (tnoptComport :: (cmd + 100) :: payload.take k)).render := by
  obtain ⟨k, heq, -⟩ := ackPayload_eq payload [tnIac, tnSb, tnoptComport, cmd + 100]
    (by change 4 ≤ 22; decide)
  have hcode : cmd + 100 ≠ Telnet.iac := by
    intro hiac
    have hcmd : cmd = Telnet.iac - 100 := by rw [← hiac, UInt8.add_sub_cancel]
    exact h hcmd
  have hopt : tnoptComport ≠ Telnet.iac := by decide
  refine ⟨k, ?_⟩
  rw [ackBytes, heq]
  simp [Item.render, Telnet.escape, hcode, hopt]

/-! ### What is written -/

/-- The acknowledgement that a write is. -/
def Written.ack? (w : Written) : Option (UInt8 × List UInt8) :=
  match w.origin with
  | .ack cmd payload => some (cmd, payload)
  | _ => none

/-- The acknowledgements that were written. -/
def Bridge.acks (b : Bridge) : List (UInt8 × List UInt8) := b.sock.filterMap Written.ack?

/-- The bytes that were written to the client. -/
def Bridge.sockBytes (b : Bridge) : List UInt8 := b.sock.flatMap Written.bytes

/-- The payload of a subnegotiation is that of an acknowledgement. -/
def AckSub (ack : UInt8 × List UInt8) (sub : List UInt8) : Prop :=
  ∃ k, sub = tnoptComport :: (ack.1 + 100) :: ack.2.take k

/-- What a write is for a reader. -/
theorem Written.Framed.item {w : Written} {b : Bridge} (h : w.Framed b)
    (hmode : b.telnetMode = true) (hack : ∀ ack, w.ack? = some ack → ack.1 ≠ 155) :
    ∃ item : Item, w.bytes = item.render ∧ item.Proper ∧
      Telnet.dataOf [item] = (w.line?.map Prod.snd).toList ∧
      List.Forall₂ AckSub w.ack?.toList (Telnet.subsOf [item]) := by
  obtain ⟨origin, bytes⟩ := w
  cases origin with
  | line src x =>
    refine ⟨.data x, ?_, trivial, rfl, .nil⟩
    rw [show bytes = b.toClient x from h, Bridge.toClient, hmode, Item.render]
    by_cases hx : x = tnIac <;> simp [Telnet.escape, hx]
  | reply r opt =>
    obtain ⟨-, hbytes, hrange⟩ := h
    exact ⟨.negotiation r opt, hbytes, hrange, rfl, .nil⟩
  | ack cmd payload =>
    obtain ⟨-, hbytes⟩ := h
    obtain ⟨k, hrender⟩ := ackBytes_render (hack _ rfl) payload
    exact ⟨_, hbytes.trans hrender, trivial, rfl, .cons ⟨k, rfl⟩ .nil⟩

/-- And what all of them are. -/
theorem Bridge.stream_of_framed {b : Bridge} (ws : List Written) (hmode : b.telnetMode = true)
    (hframed : ∀ w ∈ ws, w.Framed b)
    (hack : ∀ ack ∈ ws.filterMap Written.ack?, ack.1 ≠ 155) :
    ∃ items : List Item, ws.flatMap Written.bytes = Telnet.stream items ∧
      (∀ item ∈ items, item.Proper) ∧
      Telnet.dataOf items = (ws.filterMap Written.line?).map Prod.snd ∧
      List.Forall₂ AckSub (ws.filterMap Written.ack?) (Telnet.subsOf items) := by
  induction ws with
  | nil => exact ⟨[], rfl, nofun, rfl, .nil⟩
  | cons w ws ih =>
    have hsplit : (w :: ws).filterMap Written.ack? =
        w.ack?.toList ++ ws.filterMap Written.ack? := by
      cases hw : w.ack? <;> simp [hw]
    rw [hsplit] at hack ⊢
    obtain ⟨items, hbytes, hproper, hdata, hsubs⟩ :=
      ih (fun w' hw' => hframed w' (List.mem_cons_of_mem _ hw'))
        fun ack hmem => hack ack (List.mem_append_right _ hmem)
    obtain ⟨item, hrender, hitem, hone, hsub⟩ :=
      (hframed w List.mem_cons_self).item hmode fun ack hsome =>
        hack ack (List.mem_append_left _ (by rw [hsome]; exact List.mem_singleton_self ack))
    refine ⟨item :: items, ?_, ?_, ?_, ?_⟩
    · rw [List.flatMap_cons, hbytes, hrender, Telnet.stream, Telnet.stream, List.flatMap_cons]
    · exact List.forall_mem_cons.mpr ⟨hitem, hproper⟩
    · rw [Telnet.dataOf, ← List.singleton_append, List.filterMap_append, ← Telnet.dataOf,
        ← Telnet.dataOf, hone, hdata]
      cases hw : w.line? <;> simp [hw]
    · rw [Telnet.subsOf, ← List.singleton_append, List.filterMap_append, ← Telnet.subsOf,
        ← Telnet.subsOf]
      exact List.rel_append hsub hsubs

/-! ### What the client asked for -/

/-- The subnegotiations that end in what the client sends. -/
def subnegotiations (bs : List UInt8) : List (List UInt8) := Phase.data.bodies [] bs

/-- An acknowledgement answers a request, or notifies of the modem state. -/
def Asked (bs : List UInt8) (ack : UInt8 × List UInt8) : Prop :=
  ack = (7, [0x30]) ∨ ∃ body ∈ subnegotiations bs, [tnoptComport, ack.1] <+: body

theorem Asked.append {bs : List UInt8} {ack : UInt8 × List UInt8} (h : Asked bs ack)
    (cs : List UInt8) : Asked (bs ++ cs) ack := by
  rcases h with h | ⟨body, hmem, hbody⟩
  · exact .inl h
  · refine .inr ⟨body, ?_, hbody⟩
    rw [subnegotiations, Phase.bodies_append]
    exact List.mem_append_left _ hmem

/-- The parser of the bridge after some bytes of a session. -/
structure Bridge.Heard (b : Bridge) (bs : List UInt8) : Prop where
  telnetMode : b.telnetMode = true
  phase : b.tnState.phase = Phase.data.after bs
  sbBuf : b.tnState.InSub → b.sbBuf = (Phase.data.held [] bs).take sbBufSize
  asked : ∀ ack ∈ b.acks, Asked bs ack

/-- Nothing of the parser is changed and no acknowledgement is written. -/
theorem Bridge.Heard.of_same {b b' : Bridge} {bs : List UInt8} (h : b.Heard bs)
    (hmode : b'.telnetMode = b.telnetMode) (hstate : b'.tnState = b.tnState)
    (hbuf : b'.sbBuf = b.sbBuf) (hacks : b'.acks = b.acks) : b'.Heard bs :=
  ⟨hmode.trans h.telnetMode, by rw [hstate]; exact h.phase,
    fun hin => by rw [hbuf]; exact h.sbBuf (hstate ▸ hin), hacks ▸ h.asked⟩

theorem Bridge.deliver_acks (b : Bridge) (src : Src) (x : UInt8) :
    (b.deliver src x).acks = b.acks := by
  rw [Bridge.acks, Bridge.deliver]
  dsimp only
  split_ifs
  · rw [List.filterMap_append]
    exact List.append_nil _
  · rfl

/-- One more byte of the client. -/
theorem Bridge.Heard.parses {b b' : Bridge} {bs : List UInt8} {x : UInt8} (h : b.Heard bs)
    (hparses : b.Parses b' x) : b'.Heard (bs ++ [x]) := by
  obtain ⟨b₁, hans, heq⟩ := hparses.answers
  have hphase : b'.tnState.phase = Phase.data.after (bs ++ [x]) := by
    rw [hparses.phase, h.phase, Phase.after_append]
    rfl
  refine ⟨?_, hphase, fun hin => ?_, fun ack hmem => ?_⟩
  · rw [heq]
    exact hans.telnetMode.trans h.telnetMode
  · rw [hparses.sbBuf hin _ h.sbBuf, Phase.held_append, h.phase]
    rfl
  · obtain ⟨ws, hsock, hws⟩ := hans.sock
    have hacks : b'.acks = b.acks ++ ws.filterMap Written.ack? := by
      rw [heq, Bridge.acks, Bridge.acks, ← List.filterMap_append, ← hsock]
    rw [hacks] at hmem
    rcases List.mem_append.mp hmem with hold | hnew
    · exact (h.asked ack hold).append [x]
    · obtain ⟨w, hw, hsome⟩ := List.mem_filterMap.mp hnew
      cases hws w hw with
      | verb => cases hsome
      | notify =>
        obtain rfl := Option.some.inj hsome
        exact .inl rfl
      | @ack cmd pl payload hends hbuf =>
        obtain rfl := Option.some.inj hsome
        -- the subnegotiation ends with this byte, and its buffer holds how it begins
        have hin : b.tnState.InSub := by
          cases hstate : b.tnState <;> rw [hstate] at hends
          case sbIac => exact .inr rfl
          all_goals exact absurd hends Bool.false_ne_true
        refine .inr ⟨Phase.data.held [] bs, ?_, ?_⟩
        · rw [subnegotiations, Phase.bodies_append, ← h.phase]
          exact List.mem_append_right _ (by simp [Phase.bodies, hends])
        · have hprefix := h.sbBuf hin ▸ hbuf
          rw [← List.take_append_drop sbBufSize (Phase.data.held [] bs), hprefix]
          exact ⟨pl ++ (Phase.data.held [] bs).drop sbBufSize, rfl⟩

/-- A byte of the line leaves the parser alone but for its phase. -/
theorem Bridge.Heard.deliver {b : Bridge} {bs : List UInt8} (h : b.Heard bs) (src : Src)
    (x : UInt8) : (b.deliver src x).Heard bs :=
  h.of_same rfl rfl rfl (Bridge.deliver_acks b src x)

/-- A turn hears a byte of the client, or none. -/
theorem Turn.heard {b b' : Bridge} {bs : List UInt8} (hturn : Turn b b') (h : b.Heard bs) :
    ∃ cs, b'.Heard (bs ++ cs) ∧ cs ++ b'.pending .tcp = b.pending .tcp := by
  cases hturn with
  | uart hrx =>
    refine ⟨[], ?_, rfl⟩
    rw [List.append_nil]
    refine Bridge.Heard.deliver ?_ .uart _
    exact h.of_same rfl rfl rfl rfl
  | cdc hrx =>
    refine ⟨[], ?_, rfl⟩
    rw [List.append_nil]
    refine Bridge.Heard.deliver ?_ .cdc _
    exact h.of_same rfl rfl rfl rfl
  | raw hmode hrx => exact absurd (hmode.symm.trans h.telnetMode) Bool.false_ne_true
  | @data x rest hmode hrx hdata =>
    refine ⟨[x], ?_, ?_⟩
    · refine Bridge.Heard.deliver ?_ .tcp x
      refine ⟨hmode, ?_, fun hin => ?_, ?_⟩
      · rw [Phase.after_append, ← h.phase]
        exact (Phase.next_of_isData hdata).symm
      · exact absurd hin (TnState.not_inSub (.inl rfl))
      · exact fun ack hmem => (h.asked ack hmem).append [x]
    · simp only [Bridge.pending, Bridge.deliver, RxChain.advance_bytes, hrx]
      rfl
  | @protocol x rest b' hmode hrx hdata hparses =>
    refine ⟨[x], Bridge.Heard.parses ?_ hparses, ?_⟩
    · exact h.of_same rfl rfl rfl rfl
    · rw [hparses.pending]
      simp only [Bridge.pending, RxChain.advance_bytes, hrx]
      rfl

theorem Turns.heard {b b' : Bridge} {bs : List UInt8} (hturns : Turns b b') (h : b.Heard bs) :
    ∃ cs, b'.Heard (bs ++ cs) ∧ cs ++ b'.pending .tcp = b.pending .tcp := by
  induction hturns with
  | refl => exact ⟨[], by rwa [List.append_nil], rfl⟩
  | tail _ hturn ih =>
    obtain ⟨cs, hheard, hcs⟩ := ih
    obtain ⟨ds, hheard', hds⟩ := hturn.heard hheard
    exact ⟨cs ++ ds, by rwa [← List.append_assoc], by rw [List.append_assoc, hds, hcs]⟩

/-- An event hears some of what is there by then. -/
theorem Bridge.Heard.step {b : Bridge} {bs : List UInt8} (h : b.Heard bs) (e : BridgeEvent) :
    ∃ cs, (b.step e).Heard (bs ++ cs) ∧
      cs ++ (b.step e).pending .tcp = b.pending .tcp ++ e.arrives b.client .tcp := by
  cases e with
  | task ls =>
    rw [show BridgeEvent.arrives (.task ls) b.client .tcp = [] from rfl, List.append_nil]
    rcases serialBridgeTask_cases ls b with hfast | hpump
    · rw [show b.step (.task ls) = serialBridgeTask ls b from rfl, hfast]
      exact ⟨[], by rwa [List.append_nil], rfl⟩
    · rw [show b.step (.task ls) = serialBridgeTask ls b from rfl, hpump, tcpRecved_eq]
      obtain ⟨cs, hheard, hcs⟩ := (pump_turns ls b).heard h
      exact ⟨cs, hheard.of_same rfl rfl rfl rfl, hcs⟩
  | uart bs => exact ⟨[], by rw [List.append_nil]; exact h.of_same rfl rfl rfl rfl,
      (List.append_nil _).symm⟩
  | cdc bs => exact ⟨[], by rw [List.append_nil]; exact h.of_same rfl rfl rfl rfl,
      (List.append_nil _).symm⟩
  | recv p next =>
    refine ⟨[], ?_, ?_⟩
    · rw [List.append_nil, Bridge.step, bridgeRecv]
      split_ifs
      · exact h.of_same rfl rfl rfl rfl
      · exact h
    · rw [BridgeEvent.arrives, Bridge.step, bridgeRecv]
      split_ifs
      · exact RxChain.cat_bytes _ _ _
      · exact (List.append_nil _).symm
  | coding bitRate dataBits parity stopBits =>
    obtain ⟨baud, databits, stop, par, hstep⟩ := applyCoding_eq b bitRate dataBits parity stopBits
    rw [Bridge.step, hstep]
    exact ⟨[], by rw [List.append_nil]; exact h.of_same rfl rfl rfl rfl, (List.append_nil _).symm⟩

/-- A run has heard a prefix of what the client sent. -/
theorem Bridge.Heard.run {b : Bridge} (h : b.Heard []) (es : List BridgeEvent) :
    ∃ bs, (b.run es).Heard bs ∧
      bs ++ (b.run es).pending .tcp = b.pending .tcp ++ arrived es b.client .tcp := by
  induction es using List.reverseRecOn with
  | nil => exact ⟨[], h, (List.append_nil _).symm⟩
  | append_singleton es e ih =>
    obtain ⟨bs, hheard, hbs⟩ := ih
    obtain ⟨cs, hheard', hcs⟩ := hheard.step e
    obtain ⟨_, hmoved, -⟩ := b.run_moved es
    rw [show b.run (es ++ [e]) = (b.run es).step e from List.foldl_concat ..]
    refine ⟨bs ++ cs, hheard', ?_⟩
    rw [List.append_assoc, hcs, ← List.append_assoc, hbs, hmoved.client, arrived, arrived,
      List.flatMap_append, List.append_assoc]
    simp

/-! ### The stream is well formed -/

/-- A session of a telnet client begins: nothing is written to it and nothing is parsed. -/
structure Bridge.Fresh (b : Bridge) : Prop where
  client : b.client = true
  telnetMode : b.telnetMode = true
  tnState : b.tnState = .data
  sock : b.sock = []

/-- The stream that a run writes is one of telnet: without its commands and with an IAC sent
once it is what was sent of the line, in order, and its subnegotiations are the
acknowledgements, each with a prefix of its payload and within its buffer, of commands that
the client asked for. -/
def Bridge.StreamOk (b : Bridge) (heard : List UInt8) : Prop :=
  (∃ items, Telnet.parse b.sockBytes = some items ∧
    Telnet.dataOf items = (b.sent .tcp).map Prod.snd ∧
    List.Forall₂ AckSub b.acks (Telnet.subsOf items)) ∧
  (∀ ack ∈ b.acks, (ackBytes ack.1 ack.2).length ≤ sbBufSize) ∧
  ∀ ack ∈ b.acks, Asked heard ack

/-- It is, unless the client ends a COM-PORT subnegotiation with the command 155. -/
theorem Bridge.Fresh.stream_ok {b : Bridge} (h : b.Fresh) (es : List BridgeEvent)
    (hcode : ∀ body ∈ subnegotiations (b.pending .tcp ++ arrived es b.client .tcp),
      ¬[tnoptComport, 155] <+: body) :
    (b.run es).StreamOk (b.pending .tcp ++ arrived es b.client .tcp) := by
  have hstart : b.Heard [] :=
    ⟨h.telnetMode, by rw [h.tnState]; rfl,
      fun hin => absurd hin (TnState.not_inSub (.inl h.tnState)),
      by rw [Bridge.acks, h.sock]; nofun⟩
  obtain ⟨bs, hheard, hbs⟩ := hstart.run es
  have hasked (ack : UInt8 × List UInt8) (hmem : ack ∈ (b.run es).acks) :
      Asked (b.pending .tcp ++ arrived es b.client .tcp) ack :=
    hbs ▸ (hheard.asked ack hmem).append _
  have hack (ack : UInt8 × List UInt8) (hmem : ack ∈ (b.run es).acks) : ack.1 ≠ 155 := by
    rintro h155
    rcases hasked ack hmem with rfl | ⟨body, hbody, hprefix⟩
    · exact absurd h155 (by decide)
    · exact hcode body hbody (h155 ▸ hprefix)
  obtain ⟨taken, hmoved, -, ws, hsock, hws⟩ := b.run_moved es
  rw [h.sock, List.nil_append] at hsock
  obtain ⟨items, hbytes, hproper, hdata, hsubs⟩ :=
    Bridge.stream_of_framed ws h.telnetMode hws (by rw [← hsock]; exact hack)
  refine ⟨⟨items, ?_, ?_, ?_⟩, fun ack _ => ackBytes_length ack.1 ack.2, hasked⟩
  · rw [Bridge.sockBytes, hsock, hbytes]
    exact Telnet.parse_stream hproper
  · rw [hdata, ← hsock]
    rfl
  · rw [Bridge.acks, hsock]
    exact hsubs

/-- Ends that have room. -/
def readyLook : Look where
  uartReadable := true
  cdcAvailable := true
  uartWritable := true
  cdcRoom := 64
  sndbuf := 4096
  accepts n := decide (n ≤ 4096)
  fits _ h := decide_eq_true h

/-- A client just came in at the RFC 2217 port. -/
def acceptedTelnet : Bridge where
  client := true
  telnetMode := true
  cdcConnected := true
  rx := .empty
  curBaud := 115200
  curDatabits := 8
  curStop := 1
  curParity := .none
  tnState := .data
  tnVerb := 0
  sbBuf := []
  comportActive := false
  dtrPin := true
  rtsPin := true
  uartRx := []
  cdcRx := []
  uartTx := []
  cdcTx := []
  sock := []
  recved := 0

/-- A segment of the client, and a tick in which every end has room. -/
def segmentAndTick (p : Pbuf) : List BridgeEvent :=
  [.recv p [], .task ⟨readyLook, fun _ => readyLook, fun _ => readyLook, fun _ => readyLook⟩]

/-- SET_BAUDRATE as a query. -/
def baudQuery : Pbuf := ⟨[255, 250, 44, 1, 0, 0, 0, 0, 255, 240], by decide⟩

/-- A subnegotiation with the command 155. -/
def command155 : Pbuf := ⟨[255, 250, 44, 155, 255, 240], by decide⟩

theorem Bridge.Fresh.stream_ok_query :
    acceptedTelnet.Fresh ∧
      (acceptedTelnet.run (segmentAndTick baudQuery)).StreamOk
        (acceptedTelnet.pending .tcp ++ arrived (segmentAndTick baudQuery) true .tcp) ∧
      (acceptedTelnet.run (segmentAndTick baudQuery)).sockBytes =
        [255, 250, 44, 101, 0, 1, 194, 0, 255, 240] :=
  have hfresh : acceptedTelnet.Fresh := ⟨rfl, rfl, rfl, rfl⟩
  ⟨hfresh, hfresh.stream_ok (segmentAndTick baudQuery) (by decide), by decide⟩

/-- The client asks for the command 155, whose acknowledgement is no telnet. -/
theorem telnet_stream_fails :
    acceptedTelnet.Fresh ∧
      (acceptedTelnet.run (segmentAndTick command155)).sockBytes =
        [255, 250, 44, 255, 255, 240] ∧
      ¬(acceptedTelnet.run (segmentAndTick command155)).StreamOk
        (acceptedTelnet.pending .tcp ++ arrived (segmentAndTick command155) true .tcp) := by
  have hbytes : (acceptedTelnet.run (segmentAndTick command155)).sockBytes =
      [255, 250, 44, 255, 255, 240] := by decide
  refine ⟨⟨rfl, rfl, rfl, rfl⟩, hbytes, ?_⟩
  rintro ⟨⟨items, hparse, -⟩, -⟩
  have hnone : Telnet.parse [255, 250, 44, 255, 255, 240] = none := rfl
  rw [hbytes, hnone] at hparse
  cases hparse

end Molewire
