/-
# The serial bridge

`serial_bridge.c`: one party line between a UART, the CDC port of the host and
a TCP client. A byte from one end goes to the two others. The client comes in
at a port for raw bytes or at one where it speaks telnet and sets up the UART
by COM-PORT-CONTROL. What the ends have room for, and whether the next byte is
there already, is looked up anew for every byte.
-/

import Molewire.Library.BigEndian
import Molewire.Library.Telnet

namespace Molewire

/-! ### The state -/

/-- `TICK_BYTE_BUDGET` -/
def tickByteBudget : Nat := 128

/-- `TN_IAC` -/
abbrev tnIac : UInt8 := 255

/-- `TN_DONT` -/
abbrev tnDont : UInt8 := 254

/-- `TN_DO` -/
abbrev tnDo : UInt8 := 253

/-- `TN_WONT` -/
abbrev tnWont : UInt8 := 252

/-- `TN_WILL` -/
abbrev tnWill : UInt8 := 251

/-- `TN_SB` -/
abbrev tnSb : UInt8 := 250

/-- `TN_SE` -/
abbrev tnSe : UInt8 := 240

/-- `TNOPT_BINARY` -/
abbrev tnoptBinary : UInt8 := 0

/-- `TNOPT_SGA` -/
abbrev tnoptSga : UInt8 := 3

/-- `TNOPT_COMPORT` -/
abbrev tnoptComport : UInt8 := 44

/-- `sizeof(sb_buf)`, and that of the buffer of an acknowledgement. -/
def sbBufSize : Nat := 24

/-- `T_DATA` and the others. -/
inductive TnState
  | data
  | iac
  | verb
  | sb
  | sbIac
  deriving DecidableEq, Repr

/-- `SRC_UART` and the others. -/
inductive Src
  | uart
  | cdc
  | tcp
  deriving DecidableEq, Repr

/-- `uart_parity_t` -/
inductive UartParity
  | none
  | odd
  | even
  deriving DecidableEq, Repr

/-- A pbuf of a received segment. -/
structure Pbuf where
  payload : List UInt8
  nonempty : payload ≠ []

/-- `rx` and `rx_off`: the chain that is held and how much of its first pbuf is consumed. -/
structure RxChain where
  pbufs : List Pbuf
  off : Nat
  inside : ∀ p ∈ pbufs.head?, off < p.payload.length

/-- What a write to the socket of the client is for. -/
inductive Origin
  | line (src : Src) (b : UInt8)
  | reply (verb opt : UInt8)
  | ack (cmd : UInt8) (payload : List UInt8)
  deriving DecidableEq, Repr

/-- A write to the socket of the client. -/
structure Written where
  origin : Origin
  bytes : List UInt8
  deriving DecidableEq, Repr

/-- The bridge with its ends. `uartRx` and `cdcRx` are the bytes on their way in,
`uartTx` and `cdcTx` those sent, each with the end that it is from. -/
structure Bridge where
  client : Bool
  telnetMode : Bool
  cdcConnected : Bool
  rx : RxChain
  curBaud : UInt32
  curDatabits : UInt8
  curStop : UInt8
  curParity : UartParity
  tnState : TnState
  tnVerb : UInt8
  sbBuf : List UInt8
  comportActive : Bool
  dtrPin : Bool
  rtsPin : Bool
  uartRx : List UInt8
  cdcRx : List UInt8
  uartTx : List (Src × UInt8)
  cdcTx : List (Src × UInt8)
  sock : List Written
  recved : Nat

/-- What the ends say when a byte is about to move. A write of what the socket has room for
succeeds. -/
structure Look where
  uartReadable : Bool
  cdcAvailable : Bool
  uartWritable : Bool
  cdcRoom : Nat
  sndbuf : Nat
  accepts : Nat → Bool
  fits : ∀ n, n ≤ sndbuf → accepts n = true

/-! ### The held chain -/

/-- What is not consumed yet. -/
def RxChain.bytes (rx : RxChain) : List UInt8 :=
  (rx.pbufs.flatMap Pbuf.payload).drop rx.off

/-- `rx == NULL` -/
def RxChain.empty : RxChain := ⟨[], 0, fun _ h => nomatch h⟩

/-- `rx->payload[rx_off]` -/
def RxChain.byte? (rx : RxChain) : Option UInt8 :=
  match rx.pbufs with
  | [] => none
  | p :: _ => p.payload[rx.off]?

theorem Pbuf.length_pos (p : Pbuf) : 0 < p.payload.length := List.length_pos_of_ne_nil p.nonempty

/-- `rx_off++`, and on to the next pbuf where this one is drained. -/
def RxChain.advance (rx : RxChain) : RxChain :=
  match rx with
  | ⟨[], off, _⟩ => ⟨[], off, fun _ h => nomatch h⟩
  | ⟨p :: next, off, inside⟩ =>
    if h : off + 1 = p.payload.length then ⟨next, 0, fun q _ => q.length_pos⟩
    else
      ⟨p :: next, off + 1, fun _ hq =>
        Option.some.inj hq ▸ Nat.lt_of_le_of_ne (inside p rfl) h⟩

/-- `pbuf_cat`, or the chain itself where none is held. -/
def RxChain.cat (rx : RxChain) (p : Pbuf) (next : List Pbuf) : RxChain :=
  match rx with
  | ⟨[], _, _⟩ => ⟨p :: next, 0, fun q _ => q.length_pos⟩
  | ⟨q :: qs, off, h⟩ => ⟨q :: qs ++ p :: next, off, h⟩

theorem RxChain.byte?_eq (rx : RxChain) : rx.byte? = rx.bytes.head? := by
  obtain ⟨pbufs, off, h⟩ := rx
  cases pbufs with
  | nil => simp [RxChain.byte?, RxChain.bytes]
  | cons p next =>
    have hoff : off < p.payload.length := h p rfl
    simp [RxChain.byte?, RxChain.bytes, List.head?_drop, List.getElem?_append_left hoff]

theorem RxChain.advance_bytes (rx : RxChain) : rx.advance.bytes = rx.bytes.tail := by
  obtain ⟨pbufs, off, h⟩ := rx
  cases pbufs with
  | nil => simp [RxChain.advance, RxChain.bytes]
  | cons p next =>
    have hoff : off < p.payload.length := h p rfl
    rw [RxChain.advance]
    split_ifs with hlast
    · simp [RxChain.bytes, hlast]
    · simp [RxChain.bytes]

theorem RxChain.cat_bytes (rx : RxChain) (p : Pbuf) (next : List Pbuf) :
    (rx.cat p next).bytes = rx.bytes ++ (p :: next).flatMap Pbuf.payload := by
  obtain ⟨pbufs, off, h⟩ := rx
  cases pbufs with
  | nil => simp [RxChain.cat, RxChain.bytes]
  | cons q qs =>
    have hoff : off < q.payload.length := h q rfl
    rw [RxChain.cat, RxChain.bytes, RxChain.bytes, List.flatMap_append,
      List.drop_append_of_le_length]
    simp only [List.flatMap_cons, List.length_append]
    omega

/-! ### Telnet and COM-PORT-CONTROL -/

/-- `tn_send`: a reply that finds no room is dropped. -/
def tnSend (l : Look) (b : Bridge) (origin : Origin) (d : List UInt8) : Bridge :=
  if b.client ∧ l.accepts d.length then { b with sock := b.sock ++ [⟨origin, d⟩] } else b

/-- The loop of `tn_comport_ack` over the payload. -/
def ackPayload : List UInt8 → List UInt8 → List UInt8
  | [], buf => buf
  | p :: payload, buf =>
    if buf.length < sbBufSize - 3 then
      ackPayload payload (if p = tnIac then buf ++ [tnIac, p] else buf ++ [p])
    else buf

/-- The buffer of `tn_comport_ack`. -/
def ackBytes (cmd : UInt8) (payload : List UInt8) : List UInt8 :=
  ackPayload payload [tnIac, tnSb, tnoptComport, cmd + 100] ++ [tnIac, tnSe]

/-- `tn_comport_ack` -/
def tnComportAck (l : Look) (b : Bridge) (cmd : UInt8) (payload : List UInt8) : Bridge :=
  tnSend l b (.ack cmd payload) (ackBytes cmd payload)

/-- The options that the bridge speaks. -/
def optOk (opt : UInt8) : Bool := opt = tnoptBinary ∨ opt = tnoptSga ∨ opt = tnoptComport

/-- What `tn_handle_verb` answers; `WONT` and `DONT` need no reply. -/
def replyVerb (verb opt : UInt8) : Option UInt8 :=
  if verb = tnWill then some (if optOk opt then tnDo else tnDont)
  else if verb = tnDo then some (if optOk opt then tnWill else tnWont)
  else none

/-- `tn_handle_verb` -/
def tnHandleVerb (l : Look) (b : Bridge) (verb opt : UInt8) : Bridge :=
  let b :=
    match replyVerb verb opt with
    | some r => tnSend l b (.reply r opt) [tnIac, r, opt]
    | none => b
  if optOk opt ∧ opt = tnoptComport ∧ ¬b.comportActive then
    -- the modem state that some clients wait for: NOTIFY_MODEMSTATE is 7 + 100
    tnComportAck l { b with comportActive := true } 7 [0x30]
  else b

/-- Four bytes as the number they are, most significant first. -/
def be32 (p₀ p₁ p₂ p₃ : UInt8) : UInt32 :=
  p₀.toUInt32 <<< 24 ||| p₁.toUInt32 <<< 16 ||| p₂.toUInt32 <<< 8 ||| p₃.toUInt32

/-- SET_BAUDRATE: out of range is a query. -/
def setBaudrate (b : Bridge) : List UInt8 → Bridge
  | p₀ :: p₁ :: p₂ :: p₃ :: _ =>
    let want := be32 p₀ p₁ p₂ p₃
    if 300 ≤ want ∧ want ≤ 1500000 then { b with curBaud := want } else b
  | _ => b

/-- SET_DATASIZE -/
def setDatasize (b : Bridge) : List UInt8 → Bridge
  | p :: _ => if 5 ≤ p ∧ p ≤ 8 then { b with curDatabits := p } else b
  | [] => b

/-- SET_PARITY: mark and space are not supported. -/
def setParity (b : Bridge) : List UInt8 → Bridge
  | p :: _ =>
    if 1 ≤ p ∧ p ≤ 3 then
      { b with curParity := if p = 2 then .odd else if p = 3 then .even else .none }
    else b
  | [] => b

/-- SET_STOPSIZE -/
def setStopsize (b : Bridge) : List UInt8 → Bridge
  | p :: _ => if p = 1 ∨ p = 2 then { b with curStop := p } else b
  | [] => b

/-- SET_CONTROL: the pins are low when asserted. -/
def setControl (b : Bridge) (p : UInt8) : Bridge :=
  if p = 8 then { b with dtrPin := false }
  else if p = 9 then { b with dtrPin := true }
  else if p = 11 then { b with rtsPin := false }
  else if p = 12 then { b with rtsPin := true }
  else b

/-- The parity as COM-PORT-CONTROL has it. -/
def UartParity.value : UartParity → UInt8
  | .none => 1
  | .odd => 2
  | .even => 3

/-- The switch of `tn_handle_sb`. -/
def tnHandleCmd (l : Look) (b : Bridge) (cmd : UInt8) (pl : List UInt8) : Bridge :=
  if cmd = 1 then
    let b := setBaudrate b pl
    tnComportAck l b cmd (BigEndian.beBytes 4 b.curBaud.toNat)
  else if cmd = 2 then
    let b := setDatasize b pl
    tnComportAck l b cmd [b.curDatabits]
  else if cmd = 3 then
    let b := setParity b pl
    tnComportAck l b cmd [b.curParity.value]
  else if cmd = 4 then
    let b := setStopsize b pl
    tnComportAck l b cmd [b.curStop]
  else if cmd = 5 then
    match pl with
    | p :: _ => tnComportAck l (setControl b p) cmd [p]
    | [] => b
  else tnComportAck l b cmd pl

/-- `tn_handle_sb` -/
def tnHandleSb (l : Look) (b : Bridge) : Bridge :=
  match b.sbBuf with
  | opt :: cmd :: pl => if opt ≠ tnoptComport then b else tnHandleCmd l b cmd pl
  | _ => b

/-- `sb_buf[sb_len++] = b`, where there is room. -/
def sbPush (buf : List UInt8) (b : UInt8) : List UInt8 :=
  if buf.length < sbBufSize then buf ++ [b] else buf

/-- `tn_process`, with the data byte that it finds. -/
def tnProcess (l : Look) (b : Bridge) (x : UInt8) : Bridge × Option UInt8 :=
  match b.tnState with
  | .data => if x = tnIac then ({ b with tnState := .iac }, none) else (b, some x)
  | .iac =>
    if x = tnIac then ({ b with tnState := .data }, some x)
    else if x = tnSb then ({ b with tnState := .sb, sbBuf := [] }, none)
    else if tnWill ≤ x ∧ x ≤ tnDont then ({ b with tnVerb := x, tnState := .verb }, none)
    else ({ b with tnState := .data }, none)
  | .verb => ({ tnHandleVerb l b b.tnVerb x with tnState := .data }, none)
  | .sb =>
    if x = tnIac then ({ b with tnState := .sbIac }, none)
    else ({ b with sbBuf := sbPush b.sbBuf x }, none)
  | .sbIac =>
    if x = tnIac then ({ b with sbBuf := sbPush b.sbBuf tnIac, tnState := .sb }, none)
    else ({ tnHandleSb l b with tnState := .data }, none)

/-- `tn_next_is_data` -/
def tnNextIsData (b : Bridge) (x : UInt8) : Bool :=
  if ¬b.telnetMode then true
  else (b.tnState = .data ∧ x ≠ tnIac) ∨ (b.tnState = .iac ∧ x = tnIac)

/-! ### The ends -/

/-- `sinks_ready` -/
def sinksReady (l : Look) (b : Bridge) (src : Src) : Bool :=
  if src ≠ .cdc ∧ b.cdcConnected ∧ l.cdcRoom = 0 then false
  else if src ≠ .tcp ∧ b.client ∧ l.sndbuf < 2 then false
  else if src ≠ .uart ∧ ¬l.uartWritable then false
  else true

/-- A byte as the client is sent it. -/
def Bridge.toClient (b : Bridge) (x : UInt8) : List UInt8 :=
  if b.telnetMode ∧ x = tnIac then [tnIac, tnIac] else [x]

/-- `fan_out`. A port with no room takes nothing; `uart_putc_raw` waits until it can. -/
def fanOut (l : Look) (b : Bridge) (src : Src) (x : UInt8) : Bridge :=
  { b with
    cdcTx :=
      if src ≠ .cdc ∧ b.cdcConnected ∧ 0 < l.cdcRoom then b.cdcTx ++ [(src, x)] else b.cdcTx
    sock :=
      if src ≠ .tcp ∧ b.client ∧ l.accepts (b.toClient x).length then
        b.sock ++ [⟨.line src x, b.toClient x⟩]
      else b.sock
    uartTx := if src ≠ .uart then b.uartTx ++ [(src, x)] else b.uartTx }

/-! ### The pump -/

/-- The loop over the UART. -/
def uartLoop : Nat → (Nat → Look) → Bridge → Bridge
  | 0, _, b => b
  | budget + 1, looks, b =>
    let l := looks budget
    match b.uartRx with
    | x :: rest =>
      if l.uartReadable ∧ sinksReady l b .uart then
        uartLoop budget looks (fanOut l { b with uartRx := rest } .uart x)
      else b
    | [] => b

/-- The loop over the CDC port. -/
def cdcLoop : Nat → (Nat → Look) → Bridge → Bridge
  | 0, _, b => b
  | budget + 1, looks, b =>
    let l := looks budget
    match b.cdcRx with
    | x :: rest =>
      if l.cdcAvailable ∧ sinksReady l b .cdc then
        cdcLoop budget looks (fanOut l { b with cdcRx := rest } .cdc x)
      else b
    | [] => b

/-- What becomes of a byte from the client. -/
def tcpByte (l : Look) (b : Bridge) (x : UInt8) : Bridge :=
  if ¬b.telnetMode then fanOut l b .tcp x
  else
    match tnProcess l b x with
    | (b, some data) => fanOut l b .tcp data
    | (b, none) => b

/-- The loop over the held chain, with how much it consumes. -/
def tcpLoop : Nat → (Nat → Look) → Bridge → Bridge × Nat
  | 0, _, b => (b, 0)
  | budget + 1, looks, b =>
    let l := looks budget
    match b.rx.byte? with
    | some x =>
      -- telnet protocol bytes flow regardless; data bytes wait for the sinks
      if tnNextIsData b x ∧ ¬sinksReady l b .tcp then (b, 0)
      else
        let r := tcpLoop budget looks (tcpByte l { b with rx := b.rx.advance } x)
        (r.1, r.2 + 1)
    | none => (b, 0)

/-- What the ends say over one call of the task. -/
structure Looks where
  start : Look
  uart : Nat → Look
  cdc : Nat → Look
  tcp : Nat → Look

/-- The three loops, with how much of the client's is consumed. -/
def pump (ls : Looks) (b : Bridge) : Bridge × Nat :=
  tcpLoop tickByteBudget ls.tcp
    (cdcLoop tickByteBudget ls.cdc (uartLoop tickByteBudget ls.uart b))

/-- `tcp_recved` for what is consumed. -/
def tcpRecved (b : Bridge) (consumed : Nat) : Bridge :=
  if consumed ≠ 0 ∧ b.client then { b with recved := b.recved + consumed } else b

/-- `serial_bridge_task` -/
def serialBridgeTask (ls : Looks) (b : Bridge) : Bridge :=
  if ¬(ls.start.uartReadable ∧ b.uartRx ≠ []) ∧ ¬(ls.start.cdcAvailable ∧ b.cdcRx ≠ []) ∧
      b.rx.pbufs = [] then b
  else tcpRecved (pump ls b).1 (pump ls b).2

/-- `bridge_recv` for a segment of the client; that of anyone else is freed. -/
def bridgeRecv (b : Bridge) (p : Pbuf) (next : List Pbuf) : Bridge :=
  if b.client then { b with rx := b.rx.cat p next } else b

/-- `serial_bridge_apply_coding` -/
def applyCoding (b : Bridge) (bitRate : UInt32) (dataBits parity stopBits : UInt8) : Bridge :=
  if bitRate < 300 ∨ 1500000 < bitRate then b
  else
    { b with
      curBaud := bitRate
      curParity := if parity = 1 then .odd else if parity = 2 then .even else .none
      curDatabits := if 5 ≤ dataBits ∧ dataBits ≤ 8 then dataBits else 8
      curStop := if stopBits = 2 then 2 else 1 }

end Molewire
