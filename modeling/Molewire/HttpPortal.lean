/-
# The HTTP portal

`http_portal.c`: two connections, each with a request buffer, a response buffer
and up to three segments still to be handed to `tcp_write`. Nothing is copied
on the way out. What a connection has queued is read from its response buffer,
from the page in flash or from the capture ring each time it is transmitted,
until the client acknowledges it, also after `tcp_close` has detached it from
its slot. The bodies other modules produce, and whether `tcp_write` and
`tcp_close` succeed, are given with the event.
-/

import Molewire.Library.SpanQueue
import Molewire.Library.Transition
import Molewire.Pcap
import Molewire.SerialConsole

namespace Molewire

open ByteBuffer SpanQueue Transition

/-- `HTTP_CONNS`. -/
abbrev httpConns : Nat := 2

instance : NeZero httpConns := ⟨by decide⟩

/-- `REQ_MAX`. -/
def reqMax : Nat := 1024

/-- `RESP_MAX`. -/
def respMax : Nat := 4096

/-- The size of `body_buf`. -/
def bodyMax : Nat := respMax - 256

/-- `IDLE_POLLS`. -/
def idlePolls : Nat := 10

/-- `TCP_SND_BUF`. -/
def tcpSndBuf : Nat := 4 * 1460

/-! ### Requests -/

/-- What `handle_request` finds a request to ask for. -/
inductive Request
  | incomplete
  | preflight
  | badRequest
  | page
  | pcap
  | status
  | scan (post : Bool)
  | tooLarge
  | command (line : CStr)
  | notFound
  deriving DecidableEq, Repr

/-- `strstr`: the offset of the first occurrence. -/
def strstr (pat : CStr) : CStr → Option Nat
  | [] => if pat = [] then some 0 else none
  | c :: s => if pat.isPrefixOf (c :: s) then some 0 else (strstr pat s).map (· + 1)

/-- `strtoul(s, NULL, 10)`, into 32 bits. -/
def strtoul (s : CStr) : Nat :=
  let t := s.dropWhile isspace
  let unsigned := if t.head? = some 45 ∨ t.head? = some 43 then t.tail else t
  let n := (unsigned.takeWhile isdigit).foldl (fun acc c => 10 * acc + (c - 48).toNat) 0
  if 2 ^ 32 ≤ n then 2 ^ 32 - 1 else if t.head? = some 45 then (2 ^ 32 - n) % 2 ^ 32 else n

/-- The search for `Content-Length:` after a line feed, in the `n` bytes before the end of the
headers. -/
def contentLength : Nat → CStr → Nat
  | 0, _ => 0
  | _, [] => 0
  | n + 1, c :: s =>
    if c = 10 ∧ strcasecmpEq (s.take 15) (ascii "Content-Length:") then strtoul (s.drop 15)
    else contentLength n s

/-- The part of `handle_request` for `POST /api/cmd`, with what follows the path and the offset in
it at which the headers end. -/
def parseCmd (req : Bytes) (hdrEnd : Nat) (afterPath : CStr) (left : Nat) : Request :=
  let contentLen := contentLength left afterPath
  let body := req.drop (hdrEnd + 4)
  if 256 < contentLen then .tooLarge
  else if body.length < contentLen then .incomplete
  else .command (portalLine (body.take contentLen))

/-- The decisions of `handle_request`, on the bytes received so far. -/
def parseRequest (req : Bytes) : Request :=
  let text := cstr req
  match strstr (ascii "\r\n\r\n") text with
  | none => .incomplete
  | some hdrEnd =>
    let isGet := (ascii "GET ").isPrefixOf text
    let isPost := (ascii "POST ").isPrefixOf text
    if (ascii "OPTIONS ").isPrefixOf text then .preflight
    else
      let verb := if isGet then 4 else 5
      match strchrCut (text.drop verb) 32 with
      | none => .badRequest
      | some (path, afterPath) =>
        if ¬isGet ∧ ¬isPost then .badRequest
        else if isGet ∧ (path = ascii "/" ∨ path = ascii "/index.html") then .page
        else if isGet ∧ path = ascii "/api/pcap" then .pcap
        else if isGet ∧ path = ascii "/api/status" then .status
        else if path = ascii "/api/scan" then .scan isPost
        else if isPost ∧ path = ascii "/api/cmd" then
          parseCmd req hdrEnd afterPath (hdrEnd - (verb + path.length + 1))
        else .notFound

/-! ### State -/

/-- The buffers a response is sent from. -/
inductive Region
  | resp (i : Fin httpConns)
  | page
  | ring
  deriving DecidableEq, Repr

/-- `struct tcp_pcb`: what is queued and not acknowledged, how much of that the client has already
taken, and everything it has taken. For a download, also the record stream at its freeze. -/
structure Pcb where
  queue : List (Span Region) := []
  delivered : Nat := 0
  received : List (Region × UInt8) := []
  frozen : Option Bytes := none
  deriving DecidableEq, Repr

/-- `conn_t`. `segs` are the segments from `seg_ix` on. -/
structure Conn where
  pcb : Option Pcb := none
  req : Bytes := []
  idle : Nat := 0
  responded : Bool := false
  pcapHold : Bool := false
  segs : List (Span Region) := []
  resp : Bytes := []
  deriving DecidableEq, Repr

/-- What the portal calls in other modules. -/
inductive Upcall
  | wifiConnRequestScan
  | configProtoHandleLine (line : CStr)
  deriving DecidableEq, Repr

/-- The statics of `http_portal.c` with the capture ring, and the connections that have been closed
but still have data on the way. -/
structure Portal where
  page : Bytes
  pcap : Pcap := {}
  conns : Fin httpConns → Conn := fun _ => {}
  closing : List Pcb := []
  upcalls : List Upcall := []

/-- What the rest of the firmware and lwIP answer during one event: the generated bodies, what a
console line prints and calls, and whether `tcp_write` and `tcp_close` succeed. A `tcp_write` past
the end of the list fails. -/
structure Answers where
  statusJson : Bytes := []
  scanJson : Bytes := []
  output : Bytes := []
  calls : List Call := []
  writes : List Bool := []
  closeOk : Bool := true
  deriving DecidableEq, Repr

/-! ### The transport -/

namespace Pcb

/-- `tcp_sndbuf`. -/
def sndbuf (p : Pcb) : Nat := tcpSndBuf - size p.queue

/-- A `tcp_write` that succeeds. -/
def write (p : Pcb) (s : Span Region) : Pcb := { p with queue := p.queue ++ [s] }

/-- The client takes `n` more bytes, as they read now. -/
def deliver (m : Memory Region) (n : Nat) (p : Pcb) : Pcb :=
  let fresh := ((read m p.queue).drop p.delivered).take n
  { p with received := p.received ++ fresh, delivered := p.delivered + fresh.length }

/-- How many bytes an acknowledgement of `n` bytes covers. -/
def acked (p : Pcb) (n : Nat) : Nat := min n p.delivered

/-- The client acknowledges `n` bytes. -/
def ack (n : Nat) (p : Pcb) : Pcb :=
  { p with queue := drop (p.acked n) p.queue, delivered := p.delivered - p.acked n }

/-- The record bytes the client has taken. -/
def records (p : Pcb) : Bytes := bytesOf .ring p.received

end Pcb

/-- The loop of `conn_send_more`. A segment that does not fit uses up the room, which ends the
loop. -/
def sendSegs (p : Pcb) : List (Span Region) → List Bool → Pcb × List (Span Region)
  | [], _ => (p, [])
  | s :: rest, writes =>
    if s.len = 0 then sendSegs p rest writes
    else if p.sndbuf = 0 then (p, s :: rest)
    else
      let chunk := min s.len p.sndbuf
      match writes with
      | true :: writes =>
        if s.len ≤ p.sndbuf then sendSegs (p.write (s.take chunk)) rest writes
        else (p.write (s.take chunk), s.drop chunk :: rest)
      | _ => (p, s :: rest)

namespace Portal

/-- The memory the queued data is read from. -/
def memory (s : Portal) : Memory Region
  | .resp i, k => byte (s.conns i).resp k
  | .page, k => byte s.page k
  | .ring, k => s.pcap.ring k

def setConn (s : Portal) (i : Fin httpConns) (c : Conn) : Portal :=
  { s with conns := Function.update s.conns i c }

/-! ### Connections -/

/-- `conn_free`. -/
def connFree (s : Portal) (i : Fin httpConns) : Portal :=
  let s' := s.setConn i {}
  -- the flag is shared: capture resumes whoever else still sends the ring
  if (s.conns i).pcapHold then { s' with pcap := s.pcap.resume } else s'

/-- `tcp_close` of a connection whose callbacks are detached. -/
def tcpClose (s : Portal) (p : Pcb) : Portal := { s with closing := s.closing ++ [p] }

/-- `conn_send_more`. A close that fails ends in `tcp_abort`. -/
def connSendMore (s : Portal) (i : Fin httpConns) (writes : List Bool) (closeOk : Bool) : Portal :=
  match (s.conns i).pcb with
  | none => s
  | some pcb =>
    let (pcb, segs) := sendSegs pcb (s.conns i).segs writes
    let s := s.setConn i { s.conns i with pcb := some pcb, segs := segs }
    -- a response is over when all of it has been acknowledged
    if segs ≠ [] ∨ pcb.sndbuf < tcpSndBuf then s
    else
      let s := s.connFree i
      if closeOk then s.tcpClose pcb else s

/-- The body of a response: none, the page in flash, or generated. -/
inductive Body
  | none
  | page
  | generated (b : Bytes)

/-- `PORTAL_CORS_HEADERS`. -/
def corsHeaders : String := "Access-Control-Allow-Origin: *\r\n"

/-- `PORTAL_PREFLIGHT_HEADERS`. -/
def preflightHeaders : String :=
  "Access-Control-Allow-Methods: GET, POST, OPTIONS\r\n" ++
  "Access-Control-Allow-Headers: Content-Type\r\n" ++
  "Access-Control-Allow-Private-Network: true\r\n" ++
  "Access-Control-Max-Age: 86400\r\n"

/-- The headers `conn_respond` prints. -/
def respondHeader (status ctype extra : String) (bodyLen : Nat) : Bytes :=
  ascii ("HTTP/1.1 " ++ status ++ "\r\nContent-Type: " ++ ctype ++ "\r\nContent-Length: " ++
    toString bodyLen ++ "\r\nCache-Control: no-store\r\n" ++ corsHeaders ++ extra ++
    "Connection: close\r\n\r\n")

/-- `conn_respond`. -/
def connRespond (s : Portal) (i : Fin httpConns) (ans : Answers) (status ctype extra : String)
    (body : Body) : Portal :=
  let c := s.conns i
  let c := match body with
    | .none =>
      let h := respondHeader status ctype extra 0
      { c with resp := h, segs := [⟨.resp i, 0, h.length⟩] }
    | .page =>
      let h := respondHeader status ctype extra s.page.length
      { c with resp := h, segs := [⟨.resp i, 0, h.length⟩, ⟨.page, 0, s.page.length⟩] }
    | .generated b =>
      let h := respondHeader status ctype extra b.length
      let resp := h ++ b.take (respMax - h.length)
      { c with resp := resp, segs := [⟨.resp i, 0, resp.length⟩] }
  (s.setConn i { c with responded := true }).connSendMore i ans.writes ans.closeOk

/-- The headers of a download. -/
def pcapHeader (bodyLen : Nat) : Bytes :=
  ascii ("HTTP/1.1 200 OK\r\nContent-Type: application/vnd.tcpdump.pcap\r\nContent-Length: " ++
    toString bodyLen ++ "\r\nCache-Control: no-store\r\n" ++ corsHeaders ++
    "Content-Disposition: attachment; filename=\"molewire.pcap\"\r\nConnection: close\r\n\r\n")

/-- The spans of the ring. -/
def ringSegs (p : Pcap) : List (Span Region) :=
  [⟨.ring, p.spans.1.1, p.spans.1.2⟩, ⟨.ring, p.spans.2.1, p.spans.2.2⟩]

/-- The record stream a download starting now is to deliver. -/
def recordStream (s : Portal) : Bytes := bytesOf .ring (read s.memory (ringSegs s.pcap))

/-- The part of `handle_request` for `GET /api/pcap`. -/
def sendPcap (s : Portal) (i : Fin httpConns) (ans : Answers) : Portal :=
  let body := pcapGlobalHdrLen + size (ringSegs s.pcap)
  let resp := pcapHeader body ++ Pcap.globalHeader
  let c := s.conns i
  let c := { c with
    pcb := c.pcb.map fun p => { p with frozen := some s.recordStream }
    pcapHold := true
    resp := resp
    segs := ⟨.resp i, 0, resp.length⟩ :: ringSegs s.pcap
    responded := true }
  ({ s with pcap := s.pcap.freeze }.setConn i c).connSendMore i ans.writes ans.closeOk

/-- The calls of the console that reach `pcap.c`. -/
def consoleCall (p : Pcap) : Call → Pcap
  | .pcapSetEnabled on => p.setEnabled on
  | .pcapClear => p.clear
  | _ => p

/-- `handle_request`. -/
def handleRequest (s : Portal) (i : Fin httpConns) (ans : Answers) : Portal :=
  match parseRequest (s.conns i).req with
  | .incomplete => s
  | .preflight => s.connRespond i ans "204 No Content" "text/plain" preflightHeaders .none
  | .badRequest =>
    s.connRespond i ans "400 Bad Request" "text/plain" "" (.generated (ascii "bad request"))
  | .page =>
    s.connRespond i ans "200 OK" "text/html; charset=utf-8" "Content-Encoding: gzip\r\n" .page
  | .pcap => s.sendPcap i ans
  | .status => s.connRespond i ans "200 OK" "application/json" "" (.generated ans.statusJson)
  | .scan post =>
    -- a GET only reports, a POST asks for a scan first
    let s := if post then { s with upcalls := s.upcalls ++ [Upcall.wifiConnRequestScan] } else s
    s.connRespond i ans "200 OK" "application/json" "" (.generated ans.scanJson)
  | .tooLarge =>
    s.connRespond i ans "413 Payload Too Large" "text/plain" "" (.generated (ascii "too large"))
  | .command line =>
    let s := { s with
      upcalls := s.upcalls ++ [Upcall.configProtoHandleLine line]
      pcap := ans.calls.foldl consoleCall s.pcap }
    s.connRespond i ans "200 OK" "text/plain; charset=utf-8" ""
      (.generated (ans.output.take (bodyMax - 1)))
  | .notFound =>
    s.connRespond i ans "404 Not Found" "text/plain" "" (.generated (ascii "not found"))

/-! ### Callbacks -/

/-- `http_recv`. Without data the peer has closed. -/
def httpRecv (s : Portal) (i : Fin httpConns) (ans : Answers) : Option Bytes → Portal
  | none =>
    match (s.conns i).pcb with
    | none => s
    | some pcb => (s.connFree i).tcpClose pcb
  | some data =>
    let fits := data.take (reqMax - 1 - (s.conns i).req.length)
    let c := { s.conns i with req := (s.conns i).req ++ fits, idle := 0 }
    if c.responded then s.setConn i c
    -- the buffer is full and the end of the headers not in sight
    else if fits = [] then (s.setConn i c).connFree i
    else (s.setConn i c).handleRequest i ans

/-- `http_sent`, after an acknowledgement of `n` bytes. -/
def httpSent (s : Portal) (i : Fin httpConns) (ans : Answers) (n : Nat) : Portal :=
  let c := { s.conns i with pcb := (s.conns i).pcb.map (Pcb.ack n) }
  if c.responded then (s.setConn i { c with idle := 0 }).connSendMore i ans.writes ans.closeOk
  else s.setConn i c

/-- `http_poll`. -/
def httpPoll (s : Portal) (i : Fin httpConns) (ans : Answers) : Portal :=
  let c := { s.conns i with idle := (s.conns i).idle + 1 }
  if idlePolls < c.idle then (s.setConn i c).connFree i
  else if c.responded then (s.setConn i c).connSendMore i ans.writes ans.closeOk
  else s.setConn i c

/-- `http_err`: lwIP has already freed the connection. -/
def httpErr (s : Portal) (i : Fin httpConns) : Portal := s.connFree i

/-- `http_accept`. -/
def httpAccept (s : Portal) (onUsb : Bool) : Portal :=
  if ¬onUsb then s
  else
    match (List.finRange httpConns).find? fun i => (s.conns i).pcb.isNone with
    | none => s
    | some i => s.setConn i { pcb := some {} }

/-! ### Runs -/

end Portal

/-- What can happen to the portal and the ring: to a connection, to one that has been closed, on a
client link or on the serial console. -/
inductive PortalEvent
  | accept (onUsb : Bool)
  | recv (i : Fin httpConns) (ans : Answers) (data : Option Bytes)
  | deliver (i : Fin httpConns) (n : Nat)
  | sent (i : Fin httpConns) (ans : Answers) (n : Nat)
  | poll (i : Fin httpConns) (ans : Answers)
  | err (i : Fin httpConns)
  | closingDeliver (j n : Nat)
  | closingAck (j n : Nat)
  | closingGone (j : Nat)
  | capture (us : UInt64) (frame : Bytes) (len : UInt16)
  | console (call : Call)
  deriving DecidableEq, Repr

namespace Portal

/-- A callback of a connection runs while the slot is in use. -/
def step (s : Portal) : PortalEvent → Portal
  | .accept onUsb => s.httpAccept onUsb
  | .recv i ans data => if (s.conns i).pcb.isSome then s.httpRecv i ans data else s
  | .deliver i n =>
    s.setConn i { s.conns i with pcb := (s.conns i).pcb.map (Pcb.deliver s.memory n) }
  | .sent i ans n => if (s.conns i).pcb.isSome then s.httpSent i ans n else s
  | .poll i ans => if (s.conns i).pcb.isSome then s.httpPoll i ans else s
  | .err i => if (s.conns i).pcb.isSome then s.httpErr i else s
  | .closingDeliver j n => { s with closing := s.closing.modify j (Pcb.deliver s.memory n) }
  | .closingAck j n => { s with closing := s.closing.modify j (Pcb.ack n) }
  | .closingGone j => { s with closing := s.closing.eraseIdx j }
  | .capture us frame len => { s with pcap := s.pcap.capture us frame len }
  | .console call => { s with pcap := consoleCall s.pcap call }

/-- The states of the runs in which every event is admitted, from the start of the firmware. -/
def ReachedBy (admits : Portal → PortalEvent → Prop) (s : Portal) : Prop :=
  Reach (fun s => ∃ page, s = { page := page }) admits step s

end Portal

end Molewire
