/-
# Responses of the portal

A response is the segments that a request has set up, the first of them the
connection's own buffer. What its headers announce is what follows them, and
whatever the client, the network and `tcp_write` do, the bytes that were
acknowledged, those queued and those not sent yet are together the response.
-/

import Molewire.HttpHeaders
import Molewire.PcapDownload
import Molewire.PortalStatus

namespace Molewire

open ByteBuffer SpanQueue Transition

/-! ### Captured console output -/

/-- `capture_t`. -/
structure Capture where
  buf : Bytes
  len : Nat
  cap : Nat

/-- `capture_write`. -/
def captureWrite (c : Capture) (s : CStr) : Option Capture := do
  let n := s.length % 2 ^ 16
  let left := (c.cap + 2 ^ 16 - c.len) % 2 ^ 16
  let n := if left < n then left else n
  let buf ← poke c.buf c.len (s.take n)
  return { c with buf := buf, len := (c.len + n) % 2 ^ 16 }

/-- The text a capture holds. -/
def Capture.text (c : Capture) : Bytes := c.buf.take c.len

/-- The console's texts, one after the other. -/
def captureAll (c : Capture) (texts : List CStr) : Option Capture := texts.foldlM captureWrite c

/-- There is room for what a capture takes. -/
structure Capture.Fits (c : Capture) : Prop where
  cap : c.cap ≤ c.buf.length
  small : c.cap < 2 ^ 16
  len : c.len ≤ c.cap

/-- A write stays inside the buffer and puts as much of a text there as fits. -/
theorem captureWrite_fits {c : Capture} (h : c.Fits) (s : CStr) :
    ∃ c', captureWrite c s = some c' ∧ c'.cap = c.cap ∧ c'.Fits ∧
      (s.length < 2 ^ 16 → c'.text = c.text ++ s.take (c.cap - c.len) ∧
        c'.len = min (c.len + s.length) c.cap) := by
  obtain ⟨hcap, hsmall, hlen⟩ := h
  have hleft : (c.cap + 2 ^ 16 - c.len) % 2 ^ 16 = c.cap - c.len := by omega
  obtain ⟨n, hn, hnleft⟩ : ∃ n, n = (if c.cap - c.len < s.length % 2 ^ 16 then c.cap - c.len
      else s.length % 2 ^ 16) ∧ n ≤ min (s.length % 2 ^ 16) (c.cap - c.len) := by
    refine ⟨_, rfl, ?_⟩
    split_ifs <;> omega
  have htake : (s.take n).length = n := by
    rw [List.length_take]
    omega
  obtain ⟨buf, hbuf, hwrote⟩ := poke_wrote c.buf c.len (s.take n) (by omega)
  have hsum : (c.len + n) % 2 ^ 16 = c.len + n := by omega
  refine ⟨{ c with buf := buf, len := c.len + n }, ?_, rfl, ⟨?_, hsmall, ?_⟩, fun hs => ⟨?_, ?_⟩⟩
  · simp only [captureWrite, hleft, ← hn, hbuf, hsum, Option.bind_eq_bind, Option.bind_some,
      Option.pure_def]
  · exact hwrote.length ▸ hcap
  · dsimp only
    omega
  · have hstart := hwrote.take
    rw [htake] at hstart
    rw [Capture.text, hstart, Capture.text]
    congr 1
    rw [Nat.mod_eq_of_lt hs] at hn
    split_ifs at hn with hcut
    · rw [hn]
    · rw [hn, List.take_length, List.take_of_length_le (by omega)]
  · rw [Nat.mod_eq_of_lt hs] at hn
    dsimp only
    split_ifs at hn <;> omega

/-- Whatever a line prints, no write leaves the buffer, and what is in it at the end is the text up
to its last byte but one. -/
theorem captureAll_text {o : Bytes} (ho : o.length = bodyMax) (texts : List CStr) :
    ∃ c, captureAll ⟨o, 0, bodyMax - 1⟩ texts = some c ∧ c.len ≤ bodyMax - 1 ∧
      ((∀ s ∈ texts, s.length < 2 ^ 16) → c.text = texts.flatten.take (bodyMax - 1)) := by
  have hrun (c : Capture) (h : c.Fits) (t : Bytes) :
      ∃ c', captureAll c texts = some c' ∧ c'.cap = c.cap ∧ c'.Fits ∧
        ((∀ s ∈ texts, s.length < 2 ^ 16) → c.text = t.take c.cap →
          c.len = min t.length c.cap → c'.text = (t ++ texts.flatten).take c.cap) := by
    induction texts generalizing c t with
    | nil => exact ⟨c, rfl, rfl, h, fun _ htext _ => by simpa using htext⟩
    | cons s texts ih =>
      obtain ⟨c₁, hc₁, hcap₁, hfits₁, hwrote⟩ := captureWrite_fits h s
      obtain ⟨c', hc', hcap', hfits', hall⟩ := ih c₁ hfits₁ (t ++ s)
      refine ⟨c', ?_, hcap'.trans hcap₁, hfits', fun hshort htext hlen => ?_⟩
      · rw [captureAll, List.foldlM_cons, hc₁]
        exact hc'
      · obtain ⟨htext₁, hlen₁⟩ := hwrote (hshort s List.mem_cons_self)
        rw [List.flatten_cons, ← List.append_assoc, ← hcap₁]
        refine hall (fun x hx => hshort x (List.mem_cons_of_mem _ hx)) ?_ ?_
        · rw [htext₁, htext, hcap₁, List.take_append]
          congr 2
          omega
        · rw [hlen₁, hcap₁, List.length_append]
          omega
  have hsmall : bodyMax - 1 < 2 ^ 16 := by decide
  obtain ⟨c, hc, hcap, hfits, hall⟩ := hrun ⟨o, 0, bodyMax - 1⟩
    ⟨by rw [ho]; exact Nat.sub_le _ _, hsmall, Nat.zero_le _⟩ []
  exact ⟨c, hc, hfits.len.trans hcap.le, fun hshort => by simpa [Capture.text] using hall hshort⟩

/-! ### What is on its way -/

/-- Of a response the bytes handed to `tcp_write` come first, the others are still to be handed
over, and of the former those not acknowledged are queued, wherever they are read from. -/
structure Sending (answer written : List (Span Region)) (acked : Nat) (p : Pcb)
    (segs : List (Span Region)) : Prop where
  taken : p.delivered ≤ size p.queue
  whole : ∀ m, read m written ++ read m segs = read m answer
  le : acked ≤ size written
  queued : ∀ m, read m p.queue = (read m written).drop acked

namespace Sending

variable {answer written segs : List (Span Region)} {acked : Nat} {p : Pcb}

theorem size_eq (h : Sending answer written acked p segs) :
    acked + size p.queue + size segs = size answer := by
  have hle := h.le
  have hwhole := congrArg List.length (h.whole fun _ _ => 0)
  have hqueued := congrArg List.length (h.queued fun _ _ => 0)
  rw [List.length_append, length_read, length_read, length_read] at hwhole
  rw [List.length_drop, length_read, length_read] at hqueued
  omega

theorem deliver (h : Sending answer written acked p segs) (m : Memory Region) (n : Nat) :
    Sending answer written acked (p.deliver m n) segs where
  taken := by
    have htaken := h.taken
    simp only [Pcb.deliver, List.length_take, List.length_drop, length_read]
    omega
  whole := h.whole
  le := h.le
  queued := h.queued

/-- An acknowledgement takes bytes from the front of the queue. -/
theorem ack (h : Sending answer written acked p segs) (n : Nat) :
    Sending answer written (acked + p.acked n) (p.ack n) segs where
  taken := by
    have htaken := h.taken
    simp only [Pcb.ack, size_drop]
    omega
  whole := h.whole
  le := by
    have htaken := h.taken
    have hqueued := congrArg List.length (h.queued fun _ _ => 0)
    have hle : p.acked n ≤ p.delivered := Nat.min_le_right _ _
    rw [List.length_drop, length_read, length_read] at hqueued
    have hle' := h.le
    omega
  queued m := by
    rw [← List.drop_drop, ← h.queued m]
    simp only [Pcb.ack, read_drop]

/-- The loop of `conn_send_more` hands over what comes next. -/
theorem send (h : Sending answer written acked p segs) (writes : List Bool) :
    Sending answer (written ++ (sendSegs p segs writes).1.queue.drop p.queue.length) acked
      (sendSegs p segs writes).1 (sendSegs p segs writes).2 := by
  obtain ⟨sent, hpcb, hread⟩ := sendSegs_spec p segs writes
  have hnew : (sendSegs p segs writes).1.queue.drop p.queue.length = sent := by
    rw [hpcb, List.drop_left]
  rw [hnew]
  refine ⟨?_, fun m => ?_, ?_, fun m => ?_⟩
  · rw [hpcb, size_append]
    exact Nat.le_add_right_of_le h.taken
  · rw [read_append, List.append_assoc, hread, h.whole]
  · rw [size_append]
    exact Nat.le_add_right_of_le h.le
  · have hle := h.le
    rw [hpcb, read_append, read_append, h.queued m,
      List.drop_append_of_le_length (by rw [length_read]; exact hle)]

end Sending

/-! ### Sizes -/

/-- The places in the ring are places in the ring. -/
structure Pcap.Within (p : Pcap) : Prop where
  head : p.head ≤ ringSize
  high : p.high ≤ ringSize

namespace Pcap

variable {p : Pcap}

theorem Within.wrap (h : p.Within) {need : Nat} (hneed : need ≤ ringSize) :
    (p.wrap need).Within ∧ (p.wrap need).head + need ≤ ringSize := by
  have hhead := h.head
  by_cases hcut : ringSize < p.head + need
  · rw [Pcap.wrap, if_pos hcut]
    exact ⟨⟨Nat.zero_le _, hhead⟩, by simpa using hneed⟩
  · rw [Pcap.wrap, if_neg hcut]
    exact ⟨h, by omega⟩

theorem evictLoop_within (h : p.Within) (start need fuel : Nat) :
    (evictLoop start need fuel p).Within ∧ (evictLoop start need fuel p).head = p.head := by
  induction fuel generalizing p with
  | zero => exact ⟨h, rfl⟩
  | succ fuel ih =>
    unfold evictLoop
    dsimp only
    split_ifs with hwrapped hclear hlap
    · exact ⟨h, rfl⟩
    · exact ⟨⟨h.head, h.head⟩, rfl⟩
    · exact ih ⟨h.head, h.high⟩
    · exact ⟨h, rfl⟩

/-- Making room moves neither the head nor the end of the records over the ring's end. -/
theorem Within.makeRoom (h : p.Within) {need : Nat} (hneed : need ≤ ringSize) {q : Pcap}
    (hq : (if (p.wrap need).wrapped then (p.wrap need).evict (p.wrap need).head need
      else p.wrap need) = q) : q.Within ∧ q.head + need ≤ ringSize := by
  obtain ⟨hwrap, hroom⟩ := h.wrap hneed
  subst hq
  split_ifs
  · obtain ⟨hevict, hhead⟩ := evictLoop_within hwrap (p.wrap need).head need
      (ringSize / recHdr + 1)
    refine ⟨hevict, ?_⟩
    rw [Pcap.evict, hhead]
    exact hroom
  · exact ⟨hwrap, hroom⟩

theorem Within.capture (h : p.Within) (us : UInt64) (frame : Bytes) (len : UInt16) :
    (p.capture us frame len).Within := by
  by_cases hidle : ¬p.enabled ∨ p.paused ∨ len = 0
  · rwa [Pcap.capture, if_pos hidle]
  · have hneed : recHdr + min len.toNat snaplen ≤ ringSize := by
      simp only [recHdr, snaplen, ringSize]
      omega
    rw [Pcap.capture, if_neg hidle]
    dsimp only
    generalize hq : (if (p.wrap (recHdr + min len.toNat snaplen)).wrapped = true then _ else _) = q
    obtain ⟨hwithin, hroom⟩ := h.makeRoom hneed hq
    refine ⟨hroom, ?_⟩
    dsimp only
    split_ifs
    · exact hroom
    · exact hwithin.high

theorem Within.consoleCalls (h : p.Within) (calls : List Call) :
    (calls.foldl Portal.consoleCall p).Within := by
  induction calls generalizing p with
  | nil => exact h
  | cons call calls ih =>
    refine ih ?_
    cases call <;> first | exact h | exact ⟨h.head, h.high⟩ | exact ⟨Nat.zero_le _, Nat.zero_le _⟩

end Pcap

/-- What a response may take from outside its connection has a length of 32 bits. -/
structure Portal.Sized (s : Portal) : Prop where
  page : s.page.length < 2 ^ 32
  pcap : s.pcap.Within

namespace Portal.Sized

variable {s : Portal} {i : Fin httpConns}

theorem length_ringSegs (h : s.Sized) : size (ringSegs s.pcap) ≤ 2 * ringSize := by
  have hhead := h.pcap.head
  have hhigh := h.pcap.high
  have hsize : size (ringSegs s.pcap) = s.pcap.spans.1.2 + s.pcap.spans.2.2 := by
    simp [ringSegs]
  rw [hsize, Pcap.spans]
  split_ifs <;> dsimp only <;> omega

theorem connFree (h : s.Sized) (i : Fin httpConns) : (s.connFree i).Sized := by
  unfold Portal.connFree
  dsimp only
  split_ifs
  · exact ⟨h.page, h.pcap.head, h.pcap.high⟩
  · exact ⟨h.page, h.pcap⟩

theorem connSendMore (h : s.Sized) (i : Fin httpConns) (writes : List Bool) (closeOk : Bool) :
    (s.connSendMore i writes closeOk).Sized := by
  unfold Portal.connSendMore
  split
  · exact h
  · next p hp =>
    have hset : (s.setConn i { s.conns i with
        pcb := some (sendSegs p (s.conns i).segs writes).1
        segs := (sendSegs p (s.conns i).segs writes).2 }).Sized := ⟨h.page, h.pcap⟩
    dsimp only
    split_ifs
    · exact hset
    · exact ⟨(hset.connFree i).page, (hset.connFree i).pcap⟩
    · exact hset.connFree i

end Portal.Sized

/-! ### Responses -/

/-- A response as its connection sets it up: it fits into the connection's buffer, from which it
starts, and behind the headers are as many bytes as they announce. -/
structure Framed (i : Fin httpConns) (resp : Bytes) (answer : List (Span Region)) : Prop where
  fits : resp.length ≤ respMax
  start : ∃ rest, answer = ⟨.resp i, 0, resp.length⟩ :: rest
  announced : ∃ head n, Announces head n ∧ head <+: resp ∧ size answer = head.length + n

/-- A connection with the response it was given, what of it was handed to `tcp_write` and how much
of that is acknowledged. -/
structure Conn.Carries (i : Fin httpConns) (answer written : List (Span Region)) (acked : Nat)
    (c : Conn) : Prop where
  fresh : c.responded = false → c.segs = [] ∧ ∀ p ∈ c.pcb, p = {}
  framed : c.responded = true → Framed i c.resp answer
  sending : c.responded = true → ∀ p ∈ c.pcb, Sending answer written acked p c.segs

/-- The queue of a connection, empty in a free slot. -/
def Conn.queue (c : Conn) : List (Span Region) := c.pcb.elim [] (·.queue)

/-- A response is set up and nothing of it handed over. -/
structure Conn.Answers (i : Fin httpConns) (c : Conn) : Prop where
  responded : c.responded = true
  framed : Framed i c.resp c.segs
  idle : ∀ p ∈ c.pcb, p.queue = [] ∧ p.delivered = 0

/-- The bodies other modules produce fit into the buffer they are produced in. -/
structure Answers.InBuffer (ans : Answers) : Prop where
  status : ans.statusJson.length < bodyMax
  scan : ans.scanJson.length < bodyMax

/-- The bytes a body has in the connection's buffer. -/
def Portal.Body.copied : Portal.Body → Bytes
  | .generated b => b
  | _ => []

/-- The number `conn_respond` announces. -/
def Portal.Body.length (page : Bytes) : Portal.Body → Nat
  | .none => 0
  | .page => page.length
  | .generated b => b.length

namespace Portal

variable {s : Portal} {i : Fin httpConns}

@[simp] theorem connFree_conns : (s.connFree i).conns = Function.update s.conns i {} := by
  unfold Portal.connFree
  dsimp only
  split_ifs <;> rfl

/-- Empty segments are passed over. -/
theorem sendSegs_empty {segs : List (Span Region)} (h : size segs = 0) (p : Pcb)
    (writes : List Bool) : sendSegs p segs writes = (p, []) := by
  induction segs with
  | nil => rfl
  | cons x rest ih =>
    rw [size_cons] at h
    rw [sendSegs, if_pos (by omega), ih (by omega)]

/-- With no successful `tcp_write` nothing is queued. -/
theorem sendSegs_dry (p : Pcb) (segs : List (Span Region)) : (sendSegs p segs []).1 = p := by
  induction segs with
  | nil => rfl
  | cons x rest ih =>
    rw [sendSegs]
    split_ifs
    · exact ih
    all_goals rfl

/-- `tcp_write` takes whatever it is given: one answer for each segment is enough. -/
def Takes (writes : List Bool) (segs : List (Span Region)) : Prop :=
  segs.length ≤ writes.length ∧ ∀ w ∈ writes, w = true

/-- Then as much is handed over as there is room for. -/
theorem sendSegs_moves {p : Pcb} {segs : List (Span Region)} {writes : List Bool}
    (h : Takes writes segs) :
    size (sendSegs p segs writes).1.queue = size p.queue + min (size segs) p.sndbuf := by
  induction segs generalizing p writes with
  | nil => simp [sendSegs]
  | cons x rest ih =>
    obtain ⟨long, all⟩ := h
    rw [sendSegs, size_cons]
    by_cases hx : x.len = 0
    · rw [if_pos hx, ih ⟨(Nat.le_succ _).trans long, all⟩, hx, Nat.zero_add]
    · obtain ⟨w, writes, rfl⟩ := List.exists_cons_of_length_pos (Nat.zero_lt_of_lt long)
      obtain rfl := all w List.mem_cons_self
      have hwrite : size (p.write (x.take (min x.len p.sndbuf))).queue =
          size p.queue + min x.len p.sndbuf := by
        simp [Pcb.write, Span.take]
      rw [if_neg hx]
      split_ifs with hfull hfits
      · rw [hfull, Nat.min_zero, Nat.add_zero]
      · -- the segment fits, and the room is less by it
        have hroom : (p.write (x.take (min x.len p.sndbuf))).sndbuf = p.sndbuf - x.len := by
          rw [Pcb.sndbuf, hwrite, Pcb.sndbuf]
          rw [Pcb.sndbuf] at hfits
          omega
        rw [ih ⟨Nat.le_of_succ_le_succ long, fun w hw => all w (List.mem_cons_of_mem _ hw)⟩, hroom,
          hwrite]
        omega
      · rw [hwrite]
        omega

theorem sendSegs_dry_cons (p : Pcb) {x : Span Region} (hx : x.len ≠ 0)
    (rest : List (Span Region)) : sendSegs p (x :: rest) [] = (p, x :: rest) := by
  rw [sendSegs, if_neg hx]
  split_ifs <;> rfl

/-- `conn_send_more` frees the connection when there is nothing left to send or to wait for. -/
theorem connSendMore_conns {p : Pcb} (hp : (s.conns i).pcb = some p) (writes : List Bool)
    (closeOk : Bool) :
    (s.connSendMore i writes closeOk).conns = Function.update s.conns i
      (if size (s.conns i).segs = 0 ∧ size p.queue = 0 then {}
      else { s.conns i with
        pcb := some (sendSegs p (s.conns i).segs writes).1
        segs := (sendSegs p (s.conns i).segs writes).2 }) := by
  by_cases hempty : size (s.conns i).segs = 0 ∧ size p.queue = 0
  · have hidle : ¬(([] : List (Span Region)) ≠ [] ∨ p.sndbuf < tcpSndBuf) := by
      simp [Pcb.sndbuf, hempty.2]
    unfold Portal.connSendMore
    simp only [hp, sendSegs_empty hempty.1, if_pos hempty, if_neg hidle]
    split_ifs
    all_goals exact connFree_conns.trans (Function.update_idem _ _ _)
  · have hbusy : (sendSegs p (s.conns i).segs writes).2 ≠ [] ∨
        (sendSegs p (s.conns i).segs writes).1.sndbuf < tcpSndBuf := by
      by_contra hdone
      obtain ⟨hsegs, hidle⟩ := not_or.mp hdone
      exact hempty (sendSegs_idle (not_not.mp hsegs) hidle)
    unfold Portal.connSendMore
    simp only [hp, if_neg hempty, if_pos hbusy]
    rfl

/-- What it hands over is at the end of the queue. -/
theorem connSendMore_moves {p : Pcb} (hp : (s.conns i).pcb = some p) {writes : List Bool}
    (h : Takes writes (s.conns i).segs) (closeOk : Bool) :
    size (((s.connSendMore i writes closeOk).conns i).queue.drop
        ((s.connSendMore i [] closeOk).conns i).queue.length) =
      min (size (s.conns i).segs) p.sndbuf := by
  rw [connSendMore_conns hp, connSendMore_conns hp, Function.update_self, Function.update_self]
  split_ifs with hempty
  · rw [hempty.1, Nat.zero_min]
    rfl
  · simp only [Conn.queue, Option.elim_some, sendSegs_dry]
    have hmoves := sendSegs_moves (p := p) h
    obtain ⟨sent, hsent, -⟩ := sendSegs_spec p (s.conns i).segs writes
    rw [hsent] at hmoves ⊢
    rw [size_append] at hmoves
    rw [List.drop_left]
    omega

/-- Another connection is left as it is. -/
theorem connSendMore_of_ne {j : Fin httpConns} (hj : j ≠ i) (writes : List Bool) (closeOk : Bool) :
    (s.connSendMore i writes closeOk).conns j = s.conns j := by
  cases hp : (s.conns i).pcb with
  | none =>
    unfold Portal.connSendMore
    simp only [hp]
  | some p => rw [connSendMore_conns hp, Function.update_of_ne hj]

/-- A response is set up in connection `i` and nothing else changed about the connections, before
its sending begins. -/
def SetsUp (s : Portal) (i : Fin httpConns) (run : List Bool → Bool → Portal) : Prop :=
  ∃ (t : Portal) (c : Conn), t.Sized ∧ c.Answers i ∧ t.conns = Function.update s.conns i c ∧
    c.pcb.isSome = (s.conns i).pcb.isSome ∧
    ∀ writes closeOk, run writes closeOk = t.connSendMore i writes closeOk

/-- Before its response a connection has queued nothing. -/
def Fresh (s : Portal) (i : Fin httpConns) : Prop :=
  (s.conns i).responded = false ∧ ∀ p ∈ (s.conns i).pcb, p = {}

theorem Fresh.idle (h : s.Fresh i) : ∀ p ∈ (s.conns i).pcb, p.queue = [] ∧ p.delivered = 0 := by
  intro p hp
  obtain rfl := h.2 p hp
  exact ⟨rfl, rfl⟩

/-- `conn_respond` sets a response up and goes on to send it. -/
theorem connRespond_setsUp {status ctype extra : String} {ls : List CStr} {body : Body}
    (hs : s.Sized) (hfresh : s.Fresh i) (hkind : HeaderKind status ctype extra ls)
    (hlen : body.length s.page < 2 ^ 32)
    (hroom : 133 + (ascii status).length + (ascii ctype).length + (ascii extra).length +
      body.copied.length ≤ respMax) (ans : Answers) :
    s.SetsUp i fun writes closeOk =>
      s.connRespond i { ans with writes := writes, closeOk := closeOk } status ctype extra body := by
  have hheader := length_respondHeader status ctype extra hlen
  have hannounces := announces_respondHeader hkind hlen
  generalize hh : respondHeader status ctype extra (body.length s.page) = h at hheader hannounces
  have hset (c : Conn) : (s.setConn i c).Sized := ⟨hs.page, hs.pcap⟩
  cases body with
  | none =>
    have hsize : size [⟨Region.resp i, 0, h.length⟩] = h.length + 0 := by simp
    refine ⟨_, { s.conns i with
        resp := h, segs := [⟨.resp i, 0, h.length⟩], responded := true }, hset _,
      ⟨rfl, ⟨hheader.trans (Nat.le_of_add_right_le hroom), ⟨[], rfl⟩, h, 0, hannounces,
        List.prefix_rfl, hsize⟩, hfresh.idle⟩, rfl, rfl, fun _ _ => ?_⟩
    simp only [connRespond, ← hh, Body.length]
  | page =>
    have hsize : size [⟨Region.resp i, 0, h.length⟩, ⟨.page, 0, s.page.length⟩] =
        h.length + s.page.length := by simp
    refine ⟨_, { s.conns i with
        resp := h, segs := [⟨.resp i, 0, h.length⟩, ⟨.page, 0, s.page.length⟩],
        responded := true }, hset _,
      ⟨rfl, ⟨hheader.trans (Nat.le_of_add_right_le hroom), ⟨_, rfl⟩, h, _, hannounces,
        List.prefix_rfl, hsize⟩, hfresh.idle⟩, rfl, rfl, fun _ _ => ?_⟩
    simp only [connRespond, ← hh, Body.length]
  | generated b =>
    have hfits : h.length + b.length ≤ respMax := by
      simp only [Body.copied] at hroom
      omega
    have hwhole : b.take (respMax - h.length) = b := List.take_of_length_le (by omega)
    have hsize : size [⟨Region.resp i, 0, (h ++ b).length⟩] = h.length + b.length := by simp
    refine ⟨_, { s.conns i with
        resp := h ++ b, segs := [⟨.resp i, 0, (h ++ b).length⟩], responded := true }, hset _,
      ⟨rfl, ⟨by rwa [List.length_append], ⟨[], rfl⟩, h, _, hannounces, List.prefix_append _ _,
        hsize⟩, hfresh.idle⟩, rfl, rfl, fun _ _ => ?_⟩
    have hh' : respondHeader status ctype extra b.length = h := hh
    simp only [connRespond, hh', hwhole]

/-- So does the part of `handle_request` for a download. -/
theorem sendPcap_setsUp (hs : s.Sized) (hfresh : s.Fresh i) (ans : Answers) :
    s.SetsUp i fun writes closeOk =>
      s.sendPcap i { ans with writes := writes, closeOk := closeOk } := by
  have hbody : pcapGlobalHdrLen + size (ringSegs s.pcap) < 2 ^ 32 := by
    have hring := hs.length_ringSegs
    simp only [pcapGlobalHdrLen, ringSize] at hring ⊢
    omega
  have hheader := length_respondHeader "200 OK" "application/vnd.tcpdump.pcap" pcapExtra hbody
  have hannounces := announces_respondHeader headerKind_pcap hbody
  rw [← pcapHeader_eq] at hheader hannounces
  have htexts : (ascii "200 OK").length + (ascii "application/vnd.tcpdump.pcap").length +
      (ascii pcapExtra).length = 93 := by decide +kernel
  have hglobal : Pcap.globalHeader.length = pcapGlobalHdrLen := by
    simp [Pcap.globalHeader, le32, pcapGlobalHdrLen]
  generalize hresp : pcapHeader (pcapGlobalHdrLen + size (ringSegs s.pcap)) = h
    at hheader hannounces
  have hlen : (h ++ Pcap.globalHeader).length = h.length + pcapGlobalHdrLen := by
    rw [List.length_append, hglobal]
  have hmax : pcapGlobalHdrLen = 24 ∧ respMax = 4096 := ⟨rfl, rfl⟩
  have hframed : Framed i (h ++ Pcap.globalHeader)
      (⟨.resp i, 0, (h ++ Pcap.globalHeader).length⟩ :: ringSegs s.pcap) := by
    refine ⟨by omega, ⟨_, rfl⟩, h, _, hannounces, List.prefix_append _ _, ?_⟩
    rw [size_cons, hlen, Nat.add_assoc]
  refine ⟨({ s with pcap := s.pcap.freeze } : Portal).setConn i { s.conns i with
      pcb := (s.conns i).pcb.map fun p => { p with frozen := some s.recordStream }
      pcapHold := true
      resp := h ++ Pcap.globalHeader
      segs := ⟨.resp i, 0, (h ++ Pcap.globalHeader).length⟩ :: ringSegs s.pcap
      responded := true }, _, ⟨hs.page, hs.pcap.head, hs.pcap.high⟩, ⟨rfl, hframed, ?_⟩, rfl,
    Option.isSome_map, fun _ _ => ?_⟩
  · intro p hp
    obtain ⟨q, hq, rfl⟩ := Option.map_eq_some_iff.mp hp
    exact hfresh.idle q hq
  · simp only [sendPcap, hresp]

theorem headerKind_preflight : HeaderKind "204 No Content" "text/plain" preflightHeaders
    [ascii "Access-Control-Allow-Methods: GET, POST, OPTIONS",
      ascii "Access-Control-Allow-Headers: Content-Type",
      ascii "Access-Control-Allow-Private-Network: true", ascii "Access-Control-Max-Age: 86400"] where
  status := by decide
  ctype := by decide
  lines := by decide +kernel
  extra := by decide +kernel

theorem headerKind_page : HeaderKind "200 OK" "text/html; charset=utf-8"
    "Content-Encoding: gzip\r\n" [ascii "Content-Encoding: gzip"] where
  status := by decide
  ctype := by decide
  lines := by decide
  extra := rfl

theorem length_preflight : 133 + (ascii "204 No Content").length + (ascii "text/plain").length +
    (ascii preflightHeaders).length + Body.none.copied.length ≤ respMax := by
  decide +kernel

theorem length_page : 133 + (ascii "200 OK").length + (ascii "text/html; charset=utf-8").length +
    (ascii "Content-Encoding: gzip\r\n").length + Body.page.copied.length ≤ respMax := by decide

/-- A body that was produced in its buffer fits behind the headers it gets. -/
theorem connRespond_generated {status ctype : String} {b : Bytes} (hs : s.Sized)
    (hfresh : s.Fresh i) (hstatus : 13 ∉ ascii status ∧ 10 ∉ ascii status)
    (hctype : 13 ∉ ascii ctype ∧ 10 ∉ ascii ctype)
    (hroom : (ascii status).length + (ascii ctype).length ≤ 123) (hb : b.length < bodyMax)
    (ans : Answers) :
    s.SetsUp i fun writes closeOk =>
      s.connRespond i { ans with writes := writes, closeOk := closeOk } status ctype ""
        (.generated b) := by
  have hmax : bodyMax = 3840 ∧ respMax = 4096 ∧ (ascii "").length = 0 := ⟨rfl, rfl, rfl⟩
  refine connRespond_setsUp hs hfresh (.plain hstatus hctype) ?_ ?_ ans
  all_goals
    simp only [Body.length, Body.copied]
    omega

/-- The request is not complete, or a response to it is set up and its sending begins. -/
theorem handleRequest_setsUp {ans : Answers} (hs : s.Sized) (hans : ans.InBuffer)
    (hfresh : s.Fresh i) :
    (parseRequest (s.conns i).req = .incomplete ∧ ∀ writes closeOk,
        s.handleRequest i { ans with writes := writes, closeOk := closeOk } = s) ∨
      s.SetsUp i fun writes closeOk =>
        s.handleRequest i { ans with writes := writes, closeOk := closeOk } := by
  cases hreq : parseRequest (s.conns i).req <;> simp only [handleRequest, hreq]
  case incomplete => exact .inl ⟨trivial, fun _ _ => trivial⟩
  case preflight =>
    exact .inr (connRespond_setsUp hs hfresh headerKind_preflight (by exact Nat.two_pow_pos 32)
      length_preflight ans)
  case page =>
    exact .inr (connRespond_setsUp hs hfresh headerKind_page (by exact hs.page) length_page ans)
  case pcap => exact .inr (sendPcap_setsUp hs hfresh ans)
  case badRequest | tooLarge | notFound =>
    exact .inr (connRespond_generated hs hfresh (by decide) (by decide) (by decide) (by decide) ans)
  case status =>
    exact .inr (connRespond_generated hs hfresh (by decide) (by decide) (by decide) hans.status ans)
  case scan post =>
    right
    cases post with
    | false =>
      exact connRespond_generated hs hfresh (by decide) (by decide) (by decide) hans.scan ans
    | true =>
      exact connRespond_generated (s := { s with upcalls := s.upcalls ++ [.wifiConnRequestScan] })
        ⟨hs.page, hs.pcap⟩ hfresh (by decide) (by decide) (by decide) hans.scan ans
  case command line =>
    have hlen : (ans.output.take (bodyMax - 1)).length < bodyMax :=
      (List.length_take_le _ _).trans_lt (by decide)
    exact .inr (connRespond_generated (s := { s with
      upcalls := s.upcalls ++ [.configProtoHandleLine line]
      pcap := ans.calls.foldl consoleCall s.pcap }) ⟨hs.page, hs.pcap.consoleCalls ans.calls⟩ hfresh
      (by decide) (by decide) (by decide) hlen ans)

/-! ### Callbacks -/

theorem SetsUp.sized {run : List Bool → Bool → Portal} (h : s.SetsUp i run) (writes : List Bool)
    (closeOk : Bool) : (run writes closeOk).Sized := by
  obtain ⟨t, c, ht, -, -, -, hrun⟩ := h
  rw [hrun]
  exact ht.connSendMore i writes closeOk

theorem handleRequest_sized {ans : Answers} (hs : s.Sized) (hans : ans.InBuffer)
    (hfresh : s.Fresh i) : (s.handleRequest i ans).Sized := by
  rcases handleRequest_setsUp hs hans hfresh with ⟨-, hsame⟩ | hset
  · exact (hsame ans.writes ans.closeOk).symm ▸ hs
  · exact hset.sized ans.writes ans.closeOk

end Portal

/-- The same event, in which `tcp_write` takes nothing. -/
def PortalEvent.dry : PortalEvent → PortalEvent
  | .recv i ans data => .recv i { ans with writes := [] } data
  | .sent i ans n => .sent i { ans with writes := [] } n
  | .poll i ans => .poll i { ans with writes := [] }
  | e => e

/-- The connection whose callback an event is. -/
def PortalEvent.conn : PortalEvent → Option (Fin httpConns)
  | .recv i _ _ => some i
  | .deliver i _ => some i
  | .sent i _ _ => some i
  | .poll i _ => some i
  | .err i => some i
  | _ => none

/-- A portal with a record of each connection's response: all of it, as it was set up, what of it
was handed to `tcp_write`, and how many bytes of that were acknowledged. -/
structure HttpRun where
  portal : Portal
  answer : Fin httpConns → List (Span Region) := fun _ => []
  written : Fin httpConns → List (Span Region) := fun _ => []
  acked : Fin httpConns → Nat := fun _ => 0

/-- The bytes of connection `i` an event acknowledges. -/
def Portal.ackedBy (s : Portal) (i : Fin httpConns) : PortalEvent → Nat
  | .sent j _ n => if j = i then (s.conns i).pcb.elim 0 fun p => p.acked n else 0
  | _ => 0

namespace HttpRun

/-- The event begins a response in connection `i`. -/
def begins (r : HttpRun) (i : Fin httpConns) (e : PortalEvent) : Bool :=
  !(r.portal.conns i).responded && ((r.portal.step e.dry).conns i).responded

/-- An event. What it sets up is there when `tcp_write` takes nothing, and what `tcp_write` takes is
at the end of the queue. -/
def step (r : HttpRun) (e : PortalEvent) : HttpRun where
  portal := r.portal.step e
  answer i := if r.begins i e then ((r.portal.step e.dry).conns i).segs else r.answer i
  written i := (if r.begins i e then [] else r.written i) ++
    ((r.portal.step e).conns i).queue.drop ((r.portal.step e.dry).conns i).queue.length
  acked i := if r.begins i e then 0 else r.acked i + r.portal.ackedBy i e

end HttpRun

/-! ### Other connections -/

namespace Portal

variable {s : Portal} {i j : Fin httpConns}

theorem connRespond_of_ne (hj : j ≠ i) (ans : Answers) (status ctype extra : String)
    (body : Body) : (s.connRespond i ans status ctype extra body).conns j = s.conns j := by
  unfold Portal.connRespond
  cases body <;> exact (connSendMore_of_ne hj _ _).trans (setConn_of_ne hj)

theorem handleRequest_of_ne (hj : j ≠ i) (ans : Answers) :
    (s.handleRequest i ans).conns j = s.conns j := by
  unfold Portal.handleRequest
  cases parseRequest (s.conns i).req with
  | incomplete => rfl
  | pcap => exact (connSendMore_of_ne hj _ _).trans (setConn_of_ne hj)
  | scan post => cases post <;> exact connRespond_of_ne hj ..
  | preflight | badRequest | page | status | tooLarge | command | notFound =>
    exact connRespond_of_ne hj ..

end Portal

/-! ### What a connection keeps -/

variable {i : Fin httpConns} {c : Conn} {answer written : List (Span Region)} {acked : Nat}

theorem Conn.carries_empty : ({} : Conn).Carries i answer written acked :=
  ⟨fun _ => ⟨rfl, nofun⟩, nofun, nofun⟩

/-- Neither the request text nor the idle count matters. -/
theorem Conn.Carries.touch (h : c.Carries i answer written acked) (req : Bytes) (idle : Nat) :
    Conn.Carries i answer written acked { c with req := req, idle := idle } :=
  ⟨h.fresh, h.framed, h.sending⟩

/-- The transport may do to the queue what keeps the response together. -/
theorem Conn.Carries.carry (h : c.Carries i answer written acked) {f : Pcb → Pcb} {n : Nat}
    (hfresh : f {} = {})
    (hf : ∀ p ∈ c.pcb, Sending answer written acked p c.segs →
      Sending answer written (acked + n) (f p) c.segs) :
    Conn.Carries i answer written (acked + n) { c with pcb := c.pcb.map f } where
  fresh hr := by
    obtain ⟨hsegs, hnew⟩ := h.fresh hr
    refine ⟨hsegs, fun p' hp' => ?_⟩
    obtain ⟨p, hp, rfl⟩ := Option.map_eq_some_iff.mp hp'
    rw [hnew p hp, hfresh]
  framed := h.framed
  sending hr p' hp' := by
    obtain ⟨p, hp, rfl⟩ := Option.map_eq_some_iff.mp hp'
    exact hf p hp (h.sending hr p hp)

/-- A response that was just set up. -/
theorem Conn.Answers.carries (h : c.Answers i) : c.Carries i c.segs [] 0 where
  fresh hr := absurd (hr.symm.trans h.responded) (by decide)
  framed _ := h.framed
  sending _ p hp := by
    obtain ⟨hqueue, hdelivered⟩ := h.idle p hp
    refine ⟨?_, fun m => rfl, Nat.zero_le _, fun m => ?_⟩
    · rw [hdelivered]
      exact Nat.zero_le _
    · rw [hqueue]
      rfl

/-- The headers of a response are not empty. -/
theorem Framed.length_pos {resp : Bytes} (h : Framed i resp answer) : 0 < resp.length := by
  obtain ⟨head, n, hannounces, hprefix, -⟩ := h.announced
  have hhead : head ≠ [] := by
    rintro rfl
    exact absurd (hannounces.blank []) (by decide)
  exact (List.length_pos_iff.mpr hhead).trans_le hprefix.length_le

/-- From `c` an event leads to `c'` and acknowledges `n` bytes. It would lead to `d` if `tcp_write`
took nothing. -/
def Conn.Follows (i : Fin httpConns) (c c' d : Conn) (n : Nat) : Prop :=
  ∀ answer written acked, c.Carries i answer written acked →
    c'.Carries i (if !c.responded && d.responded then d.segs else answer)
      ((if !c.responded && d.responded then [] else written) ++ c'.queue.drop d.queue.length)
      (if !c.responded && d.responded then 0 else acked + n)

theorem Conn.follows_empty (c d : Conn) (n : Nat) : Conn.Follows i c {} d n :=
  fun _ _ _ _ => Conn.carries_empty

theorem Conn.follows_same {c' : Conn} {n : Nat} (hr : c'.responded = c.responded)
    (h : ∀ answer written acked, c.Carries i answer written acked →
      c'.Carries i answer written (acked + n)) : Conn.Follows i c c' c' n := by
  intro answer written acked hc
  rw [hr, Bool.not_and_self, List.drop_length, if_neg Bool.false_ne_true,
    if_neg Bool.false_ne_true, if_neg Bool.false_ne_true, List.append_nil]
  exact h answer written acked hc

namespace Portal

variable {s : Portal}

/-- `conn_send_more` hands over what comes next, and what it hands over is what the queue has more
than if `tcp_write` took nothing. -/
theorem connSendMore_carries (hr : (s.conns i).responded = true)
    (h : (s.conns i).Carries i answer written acked) (writes : List Bool) (closeOk : Bool) :
    ((s.connSendMore i writes closeOk).conns i).Carries i answer
      (written ++ ((s.connSendMore i writes closeOk).conns i).queue.drop
        ((s.connSendMore i [] closeOk).conns i).queue.length) acked := by
  cases hp : (s.conns i).pcb with
  | none =>
    have hsame (writes : List Bool) : s.connSendMore i writes closeOk = s := by
      unfold Portal.connSendMore
      simp only [hp]
    rw [hsame, hsame, List.drop_length, List.append_nil]
    exact h
  | some p =>
    rw [connSendMore_conns hp, connSendMore_conns hp, Function.update_self, Function.update_self]
    split_ifs
    · exact Conn.carries_empty
    · have hsend := (h.sending hr p hp).send writes
      simp only [Conn.queue, Option.elim_some, sendSegs_dry]
      refine ⟨fun hfresh => absurd (hfresh.symm.trans hr) (by decide), h.framed, ?_⟩
      rintro _ - ⟨⟩
      exact hsend

/-- A response that was just set up is not over. -/
theorem connSendMore_answers (h : (s.conns i).Answers i) (writes : List Bool) (closeOk : Bool) :
    ((s.connSendMore i writes closeOk).conns i).responded = true ∧
      ((s.connSendMore i [] closeOk).conns i).segs = (s.conns i).segs := by
  have hlen := h.framed.length_pos
  obtain ⟨rest, hsegs⟩ := h.framed.start
  cases hp : (s.conns i).pcb with
  | none =>
    have hsame (writes : List Bool) : s.connSendMore i writes closeOk = s := by
      unfold Portal.connSendMore
      simp only [hp]
    rw [hsame, hsame]
    exact ⟨h.responded, rfl⟩
  | some p =>
    have hmore : ¬(size (s.conns i).segs = 0 ∧ size p.queue = 0) := by
      rw [hsegs, size_cons]
      dsimp only
      omega
    rw [connSendMore_conns hp, connSendMore_conns hp, Function.update_self, Function.update_self,
      if_neg hmore, if_neg hmore]
    refine ⟨h.responded, ?_⟩
    rw [hsegs]
    dsimp only
    rw [sendSegs_dry_cons p (by dsimp only; omega)]

theorem SetsUp.responded {run : List Bool → Bool → Portal} (h : s.SetsUp i run)
    (writes : List Bool) (closeOk : Bool) :
    ((run writes closeOk).conns i).responded = true := by
  obtain ⟨t, c, -, hc, hconns, -, hrun⟩ := h
  obtain rfl : t.conns i = c := by rw [hconns, Function.update_self]
  rw [hrun]
  exact (connSendMore_answers hc writes closeOk).1

/-- A response that is set up is kept from there on. -/
theorem SetsUp.follows {run : List Bool → Bool → Portal} (h : s.SetsUp i run)
    (hr : (s.conns i).responded = false) (writes : List Bool) (closeOk : Bool) :
    Conn.Follows i (s.conns i) ((run writes closeOk).conns i) ((run [] closeOk).conns i) 0 := by
  obtain ⟨t, c, -, hc, hconns, -, hrun⟩ := h
  obtain rfl : t.conns i = c := by rw [hconns, Function.update_self]
  have hdry := connSendMore_answers hc [] closeOk
  intro answer written acked _
  rw [hrun, hrun, hr, hdry.1, hdry.2]
  exact connSendMore_carries hc.responded hc.carries writes closeOk

/-- Where the response goes on from `c`, `conn_send_more` keeps it. -/
theorem follows_send {c₁ : Conn} {n : Nat} (hr : (s.conns i).responded = true)
    (hc₁ : c₁.responded = true)
    (h : ∀ answer written acked, (s.conns i).Carries i answer written acked →
      c₁.Carries i answer written (acked + n)) (writes : List Bool) (closeOk : Bool) :
    Conn.Follows i (s.conns i) (((s.setConn i c₁).connSendMore i writes closeOk).conns i)
      (((s.setConn i c₁).connSendMore i [] closeOk).conns i) n := by
  intro answer written acked hc
  rw [hr, Bool.not_true, Bool.false_and, if_neg Bool.false_ne_true, if_neg Bool.false_ne_true,
    if_neg Bool.false_ne_true]
  refine connSendMore_carries (by rwa [setConn_self]) ?_ writes closeOk
  rw [setConn_self]
  exact h _ _ _ hc

theorem handleRequest_follows {ans : Answers} (hs : s.Sized) (hans : ans.InBuffer)
    (hr : (s.conns i).responded = false) :
    Conn.Follows i (s.conns i) ((s.handleRequest i ans).conns i)
      ((s.handleRequest i { ans with writes := [] }).conns i) 0 := by
  intro answer written acked hc
  rcases handleRequest_setsUp hs hans ⟨hr, (hc.fresh hr).2⟩ with ⟨-, hsame⟩ | hset
  · have hdone : s.handleRequest i ans = s := hsame ans.writes ans.closeOk
    have hdry : s.handleRequest i { ans with writes := [] } = s := hsame [] ans.closeOk
    rw [hdone, hdry]
    exact Conn.follows_same (n := 0) rfl (fun _ _ _ h => h) answer written acked hc
  · exact hset.follows hr ans.writes ans.closeOk answer written acked hc

theorem httpRecv_follows {ans : Answers} (hs : s.Sized) (hans : ans.InBuffer)
    (data : Option Bytes) :
    Conn.Follows i (s.conns i) ((s.httpRecv i ans data).conns i)
      ((s.httpRecv i { ans with writes := [] } data).conns i) 0 := by
  cases data with
  | none =>
    unfold Portal.httpRecv
    cases hp : (s.conns i).pcb with
    | none => exact Conn.follows_same rfl fun _ _ _ h => h
    | some p =>
      have hfree : (((s.connFree i).tcpClose p).conns i) = {} := by
        rw [Portal.tcpClose, connFree_conns, Function.update_self]
      simp only [hfree]
      exact Conn.follows_empty _ _ _
  | some data =>
    unfold Portal.httpRecv
    dsimp only
    split_ifs with hr hfull
    · rw [setConn_self]
      exact Conn.follows_same rfl fun _ _ _ h => h.touch _ _
    · rw [connFree_conns, Function.update_self]
      exact Conn.follows_empty _ _ _
    · have hr' : (s.conns i).responded = false := Bool.eq_false_iff.mpr hr
      have hfollows := handleRequest_follows (s := s.setConn i { s.conns i with
          req := (s.conns i).req ++ data.take (reqMax - 1 - (s.conns i).req.length)
          idle := 0 }) (i := i) ⟨hs.page, hs.pcap⟩ hans (by rwa [setConn_self])
      rw [setConn_self] at hfollows
      exact fun answer written acked hc => hfollows answer written acked (hc.touch _ _)

theorem httpSent_follows (ans : Answers) (n : Nat) :
    Conn.Follows i (s.conns i) ((s.httpSent i ans n).conns i)
      ((s.httpSent i { ans with writes := [] } n).conns i)
      ((s.conns i).pcb.elim 0 fun p => p.acked n) := by
  have hack {answer written : List (Span Region)} {acked : Nat}
      (h : (s.conns i).Carries i answer written acked) :
      Conn.Carries i answer written (acked + (s.conns i).pcb.elim 0 fun p => p.acked n)
        { s.conns i with pcb := (s.conns i).pcb.map (Pcb.ack n) } := by
    refine h.carry (by simp [Pcb.ack, drop]) fun p hp hsending => ?_
    rw [Option.mem_def] at hp
    rw [hp]
    exact hsending.ack n
  unfold Portal.httpSent
  dsimp only
  split_ifs with hr
  · refine follows_send hr ?_ ?_ _ _
    · exact hr
    · exact fun _ _ _ h => (hack h).touch _ _
  · rw [setConn_self]
    exact Conn.follows_same rfl fun _ _ _ h => hack h

theorem httpPoll_follows (ans : Answers) :
    Conn.Follows i (s.conns i) ((s.httpPoll i ans).conns i)
      ((s.httpPoll i { ans with writes := [] }).conns i) 0 := by
  unfold Portal.httpPoll
  dsimp only
  split_ifs with hidle hr
  · rw [connFree_conns, Function.update_self]
    exact Conn.follows_empty _ _ _
  · refine follows_send (n := 0) hr ?_ ?_ _ _
    · exact hr
    · exact fun _ _ _ h => h.touch _ _
  · rw [setConn_self]
    exact Conn.follows_same rfl fun _ _ _ h => h.touch _ _

theorem httpAccept_follows (onUsb : Bool) :
    Conn.Follows i (s.conns i) ((s.httpAccept onUsb).conns i) ((s.httpAccept onUsb).conns i) 0 := by
  have hsame : Conn.Follows i (s.conns i) (s.conns i) (s.conns i) 0 :=
    Conn.follows_same rfl fun _ _ _ h => h
  unfold Portal.httpAccept
  split_ifs
  · split
    · exact hsame
    · next j hj =>
      by_cases hij : i = j
      · subst hij
        rw [setConn_self]
        intro answer written acked _
        refine ⟨fun _ => ⟨rfl, ?_⟩, nofun, nofun⟩
        rintro _ ⟨⟩
        rfl
      · rw [setConn_of_ne hij]
        exact hsame
  · exact hsame

/-- An event of another connection. -/
theorem step_of_ne {e : PortalEvent} {j : Fin httpConns} (hj : e.conn = some j) (hij : i ≠ j) :
    (s.step e).conns i = s.conns i ∧ s.ackedBy i e = 0 := by
  have hsend {s' : Portal} (h : s'.conns i = s.conns i) (writes : List Bool) (closeOk : Bool) :
      (s'.connSendMore j writes closeOk).conns i = s.conns i :=
    (connSendMore_of_ne hij _ _).trans h
  have hset (c : Conn) : (s.setConn j c).conns i = s.conns i := setConn_of_ne hij
  have hfree {s' : Portal} (h : s'.conns i = s.conns i) : (s'.connFree j).conns i = s.conns i := by
    rw [connFree_conns, Function.update_of_ne hij, h]
  cases e with
  | recv k ans data =>
    obtain rfl : k = j := Option.some.inj hj
    refine ⟨?_, rfl⟩
    cases data with
    | none =>
      simp only [Portal.step, Portal.httpRecv]
      split_ifs
      · split
        · rfl
        · exact hfree rfl
      · rfl
    | some data =>
      simp only [Portal.step, Portal.httpRecv]
      split_ifs
      · exact hset _
      · exact hfree (hset _)
      · exact (handleRequest_of_ne hij _).trans (hset _)
      · rfl
  | deliver k n =>
    obtain rfl : k = j := Option.some.inj hj
    exact ⟨hset _, rfl⟩
  | sent k ans n =>
    obtain rfl : k = j := Option.some.inj hj
    refine ⟨?_, if_neg hij.symm⟩
    simp only [Portal.step, Portal.httpSent]
    split_ifs
    · exact hsend (hset _) _ _
    · exact hset _
    · rfl
  | poll k ans =>
    obtain rfl : k = j := Option.some.inj hj
    refine ⟨?_, rfl⟩
    simp only [Portal.step, Portal.httpPoll]
    split_ifs
    · exact hfree (hset _)
    · exact hsend (hset _) _ _
    · exact hset _
    · rfl
  | err k =>
    obtain rfl : k = j := Option.some.inj hj
    refine ⟨?_, rfl⟩
    simp only [Portal.step, Portal.httpErr]
    split_ifs
    · exact hfree rfl
    · rfl
  | accept | closingDeliver | closingAck | closingGone | capture | console => cases hj

/-- Every event, for every connection. -/
theorem step_follows (hs : s.Sized) {e : PortalEvent}
    (hans : ∀ j ans data, e = .recv j ans data → ans.InBuffer) (i : Fin httpConns) :
    Conn.Follows i (s.conns i) ((s.step e).conns i) ((s.step e.dry).conns i) (s.ackedBy i e) := by
  have hsame : Conn.Follows i (s.conns i) (s.conns i) (s.conns i) 0 :=
    Conn.follows_same rfl fun _ _ _ h => h
  by_cases hother : ∃ j, e.conn = some j ∧ i ≠ j
  · obtain ⟨j, hj, hij⟩ := hother
    have hdry : e.dry.conn = some j := by cases e <;> exact hj
    obtain ⟨hstep, hacked⟩ := step_of_ne (s := s) hj hij
    rw [hstep, hacked, (step_of_ne hdry hij).1]
    exact hsame
  · have hown {j : Fin httpConns} (hj : e.conn = some j) : i = j := by
      by_contra hij
      exact hother ⟨j, hj, hij⟩
    cases e with
    | accept onUsb => exact httpAccept_follows onUsb
    | recv j ans data =>
      obtain rfl := hown rfl
      simp only [Portal.step, PortalEvent.dry]
      split_ifs
      · exact httpRecv_follows hs (hans i ans data rfl) data
      · exact hsame
    | deliver j n =>
      obtain rfl := hown rfl
      simp only [Portal.step, PortalEvent.dry, setConn_self]
      refine Conn.follows_same rfl fun _ _ _ h => ?_
      exact h.carry (n := 0) (by simp [Pcb.deliver]) fun _ _ hsending => hsending.deliver _ _
    | sent j ans n =>
      obtain rfl := hown rfl
      simp only [Portal.step, PortalEvent.dry, Portal.ackedBy]
      split_ifs with huse
      · exact httpSent_follows ans n
      · rw [Option.not_isSome_iff_eq_none.mp huse]
        exact hsame
    | poll j ans =>
      obtain rfl := hown rfl
      simp only [Portal.step, PortalEvent.dry]
      split_ifs
      · exact httpPoll_follows ans
      · exact hsame
    | err j =>
      obtain rfl := hown rfl
      simp only [Portal.step, PortalEvent.dry, Portal.httpErr]
      split_ifs
      · rw [connFree_conns, Function.update_self]
        exact Conn.follows_empty _ _ _
      · exact hsame
    | closingDeliver | closingAck | closingGone | capture | console => exact hsame

theorem step_sized (hs : s.Sized) {e : PortalEvent}
    (hans : ∀ j ans data, e = .recv j ans data → ans.InBuffer)
    (hfresh : ∀ j, (s.conns j).responded = false → ∀ p ∈ (s.conns j).pcb, p = {}) :
    (s.step e).Sized := by
  have hset {s' : Portal} (h : s'.Sized) (j : Fin httpConns) (c : Conn) : (s'.setConn j c).Sized :=
    ⟨h.page, h.pcap⟩
  cases e with
  | accept onUsb =>
    simp only [Portal.step, Portal.httpAccept]
    split_ifs
    · split
      · exact hs
      · exact hset hs _ _
    · exact hs
  | recv j ans data =>
    cases data with
    | none =>
      simp only [Portal.step, Portal.httpRecv]
      split_ifs
      · split
        · exact hs
        · exact ⟨(hs.connFree j).page, (hs.connFree j).pcap⟩
      · exact hs
    | some data =>
      simp only [Portal.step, Portal.httpRecv]
      split_ifs with huse hr hfull
      · exact hset hs _ _
      · exact (hset hs _ _).connFree j
      · have hr' : (s.conns j).responded = false := Bool.eq_false_iff.mpr hr
        refine handleRequest_sized (hset hs _ _) (hans j ans (some data) rfl) ?_
        rw [Portal.Fresh, setConn_self]
        exact ⟨hr', hfresh j hr'⟩
      · exact hs
  | deliver j n => exact hset hs _ _
  | sent j ans n =>
    simp only [Portal.step, Portal.httpSent]
    split_ifs
    · exact (hset hs _ _).connSendMore j _ _
    · exact hset hs _ _
    · exact hs
  | poll j ans =>
    simp only [Portal.step, Portal.httpPoll]
    split_ifs
    · exact (hset hs _ _).connFree j
    · exact (hset hs _ _).connSendMore j _ _
    · exact hset hs _ _
    · exact hs
  | err j =>
    simp only [Portal.step, Portal.httpErr]
    split_ifs
    · exact hs.connFree j
    · exact hs
  | closingDeliver | closingAck | closingGone => exact ⟨hs.page, hs.pcap⟩
  | capture us frame len => exact ⟨hs.page, hs.pcap.capture us frame len⟩
  | console call => exact ⟨hs.page, hs.pcap.consoleCalls [call]⟩

/-- The event takes connection `i` away whatever it has still to send: its peer closes, lwIP reports
an error, or it has been idle for too long. -/
def cutOff (s : Portal) (i : Fin httpConns) : PortalEvent → Bool
  | .recv j _ none => i = j
  | .poll j _ => i = j && idlePolls < (s.conns i).idle + 1
  | .err j => i = j
  | _ => false

/-- The callbacks of connection `i` in which `conn_send_more` goes on with a response, with the
answers it gets. -/
def sends (s : Portal) (i : Fin httpConns) : PortalEvent → Option Answers
  | .sent j ans _ => if j = i then some ans else none
  | .poll j ans => if j = i ∧ (s.conns i).idle + 1 ≤ idlePolls then some ans else none
  | _ => none

/-- In such a callback all is handed over that there is room for behind what is not acknowledged. -/
theorem sends_moves {e : PortalEvent} {ans : Answers} (h : s.sends i e = some ans)
    (hr : (s.conns i).responded = true) {p : Pcb} (hp : (s.conns i).pcb = some p)
    (takes : Takes ans.writes (s.conns i).segs) :
    size (((s.step e).conns i).queue.drop ((s.step e.dry).conns i).queue.length) =
      min (size (s.conns i).segs) (tcpSndBuf - (size p.queue - s.ackedBy i e)) := by
  cases e with
  | sent j ans' n =>
    simp only [sends, Option.ite_none_right_eq_some, Option.some.injEq] at h
    obtain ⟨rfl, rfl⟩ := h
    have hmoves := @connSendMore_moves (s.setConn j { s.conns j with
      pcb := (s.conns j).pcb.map (Pcb.ack n), idle := 0 }) j (p.ack n) (by simp [hp]) ans'.writes
      (by simpa using takes) ans'.closeOk
    simp only [Portal.step, PortalEvent.dry, Portal.httpSent, hp, hr, Option.isSome_some, if_true]
    simp only [hp, hr, setConn_self] at hmoves
    refine hmoves.trans ?_
    simp [Portal.ackedBy, hp, Pcb.sndbuf, Pcb.ack, size_drop]
  | poll j ans' =>
    simp only [sends, Option.ite_none_right_eq_some, Option.some.injEq] at h
    obtain ⟨⟨rfl, hidle⟩, rfl⟩ := h
    have hmoves := @connSendMore_moves (s.setConn j { s.conns j with
      idle := (s.conns j).idle + 1 }) j p (by simp [hp]) ans'.writes (by simpa using takes)
      ans'.closeOk
    simp only [Portal.step, PortalEvent.dry, Portal.httpPoll, hp, hr, Option.isSome_some, if_true,
      if_neg (Nat.not_lt.mpr hidle)]
    simp only [hp, hr, setConn_self] at hmoves
    refine hmoves.trans ?_
    simp [Portal.ackedBy, Pcb.sndbuf]
  | _ => cases h

/-- What sets a response up hands over what there is room for in an empty queue. -/
theorem SetsUp.moves {run : List Bool → Bool → Portal} (h : s.SetsUp i run)
    (huse : (s.conns i).pcb.isSome = true) {writes : List Bool} (closeOk : Bool)
    (takes : Takes writes ((run [] closeOk).conns i).segs) :
    size (((run writes closeOk).conns i).queue.drop ((run [] closeOk).conns i).queue.length) =
      min (size ((run [] closeOk).conns i).segs) tcpSndBuf := by
  obtain ⟨t, c, -, hc, hconns, hsome, hrun⟩ := h
  obtain rfl : t.conns i = c := by rw [hconns, Function.update_self]
  obtain ⟨p, hp⟩ := Option.isSome_iff_exists.mp (hsome.trans huse)
  rw [hrun, (connSendMore_answers hc [] closeOk).2] at takes
  rw [hrun, hrun, (connSendMore_answers hc [] closeOk).2, connSendMore_moves hp takes, Pcb.sndbuf,
    (hc.idle p hp).1]
  rfl

/-- So does the event in which a response begins. -/
theorem recv_moves {ans : Answers} {data : Option Bytes} (hs : s.Sized) (hans : ans.InBuffer)
    (hfresh : s.Fresh i)
    (begins : ((s.step (.recv i { ans with writes := [] } data)).conns i).responded = true)
    (takes : Takes ans.writes ((s.step (.recv i { ans with writes := [] } data)).conns i).segs) :
    size (((s.step (.recv i ans data)).conns i).queue.drop
        ((s.step (.recv i { ans with writes := [] } data)).conns i).queue.length) =
      min (size ((s.step (.recv i { ans with writes := [] } data)).conns i).segs) tcpSndBuf := by
  have hidle : ¬ (s.conns i).responded = true := by simp [hfresh.1]
  simp only [Portal.step] at begins takes ⊢
  by_cases huse : (s.conns i).pcb.isSome = true
  case neg => exact absurd (by rwa [if_neg huse] at begins) hidle
  case pos =>
    rw [if_pos huse] at begins takes ⊢
    cases data with
    | none =>
      obtain ⟨p, hp⟩ := Option.isSome_iff_exists.mp huse
      simp only [Portal.httpRecv, hp, tcpClose, connFree_conns, Function.update_self] at begins
      cases begins
    | some data =>
      generalize hc : ({ s.conns i with
        req := (s.conns i).req ++ data.take (reqMax - 1 - (s.conns i).req.length)
        idle := 0 } : Conn) = c
      have hfresh' : (s.setConn i c).Fresh i := by
        rw [Portal.Fresh, setConn_self, ← hc]
        exact hfresh
      have huse' : ((s.setConn i c).conns i).pcb.isSome = true := by
        rw [setConn_self, ← hc]
        exact huse
      have hidle' : ¬ c.responded = true := by rwa [← hc]
      simp only [Portal.httpRecv, hc, if_neg hidle, if_pos huse] at begins takes ⊢
      by_cases hfull : data.take (reqMax - 1 - (s.conns i).req.length) = []
      · rw [if_pos hfull, connFree_conns, Function.update_self] at begins
        cases begins
      · rw [if_neg hfull] at begins takes ⊢
        rw [if_neg hfull]
        rcases @handleRequest_setsUp (s.setConn i c) i ans ⟨hs.page, hs.pcap⟩ hans hfresh' with
          ⟨-, hsame⟩ | hset
        · rw [hsame [] ans.closeOk, setConn_self] at begins
          exact absurd begins hidle'
        · exact hset.moves huse' ans.closeOk takes

theorem connSendMore_ends {p : Pcb} (hp : (s.conns i).pcb = some p) {writes : List Bool}
    {closeOk : Bool} (hend : ((s.connSendMore i writes closeOk).conns i).pcb = none) :
    size (s.conns i).segs = 0 ∧ size p.queue = 0 := by
  by_contra hmore
  rw [connSendMore_conns hp, Function.update_self, if_neg hmore] at hend
  exact absurd hend (by simp)

/-- Any other event that ends the connection acknowledges what was left of the response. -/
theorem ends_acked {e : PortalEvent} (hr : (s.conns i).responded = true) {p : Pcb}
    (hp : (s.conns i).pcb = some p) (h : Sending answer written acked p (s.conns i).segs)
    (hend : ((s.step e).conns i).pcb = none) (hcut : s.cutOff i e = false) :
    acked + s.ackedBy i e = size answer ∧ size (s.conns i).segs = 0 := by
  have hkept {c : Conn} (hc : (s.step e).conns i = c) (hsome : c.pcb.isSome) : False := by
    rw [← hc, hend] at hsome
    exact absurd hsome (by decide)
  have hstill (hsame : (s.step e).conns i = s.conns i) : False := hkept hsame (by rw [hp]; rfl)
  by_cases hother : ∃ j, e.conn = some j ∧ i ≠ j
  · obtain ⟨j, hj, hij⟩ := hother
    exact (hstill (step_of_ne hj hij).1).elim
  · have hown {j : Fin httpConns} (hj : e.conn = some j) : i = j := by
      by_contra hij
      exact hother ⟨j, hj, hij⟩
    cases e with
    | accept onUsb =>
      refine (hstill ?_).elim
      simp only [Portal.step, Portal.httpAccept]
      split_ifs
      · split
        · rfl
        · next j hj =>
          -- a slot in use is not given away
          refine setConn_of_ne fun hij => ?_
          have hfree := List.find?_some hj
          rw [← hij, hp] at hfree
          exact absurd hfree (by simp)
      · rfl
    | recv j ans data =>
      obtain rfl := hown rfl
      cases data with
      | none => simp [cutOff] at hcut
      | some data =>
        refine (hkept (c := { s.conns i with
          req := (s.conns i).req ++ data.take (reqMax - 1 - (s.conns i).req.length)
          idle := 0 }) ?_ (by simp [hp])).elim
        simp only [Portal.step, Portal.httpRecv, hp, hr, Option.isSome_some, if_true, setConn_self]
    | deliver j n =>
      obtain rfl := hown rfl
      exact (hkept setConn_self (by simp [hp])).elim
    | sent j ans n =>
      obtain rfl := hown rfl
      simp only [Portal.step, Portal.httpSent, hp, hr, Option.isSome_some, if_true] at hend
      obtain ⟨hsegs, hqueue⟩ := connSendMore_ends (p := p.ack n) (by simp) hend
      simp only [setConn_self] at hsegs
      have hsize := (h.ack n).size_eq
      simp only [ackedBy, if_true, hp, Option.elim_some]
      exact ⟨by omega, hsegs⟩
    | poll j ans =>
      obtain rfl := hown rfl
      have hidle : ¬idlePolls < (s.conns i).idle + 1 := by simpa [cutOff] using hcut
      simp only [Portal.step, Portal.httpPoll, hp, hr, Option.isSome_some, if_true, if_neg hidle]
        at hend
      obtain ⟨hsegs, hqueue⟩ := connSendMore_ends (p := p) (by simp) hend
      simp only [setConn_self] at hsegs
      have hsize := h.size_eq
      exact ⟨by simp only [ackedBy]; omega, hsegs⟩
    | err j => simp [cutOff, hown rfl] at hcut
    | closingDeliver | closingAck | closingGone | capture | console => exact (hstill rfl).elim

end Portal

/-! ### Runs -/

namespace HttpRun

variable {r : HttpRun}

/-- The bodies of a request are what the firmware has left in their buffer. -/
def Generated (board : Board) (version : CStr) (ans : Answers) : Prop :=
  (∃ (r c : Control) (v : StatusView) (o : Bytes) (s : Out),
    Reach (Control.StartsFrom board Domain) (fun _ _ => True) (Control.step board) r ∧
      c.cfg = r.cfg ∧ o.length = bodyMax ∧
      Control.statusJson board version c v o bodyMax = some s ∧ ans.statusJson = s.body) ∧
    ∃ (c : Control) (o : Bytes) (s : Out), o.length = bodyMax ∧
      c.scanJson o bodyMax = some s ∧ ans.scanJson = s.body

/-- The events of a firmware: the bodies it answers with are generated. -/
def Admits (board : Board) (version : CStr) (_ : HttpRun) (e : PortalEvent) : Prop :=
  ∀ i ans data, e = .recv i ans data → Generated board version ans

/-- The states of all runs from the start of the firmware, whose page is in its flash. -/
def ReachedBy (board : Board) (version : CStr) (r : HttpRun) : Prop :=
  Reach (fun r => ∃ page : Bytes, page.length < 2 ^ 32 ∧ r = { portal := { page := page } })
    (Admits board version) step r

/-- The invariant of the runs. -/
structure Inv (r : HttpRun) : Prop where
  sized : r.portal.Sized
  carries : ∀ i, (r.portal.conns i).Carries i (r.answer i) (r.written i) (r.acked i)

theorem Inv.step (h : r.Inv) {e : PortalEvent}
    (hans : ∀ j ans data, e = .recv j ans data → ans.InBuffer) : (r.step e).Inv where
  sized := Portal.step_sized h.sized hans fun j hr => ((h.carries j).fresh hr).2
  carries i := Portal.step_follows h.sized hans i _ _ _ (h.carries i)

/-- No generator writes outside its buffer, whatever was in that, and what it leaves there ends in
front of the last byte. What a console line prints is cut where the buffer is full. -/
structure BodiesInside (board : Board) (version : CStr) : Prop where
  status : ∀ r, Reach (Control.StartsFrom board Domain) (fun _ _ => True) (Control.step board) r →
    ∀ (c : Control) (v : StatusView) (o : Bytes), c.cfg = r.cfg → o.length = bodyMax →
      ∃ s, Control.statusJson board version c v o bodyMax = some s ∧ s.n < bodyMax
  scan : ∀ (c : Control) (o : Bytes), o.length = bodyMax →
    ∃ s, c.scanJson o bodyMax = some s ∧ s.n < bodyMax
  capture : ∀ (texts : List CStr) (o : Bytes), o.length = bodyMax →
    ∃ c, captureAll ⟨o, 0, bodyMax - 1⟩ texts = some c ∧ c.len < bodyMax ∧
      ((∀ s ∈ texts, s.length < 2 ^ 16) → c.text = texts.flatten.take (bodyMax - 1))

theorem bodies_inside {board : Board} (hkeys : PublicKeys board) {version : CStr}
    (hv : Control.VersionFits version) : BodiesInside board version where
  status r hr c v o hcfg ho := by
    have hdomain : Domain c.cfg := hcfg ▸ Control.reached_domain hr
    obtain ⟨s, hs, hlt, -⟩ := Control.statusJson_body hkeys hv hdomain v ho
    exact ⟨s, hs, hlt⟩
  scan c o ho := by
    obtain ⟨s, -, hs, hlt, -⟩ := scanJson_body c ho
    exact ⟨s, hs, hlt⟩
  capture texts o ho := by
    obtain ⟨c, hc, hlen, htext⟩ := captureAll_text ho texts
    exact ⟨c, hc, hlen.trans_lt (by decide), htext⟩

theorem BodiesInside.inBuffer {board : Board} {version : CStr} (h : BodiesInside board version)
    {ans : Answers} (hans : Generated board version ans) : ans.InBuffer := by
  obtain ⟨⟨r, c, v, o, s, hr, hcfg, ho, hs, hstatus⟩, c', o', s', ho', hs', hscan⟩ := hans
  obtain ⟨t, ht, htlt⟩ := h.status r hr c v o hcfg ho
  obtain ⟨t', ht', htlt'⟩ := h.scan c' o' ho'
  obtain rfl : s = t := Option.some.inj (hs.symm.trans ht)
  obtain rfl : s' = t' := Option.some.inj (hs'.symm.trans ht')
  refine ⟨?_, ?_⟩
  · rw [hstatus]
    exact (List.length_take_le _ _).trans_lt htlt
  · rw [hscan]
    exact (List.length_take_le _ _).trans_lt htlt'

/-- A response in progress is framed, and handed over once and in order. As much goes out as there
is room for, when it begins and in every callback that goes on with it, where `tcp_write` takes what
it is given. A connection that ends by itself has had all of it acknowledged. -/
structure Exact (r : HttpRun) (i : Fin httpConns) : Prop where
  framed : (r.portal.conns i).responded = true →
    Framed i (r.portal.conns i).resp (r.answer i)
  sending : (r.portal.conns i).responded = true → ∀ p ∈ (r.portal.conns i).pcb,
    Sending (r.answer i) (r.written i) (r.acked i) p (r.portal.conns i).segs
  begun : ∀ ans data, ans.InBuffer → r.begins i (.recv i ans data) = true →
    Portal.Takes ans.writes ((r.step (.recv i ans data)).answer i) →
      size ((r.step (.recv i ans data)).written i) =
        min (size ((r.step (.recv i ans data)).answer i)) tcpSndBuf
  progress : ∀ e ans, r.portal.sends i e = some ans → (r.portal.conns i).responded = true →
    ∀ p ∈ (r.portal.conns i).pcb, Portal.Takes ans.writes (r.portal.conns i).segs →
      size ((r.step e).written i) = size (r.written i) +
        min (size (r.portal.conns i).segs) (tcpSndBuf - (size p.queue - r.portal.ackedBy i e))
  ends : ∀ e, (r.portal.conns i).responded = true → (r.portal.conns i).pcb.isSome →
    ((r.portal.step e).conns i).pcb = none → r.portal.cutOff i e = false →
      (∀ m, read m (r.written i) = read m (r.answer i)) ∧
        r.acked i + r.portal.ackedBy i e = size (r.answer i)

theorem Inv.exact (h : r.Inv) (i : Fin httpConns) : r.Exact i where
  framed := (h.carries i).framed
  sending := (h.carries i).sending
  begun ans data hans hbegins htakes := by
    obtain ⟨hidle, hresponded⟩ := Bool.and_eq_true_iff.mp hbegins
    have hfresh : r.portal.Fresh i :=
      ⟨by simpa using hidle, ((h.carries i).fresh (by simpa using hidle)).2⟩
    simp only [HttpRun.step, if_pos hbegins, List.nil_append] at htakes ⊢
    exact Portal.recv_moves h.sized hans hfresh hresponded htakes
  progress e ans hsends hr p hp htakes := by
    have hgoes : ¬ r.begins i e = true := by simp [HttpRun.begins, hr]
    simp only [HttpRun.step, if_neg hgoes, size_append]
    rw [Portal.sends_moves hsends hr hp htakes]
  ends e hr huse hend hcut := by
    obtain ⟨p, hp⟩ := Option.isSome_iff_exists.mp huse
    have hsending := (h.carries i).sending hr p hp
    obtain ⟨hacked, hsegs⟩ := Portal.ends_acked hr hp hsending hend hcut
    refine ⟨fun m => ?_, hacked⟩
    rw [← hsending.whole m, List.eq_nil_of_length_eq_zero (length_read.trans hsegs),
      List.append_nil]

theorem BodiesInside.reached_inv {board : Board} {version : CStr}
    (h : BodiesInside board version) (hr : r.ReachedBy board version) : r.Inv := by
  refine hr.invariant ?_ fun r e _ hadmits hinv => hinv.step fun j ans data he =>
    h.inBuffer (hadmits j ans data he)
  rintro _ ⟨page, hpage, rfl⟩
  exact ⟨⟨hpage, Nat.zero_le _, Nat.zero_le _⟩, fun _ => Conn.carries_empty⟩

/-- **Every response is framed exactly.** In a firmware whose version fits into its status, no
generator writes outside the buffer of the bodies. In every run, whatever is requested, taken by
`tcp_write` and acknowledged: a response fits into its connection's buffer, the length its headers
give is that of what follows them, what is handed over and what is still to be handed over are
together the response, as much is handed over as there is room for where `tcp_write` takes it, and a
connection that ends by itself has had all of it acknowledged. -/
theorem responses_framed {board : Board} (hkeys : PublicKeys board) {version : CStr}
    (hv : Control.VersionFits version) :
    BodiesInside board version ∧ ∀ r : HttpRun, r.ReachedBy board version → ∀ i, r.Exact i :=
  ⟨bodies_inside hkeys hv, fun _ hr i => ((bodies_inside hkeys hv).reached_inv hr).exact i⟩

/-- A client asks for the page, takes all of it and acknowledges it in two parts. -/
def requestPage (ans : Answers) : List PortalEvent :=
  [.accept true, .recv 0 { ans with writes := [true] } (some (ascii "GET / HTTP/1.1\r\n\r\n")),
    .sent 0 { ans with writes := [true] } 0, .deliver 0 1000, .sent 0 ans 100]

/-- The page of three bytes, with the bodies that the firmware would have for other requests. -/
theorem responses_framed_page :
    ∃ ans, Generated Control.homeBoard (ascii "0.0.0-dev") ans ∧
      ∀ i, ((requestPage ans).foldl step { portal := { page := [1, 2, 3] } }).Exact i := by
  have hkeys : PublicKeys Control.homeBoard := fun _ _ h =>
    absurd h (Option.some_ne_none _).symm
  have hversion : Control.VersionFits (ascii "0.0.0-dev") := ⟨by decide, by decide⟩
  obtain ⟨hinside, hexact⟩ := responses_framed hkeys hversion
  have hstart : Reach (Control.StartsFrom Control.homeBoard Domain) (fun _ _ => True)
      (Control.step Control.homeBoard) (Control.boot Control.homeBoard none {}) :=
    .start ⟨none, {}, fun _ h => absurd h (Option.some_ne_none _).symm, rfl⟩
  obtain ⟨s, hs, -⟩ := hinside.status _ hstart _ {} (List.replicate bodyMax 0) rfl
    List.length_replicate
  obtain ⟨s', hs', -⟩ := hinside.scan (Control.boot Control.homeBoard none {})
    (List.replicate bodyMax 0) List.length_replicate
  have hbodies {ans : Answers} (hstatus : ans.statusJson = s.body)
      (hscan : ans.scanJson = s'.body) : Generated Control.homeBoard (ascii "0.0.0-dev") ans :=
    ⟨⟨_, _, {}, _, s, hstart, rfl, List.length_replicate, hs, hstatus⟩,
      _, _, s', List.length_replicate, hs', hscan⟩
  refine ⟨{ statusJson := s.body, scanJson := s'.body }, hbodies rfl rfl, hexact _ ?_⟩
  refine Reach.foldl (.start ⟨_, by decide, rfl⟩) ⟨?_, ?_, ?_, ?_, ?_, trivial⟩
  -- one of the events is a request
  all_goals rintro i ans data ⟨⟩
  exact hbodies rfl rfl

end HttpRun

end Molewire
