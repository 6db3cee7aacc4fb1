/-
# Capture downloads

`GET /api/pcap` sends the capture ring in place and stops capture by one flag
that both connections share and that the end of either clears. A connection
that holds the ring ends when all it had to send is acknowledged, when it has
been idle too long, when lwIP reports an error and when its peer closes, and
only the first of these waits for its own ring bytes. So a download is intact
in the runs where the flag is cleared alone: nothing else has ring bytes left
then, and a peer does not close before it has taken its own.
-/

import Molewire.HttpPortal

namespace Molewire

open ByteBuffer SpanQueue Transition

/-! ### Ring bytes on the way -/

/-- The bytes of the ring a queue names. -/
def ringBytes (ring : Nat → UInt8) (q : List (Span Region)) : Bytes :=
  bytesOf .ring (read (fun _ => ring) q)

/-- The ring bytes a connection has not sent, or sent without acknowledgement. -/
def Conn.ringLeft (c : Conn) : Nat :=
  count .ring c.segs + c.pcb.elim 0 fun p => count .ring p.queue

/-- An acknowledgement of `n` bytes leaves nothing to send or to wait for. -/
def Conn.drainedBy (c : Conn) (n : Nat) : Bool :=
  c.responded && size c.segs = 0 && c.pcb.all fun p => size p.queue ≤ p.acked n

namespace Portal

/-- The connections lwIP still serves, those in a slot and those closed. -/
def pcbs (s : Portal) : List Pcb :=
  (List.finRange httpConns).filterMap (fun i => (s.conns i).pcb) ++ s.closing

/-- Ring bytes were handed to `tcp_write`, and neither acknowledged nor discarded since. -/
def RingQueued (s : Portal) : Prop := ∃ p ∈ s.pcbs, 0 < count .ring p.queue

/-- No download is torn. Capture leaves the ring as it is under queued bytes, what a client has
taken is the start of the stream frozen for it, and a closed connection with everything
acknowledged has delivered all of it. -/
structure Untorn (s : Portal) : Prop where
  still : s.RingQueued → ∀ us frame len, (s.pcap.capture us frame len).ring = s.pcap.ring
  sofar : ∀ p ∈ s.pcbs, ∀ f ∈ p.frozen, p.records <+: f
  whole : ∀ p ∈ s.closing, p.queue = [] → ∀ f ∈ p.frozen, p.records = f

/-- The peer of connection `i` closes. -/
def peerCloses (i : Fin httpConns) : PortalEvent → Bool
  | .recv j _ none => i = j
  | _ => false

/-- The event is the last of connection `i`. -/
def ends (s : Portal) (i : Fin httpConns) : PortalEvent → Bool
  | .recv j _ none => i = j
  | .sent j _ n => i = j && (s.conns i).drainedBy n
  | .poll j _ => i = j && (idlePolls < (s.conns i).idle + 1 || (s.conns i).drainedBy 0)
  | .err j => i = j
  | _ => false

/-- A connection that holds the ring ends only when no other has ring bytes left, and its peer
does not close while it has some itself. -/
def LoneRelease (s : Portal) (e : PortalEvent) : Prop :=
  ∀ i, s.ends i e → (s.conns i).pcapHold →
    (∀ j, j ≠ i → (s.conns j).ringLeft = 0) ∧ (peerCloses i e → (s.conns i).ringLeft = 0)

instance (s : Portal) (e : PortalEvent) : Decidable (s.LoneRelease e) :=
  inferInstanceAs (Decidable (∀ _, _ → _ → _ ∧ _))

end Portal

/-! ### What every connection keeps -/

/-- A connection is in step with the ring: before its response it has nothing, with ring bytes left
it holds the ring and capture is paused, and what was taken with what is still to come is the
stream frozen for it. -/
structure Conn.Sound (ring : Nat → UInt8) (paused : Bool) (c : Conn) : Prop where
  fresh : c.responded = false → c.segs = [] ∧ c.pcapHold = false ∧ ∀ p ∈ c.pcb, p = {}
  held : 0 < c.ringLeft → c.pcapHold = true ∧ paused = true
  taken : ∀ p ∈ c.pcb, p.delivered ≤ size p.queue
  content : ∀ p ∈ c.pcb, p.records ++ ringBytes ring (drop p.delivered p.queue) ++
    ringBytes ring c.segs = p.frozen.getD []

/-- A download that needs nothing of the ring any more. -/
def Pcb.Complete (p : Pcb) : Prop :=
  count .ring p.queue = 0 ∧ p.records = p.frozen.getD []

/-- The invariant of the portal. -/
structure Portal.Held (s : Portal) : Prop where
  conn : ∀ i, (s.conns i).Sound s.pcap.ring s.pcap.paused
  closing : ∀ p ∈ s.closing, p.Complete

variable {ring ring' : Nat → UInt8} {paused paused' : Bool} {c : Conn} {p p' : Pcb}

@[simp] theorem ringBytes_resp_cons {i : Fin httpConns} {n : Nat} {q : List (Span Region)} :
    ringBytes ring (⟨.resp i, 0, n⟩ :: q) = ringBytes ring q := by
  simp [ringBytes, bytesOf_span_read]

theorem ringBytes_eq_nil {q : List (Span Region)} (h : count .ring q = 0) :
    ringBytes ring q = [] := bytesOf_read_eq_nil h

theorem ringBytes_drop_eq_nil {q : List (Span Region)} (h : count .ring q = 0) (n : Nat) :
    ringBytes ring (drop n q) = [] :=
  ringBytes_eq_nil (Nat.le_zero.mp (h ▸ count_drop_le n))

theorem ringBytes_memory (s : Portal) (q : List (Span Region)) :
    bytesOf .ring (read s.memory q) = ringBytes s.pcap.ring q :=
  bytesOf_read_congr rfl

theorem ringLeft_of_some (hp : c.pcb = some p) :
    c.ringLeft = count .ring c.segs + count .ring p.queue := by simp [Conn.ringLeft, hp]

/-- The empty slot. -/
theorem Conn.sound_empty : ({} : Conn).Sound ring paused where
  fresh _ := ⟨rfl, rfl, nofun⟩
  held h := absurd h (by simp [Conn.ringLeft, count])
  taken := nofun
  content := nofun

/-- The ring may change under a connection that has no ring bytes left. -/
theorem Conn.Sound.move (h : c.Sound ring paused)
    (hmove : 0 < c.ringLeft → ring' = ring ∧ paused' = true) : c.Sound ring' paused' where
  fresh := h.fresh
  held hleft := ⟨(h.held hleft).1, (hmove hleft).2⟩
  taken := h.taken
  content p hp := by
    have hcontent := h.content p hp
    -- without ring bytes left the content says nothing about the ring
    by_cases hleft : 0 < c.ringLeft
    · rwa [(hmove hleft).1]
    · rw [ringLeft_of_some hp] at hleft
      rw [ringBytes_drop_eq_nil (by omega), ringBytes_eq_nil (by omega)] at hcontent ⊢
      exact hcontent

/-- A connection with no ring bytes left has delivered its stream. -/
theorem Conn.Sound.complete (h : c.Sound ring paused) (hp : c.pcb = some p)
    (hleft : c.ringLeft = 0) : p.Complete := by
  rw [ringLeft_of_some hp] at hleft
  have hcontent := h.content p hp
  rw [ringBytes_drop_eq_nil (by omega), ringBytes_eq_nil (by omega)] at hcontent
  exact ⟨by omega, by simpa using hcontent⟩

/-! ### The transport -/

/-- The transport moves bytes from what is to come to what was taken. -/
structure Pcb.Carried (ring : Nat → UInt8) (p p' : Pcb) : Prop where
  fewer : count .ring p'.queue ≤ count .ring p.queue
  taken : p.delivered ≤ size p.queue → p'.delivered ≤ size p'.queue
  rest : p'.records ++ ringBytes ring (drop p'.delivered p'.queue) =
    p.records ++ ringBytes ring (drop p.delivered p.queue)
  frozen : p'.frozen = p.frozen

theorem Pcb.carried_deliver (s : Portal) (n : Nat) (p : Pcb) :
    p.Carried s.pcap.ring (p.deliver s.memory n) where
  fewer := le_rfl
  taken h := by
    simp only [Pcb.deliver, List.length_take, List.length_drop, length_read]
    omega
  rest := by
    -- the delivered part is a prefix of the queue, cut at the end of what is there
    have hrest : ((read s.memory p.queue).drop p.delivered).drop
          (((read s.memory p.queue).drop p.delivered).take n).length =
        ((read s.memory p.queue).drop p.delivered).drop n := by
      rw [List.length_take]
      by_cases hn : n ≤ ((read s.memory p.queue).drop p.delivered).length
      · rw [Nat.min_eq_left hn]
      · rw [Nat.min_eq_right (by omega), List.drop_length, List.drop_eq_nil_of_le (by omega)]
    rw [← ringBytes_memory, ← ringBytes_memory, read_drop, read_drop, Pcb.records, Pcb.records,
      Pcb.deliver, bytesOf_append, List.append_assoc, ← bytesOf_append, ← List.drop_drop, hrest,
      List.take_append_drop]
  frozen := rfl

/-- An acknowledgement takes only delivered bytes from the queue. -/
theorem Pcb.carried_ack (n : Nat) (p : Pcb) : p.Carried ring (p.ack n) where
  fewer := count_drop_le _
  taken h := by
    simp only [Pcb.ack, size_drop]
    omega
  rest := by
    -- the front of the queue that goes was delivered
    have hle : p.acked n ≤ p.delivered := Nat.min_le_right _ _
    simp only [ringBytes, read_drop, Pcb.ack, List.drop_drop, Nat.add_sub_cancel' hle]
    rfl
  frozen := rfl

theorem Pcb.Complete.carried (h : p.Complete) (hc : p.Carried ring p') : p'.Complete := by
  have hcount : count .ring p'.queue = 0 := Nat.le_zero.mp (h.1 ▸ hc.fewer)
  have hrest := hc.rest
  rw [ringBytes_drop_eq_nil hcount, ringBytes_drop_eq_nil h.1, List.append_nil,
    List.append_nil] at hrest
  exact ⟨hcount, by rw [hrest, hc.frozen, h.2]⟩

theorem Conn.Sound.carried {f : Pcb → Pcb} (h : c.Sound ring paused)
    (hf : ∀ p : Pcb, p.Carried ring (f p)) (hfresh : f {} = {}) :
    Conn.Sound ring paused { c with pcb := c.pcb.map f } where
  fresh hr := by
    obtain ⟨hsegs, hhold, hnew⟩ := h.fresh hr
    refine ⟨hsegs, hhold, fun p' hp' => ?_⟩
    obtain ⟨p, hp, rfl⟩ := Option.map_eq_some_iff.mp hp'
    rw [hnew p hp, hfresh]
  held hleft := h.held <| by
    cases hp : c.pcb with
    | none => simpa [Conn.ringLeft, hp] using hleft
    | some p =>
      have hfewer := (hf p).fewer
      rw [ringLeft_of_some (p := f p) (by simp [hp])] at hleft
      rw [ringLeft_of_some hp]
      exact Nat.lt_of_lt_of_le hleft (Nat.add_le_add_left hfewer _)
  taken p' hp' := by
    obtain ⟨p, hp, rfl⟩ := Option.map_eq_some_iff.mp hp'
    exact (hf p).taken (h.taken p hp)
  content p' hp' := by
    obtain ⟨p, hp, rfl⟩ := Option.map_eq_some_iff.mp hp'
    rw [(hf p).rest, (hf p).frozen]
    exact h.content p hp

/-- The bytes handed over with those left are the bytes there were. -/
theorem sendSegs_spec (p : Pcb) (segs : List (Span Region)) (writes : List Bool) :
    ∃ sent, (sendSegs p segs writes).1 = { p with queue := p.queue ++ sent } ∧
      ∀ m, read m sent ++ read m (sendSegs p segs writes).2 = read m segs := by
  induction segs generalizing p writes with
  | nil => exact ⟨[], by simp [sendSegs], fun m => rfl⟩
  | cons s rest ih =>
    -- where the loop stops, the segment stays whole
    have hkeep : ∃ sent, p = { p with queue := p.queue ++ sent } ∧
        ∀ m, read m sent ++ read m (s :: rest) = read m (s :: rest) := ⟨[], by simp, fun m => rfl⟩
    unfold sendSegs
    dsimp only
    split_ifs with hlen hroom hfits
    · -- an empty segment is passed over
      obtain ⟨sent, hp, hread⟩ := ih p writes
      refine ⟨sent, hp, fun m => ?_⟩
      rw [hread, read_cons, Span.read, hlen]
      rfl
    · exact hkeep
    · split
      · next writes =>
        obtain ⟨sent, hp, hread⟩ := ih (p.write (s.take (min s.len p.sndbuf))) writes
        refine ⟨s.take (min s.len p.sndbuf) :: sent, ?_, fun m => ?_⟩
        · rw [hp]
          simp [Pcb.write]
        · have htake : s.take (min s.len p.sndbuf) = s := by
            simp [Span.take, Nat.min_eq_left hfits]
          rw [read_cons, List.append_assoc, hread, htake, read_cons]
      · exact hkeep
    · split
      · refine ⟨[s.take (min s.len p.sndbuf)], rfl, fun m => ?_⟩
        rw [read_cons, read_cons, read_nil, List.append_nil, ← List.append_assoc,
          span_read_take_append_drop _ _ (Nat.min_le_left _ _), read_cons]
      · exact hkeep

/-- With nothing handed over and nothing left, there was nothing. -/
theorem sendSegs_idle {segs : List (Span Region)} {writes : List Bool}
    (hsegs : (sendSegs p segs writes).2 = [])
    (hidle : ¬(sendSegs p segs writes).1.sndbuf < tcpSndBuf) :
    size segs = 0 ∧ size p.queue = 0 := by
  obtain ⟨sent, hpcb, hread⟩ := sendSegs_spec p segs writes
  have hsize := congrArg List.length (hread fun _ _ => 0)
  rw [hsegs, read_nil, List.append_nil, length_read, length_read] at hsize
  rw [hpcb, Pcb.sndbuf, size_append, tcpSndBuf] at hidle
  omega

/-- Handing segments over does not change what is to come. -/
theorem Conn.Sound.send (h : c.Sound ring paused) (hr : c.responded = true) (hp : c.pcb = some p)
    (writes : List Bool) :
    Conn.Sound ring paused
      { c with
        pcb := some (sendSegs p c.segs writes).1
        segs := (sendSegs p c.segs writes).2 } := by
  obtain ⟨sent, hpcb, hread⟩ := sendSegs_spec p c.segs writes
  have hcount : count Region.ring sent + count Region.ring (sendSegs p c.segs writes).2 =
      count Region.ring c.segs := by
    rw [← count_append]
    exact count_eq_of_read (by rw [read_append, hread])
  have htaken := h.taken p hp
  refine ⟨fun hfresh => absurd (hfresh.symm.trans hr) (by decide), fun hleft => h.held ?_, ?_, ?_⟩
  · rw [ringLeft_of_some hp]
    rw [Conn.ringLeft, hpcb] at hleft
    simp only [Option.elim_some, count_append] at hleft
    omega
  · rintro _ ⟨⟩
    rw [hpcb, size_append]
    exact Nat.le_add_right_of_le htaken
  · rintro _ ⟨⟩
    have hdrop : ringBytes ring (drop p.delivered (p.queue ++ sent)) =
        ringBytes ring (drop p.delivered p.queue) ++ ringBytes ring sent := by
      simp only [ringBytes, read_drop, read_append]
      rw [List.drop_append_of_le_length (by rw [length_read]; exact htaken), bytesOf_append]
    -- what was handed over is a prefix of the segments
    have hsent : ringBytes ring sent ++ ringBytes ring (sendSegs p c.segs writes).2 =
        ringBytes ring c.segs := by
      rw [ringBytes, ringBytes, ← bytesOf_append, hread]
      rfl
    have hcontent := h.content p hp
    rw [← hsent, ← List.append_assoc, List.append_assoc p.records, ← hdrop] at hcontent
    rw [hpcb]
    exact hcontent

/-- Neither the request text nor the idle count matters. -/
theorem Conn.Sound.touch (h : c.Sound ring paused) (req : Bytes) (idle : Nat) :
    Conn.Sound ring paused { c with req := req, idle := idle } :=
  ⟨h.fresh, h.held, h.taken, h.content⟩

theorem Conn.Sound.respond (h : c.Sound ring paused) (hr : c.responded = false)
    {segs : List (Span Region)} (hsegs : count .ring segs = 0) (resp : Bytes) :
    Conn.Sound ring paused { c with resp := resp, segs := segs, responded := true } where
  fresh := nofun
  held hleft := h.held <| by
    rw [Conn.ringLeft] at hleft ⊢
    simp only [hsegs] at hleft
    omega
  taken := h.taken
  content p hp := by
    obtain rfl := (h.fresh hr).2.2 p hp
    exact ringBytes_eq_nil hsegs

/-- A response with the ring: what is to come is the stream of this moment. -/
theorem Conn.Sound.download {s : Portal} {i : Fin httpConns} (h : c.Sound s.pcap.ring paused)
    (hr : c.responded = false) (resp : Bytes) :
    Conn.Sound s.pcap.ring true
      { c with
        pcb := c.pcb.map fun p => { p with frozen := some s.recordStream }
        pcapHold := true
        resp := resp
        segs := ⟨.resp i, 0, resp.length⟩ :: Portal.ringSegs s.pcap
        responded := true } where
  fresh := nofun
  held _ := ⟨rfl, rfl⟩
  taken p hp := by
    obtain ⟨q, hq, rfl⟩ := Option.map_eq_some_iff.mp hp
    exact h.taken q hq
  content p hp := by
    obtain ⟨q, hq, rfl⟩ := Option.map_eq_some_iff.mp hp
    obtain rfl := (h.fresh hr).2.2 q hq
    rw [ringBytes_resp_cons, Option.getD_some, Portal.recordStream, ringBytes_memory]
    rfl

/-! ### Connections -/

namespace Portal

variable {s : Portal} {i : Fin httpConns}

@[simp] theorem setConn_self : (s.setConn i c).conns i = c := by simp [Portal.setConn]

theorem setConn_of_ne {j : Fin httpConns} (h : j ≠ i) : (s.setConn i c).conns j = s.conns j := by
  simp [Portal.setConn, h]

theorem Held.setConn (h : s.Held) (hc : c.Sound s.pcap.ring s.pcap.paused) :
    (s.setConn i c).Held where
  conn j := by
    by_cases hj : j = i
    · subst hj
      rwa [setConn_self]
    · rw [setConn_of_ne hj]
      exact h.conn j
  closing := h.closing

theorem Held.tcpClose (h : s.Held) (hp : p.Complete) : (s.tcpClose p).Held where
  conn := h.conn
  closing q hq := by
    rcases List.mem_append.mp hq with hq | hq
    · exact h.closing q hq
    · rwa [List.mem_singleton.mp hq]

/-- A connection that holds the ring may end when no other has ring bytes left. -/
theorem Held.connFree (h : s.Held)
    (hlone : (s.conns i).pcapHold = true → ∀ j, j ≠ i → (s.conns j).ringLeft = 0) :
    (s.connFree i).Held := by
  have hset : (s.setConn i {}).Held := h.setConn Conn.sound_empty
  unfold Portal.connFree
  dsimp only
  split_ifs with hhold
  · -- the release lets the ring move under the other connections
    refine ⟨fun j => (hset.conn j).move fun hleft => ?_, hset.closing⟩
    by_cases hj : j = i
    · subst hj
      rw [setConn_self] at hleft
      exact absurd hleft (by decide)
    · rw [setConn_of_ne hj, hlone hhold j hj] at hleft
      exact absurd hleft (lt_irrefl 0)
  · exact hset

theorem Held.connSendMore (h : s.Held) (writes : List Bool) (closeOk : Bool)
    (hr : (s.conns i).responded = true)
    (hlone : (s.conns i).pcapHold = true → (s.conns i).drainedBy 0 = true →
      ∀ j, j ≠ i → (s.conns j).ringLeft = 0) :
    (s.connSendMore i writes closeOk).Held := by
  unfold Portal.connSendMore
  split
  · exact h
  · next p hp =>
    have hsend := (h.conn i).send hr hp writes
    have hset := h.setConn (i := i) hsend
    dsimp only
    split_ifs with hbusy hclose
    · exact hset
    all_goals
      -- everything was handed over and acknowledged, and the connection ends
      obtain ⟨hsegs, hidle⟩ := not_or.mp hbusy
      rw [not_not] at hsegs
      obtain ⟨hsize, hqueue⟩ := sendSegs_idle hsegs hidle
      have hfree := hset.connFree (i := i) fun hhold j hj => by
        rw [setConn_self] at hhold
        rw [setConn_of_ne hj]
        exact hlone hhold (by simp [Conn.drainedBy, hr, hp, hsize, hqueue]) j hj
    · refine hfree.tcpClose (hsend.complete rfl ?_)
      have hcount := count_le_size (r := Region.ring)
        (q := (sendSegs p (s.conns i).segs writes).1.queue)
      rw [Pcb.sndbuf] at hidle
      simp only [Conn.ringLeft, Option.elim_some, hsegs, count_nil]
      have hbuf : 0 < tcpSndBuf := by decide
      omega
    · exact hfree

/-! ### Requests -/

/-- A response without the ring. -/
theorem Held.connRespond (h : s.Held) (hr : (s.conns i).responded = false) (ans : Answers)
    (status ctype extra : String) (body : Body) :
    (s.connRespond i ans status ctype extra body).Held := by
  have hhold : (s.conns i).pcapHold = false := ((h.conn i).fresh hr).2.1
  unfold Portal.connRespond
  dsimp only
  cases body
  all_goals
    refine (h.setConn ((h.conn i).respond hr ?_ _)).connSendMore _ _ ?_ fun hheld => ?_
    · simp
    · rw [setConn_self]
    · rw [setConn_self, hhold] at hheld
      exact absurd hheld (by decide)

theorem Held.sendPcap (h : s.Held) (hr : (s.conns i).responded = false) (ans : Answers) :
    (s.sendPcap i ans).Held := by
  have hfrozen : { s with pcap := s.pcap.freeze }.Held :=
    ⟨fun j => (h.conn j).move fun _ => ⟨rfl, rfl⟩, h.closing⟩
  have hheader : Pcap.globalHeader ≠ [] := by simp [Pcap.globalHeader, le32]
  unfold Portal.sendPcap
  refine (hfrozen.setConn ((h.conn i).download hr _)).connSendMore _ _ ?_ fun _ hdrained => ?_
  · rw [setConn_self]
  · rw [setConn_self] at hdrained
    simp [Conn.drainedBy, hheader] at hdrained

/-! ### Events -/

theorem consoleCall_frame (p : Pcap) (call : Call) :
    (consoleCall p call).ring = p.ring ∧ (consoleCall p call).paused = p.paused := by
  cases call <;> exact ⟨rfl, rfl⟩

theorem foldl_consoleCall_frame (p : Pcap) (calls : List Call) :
    (calls.foldl consoleCall p).ring = p.ring ∧
      (calls.foldl consoleCall p).paused = p.paused := by
  induction calls generalizing p with
  | nil => exact ⟨rfl, rfl⟩
  | cons call calls ih =>
    obtain ⟨hring, hpaused⟩ := consoleCall_frame p call
    obtain ⟨hring', hpaused'⟩ := ih (consoleCall p call)
    exact ⟨hring'.trans hring, hpaused'.trans hpaused⟩

/-- What happens to the ring only has to spare it while ring bytes are left. -/
theorem Held.withPcap (h : s.Held) {pcap : Pcap}
    (hring : s.pcap.paused = true → pcap.ring = s.pcap.ring ∧ pcap.paused = true) :
    { s with pcap := pcap }.Held :=
  ⟨fun j => (h.conn j).move fun hleft => hring ((h.conn j).held hleft).2, h.closing⟩

theorem Held.consoleCalls (h : s.Held) (calls : List Call) :
    { s with pcap := calls.foldl consoleCall s.pcap }.Held :=
  h.withPcap fun hpaused =>
    ⟨(foldl_consoleCall_frame s.pcap calls).1,
      (foldl_consoleCall_frame s.pcap calls).2.trans hpaused⟩

theorem Held.withUpcalls (h : s.Held) (upcalls : List Upcall) :
    { s with upcalls := upcalls }.Held :=
  ⟨h.conn, h.closing⟩

theorem Held.handleRequest (h : s.Held) (hr : (s.conns i).responded = false) (ans : Answers) :
    (s.handleRequest i ans).Held := by
  unfold Portal.handleRequest
  -- only a download names bytes of the ring
  cases parseRequest (s.conns i).req with
  | incomplete => exact h
  | pcap => exact h.sendPcap hr ans
  | scan post =>
    dsimp only
    split_ifs
    · exact (h.withUpcalls _).connRespond (by exact hr) ans _ _ _ _
    · exact h.connRespond hr ans _ _ _ _
  | command line =>
    exact ((h.consoleCalls ans.calls).withUpcalls _).connRespond (by exact hr) ans _ _ _ _
  | preflight | badRequest | page | status | tooLarge | notFound =>
    exact h.connRespond hr ans _ _ _ _

theorem Held.touch (h : s.Held) (req : Bytes) (idle : Nat) :
    (s.setConn i { s.conns i with req := req, idle := idle }).Held :=
  h.setConn ((h.conn i).touch req idle)

/-- Before its response a connection does not hold the ring, and may end at any time. -/
theorem Held.connFree_fresh (h : s.Held) (hr : (s.conns i).responded = false) :
    (s.connFree i).Held :=
  h.connFree fun hhold => absurd (hhold.symm.trans ((h.conn i).fresh hr).2.1) (by decide)

theorem Held.httpRecv (h : s.Held) (ans : Answers) (data : Option Bytes)
    (hlone : s.LoneRelease (.recv i ans data)) : (s.httpRecv i ans data).Held := by
  unfold Portal.httpRecv
  cases data with
  | none =>
    have hends := hlone i (by simp [ends])
    dsimp only
    split
    · exact h
    · next p hp =>
      refine (h.connFree fun hhold => (hends hhold).1).tcpClose ((h.conn i).complete hp ?_)
      -- the peer may not close before it has taken its own ring bytes
      by_contra hleft
      have hhold := ((h.conn i).held (Nat.pos_of_ne_zero hleft)).1
      exact hleft ((hends hhold).2 (by simp [peerCloses]))
  | some data =>
    have htouch := h.touch (i := i) ((s.conns i).req ++
      data.take (reqMax - 1 - (s.conns i).req.length)) 0
    dsimp only
    split_ifs with hr hfull
    · exact htouch
    all_goals rw [Bool.not_eq_true] at hr
    · exact htouch.connFree_fresh (by rw [setConn_self]; exact hr)
    · exact htouch.handleRequest (by rw [setConn_self]; exact hr) ans

theorem drainedBy_ack (c : Conn) (n idle : Nat) :
    Conn.drainedBy { c with pcb := c.pcb.map (Pcb.ack n), idle := idle } 0 = c.drainedBy n := by
  have hack : ∀ p : Pcb, decide (size (p.ack n).queue ≤ (p.ack n).acked 0) =
      decide (size p.queue ≤ p.acked n) := by
    intro p
    rw [decide_eq_decide]
    simp only [Pcb.ack, size_drop, Pcb.acked]
    omega
  cases hp : c.pcb <;> simp [Conn.drainedBy, hp, hack]

theorem Held.httpSent (h : s.Held) (ans : Answers) (n : Nat)
    (hlone : s.LoneRelease (.sent i ans n)) : (s.httpSent i ans n).Held := by
  have hack := (h.conn i).carried (Pcb.carried_ack n) (by simp [Pcb.ack, drop])
  unfold Portal.httpSent
  dsimp only
  split_ifs with hr
  · refine (h.setConn (hack.touch (s.conns i).req 0)).connSendMore _ _
      (by rw [setConn_self]; exact hr) ?_
    intro hhold hdrained j hj
    rw [setConn_self] at hhold hdrained
    rw [setConn_of_ne hj]
    rw [drainedBy_ack] at hdrained
    exact (hlone i (by simpa [ends] using hdrained) hhold).1 j hj
  · exact h.setConn hack

theorem Held.httpPoll (h : s.Held) (ans : Answers)
    (hlone : s.LoneRelease (.poll i ans)) : (s.httpPoll i ans).Held := by
  have htouch := h.touch (i := i) (s.conns i).req ((s.conns i).idle + 1)
  unfold Portal.httpPoll
  dsimp only
  split_ifs with hidle hr
  · refine htouch.connFree fun hhold j hj => ?_
    rw [setConn_self] at hhold
    rw [setConn_of_ne hj]
    exact (hlone i (by simp [ends, hidle]) hhold).1 j hj
  · refine htouch.connSendMore _ _ (by rw [setConn_self]; exact hr) fun hhold hdrained j hj => ?_
    rw [setConn_self] at hhold hdrained
    rw [setConn_of_ne hj]
    exact (hlone i (by simpa [ends] using .inr hdrained) hhold).1 j hj
  · exact htouch

theorem Held.httpAccept (h : s.Held) (onUsb : Bool) : (s.httpAccept onUsb).Held := by
  unfold Portal.httpAccept
  split_ifs
  · split
    · exact h
    · refine h.setConn ⟨fun _ => ⟨rfl, rfl, ?_⟩, ?_, ?_, ?_⟩
      · rintro _ ⟨⟩
        rfl
      · simp [Conn.ringLeft]
      · rintro _ ⟨⟩
        exact le_rfl
      · rintro _ ⟨⟩
        rfl
  · exact h

theorem Held.carriedClosing (h : s.Held) {f : Pcb → Pcb}
    (hf : ∀ p : Pcb, p.Carried s.pcap.ring (f p)) (j : Nat) :
    { s with closing := s.closing.modify j f }.Held where
  conn := h.conn
  closing p hp := by
    obtain ⟨k, hk⟩ := List.getElem?_of_mem hp
    rw [List.getElem?_modify] at hk
    obtain ⟨q, hq, rfl⟩ := Option.map_eq_some_iff.mp hk
    have hcomplete := h.closing q (List.mem_of_getElem? hq)
    split_ifs
    · exact hcomplete.carried (hf q)
    · exact hcomplete

/-- Every admitted event keeps the invariant. -/
theorem Held.step (h : s.Held) {e : PortalEvent} (hlone : s.LoneRelease e) : (s.step e).Held := by
  cases e with
  | accept onUsb => exact h.httpAccept onUsb
  | recv i ans data => exact iteInduction (fun _ => h.httpRecv ans data hlone) fun _ => h
  | deliver i n =>
    have hcarried := (h.conn i).carried (Pcb.carried_deliver s n) (by simp [Pcb.deliver])
    exact h.setConn hcarried
  | sent i ans n => exact iteInduction (fun _ => h.httpSent ans n hlone) fun _ => h
  | poll i ans => exact iteInduction (fun _ => h.httpPoll ans hlone) fun _ => h
  | err i =>
    refine iteInduction (fun _ => h.connFree fun hhold => ?_) fun _ => h
    exact (hlone i (by simp [ends]) hhold).1
  | closingDeliver j n => exact h.carriedClosing (Pcb.carried_deliver s n) j
  | closingAck j n => exact h.carriedClosing (Pcb.carried_ack n) j
  | closingGone j => exact ⟨h.conn, fun p hp => h.closing p (List.mem_of_mem_eraseIdx hp)⟩
  | capture us frame len =>
    exact h.withPcap fun hpaused => by
      rw [Pcap.capture_paused hpaused]
      exact ⟨rfl, hpaused⟩
  | console call => exact h.consoleCalls [call]

/-! ### Runs -/

theorem held_boot (page : Bytes) : { page := page : Portal }.Held :=
  ⟨fun _ => Conn.sound_empty, nofun⟩

theorem reached_held (h : ReachedBy LoneRelease s) : s.Held :=
  h.invariant (by rintro _ ⟨page, rfl⟩; exact held_boot page) fun _ _ _ hlone hs => hs.step hlone

theorem mem_pcbs : p ∈ s.pcbs ↔ (∃ i, (s.conns i).pcb = some p) ∨ p ∈ s.closing := by
  simp [pcbs]

theorem Held.still (h : s.Held) (hqueued : s.RingQueued) (us : UInt64) (frame : Bytes)
    (len : UInt16) : (s.pcap.capture us frame len).ring = s.pcap.ring := by
  obtain ⟨p, hp, hcount⟩ := hqueued
  rcases mem_pcbs.mp hp with ⟨i, hi⟩ | hclosing
  · have hleft : 0 < (s.conns i).ringLeft := by
      rw [ringLeft_of_some hi]
      omega
    rw [Pcap.capture_paused ((h.conn i).held hleft).2]
  · exact absurd (h.closing p hclosing).1 hcount.ne'

theorem Held.sofar (h : s.Held) (hp : p ∈ s.pcbs) {f : Bytes} (hf : p.frozen = some f) :
    p.records <+: f := by
  rcases mem_pcbs.mp hp with ⟨i, hi⟩ | hclosing
  · have hcontent := (h.conn i).content p hi
    rw [hf, Option.getD_some, List.append_assoc] at hcontent
    exact ⟨_, hcontent⟩
  · have hdone : p.records = f := by rw [(h.closing p hclosing).2, hf, Option.getD_some]
    exact hdone ▸ List.prefix_rfl

/-- **A download is not torn where the ring is released alone.** In a run in which no connection
that holds the ring ends while another has ring bytes left, and none is closed by its peer with
ring bytes of its own left, capture leaves the ring as it is under every queued byte of it, and
what the clients take is the record stream as it was when their responses began. -/
theorem download_untorn (h : ReachedBy LoneRelease s) : s.Untorn where
  still := (reached_held h).still
  sofar _ hp _ hf := (reached_held h).sofar hp hf
  whole p hp _ f hf := by
    rw [((reached_held h).closing p hp).2, hf, Option.getD_some]

/-- A frame is captured and a client asks for the capture. -/
def requestDownload : List PortalEvent :=
  [.console (.pcapSetEnabled true), .capture 1 [1, 2, 3] 3, .accept true,
    .recv 0 { writes := [true, true] } (some (ascii "GET /api/pcap HTTP/1.1\r\n\r\n"))]

/-- The portal after such a request and what follows it. -/
def afterRequest (events : List PortalEvent) : Portal :=
  (requestDownload ++ events).foldl step { page := [] }

/-- The client closes its half before it has taken anything, the ring is cleared and another frame
captured. -/
theorem download_untorn_fails : ¬∀ s : Portal, ReachedBy (fun _ _ => True) s → s.Untorn := by
  intro hclaim
  -- the clear moves the ring under the segments that are still queued
  have hrun : ReachedBy (fun _ _ => True) (afterRequest [.recv 0 {} none, .console .pcapClear,
      .capture 2 [4, 5, 6] 3, .closingDeliver 0 1000]) :=
    Reach.foldl (.start ⟨_, rfl⟩) ⟨trivial, trivial, trivial, trivial, trivial, trivial, trivial,
      trivial, trivial⟩
  have hsofar := (hclaim _ hrun).sofar
  exact absurd hsofar (by decide +kernel)

/-- The client takes and acknowledges everything, while capture goes on. -/
theorem download_untorn_taken :
    (afterRequest [.capture 2 [4, 5, 6] 3, .deliver 0 1000, .sent 0 {} 1000]).Untorn :=
  download_untorn (Reach.foldl (.start ⟨_, rfl⟩) (by decide +kernel))

end Portal

end Molewire
