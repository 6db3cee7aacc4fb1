/-
# The request buffer

`http_recv` appends every segment to the request buffer and has `handle_request`
parse it again from its start. The handler works in the buffer: it ends the
text with a zero that the next segment overwrites, and cuts the path out with
another, which it takes back when it has to wait for the rest of a body. On
requests without a zero of their own this comes to the same as parsing the bytes
received so far.
-/

import Molewire.HttpHeaders

namespace Molewire

open ByteBuffer

/-! ### The handler -/

/-- The part of `handle_request` for `POST /api/cmd`, with the path cut out at `pathEnd`. -/
def handleCmd (req : Bytes) (reqLen hdrEnd pathEnd : Nat) : Option (Request × Bytes) := do
  let contentLen := contentLength (hdrEnd - (pathEnd + 1)) (cstr (req.drop (pathEnd + 1)))
  let body := hdrEnd + 4
  let have' := (reqLen + 2 ^ 32 - body) % 2 ^ 32
  if 256 < contentLen then return (.tooLarge, req)
  else if have' < contentLen then
    -- un-split: the buffer is parsed again when the rest arrives
    let req ← poke req pathEnd [32]
    return (.incomplete, req)
  else return (.command (portalLine ((req.drop body).take contentLen)), req)

/-- `handle_request`, up to what it does about the request: what that is, and the buffer it leaves.
Nothing is the outcome of a write outside the buffer. -/
def handleInPlace (req : Bytes) (reqLen : Nat) : Option (Request × Bytes) := do
  let req ← poke req reqLen [0]
  match strstr (ascii "\r\n\r\n") (cstr req) with
  | none => return (.incomplete, req)
  | some hdrEnd =>
    let isGet := (ascii "GET ").isPrefixOf (cstr req)
    let isPost := (ascii "POST ").isPrefixOf (cstr req)
    if (ascii "OPTIONS ").isPrefixOf (cstr req) then return (.preflight, req)
    else
      let path := if isGet then 4 else 5
      match strchrCut (cstr (req.drop path)) 32 with
      | none => return (.badRequest, req)
      | some (text, _) =>
        if ¬isGet ∧ ¬isPost then return (.badRequest, req)
        else
          let pathEnd := path + text.length
          let req ← poke req pathEnd [0]
          let path := cstr (req.drop path)
          if isGet ∧ (path = ascii "/" ∨ path = ascii "/index.html") then return (.page, req)
          else if isGet ∧ path = ascii "/api/pcap" then return (.pcap, req)
          else if isGet ∧ path = ascii "/api/status" then return (.status, req)
          else if path = ascii "/api/scan" then return (.scan isPost, req)
          else if isPost ∧ path = ascii "/api/cmd" then handleCmd req reqLen hdrEnd pathEnd
          else return (.notFound, req)

/-! ### Segments -/

/-- What `conn_t` keeps of a request, and what was found in it so far. -/
structure ReqBuf where
  req : Bytes := List.replicate reqMax 0
  reqLen : Nat := 0
  responded : Bool := false
  aborted : Bool := false
  acts : List Request := []

/-- What a call of `handle_request` acts on. -/
def Request.acted : Request → List Request
  | .incomplete => []
  | r => [r]

/-- `http_recv`, for the bytes of a segment. -/
def ReqBuf.recv (c : ReqBuf) (data : Bytes) : Option ReqBuf := do
  if c.aborted then return c
  let n := min data.length (reqMax - 1 - c.reqLen)
  let req ← poke c.req c.reqLen (data.take n)
  let c := { c with req := req, reqLen := c.reqLen + n }
  if c.responded then return c
  else if n = 0 then return { c with aborted := true }
  else
    let (r, req) ← handleInPlace c.req c.reqLen
    return { c with req := req, responded := r ≠ .incomplete, acts := c.acts ++ r.acted }

/-- A connection that takes some segments, from its start. -/
def recvAll (segs : List Bytes) : Option ReqBuf := segs.foldlM ReqBuf.recv {}

/-! ### Texts in the buffer -/

theorem poke_append (a b : Bytes) (x y : UInt8) :
    poke (a ++ x :: b) a.length [y] = some (a ++ y :: b) := by
  have hfits : a.length + [y].length ≤ (a ++ x :: b).length := by simp
  rw [poke, if_pos hfits, splice_eq_append hfits]
  simp

theorem cstr_append {a : Bytes} (ha : 0 ∉ a) (b : Bytes) : cstr (a ++ 0 :: b) = a := by
  have hall : ∀ x ∈ a, (decide (x ≠ 0)) = true := by
    intro x hx
    simpa using fun h : x = 0 => ha (h ▸ hx)
  rw [cstr, List.takeWhile_append_of_pos hall, List.takeWhile_cons_of_neg (by simp),
    List.append_nil]

theorem cstr_self {a : Bytes} (ha : 0 ∉ a) : cstr a = a := by
  refine List.takeWhile_eq_self_iff.mpr fun x hx => ?_
  simpa using fun h : x = 0 => ha (h ▸ hx)

theorem strchrCut_eq_some {s a b : CStr} {c : UInt8} (h : strchrCut s c = some (a, b)) :
    s = a ++ c :: b ∧ c ∉ a := by
  unfold strchrCut at h
  split at h
  · cases h
  · next x rest hdrop =>
    obtain ⟨rfl, rfl⟩ := Prod.mk.inj (Option.some.inj h)
    have hx : x = c := by
      have hne : s.dropWhile (· != c) ≠ [] := by simp [hdrop]
      have hhead := List.head_dropWhile_not (· != c) hne
      simpa [hdrop] using hhead
    subst hx
    refine ⟨?_, fun hmem => ?_⟩
    · rw [← hdrop, List.takeWhile_append_dropWhile]
    · simpa using List.mem_takeWhile_imp hmem

theorem strstr_eq_some {pat s : CStr} {h : Nat} (hs : strstr pat s = some h) :
    pat <+: s.drop h ∧ h + pat.length ≤ s.length := by
  induction s generalizing h with
  | nil =>
    unfold strstr at hs
    split_ifs at hs with hpat
    subst hpat
    obtain rfl := Option.some.inj hs
    exact ⟨List.prefix_rfl, le_rfl⟩
  | cons c s ih =>
    unfold strstr at hs
    split_ifs at hs with hpat
    · obtain rfl := Option.some.inj hs
      have hstart := List.isPrefixOf_iff_prefix.mp hpat
      exact ⟨hstart, by simpa using hstart.length_le⟩
    · obtain ⟨k, hk, rfl⟩ := Option.map_eq_some_iff.mp hs
      obtain ⟨hstart, hle⟩ := ih hk
      exact ⟨hstart, by rw [List.length_cons]; omega⟩

/-! ### The buffer against the bytes received -/

/-- With the path cut out of the bytes received, the handler finds the same command as in them, and
puts them together again when it waits for more. -/
theorem handleCmd_eq {pre after : Bytes} (hnul : 0 ∉ after) (stale : Bytes) {hdrEnd : Nat}
    (hend : pre.length < hdrEnd) (hhdr : hdrEnd + 4 ≤ (pre ++ 32 :: after).length)
    (hlen : (pre ++ 32 :: after).length < 2 ^ 16) {r : Request}
    (hr : parseCmd (pre ++ 32 :: after) hdrEnd after (hdrEnd - (pre.length + 1)) = r) :
    ∃ c : UInt8,
      handleCmd (pre ++ 0 :: (after ++ 0 :: stale)) (pre ++ 32 :: after).length hdrEnd pre.length =
        some (r, pre ++ c :: (after ++ 0 :: stale)) ∧ (r = .incomplete → c = 32) := by
  obtain ⟨k, rfl⟩ : ∃ k, hdrEnd = pre.length + 1 + k := ⟨hdrEnd - (pre.length + 1), by omega⟩
  have hafter : (pre ++ 0 :: (after ++ 0 :: stale)).drop (pre.length + 1) =
      after ++ 0 :: stale := by
    simp
  have hbody : (pre ++ 0 :: (after ++ 0 :: stale)).drop (pre.length + 1 + k + 4) =
      (after ++ 0 :: stale).drop (k + 4) := by
    rw [Nat.add_assoc, ← List.drop_drop, hafter]
  have hbody' : (pre ++ 32 :: after).drop (pre.length + 1 + k + 4) = after.drop (k + 4) := by
    rw [Nat.add_assoc, ← List.drop_drop]
    simp
  have hlength : (pre ++ 32 :: after).length = pre.length + 1 + after.length := by
    simp only [List.length_append, List.length_cons]
    omega
  have hhave : (pre.length + 1 + after.length + 2 ^ 32 - (pre.length + 1 + k + 4)) % 2 ^ 32 =
      (after.drop (k + 4)).length := by
    rw [List.length_drop]
    omega
  simp only [handleCmd, parseCmd, hafter, cstr_append hnul, hbody, hbody', hlength, hhave,
    Option.pure_def, Option.bind_eq_bind] at hr ⊢
  split_ifs at hr ⊢ with hlarge hmore
  · exact ⟨0, by rw [hr], fun h => absurd (hr.trans h) (by simp)⟩
  · exact ⟨32, by rw [poke_append, hr]; rfl, fun _ => rfl⟩
  · have htake : ((after ++ 0 :: stale).drop (k + 4)).take
        (contentLength (pre.length + 1 + k - (pre.length + 1)) after) =
        (after.drop (k + 4)).take
          (contentLength (pre.length + 1 + k - (pre.length + 1)) after) := by
      rw [List.drop_append_of_le_length (by omega), List.take_append_of_le_length (by omega)]
    exact ⟨0, by rw [htake, hr], fun h => absurd (hr.trans h) (by simp)⟩

/-- The handler finds in the buffer what is to be found in the bytes received, and when it waits
for more they are there again. -/
theorem handleInPlace_eq {req : Bytes} (hnul : 0 ∉ req) (hlen : req.length < 2 ^ 16) (x : UInt8)
    (stale : Bytes) :
    ∃ buf, handleInPlace (req ++ x :: stale) req.length = some (parseRequest req, buf) ∧
      buf.length = (req ++ x :: stale).length ∧
      (parseRequest req = .incomplete → req <+: buf) := by
  have hlength : (req ++ 0 :: stale).length = (req ++ x :: stale).length := by simp
  unfold handleInPlace parseRequest
  simp only [poke_append, cstr_append hnul, cstr_self hnul, Option.bind_eq_bind, Option.bind_some,
    Option.pure_def]
  cases hhdr : strstr (ascii "\r\n\r\n") req with
  | none => exact ⟨_, rfl, hlength, fun _ => List.prefix_append _ _⟩
  | some hdrEnd =>
    dsimp only
    generalize hget : (ascii "GET ").isPrefixOf req = isGet
    generalize hpost : (ascii "POST ").isPrefixOf req = isPost
    by_cases hoptions : (ascii "OPTIONS ").isPrefixOf req = true
    · simp only [if_pos hoptions]
      exact ⟨_, rfl, hlength, fun h => absurd h (by simp)⟩
    simp only [if_neg hoptions]
    by_cases hother : ¬isGet = true ∧ ¬isPost = true
    · -- neither of the methods, whatever stands where the path would
      simp only [if_pos hother]
      refine ⟨req ++ 0 :: stale, ?_, hlength, ?_⟩
      · split <;> split <;> rfl
      · split <;> exact fun h => absurd h (by simp)
    have hverb : (if isGet = true then 4 else 5) ≤ req.length := by
      split_ifs with hisGet
      · exact (List.isPrefixOf_iff_prefix.mp (hget.trans hisGet)).length_le
      · have hisPost : isPost = true := by
          by_contra hisPost
          exact hother ⟨hisGet, hisPost⟩
        exact (List.isPrefixOf_iff_prefix.mp (hpost.trans hisPost)).length_le
    generalize hv : (if isGet = true then 4 else 5) = verb at hverb ⊢
    have hdrop : (req ++ 0 :: stale).drop verb = req.drop verb ++ 0 :: stale :=
      List.drop_append_of_le_length hverb
    have hrest : 0 ∉ req.drop verb := fun hmem => hnul (List.mem_of_mem_drop hmem)
    rw [hdrop, cstr_append hrest]
    cases hcut : strchrCut (req.drop verb) 32 with
    | none => exact ⟨_, rfl, hlength, fun h => absurd h (by simp)⟩
    | some cut =>
      obtain ⟨path, after⟩ := cut
      obtain ⟨hsplit, -⟩ := strchrCut_eq_some hcut
      obtain ⟨pre, hpre, hreq⟩ : ∃ pre, pre.length = verb ∧ req = pre ++ path ++ 32 :: after :=
        ⟨req.take verb, by rw [List.length_take, min_eq_left hverb],
          by rw [List.append_assoc, ← hsplit, List.take_append_drop]⟩
      have hends : (pre ++ path).length = verb + path.length := by rw [List.length_append, hpre]
      have hafter : 0 ∉ after := fun hmem => hnul (by simp [hreq, hmem])
      have hpath : 0 ∉ path := fun hmem => hnul (by simp [hreq, hmem])
      have hbuf : req ++ 0 :: stale = (pre ++ path) ++ 32 :: (after ++ 0 :: stale) := by
        rw [hreq, List.append_assoc _ (32 :: after), List.cons_append]
      have hpoke : poke (req ++ 0 :: stale) (verb + path.length) [0] =
          some ((pre ++ path) ++ 0 :: (after ++ 0 :: stale)) := by
        rw [hbuf, ← hends, poke_append]
      have htext : cstr (((pre ++ path) ++ 0 :: (after ++ 0 :: stale)).drop verb) = path := by
        rw [List.append_assoc, List.drop_left' hpre, cstr_append hpath]
      have hcutLength : ((pre ++ path) ++ 0 :: (after ++ 0 :: stale)).length =
          (req ++ x :: stale).length := by
        rw [hreq]
        simp
      simp only [if_neg hother, hpoke, Option.bind_some, htext]
      split_ifs with hpage hpcap hstatus hscan hcmd
      · exact ⟨_, rfl, hcutLength, fun h => absurd h (by simp)⟩
      · exact ⟨_, rfl, hcutLength, fun h => absurd h (by simp)⟩
      · exact ⟨_, rfl, hcutLength, fun h => absurd h (by simp)⟩
      · exact ⟨_, rfl, hcutLength, fun h => absurd h (by simp)⟩
      · have hend : (pre ++ path).length < hdrEnd := by
          obtain ⟨hisPost, rfl⟩ := hcmd
          obtain ⟨r, hr⟩ := List.isPrefixOf_iff_prefix.mp (hpost.trans hisPost)
          have hisGet : isGet = false := by
            rw [← hget, ← hr]
            rfl
          rw [hisGet, if_neg Bool.false_ne_true] at hv
          have hpost : pre = ascii "POST " := by
            have htake := congrArg (List.take 5) (hr.trans hreq)
            rw [List.append_assoc, List.take_left' (hpre.trans hv.symm)] at htake
            exact htake.symm.trans (List.take_left' rfl)
          -- the headers do not end in front of the text that was just read
          have hline : 13 ∉ pre ++ ascii "/api/cmd" ++ [32] := by
            rw [hpost]
            decide
          have hskip := strstr_blankLine_skip hline after
          rw [List.append_assoc _ [32], List.singleton_append, ← hreq] at hskip
          obtain ⟨k, -, rfl⟩ := Option.map_eq_some_iff.mp (hskip.symm.trans hhdr)
          simp only [List.length_append, List.length_singleton]
          omega
        obtain ⟨c, hout, hwait⟩ := handleCmd_eq hafter stale hend (r := _)
          (by rw [← hreq]; exact (strstr_eq_some hhdr).2) (by rw [← hreq]; exact hlen) rfl
        rw [← hreq, hends] at hout
        refine ⟨_, hout, ?_, fun h => ?_⟩
        · rw [← hcutLength]
          simp
        · rw [← hreq, hends] at hwait
          rw [hwait h, ← hbuf]
          exact List.prefix_append _ _
      · exact ⟨_, rfl, hcutLength, fun h => absurd h (by simp)⟩

/-! ### Segments in the buffer -/

/-- The buffer of an open connection, with the given number of bytes in use. -/
structure ReqBuf.Open (c : ReqBuf) (n : Nat) : Prop where
  size : c.req.length = reqMax
  len : c.reqLen = n
  room : n ≤ reqMax - 1
  served : c.aborted = false

/-- A segment that arrives after the response is stored and not looked at. -/
theorem ReqBuf.recv_responded {c : ReqBuf} {n : Nat} (h : c.Open n) (hr : c.responded = true)
    (data : Bytes) :
    ∃ c' n', c.recv data = some c' ∧ c'.Open n' ∧ c'.responded = true ∧ c'.acts = c.acts := by
  obtain ⟨hsize, hlen, hroom, hserved⟩ := h
  have hmax : 0 < reqMax := by decide
  have htake : (data.take (min data.length (reqMax - 1 - n))).length =
      min data.length (reqMax - 1 - n) := by
    rw [List.length_take]
    omega
  obtain ⟨req', hpoke, hwrote⟩ := poke_wrote c.req n
    (data.take (min data.length (reqMax - 1 - n))) (by omega)
  refine ⟨{ c with req := req', reqLen := n + min data.length (reqMax - 1 - n) },
    n + min data.length (reqMax - 1 - n), ?_,
    ⟨hwrote.length.trans hsize, rfl, by omega, hserved⟩, hr, rfl⟩
  simp [ReqBuf.recv, hserved, hlen, hpoke, hr]

/-- A segment that is looked at: what is found is what is to be found in the bytes so far, and they
are kept when there is nothing to do. -/
theorem ReqBuf.recv_open {c : ReqBuf} {req data : Bytes} (h : c.Open req.length)
    (htext : req <+: c.req) (hr : c.responded = false) (hne : data ≠ []) (hnul : 0 ∉ req ++ data)
    (hfit : (req ++ data).length ≤ reqMax - 1) :
    ∃ c', c.recv data = some c' ∧ c'.Open (req ++ data).length ∧
      c'.acts = c.acts ++ (parseRequest (req ++ data)).acted ∧
      c'.responded = decide (parseRequest (req ++ data) ≠ .incomplete) ∧
      (parseRequest (req ++ data) = .incomplete → req ++ data <+: c'.req) := by
  obtain ⟨hsize, hlen, -, hserved⟩ := h
  obtain ⟨old, hold⟩ := htext
  have hmax : reqMax = 1024 := rfl
  have hlength : (req ++ data).length = req.length + data.length := List.length_append
  have holdLength := congrArg List.length hold
  rw [List.length_append] at holdLength
  have hmin : min data.length (reqMax - 1 - req.length) = data.length := by omega
  have hpos : data.length ≠ 0 := fun h => hne (List.eq_nil_of_length_eq_zero h)
  obtain ⟨x, stale, hdrop⟩ : ∃ x stale, old.drop data.length = x :: stale := by
    refine List.exists_cons_of_length_pos ?_
    rw [List.length_drop]
    omega
  have hpoke : poke c.req req.length data = some ((req ++ data) ++ x :: stale) := by
    have hfits : req.length + data.length ≤ c.req.length := by omega
    rw [poke, if_pos hfits, splice_eq_append hfits, ← hold, List.take_left, ← List.drop_drop,
      List.drop_left, hdrop, List.append_assoc]
  have hwhole : ((req ++ data) ++ x :: stale).length = c.req.length := by
    have hdropLength := congrArg List.length hdrop
    rw [List.length_drop, List.length_cons] at hdropLength
    rw [List.length_append, List.length_cons]
    omega
  obtain ⟨buf, hout, hbuf, hwait⟩ := handleInPlace_eq hnul (by omega) x stale
  refine ⟨{ c with
      req := buf
      reqLen := (req ++ data).length
      responded := parseRequest (req ++ data) ≠ .incomplete
      acts := c.acts ++ (parseRequest (req ++ data)).acted }, ?_,
    ⟨hbuf.trans (hwhole.trans hsize), rfl, hfit, hserved⟩, rfl, rfl, hwait⟩
  rw [hlength, List.append_assoc] at hout
  rw [hlength]
  simp [ReqBuf.recv, hserved, hlen, hmin, hpoke, hr, hpos, hout]

/-- What is done about a request that arrives in some segments behind `req`: it is looked at with
each until there is something to do. -/
def decided : Bytes → List Bytes → List Request
  | _, [] => []
  | req, data :: rest =>
    if parseRequest (req ++ data) = .incomplete then decided (req ++ data) rest
    else [parseRequest (req ++ data)]

theorem acted_eq (r : Request) : r.acted = if r = .incomplete then [] else [r] := by
  cases r <;> rfl

theorem foldlM_responded {c : ReqBuf} {n : Nat} (h : c.Open n) (hr : c.responded = true)
    (segs : List Bytes) : ∃ c', segs.foldlM ReqBuf.recv c = some c' ∧ c'.acts = c.acts := by
  induction segs generalizing c n with
  | nil => exact ⟨c, rfl, rfl⟩
  | cons data rest ih =>
    obtain ⟨c₁, n₁, hc₁, hopen, hr₁, hacts₁⟩ := ReqBuf.recv_responded h hr data
    obtain ⟨c', hc', hacts'⟩ := ih hopen hr₁
    refine ⟨c', ?_, hacts'.trans hacts₁⟩
    rw [List.foldlM_cons, hc₁]
    exact hc'

theorem foldlM_open {c : ReqBuf} {req : Bytes} {segs : List Bytes} (h : c.Open req.length)
    (htext : req <+: c.req) (hr : c.responded = false) (hne : ∀ data ∈ segs, data ≠ [])
    (hnul : 0 ∉ req ++ segs.flatten) (hfit : (req ++ segs.flatten).length ≤ reqMax - 1) :
    ∃ c', segs.foldlM ReqBuf.recv c = some c' ∧ c'.acts = c.acts ++ decided req segs := by
  induction segs generalizing c req with
  | nil => exact ⟨c, rfl, by simp [decided]⟩
  | cons data rest ih =>
    rw [List.flatten_cons, ← List.append_assoc] at hnul hfit
    obtain ⟨c₁, hc₁, hopen, hacts₁, hr₁, hwait⟩ := ReqBuf.recv_open h htext hr
      (hne data List.mem_cons_self) (fun hmem => hnul (List.mem_append_left _ hmem))
      (by rw [List.length_append] at hfit; omega)
    rw [acted_eq] at hacts₁
    rw [List.foldlM_cons, hc₁, decided]
    split_ifs at hacts₁ ⊢ with hparse
    · rw [List.append_nil] at hacts₁
      obtain ⟨c', hc', hacts'⟩ := ih hopen (hwait hparse) (by rw [hr₁, hparse]; rfl)
        (fun x hx => hne x (List.mem_cons_of_mem _ hx)) hnul hfit
      exact ⟨c', hc', by rw [hacts', hacts₁]⟩
    · obtain ⟨c', hc', hacts'⟩ := foldlM_responded hopen (by rw [hr₁]; simpa using hparse) rest
      exact ⟨c', hc', by rw [hacts', hacts₁]⟩

/-- Without a zero among them, the bytes of a request that fits into the buffer are treated as
`parseRequest` says of what has arrived. -/
theorem recvAll_acts {segs : List Bytes} (hne : ∀ data ∈ segs, data ≠ [])
    (hnul : 0 ∉ segs.flatten) (hfit : segs.flatten.length ≤ reqMax - 1) :
    ∃ c, recvAll segs = some c ∧ c.acts = decided [] segs := by
  have hopen : ({} : ReqBuf).Open ([] : Bytes).length :=
    ⟨List.length_replicate, rfl, Nat.zero_le _, rfl⟩
  exact foldlM_open hopen List.nil_prefix rfl hne hnul hfit

end Molewire
