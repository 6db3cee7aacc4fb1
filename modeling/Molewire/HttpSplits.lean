/-
# Requests in segments

With every segment the portal looks at a request again from its start. Before
the end of the headers it waits, and from there on most requests are decided by
their first line. Only a console line has to wait for its body, whose length is
read from behind `Content-Length:`, and where nothing stands there `strtoul`
goes on over the end of the headers into what has arrived of the body.
-/

import Mathlib.Data.Bool.AllAny
import Molewire.HttpFraming
import Molewire.HttpRequest

namespace Molewire

open ByteBuffer SpanQueue

/-! ### Searching in a prefix -/

theorem strstr_append {pat s : CStr} {h : Nat} (hs : strstr pat s = some h) (t : CStr) :
    strstr pat (s ++ t) = some h := by
  induction s generalizing h with
  | nil =>
    unfold strstr at hs
    split_ifs at hs with hpat
    subst hpat
    obtain rfl := Option.some.inj hs
    cases t <;> rfl
  | cons c s ih =>
    obtain ⟨-, hle⟩ := strstr_eq_some hs
    unfold strstr at hs
    rw [List.cons_append, strstr]
    split_ifs at hs with hpat
    · have hprefix := (List.isPrefixOf_iff_prefix.mp hpat).trans (List.prefix_append (c :: s) t)
      rw [List.cons_append] at hprefix
      rw [if_pos (List.isPrefixOf_iff_prefix.mpr hprefix)]
      exact hs
    · obtain ⟨k, hk, rfl⟩ := Option.map_eq_some_iff.mp hs
      have hno : ¬pat.isPrefixOf (c :: (s ++ t)) = true := by
        intro hprefix
        refine hpat (List.isPrefixOf_iff_prefix.mpr ?_)
        exact List.prefix_of_prefix_length_le (List.isPrefixOf_iff_prefix.mp hprefix)
          (List.prefix_append (c :: s) t) (by omega)
      rw [if_neg hno, ih hk]
      rfl

/-- Where a text has no occurrence, its prefixes have none. -/
theorem strstr_prefix_none {pat s t : CStr} (h : strstr pat (s ++ t) = none) :
    strstr pat s = none := by
  cases hs : strstr pat s with
  | none => rfl
  | some k => exact absurd ((strstr_append hs t).symm.trans h) (by simp)

/-- A prefix that does not reach the end of the first occurrence has none. -/
theorem strstr_prefix_short {pat s t : CStr} {h : Nat} (hs : strstr pat (s ++ t) = some h)
    (hshort : s.length < h + pat.length) : strstr pat s = none := by
  cases hs' : strstr pat s with
  | none => rfl
  | some k =>
    obtain rfl := Option.some.inj ((strstr_append hs' t).symm.trans hs)
    have hle := (strstr_eq_some hs').2
    omega

/-! ### Numbers in a prefix -/

/-- What `strtoul` finds behind blanks and a sign. -/
def unsignedText (s : CStr) : CStr :=
  let t := s.dropWhile isspace
  if t.head? = some 45 ∨ t.head? = some 43 then t.tail else t

/-- A minus sign is in front of the digits. -/
def HasMinus (s : CStr) : Prop := (s.dropWhile isspace).head? = some 45

instance (s : CStr) : Decidable (HasMinus s) := inferInstanceAs (Decidable (_ = _))

/-- The digits `strtoul` reads. -/
def digitsOf (s : CStr) : CStr := (unsignedText s).takeWhile isdigit

/-- Their value. -/
def digitsValue (ds : CStr) : Nat := ds.foldl (fun acc c => 10 * acc + (c - 48).toNat) 0

theorem strtoul_eq (s : CStr) :
    strtoul s =
      if 2 ^ 32 ≤ digitsValue (digitsOf s) then 2 ^ 32 - 1
      else if HasMinus s then (2 ^ 32 - digitsValue (digitsOf s)) % 2 ^ 32
      else digitsValue (digitsOf s) := rfl

/-- `strtoul` passes over blanks. -/
theorem strtoul_blank {w : CStr} (hw : w.all isspace) (s : CStr) :
    strtoul (w ++ s) = strtoul s := by
  have hdrop : (w ++ s).dropWhile isspace = s.dropWhile isspace := by
    rw [List.dropWhile_append]
    simp [List.dropWhile_eq_nil_iff.mpr (List.all_eq_true.mp hw)]
  unfold strtoul
  rw [hdrop]

/-- It stops at the end of a line. -/
theorem strtoul_line {w : CStr} (hw : ¬w.all isspace) (s : CStr) :
    strtoul (w ++ 13 :: s) = strtoul w := by
  have hne : w.dropWhile isspace ≠ [] := by
    intro hnil
    exact hw (List.all_eq_true.mpr (List.dropWhile_eq_nil_iff.mp hnil))
  obtain ⟨c, u, hcu⟩ := List.exists_cons_of_ne_nil hne
  have hdrop : (w ++ 13 :: s).dropWhile isspace = c :: u ++ 13 :: s := by
    rw [List.dropWhile_append, hcu]
    rfl
  have hminus : HasMinus (w ++ 13 :: s) ↔ HasMinus w := by
    rw [HasMinus, HasMinus, hdrop, hcu]
    rfl
  have htext : unsignedText (w ++ 13 :: s) = unsignedText w ++ 13 :: s := by
    simp only [unsignedText, hdrop, hcu, List.cons_append, List.head?_cons, List.tail_cons]
    split_ifs <;> rfl
  have hstop (v : CStr) : (v ++ 13 :: s).takeWhile isdigit = v.takeWhile isdigit := by
    induction v with
    | nil => rfl
    | cons d v ih => by_cases hd : isdigit d <;> simp [hd, ih]
  rw [strtoul_eq, strtoul_eq, digitsOf, htext, hstop, ← digitsOf]
  simp only [hminus]

theorem dropWhile_prefix {p : UInt8 → Bool} {b s : CStr} (h : b <+: s) :
    b.dropWhile p <+: s.dropWhile p := by
  obtain ⟨t, rfl⟩ := h
  rw [List.dropWhile_append]
  split_ifs with hnil
  · rw [List.isEmpty_iff.mp hnil]
    exact List.nil_prefix
  · exact List.prefix_append _ _

theorem digitsOf_mono {b s : CStr} (h : b <+: s) : digitsOf b <+: digitsOf s := by
  obtain ⟨t, ht⟩ := dropWhile_prefix (p := isspace) h
  have htext : unsignedText b <+: unsignedText s := by
    unfold unsignedText
    rw [← ht]
    cases hb : b.dropWhile isspace with
    | nil => simp
    | cons c u =>
      by_cases hsign : c = 45 ∨ c = 43
      · simp [hsign]
      · simp [hsign]
  obtain ⟨r, hr⟩ := htext
  rw [digitsOf, digitsOf, ← hr, List.takeWhile_append]
  split_ifs with hall
  · rw [(List.takeWhile_sublist _).eq_of_length hall]
    exact List.prefix_append _ _
  · exact List.prefix_rfl

theorem digitsValue_append (ds : CStr) (d : UInt8) :
    digitsValue (ds ++ [d]) = 10 * digitsValue ds + (d - 48).toNat := by
  simp [digitsValue]

theorem digitsValue_mono {ds es : CStr} (h : ds <+: es) : digitsValue ds ≤ digitsValue es := by
  obtain ⟨r, rfl⟩ := h
  induction r using List.reverseRecOn with
  | nil => simp
  | append_singleton r d ih =>
    rw [← List.append_assoc, digitsValue_append]
    omega

/-- What has arrived of a number without a sign is at most the number. -/
theorem strtoul_prefix_le {b s : CStr} (h : b <+: s) (hs : strtoul s < 2 ^ 32 - 1)
    (hminus : ¬HasMinus s) : strtoul b ≤ strtoul s := by
  have hvalue := digitsValue_mono (digitsOf_mono h)
  have hminus' : ¬HasMinus b := by
    intro hb
    obtain ⟨t, ht⟩ := dropWhile_prefix (p := isspace) h
    rw [HasMinus] at hb
    refine hminus ?_
    rw [HasMinus, ← ht, List.head?_append, hb]
    rfl
  rw [strtoul_eq s, if_neg hminus] at hs ⊢
  rw [strtoul_eq b, if_neg hminus']
  split_ifs at hs ⊢ <;> omega

theorem digitsValue_cons_zero {d : UInt8} (hd : (d - 48).toNat = 0) (ds : CStr) :
    digitsValue (d :: ds) = digitsValue ds := by
  simp [digitsValue, hd]

/-- A number other than zero has a first digit other than zero. -/
theorem exists_first_digit {ds : CStr} (h : digitsValue ds ≠ 0) :
    ∃ zeros d rest, ds = zeros ++ d :: rest ∧ digitsValue (zeros ++ [d]) = (d - 48).toNat ∧
      (d - 48).toNat ≠ 0 := by
  induction ds with
  | nil => exact absurd rfl h
  | cons d ds ih =>
    by_cases hd : (d - 48).toNat = 0
    · rw [digitsValue_cons_zero hd] at h
      obtain ⟨zeros, e, rest, rfl, hvalue, he⟩ := ih h
      refine ⟨d :: zeros, e, rest, rfl, ?_, he⟩
      rw [List.cons_append, digitsValue_cons_zero hd, hvalue]
    · exact ⟨[], d, ds, rfl, by simp [digitsValue], hd⟩

/-- Of a number with a minus sign, the part up to its first digit other than zero is huge. -/
theorem exists_prefix_huge {s : CStr} (hminus : HasMinus s) (hs : strtoul s ≠ 0) :
    ∃ b, b <+: s ∧ 256 < strtoul b := by
  obtain ⟨u, hu⟩ : ∃ u, s.dropWhile isspace = 45 :: u := by
    rw [HasMinus] at hminus
    cases hdrop : s.dropWhile isspace with
    | nil => simp [hdrop] at hminus
    | cons c u =>
      rw [hdrop, List.head?_cons, Option.some.injEq] at hminus
      exact ⟨u, by rw [hminus]⟩
  have hdigits : digitsOf s = u.takeWhile isdigit := by simp [digitsOf, unsignedText, hu]
  have hvalue : digitsValue (u.takeWhile isdigit) ≠ 0 := by
    intro hzero
    rw [strtoul_eq, hdigits, hzero] at hs
    simp at hs
  obtain ⟨zeros, d, rest, hsplit, hfirst, hd⟩ := exists_first_digit hvalue
  have hall : ∀ x ∈ zeros ++ d :: rest, isdigit x = true := fun x hx =>
    List.mem_takeWhile_imp (hsplit ▸ hx)
  have hblank : ∀ x ∈ s.takeWhile isspace, isspace x = true := fun x hx =>
    List.mem_takeWhile_imp hx
  refine ⟨s.takeWhile isspace ++ 45 :: (zeros ++ [d]), ?_, ?_⟩
  · have hrest : zeros ++ [d] <+: u := by
      refine List.IsPrefix.trans ?_ (hsplit ▸ List.takeWhile_prefix isdigit)
      exact ⟨rest, by simp⟩
    obtain ⟨t, ht⟩ := hrest
    refine ⟨t, ?_⟩
    rw [List.append_assoc, List.cons_append, ht, ← hu, List.takeWhile_append_dropWhile]
  · have hdrop : (s.takeWhile isspace ++ 45 :: (zeros ++ [d])).dropWhile isspace =
        45 :: (zeros ++ [d]) := by
      rw [List.dropWhile_append_of_pos hblank]
      rfl
    have hminus' : HasMinus (s.takeWhile isspace ++ 45 :: (zeros ++ [d])) := by
      rw [HasMinus, hdrop]
      rfl
    have hdigits' : digitsOf (s.takeWhile isspace ++ 45 :: (zeros ++ [d])) = zeros ++ [d] := by
      have htake : (zeros ++ [d]).takeWhile isdigit = zeros ++ [d] :=
        List.takeWhile_eq_self_iff.mpr fun x hx => hall x (by
          rw [List.mem_append, List.mem_singleton] at hx
          simpa using hx.imp_right .inl)
      simp [digitsOf, unsignedText, hdrop, htake]
    have hsmall : (d - 48).toNat ≤ 9 := by
      have hdigit := hall d (by simp)
      simp only [isdigit, Bool.and_eq_true, decide_eq_true_eq] at hdigit
      obtain ⟨hlo, hhi⟩ := hdigit
      have hlo' : 48 ≤ d.toNat := hlo
      have hhi' : d.toNat ≤ 57 := hhi
      rw [UInt8.toNat_sub_of_le _ _ hlo]
      have h48 : (48 : UInt8).toNat = 48 := rfl
      omega
    rw [strtoul_eq, hdigits', hfirst, if_neg (by omega), if_pos hminus']
    omega

/-! ### The length of a body -/

/-- What stands behind the first `Content-Length:` of some headers, up to their end. -/
def lengthText : CStr → Option CStr
  | [] => none
  | c :: x =>
    if c = 10 ∧ strcasecmpEq (x.take 15) (ascii "Content-Length:") then some (x.drop 15)
    else lengthText x

/-- The length headers announce, as `strtoul` reads it from them alone. -/
def announced (headers : CStr) : Nat := (lengthText headers).elim 0 strtoul

/-- The length was left out behind its name, and nothing follows in the headers. -/
def LengthBlank (headers : CStr) : Prop := ∃ w ∈ lengthText headers, w.all isspace

/-- A name of a header does not go on over the end of its line. -/
theorem strcasecmpEq_of_mem {a : CStr} (h : 13 ∈ a) :
    strcasecmpEq a (ascii "Content-Length:") = false := by
  rw [← Bool.not_eq_true]
  intro heq
  have hmap : a.map tolower = (ascii "Content-Length:").map tolower := by
    simpa [strcasecmpEq] using heq
  have hmem : tolower 13 ∈ (ascii "Content-Length:").map tolower :=
    hmap ▸ List.mem_map_of_mem h
  exact absurd hmem (by decide)

theorem strcasecmpEq_of_short {a : CStr} (h : a.length < 15) :
    strcasecmpEq a (ascii "Content-Length:") = false := by
  rw [← Bool.not_eq_true]
  intro heq
  have hmap : a.map tolower = (ascii "Content-Length:").map tolower := by
    simpa [strcasecmpEq] using heq
  have hlen := congrArg List.length hmap
  have hname : ((ascii "Content-Length:").map tolower).length = 15 := rfl
  rw [List.length_map, hname] at hlen
  omega

/-- The search finds what stands in the headers, and `strtoul` goes on behind them. -/
theorem contentLength_headers (x : CStr) (b : CStr) :
    contentLength x.length (x ++ (blankLine ++ b)) =
      (lengthText x).elim 0 fun w => strtoul (w ++ (blankLine ++ b)) := by
  induction x with
  | nil => simp [contentLength, lengthText]
  | cons c x ih =>
    rw [List.length_cons, List.cons_append, contentLength, lengthText]
    rcases Nat.lt_or_ge x.length 15 with hshort | hlong
    · -- too little is left of the headers
      have hcr : 13 ∈ (x ++ (blankLine ++ b)).take 15 := by
        obtain ⟨n, hn⟩ : ∃ n, 15 - x.length = n + 1 := ⟨14 - x.length, by omega⟩
        rw [List.take_append, hn]
        simp
      rw [strcasecmpEq_of_mem hcr,
        strcasecmpEq_of_short ((List.length_take_le' _ _).trans_lt hshort)]
      simpa using ih
    · rw [List.take_append_of_le_length hlong, List.drop_append_of_le_length hlong]
      split_ifs
      · rfl
      · exact ih

/-- With something behind the name the length is what the headers announce. -/
theorem contentLength_announced' {x : CStr} (h : ¬LengthBlank x) (b : CStr) :
    contentLength x.length (x ++ (blankLine ++ b)) = announced x := by
  rw [contentLength_headers, announced]
  cases hw : lengthText x with
  | none => rfl
  | some w => exact strtoul_line (fun hblank => h ⟨w, hw, hblank⟩) _

/-- With nothing behind it, the length is what the body begins with. -/
theorem contentLength_blank {x : CStr} (h : LengthBlank x) (b : CStr) :
    contentLength x.length (x ++ (blankLine ++ b)) = strtoul b ∧ announced x = 0 := by
  obtain ⟨w, hw, hblank⟩ := h
  rw [Option.mem_def] at hw
  rw [contentLength_headers, announced, hw, Option.elim_some, Option.elim_some]
  refine ⟨?_, ?_⟩
  · rw [strtoul_blank hblank, strtoul_blank (by decide)]
  · have hnil := strtoul_blank hblank []
    rwa [List.append_nil] at hnil

/-! ### First lines -/

/-- The first line of a request. -/
structure FirstLine (req : Bytes) : Prop where
  form : ∃ method path q rest : CStr,
    req = method ++ 32 :: (path ++ 32 :: (q ++ 13 :: 10 :: rest)) ∧
      (∀ c ∈ method, c ≠ 32 ∧ c ≠ 13 ∧ c ≠ 10) ∧ ∀ c ∈ path, c ≠ 32 ∧ c ≠ 13 ∧ c ≠ 10

/-- What is to be done about a request with complete headers, where `cmd` is what is to be done
about a console line. -/
def lineRequest (method path : CStr) (cmd : Request) : Request :=
  if method = ascii "OPTIONS" then .preflight
  else if method = ascii "GET" then
    if path = ascii "/" ∨ path = ascii "/index.html" then .page
    else if path = ascii "/api/pcap" then .pcap
    else if path = ascii "/api/status" then .status
    else if path = ascii "/api/scan" then .scan false
    else .notFound
  else if method = ascii "POST" then
    if path = ascii "/api/scan" then .scan true
    else if path = ascii "/api/cmd" then cmd
    else .notFound
  else .badRequest

theorem strchrCut_append {p : CStr} (hp : 32 ∉ p) (y : CStr) :
    strchrCut (p ++ 32 :: y) 32 = some (p, y) := by
  have hall : ∀ c ∈ p, (c != 32) = true := by
    intro c hc
    simpa using fun h : c = 32 => hp (h ▸ hc)
  rw [strchrCut, List.dropWhile_append_of_pos hall, List.takeWhile_append_of_pos hall]
  simp

/-- A word and a blank are in front of a text whose first word is that. -/
theorem isPrefixOf_word {w m : CStr} (hw : 32 ∉ w) (hm : 32 ∉ m) (y : CStr) :
    (w ++ [32]).isPrefixOf (m ++ 32 :: y) = decide (m = w) := by
  rw [Bool.eq_iff_iff, List.isPrefixOf_iff_prefix, decide_eq_true_eq]
  constructor
  · rintro ⟨r, hr⟩
    rw [List.append_assoc, List.singleton_append] at hr
    have hcut := congrArg (strchrCut · 32) hr
    simp only [strchrCut_append hw, strchrCut_append hm, Option.some.injEq, Prod.mk.injEq] at hcut
    exact hcut.1.symm
  · rintro rfl
    exact ⟨y, by simp⟩

/-- With complete headers the first line decides about all requests but a console line. -/
theorem parseRequest_line {m p y : CStr} {h : Nat} (hm : 32 ∉ m) (hp : 32 ∉ p)
    (hnul : 0 ∉ m ++ 32 :: (p ++ 32 :: y))
    (hh : strstr blankLine (m ++ 32 :: (p ++ 32 :: y)) = some h) :
    parseRequest (m ++ 32 :: (p ++ 32 :: y)) =
      lineRequest m p (parseCmd (m ++ 32 :: (p ++ 32 :: y)) h y (h - (5 + p.length + 1))) := by
  have hget := isPrefixOf_word (w := ascii "GET") (by decide) hm (p ++ 32 :: y)
  have hpost := isPrefixOf_word (w := ascii "POST") (by decide) hm (p ++ 32 :: y)
  have hoptions := isPrefixOf_word (w := ascii "OPTIONS") (by decide) hm (p ++ 32 :: y)
  have hwords : ascii "GET " = ascii "GET" ++ [32] ∧ ascii "POST " = ascii "POST" ++ [32] ∧
      ascii "OPTIONS " = ascii "OPTIONS" ++ [32] ∧ ascii "\r\n\r\n" = blankLine :=
    ⟨rfl, rfl, rfl, rfl⟩
  have hcut := strchrCut_append hp y
  unfold parseRequest lineRequest
  simp only [cstr_self hnul, hwords, hh, hget, hpost, hoptions, decide_eq_true_eq]
  by_cases hmo : m = ascii "OPTIONS"
  · rw [if_pos hmo, if_pos hmo]
  rw [if_neg hmo, if_neg hmo]
  by_cases hmg : m = ascii "GET"
  · subst hmg
    have hdrop : (ascii "GET" ++ 32 :: (p ++ 32 :: y)).drop 4 = p ++ 32 :: y := rfl
    have hmp : ¬ascii "GET" = ascii "POST" := by decide
    simp only [if_true, hdrop, hcut, hmp, decide_false, not_true_eq_false, false_and, true_and,
      if_false]
  · by_cases hmp : m = ascii "POST"
    · subst hmp
      have hdrop : (ascii "POST" ++ 32 :: (p ++ 32 :: y)).drop 5 = p ++ 32 :: y := rfl
      simp only [hmg, if_true, hdrop, hcut, decide_true, not_true_eq_false, false_and, true_and,
        and_false, if_false]
    · simp only [hmg, hmp, not_false_eq_true, and_self, if_true, if_false]
      split <;> rfl

/-! ### Splits -/

/-- `POST /api/cmd`, with what stands between the path and the empty line, and a body. -/
structure CmdRequest (req : Bytes) (headers body : CStr) : Prop where
  text : req = ascii "POST /api/cmd " ++ (headers ++ (blankLine ++ body))
  ends : strstr blankLine (headers ++ blankLine) = some headers.length

/-- What a request comes to: a console line is run only for a console request, and it is the part
of the body the headers announce, up to the end of its first line. When that part is there, and not
too large, it is run, once. -/
structure Handled (req : Bytes) (acts : List Request) : Prop where
  lines : ∀ line, .command line ∈ acts →
    ∃ headers body, CmdRequest req headers body ∧ line = portalLine (body.take (announced headers))
  once : ∀ headers body, CmdRequest req headers body → announced headers ≤ 256 →
    announced headers ≤ body.length → ∃ line, acts = [.command line]

/-- However its bytes are split into segments, the request comes to the same as in one. -/
def SplitFree (req : Bytes) : Prop :=
  ∀ segs : List Bytes, (∀ data ∈ segs, data ≠ []) → segs.flatten = req →
    ∃ c c₁, recvAll segs = some c ∧ recvAll [req] = some c₁ ∧ c.acts = c₁.acts ∧
      Handled req c.acts

/-- When every look at a request finds either nothing yet or the same, so does the run. -/
theorem decided_of_same {req : Bytes} {segs : List Bytes} {r : Request}
    (hreq : parseRequest req = .incomplete)
    (hall : ∀ pre, pre <+: req ++ segs.flatten →
      parseRequest pre = .incomplete ∨ parseRequest pre = r)
    (hwhole : parseRequest (req ++ segs.flatten) = r) : decided req segs = r.acted := by
  induction segs generalizing req with
  | nil =>
    rw [List.flatten_nil, List.append_nil, hreq] at hwhole
    rw [← hwhole]
    rfl
  | cons data rest ih =>
    rw [List.flatten_cons, ← List.append_assoc] at hall hwhole
    rw [decided]
    split_ifs with hmore
    · exact ih hmore hall hwhole
    · have hr := (hall _ (List.prefix_append _ _)).resolve_left hmore
      rw [hr, acted_eq, if_neg (hr ▸ hmore)]

theorem parseRequest_nil : parseRequest [] = .incomplete := rfl

/-- In one segment. -/
theorem decided_whole (req : Bytes) : decided [] [req] = (parseRequest req).acted := by
  rw [decided, List.nil_append, acted_eq]
  split_ifs <;> rfl

/-- In two segments, where the first is not left alone. -/
theorem decided_two {a b : Bytes} (h : parseRequest a ≠ .incomplete) :
    decided [] [a, b] = [parseRequest a] := by
  rw [decided, List.nil_append, if_neg h]

/-- A prefix that ends before the headers do is left alone. -/
theorem parseRequest_of_none {pre : Bytes} (h : strstr blankLine (cstr pre) = none) :
    parseRequest pre = .incomplete := by
  unfold parseRequest
  have hblank : ascii "\r\n\r\n" = blankLine := rfl
  simp only [hblank, h]

/-- A prefix of a request ends before the headers do, or has all of them and some of the body. -/
theorem prefix_cases {head body pre : CStr} {h : Nat}
    (hends : strstr blankLine (head ++ body) = some h) (hlen : head.length = h + 4)
    (hpre : pre <+: head ++ body) :
    strstr blankLine pre = none ∨ ∃ b, b <+: body ∧ pre = head ++ b := by
  rcases Nat.lt_or_ge pre.length head.length with hshort | hlong
  · obtain ⟨t, ht⟩ := hpre
    rw [← ht] at hends
    rw [hlen] at hshort
    exact .inl (strstr_prefix_short hends hshort)
  · obtain ⟨b, rfl⟩ := List.prefix_of_prefix_length_le (List.prefix_append head body) hpre hlong
    exact .inr ⟨b, (List.prefix_append_right_inj head).mp hpre, rfl⟩

/-! ### Console lines -/

/-- What is to be done about a console line of `n` bytes. -/
def cmdOutcome (n : Nat) (body : CStr) : Request :=
  if 256 < n then .tooLarge
  else if body.length < n then .incomplete
  else .command (portalLine (body.take n))

namespace CmdRequest

variable {req : Bytes} {headers body : CStr}

/-- The headers, with the first line and the empty one. -/
abbrev head (headers : CStr) : CStr := ascii "POST /api/cmd " ++ (headers ++ blankLine)

theorem text_eq (h : CmdRequest req headers body) : req = head headers ++ body := by
  rw [h.text, head, List.append_assoc, List.append_assoc]

theorem strstr_head (h : CmdRequest req headers body) (b : CStr) :
    strstr blankLine (head headers ++ b) = some (headers.length + 14) := by
  have hline : 13 ∉ ascii "POST /api/cmd " := by decide
  have hskip := strstr_blankLine_skip hline (headers ++ blankLine ++ b)
  rw [strstr_append h.ends] at hskip
  rw [head, List.append_assoc, hskip]
  rfl

theorem length_head (headers : CStr) : (head headers).length = headers.length + 14 + 4 := by
  simp [head, ascii]

/-- With the headers and some of the body. -/
theorem parse_head (h : CmdRequest req headers body) {b : CStr} (hnul : 0 ∉ head headers ++ b) :
    parseRequest (head headers ++ b) =
      cmdOutcome (contentLength headers.length (headers ++ (blankLine ++ b))) b := by
  have htext : head headers ++ b =
      ascii "POST" ++ 32 :: (ascii "/api/cmd" ++ 32 :: (headers ++ (blankLine ++ b))) := by
    rw [head, List.append_assoc, List.append_assoc]
    rfl
  have hends := h.strstr_head b
  have hbody : (head headers ++ b).drop (headers.length + 14 + 4) = b :=
    List.drop_left' (length_head headers)
  have hleft : headers.length + 14 - (5 + (ascii "/api/cmd").length + 1) = headers.length := by
    have hlen : (ascii "/api/cmd").length = 8 := rfl
    omega
  rw [htext] at hends hnul ⊢
  rw [parseRequest_line (by decide) (by decide) hnul hends, hleft, ← htext]
  simp only [lineRequest, parseCmd, hbody]
  rfl

/-- Every look at such a request finds nothing yet, or what is decided with some of the body. -/
theorem parse_prefix (h : CmdRequest req headers body) (hnul : 0 ∉ req) {pre : Bytes}
    (hpre : pre <+: req) :
    parseRequest pre = .incomplete ∨ ∃ b, b <+: body ∧
      parseRequest pre = cmdOutcome (contentLength headers.length (headers ++ (blankLine ++ b))) b := by
  have hnulPre : 0 ∉ pre := fun hmem => hnul (hpre.subset hmem)
  rcases prefix_cases (h.strstr_head body) (length_head headers) (h.text_eq ▸ hpre) with
    hnone | ⟨b, hb, rfl⟩
  · exact .inl (parseRequest_of_none (by rwa [cstr_self hnulPre]))
  · exact .inr ⟨b, hb, h.parse_head hnulPre⟩

theorem parse_whole (h : CmdRequest req headers body) (hnul : 0 ∉ req) :
    parseRequest req =
      cmdOutcome (contentLength headers.length (headers ++ (blankLine ++ body))) body := by
  have hnul' : 0 ∉ head headers ++ body := h.text_eq ▸ hnul
  conv_lhs => rw [h.text_eq]
  exact h.parse_head hnul'

/-- The headers and the body are determined by the request. -/
theorem unique {headers' body' : CStr} (h : CmdRequest req headers body)
    (h' : CmdRequest req headers' body') : headers = headers' ∧ body = body' := by
  have hlen : headers.length = headers'.length := by
    have hends := h.strstr_head body
    have hends' := h'.strstr_head body'
    rw [← h.text_eq] at hends
    rw [← h'.text_eq, hends, Option.some.injEq] at hends'
    omega
  have htext := h.text.symm.trans h'.text
  obtain ⟨hheaders, hrest⟩ := List.append_inj (List.append_cancel_left htext) hlen
  exact ⟨hheaders, List.append_cancel_left hrest⟩

end CmdRequest

/-- With a fixed length, a body that is long enough is decided about by its first bytes. -/
theorem cmdOutcome_prefix (n : Nat) {b body : CStr} (hb : b <+: body) :
    cmdOutcome n b = .incomplete ∨ cmdOutcome n b = cmdOutcome n body := by
  have hle := hb.length_le
  by_cases hlarge : 256 < n
  · exact .inr (by rw [cmdOutcome, cmdOutcome, if_pos hlarge, if_pos hlarge])
  by_cases hmore : b.length < n
  · exact .inl (by rw [cmdOutcome, if_neg hlarge, if_pos hmore])
  · right
    obtain ⟨r, rfl⟩ := hb
    rw [cmdOutcome, cmdOutcome, if_neg hlarge, if_neg hlarge, if_neg hmore, if_neg (by omega),
      List.take_append_of_le_length (by omega)]

theorem cmdOutcome_command {n : Nat} {body line : CStr} (h : cmdOutcome n body = .command line) :
    n ≤ 256 ∧ n ≤ body.length ∧ line = portalLine (body.take n) := by
  unfold cmdOutcome at h
  split_ifs at h with hlarge hmore
  exact ⟨by omega, by omega, (Request.command.inj h).symm⟩

theorem cmdOutcome_of_le {n : Nat} {body : CStr} (h : n ≤ 256) (hn : n ≤ body.length) :
    cmdOutcome n body = .command (portalLine (body.take n)) := by
  rw [cmdOutcome, if_neg (by omega), if_neg (by omega)]

theorem mem_acted {r : Request} {line : CStr} (h : .command line ∈ r.acted) :
    r = .command line := by
  rw [acted_eq] at h
  split_ifs at h
  · exact absurd h List.not_mem_nil
  · exact (List.mem_singleton.mp h).symm

/-- What is found with every look decides what a request comes to. -/
theorem splitFree_of_same {req : Bytes} (hnul : 0 ∉ req) (hlen : req.length ≤ reqMax - 1)
    (hne : req ≠ [])
    (hall : ∀ pre, pre <+: req →
      parseRequest pre = .incomplete ∨ parseRequest pre = parseRequest req)
    (hhandled : Handled req (parseRequest req).acted) : SplitFree req := by
  rintro segs hsegs rfl
  obtain ⟨c, hc, hacts⟩ := recvAll_acts hsegs hnul hlen
  have hwhole' : ∀ data ∈ [segs.flatten], data ≠ [] := by
    rintro data hdata
    rwa [List.mem_singleton.mp hdata]
  obtain ⟨c₁, hc₁, hacts₁⟩ := recvAll_acts hwhole' (by simpa using hnul) (by simpa using hlen)
  have hdecided := decided_of_same parseRequest_nil hall rfl
  have hwhole := decided_whole segs.flatten
  rw [hdecided] at hacts
  rw [hwhole] at hacts₁
  exact ⟨c, c₁, hc, hc₁, hacts.trans hacts₁.symm, hacts ▸ hhandled⟩

/-! ### Requests of the other kinds -/

/-- Only a console request depends on more than its first line. -/
theorem lineRequest_congr {m p : CStr} (h : ¬(m = ascii "POST" ∧ p = ascii "/api/cmd"))
    (c c' : Request) : lineRequest m p c = lineRequest m p c' := by
  unfold lineRequest
  split_ifs with hoptions hget hpage hpcap hstatus hscan hpost hscan hcmd <;>
    first | rfl | exact absurd ⟨hpost, hcmd⟩ h

/-- And only a console request runs a line. -/
theorem lineRequest_ne_command {m p : CStr} (h : ¬(m = ascii "POST" ∧ p = ascii "/api/cmd"))
    (c : Request) (line : CStr) : lineRequest m p c ≠ .command line := by
  rw [lineRequest_congr h c .incomplete]
  unfold lineRequest
  split_ifs <;> simp

theorem strstr_end (pat s : CStr) : strstr pat (s ++ pat) ≠ none := by
  induction s with
  | nil =>
    cases pat with
    | nil => simp [strstr]
    | cons a pat => simp [strstr]
  | cons c s ih =>
    rw [List.cons_append, strstr]
    split_ifs
    · simp
    · simpa using ih

/-- A text with an occurrence, up to that and behind it. -/
theorem strstr_split {pat s : CStr} {k : Nat} (h : strstr pat s = some k) :
    ∃ x r, s = x ++ (pat ++ r) ∧ x.length = k ∧ strstr pat (x ++ pat) = some k := by
  obtain ⟨⟨r, hr⟩, hle⟩ := strstr_eq_some h
  have hsplit : s = s.take k ++ (pat ++ r) := by rw [hr, List.take_append_drop]
  refine ⟨s.take k, r, hsplit, by rw [List.length_take]; omega, ?_⟩
  cases hx : strstr pat (s.take k ++ pat) with
  | none => exact absurd hx (strstr_end pat _)
  | some j =>
    rw [hsplit, ← List.append_assoc, strstr_append hx r] at h
    exact h

/-- A request that is not for the console, whatever is there of its body. -/
theorem splitFree_of_other {req : Bytes} (hline : FirstLine req) (hnul : 0 ∉ req)
    (hlen : req.length ≤ reqMax - 1) (hother : ∀ headers body, ¬CmdRequest req headers body) :
    SplitFree req := by
  obtain ⟨m, p, q, rest, hreq, hm, hp⟩ := hline.form
  have hm32 : 32 ∉ m := fun h => (hm 32 h).1 rfl
  have hp32 : 32 ∉ p := fun h => (hp 32 h).1 rfl
  have hne : req ≠ [] := by
    rw [hreq]
    simp
  generalize q ++ 13 :: 10 :: rest = y at hreq
  have honce (acts : List Request) (headers body : CStr) (h : CmdRequest req headers body) :
      announced headers ≤ 256 → announced headers ≤ body.length →
        ∃ line, acts = [.command line] := absurd h (hother headers body)
  cases hends : strstr blankLine req with
  | none =>
    have hall (pre : Bytes) (hpre : pre <+: req) : parseRequest pre = .incomplete := by
      obtain ⟨t, rfl⟩ := hpre
      have hnulPre : 0 ∉ pre := fun hmem => hnul (List.mem_append_left _ hmem)
      exact parseRequest_of_none (by rw [cstr_self hnulPre]; exact strstr_prefix_none hends)
    refine splitFree_of_same hnul hlen hne (fun pre hpre => .inl (hall pre hpre)) ⟨?_, honce _⟩
    rw [hall req List.prefix_rfl]
    exact fun _ h => absurd h List.not_mem_nil
  | some h =>
    have hskip (z : CStr) : strstr blankLine (m ++ 32 :: (p ++ 32 :: z)) =
        (strstr blankLine z).map (· + (m.length + p.length + 2)) := by
      have hline : 13 ∉ m ++ 32 :: (p ++ [32]) := by
        simp only [List.mem_append, List.mem_cons, List.not_mem_nil, or_false, not_or]
        exact ⟨fun h => (hm 13 h).2.1 rfl, by decide, fun h => (hp 13 h).2.1 rfl, by decide⟩
      have hall := strstr_blankLine_skip hline z
      simpa [Nat.add_assoc, Nat.add_comm, Nat.add_left_comm] using hall
    rw [hreq, hskip] at hends
    obtain ⟨k, hk, rfl⟩ := Option.map_eq_some_iff.mp hends
    obtain ⟨x, body, rfl, hxlen, hxends⟩ := strstr_split hk
    have hkind : ¬(m = ascii "POST" ∧ p = ascii "/api/cmd") := by
      rintro ⟨rfl, rfl⟩
      exact hother x body ⟨hreq, hxlen ▸ hxends⟩
    -- the request is decided about by its first line as soon as its headers are complete
    have hparse {b : CStr} (hnulB : 0 ∉ m ++ 32 :: (p ++ 32 :: (x ++ (blankLine ++ b)))) :
        parseRequest (m ++ 32 :: (p ++ 32 :: (x ++ (blankLine ++ b)))) =
          lineRequest m p .incomplete := by
      have hendsB := hskip (x ++ (blankLine ++ b))
      rw [← List.append_assoc x, strstr_append hxends b, List.append_assoc] at hendsB
      rw [parseRequest_line hm32 hp32 hnulB hendsB, lineRequest_congr hkind]
    have hall (pre : Bytes) (hpre : pre <+: req) :
        parseRequest pre = .incomplete ∨ parseRequest pre = parseRequest req := by
      have hhead (b : CStr) : m ++ 32 :: (p ++ 32 :: (x ++ blankLine)) ++ b =
          m ++ 32 :: (p ++ 32 :: (x ++ (blankLine ++ b))) := by simp
      have hnulPre : 0 ∉ pre := fun hmem => hnul (hpre.subset hmem)
      have hwhole := hends
      rw [← hskip, ← hhead] at hwhole
      have hheadLength : (m ++ 32 :: (p ++ 32 :: (x ++ blankLine))).length =
          k + (m.length + p.length + 2) + 4 := by
        simp only [List.length_append, List.length_cons, List.length_nil, hxlen]
        omega
      have hpre' : pre <+: m ++ 32 :: (p ++ 32 :: (x ++ blankLine)) ++ body := by
        rw [hhead, ← hreq]
        exact hpre
      rcases prefix_cases hwhole hheadLength hpre' with hnone | ⟨b, -, rfl⟩
      · exact .inl (parseRequest_of_none (by rwa [cstr_self hnulPre]))
      · right
        rw [hhead] at hnulPre ⊢
        rw [hparse hnulPre, hreq, hparse (hreq ▸ hnul)]
    refine splitFree_of_same hnul hlen hne hall ⟨fun line hmem => ?_, honce _⟩
    have hcommand := mem_acted hmem
    rw [hreq, hparse (hreq ▸ hnul)] at hcommand
    exact absurd hcommand (lineRequest_ne_command hkind _ line)

/-! ### Console requests -/

/-- A console request that says how long its line is. -/
theorem splitFree_of_length {req : Bytes} {headers body : CStr} (h : CmdRequest req headers body)
    (hblank : ¬LengthBlank headers) (hnul : 0 ∉ req) (hlen : req.length ≤ reqMax - 1) :
    SplitFree req := by
  have hne : req ≠ [] := by
    rw [h.text]
    exact List.append_ne_nil_of_left_ne_nil (by decide) _
  have hwhole := h.parse_whole hnul
  rw [contentLength_announced' hblank] at hwhole
  refine splitFree_of_same hnul hlen hne (fun pre hpre => ?_) ⟨fun line hmem => ?_, ?_⟩
  · rcases h.parse_prefix hnul hpre with hnone | ⟨b, hb, hparse⟩
    · exact .inl hnone
    · rw [contentLength_announced' hblank] at hparse
      rw [hparse, hwhole]
      exact cmdOutcome_prefix _ hb
  · have hcommand := mem_acted hmem
    rw [hwhole] at hcommand
    exact ⟨headers, body, h, (cmdOutcome_command hcommand).2.2⟩
  · intro headers' body' h' hsmall hle
    obtain ⟨rfl, rfl⟩ := h.unique h'
    rw [hwhole, cmdOutcome_of_le hsmall hle]
    exact ⟨_, rfl⟩

/-- What `strtoul` makes of a body whose length was left out does no harm: it is nothing, or the
body is there, begins with an empty line and is not taken for a negative number. -/
def LengthHarmless (body : CStr) : Prop :=
  strtoul body = 0 ∨
    (strtoul body ≤ 256 ∧ strtoul body ≤ body.length ∧ (∃ c ∈ body.head?, isNewline c) ∧
      ¬HasMinus body)

theorem portalLine_nil : portalLine [] = [] := rfl

/-- The text up to the end of the first line is empty where that begins with its end. -/
theorem portalLine_newline {b body : CStr} (hb : b <+: body)
    (hnewline : ∃ c ∈ body.head?, isNewline c) : portalLine b = [] := by
  obtain ⟨c, hc, hnl⟩ := hnewline
  cases b with
  | nil => rfl
  | cons d b =>
    obtain ⟨r, rfl⟩ := hb
    obtain rfl : d = c := by simpa using hc
    by_cases hd : d = 0
    · simp [portalLine, cstr, hd]
    · simp [portalLine, cstr, hd, hnl]

theorem head_newline {n : Nat} {body : CStr} (hnul : 0 ∉ body) (hn : 0 < n) (hne : body ≠ [])
    (hline : portalLine (body.take n) = []) : ∃ c ∈ body.head?, isNewline c := by
  obtain ⟨c, r, rfl⟩ := List.exists_cons_of_ne_nil hne
  have hc : c ≠ 0 := fun h => hnul (by simp [h])
  refine ⟨c, rfl, ?_⟩
  by_contra hnl
  obtain ⟨n, rfl⟩ : ∃ k, n = k + 1 := ⟨n - 1, by omega⟩
  simp [portalLine, cstr, hc, hnl] at hline

theorem strtoul_prefix_zero {b s : CStr} (h : b <+: s) (hs : strtoul s = 0) : strtoul b = 0 := by
  have hvalue := digitsValue_mono (digitsOf_mono h)
  have hzero : digitsValue (digitsOf s) = 0 := by
    rw [strtoul_eq] at hs
    split_ifs at hs <;> omega
  rw [strtoul_eq]
  split_ifs <;> omega

/-- A body that is looked at without its length, where this does no harm, is an empty line. -/
theorem cmdOutcome_harmless {b body : CStr} (h : LengthHarmless body) (hb : b <+: body) :
    cmdOutcome (strtoul b) b = .incomplete ∨ cmdOutcome (strtoul b) b = .command [] := by
  rcases h with hzero | ⟨hsmall, -, hnewline, hminus⟩
  · right
    rw [strtoul_prefix_zero hb hzero, cmdOutcome_of_le (by omega) (Nat.zero_le _), List.take_zero,
      portalLine_nil]
  · have hle := strtoul_prefix_le hb (by omega) hminus
    rcases Nat.lt_or_ge b.length (strtoul b) with hmore | hthere
    · exact .inl (by rw [cmdOutcome, if_neg (by omega), if_pos hmore])
    · right
      rw [cmdOutcome_of_le (by omega) hthere,
        portalLine_newline ((List.take_prefix _ _).trans hb) hnewline]

theorem splitFree_of_harmless {req : Bytes} {headers body : CStr}
    (h : CmdRequest req headers body) (hblank : LengthBlank headers)
    (hharmless : LengthHarmless body) (hnul : 0 ∉ req) (hlen : req.length ≤ reqMax - 1) :
    SplitFree req := by
  have hne : req ≠ [] := by
    rw [h.text]
    exact List.append_ne_nil_of_left_ne_nil (by decide) _
  have hzero : announced headers = 0 := (contentLength_blank hblank body).2
  -- the whole body is there
  have hthere : cmdOutcome (strtoul body) body ≠ .incomplete := by
    have hbound : strtoul body ≤ 256 ∧ strtoul body ≤ body.length := by
      rcases hharmless with hnone | ⟨hsmall, hle, -, -⟩
      · exact ⟨by omega, by omega⟩
      · exact ⟨hsmall, hle⟩
    rw [cmdOutcome_of_le hbound.1 hbound.2]
    exact nofun
  have hwhole : parseRequest req = .command [] := by
    rw [h.parse_whole hnul, (contentLength_blank hblank body).1]
    exact (cmdOutcome_harmless hharmless List.prefix_rfl).resolve_left hthere
  refine splitFree_of_same hnul hlen hne (fun pre hpre => ?_) ⟨fun line hmem => ?_, ?_⟩
  · rcases h.parse_prefix hnul hpre with hnone | ⟨b, hb, hparse⟩
    · exact .inl hnone
    · rw [hparse, (contentLength_blank hblank b).1, hwhole]
      exact cmdOutcome_harmless hharmless hb
  · refine ⟨headers, body, h, ?_⟩
    rw [hwhole] at hmem
    rw [hzero, List.take_zero, portalLine_nil]
    exact (Request.command.inj (mem_acted hmem)).symm
  · intro _ _ _ _ _
    rw [hwhole]
    exact ⟨[], rfl⟩

/-- What is found in a first segment is what is found in the request. -/
theorem SplitFree.parse_eq {req a b : Bytes} (hsplit : SplitFree req) (hnul : 0 ∉ req)
    (hlen : req.length ≤ reqMax - 1) (ha : a ≠ []) (hb : b ≠ []) (hab : a ++ b = req)
    (hfound : parseRequest a ≠ .incomplete) : parseRequest req = parseRequest a := by
  subst hab
  have hflat : [a, b].flatten = a ++ b := by simp
  have hsegs : ∀ data ∈ [a, b], data ≠ [] := by simp [ha, hb]
  obtain ⟨c, c₁, hc, hc₁, hacts, -⟩ := hsplit [a, b] hsegs hflat
  obtain ⟨d, hd, hdacts⟩ := recvAll_acts hsegs (hflat ▸ hnul) (hflat ▸ hlen)
  have hone : ∀ data ∈ [a ++ b], data ≠ [] := by simp [ha]
  obtain ⟨d₁, hd₁, hdacts₁⟩ := recvAll_acts hone (by simpa using hnul) (by simpa using hlen)
  obtain rfl : c = d := Option.some.inj (hc.symm.trans hd)
  obtain rfl : c₁ = d₁ := Option.some.inj (hc₁.symm.trans hd₁)
  rw [hdacts, hdacts₁, decided_two hfound, decided_whole, acted_eq] at hacts
  split_ifs at hacts
  exact (List.singleton_inj.mp hacts).symm

/-- Where it does harm, some way to split the request shows it. -/
theorem harmless_of_splitFree {req : Bytes} {headers body : CStr}
    (h : CmdRequest req headers body) (hblank : LengthBlank headers) (hnul : 0 ∉ req)
    (hlen : req.length ≤ reqMax - 1) (hsplit : SplitFree req) : LengthHarmless body := by
  refine or_iff_not_imp_left.mpr fun hzero => ?_
  have hbody : body ≠ [] := by
    rintro rfl
    exact hzero rfl
  have hhead : CmdRequest.head headers ≠ [] := List.append_ne_nil_of_left_ne_nil (by decide) _
  have hwhole := h.parse_whole hnul
  rw [(contentLength_blank hblank body).1] at hwhole
  have hnulReq : 0 ∉ CmdRequest.head headers ++ body := h.text_eq ▸ hnul
  -- the headers alone are taken for a request with an empty line
  have hfirst : parseRequest (CmdRequest.head headers) = .command [] := by
    have hnulHead : 0 ∉ CmdRequest.head headers ++ [] := fun hmem =>
      hnulReq (List.mem_append_left _ (by simpa using hmem))
    have hparse := h.parse_head hnulHead
    rwa [(contentLength_blank hblank []).1, List.append_nil] at hparse
  have hsame := hsplit.parse_eq hnul hlen hhead hbody h.text_eq.symm (by rw [hfirst]; exact nofun)
  rw [hwhole, hfirst] at hsame
  obtain ⟨hsmall, hle, hline⟩ := cmdOutcome_command hsame
  refine ⟨hsmall, hle, ?_, fun hminus => ?_⟩
  · exact head_newline (fun hmem => hnulReq (List.mem_append_right _ hmem))
      (Nat.pos_of_ne_zero hzero) hbody hline.symm
  · -- a part of a negative number is too large
    obtain ⟨b, ⟨r, hr⟩, hhuge⟩ := exists_prefix_huge hminus hzero
    have hrest : r ≠ [] := by
      rintro rfl
      rw [List.append_nil] at hr
      rw [hr] at hhuge
      omega
    have hnulB : 0 ∉ CmdRequest.head headers ++ b := by
      rw [← hr, ← List.append_assoc] at hnulReq
      exact fun hmem => hnulReq (List.mem_append_left _ hmem)
    have hparse := h.parse_head hnulB
    rw [(contentLength_blank hblank b).1, cmdOutcome, if_pos hhuge] at hparse
    have htext : CmdRequest.head headers ++ b ++ r = req := by
      rw [List.append_assoc, hr, h.text_eq]
    have hlarge := hsplit.parse_eq hnul hlen (List.append_ne_nil_of_left_ne_nil hhead _) hrest htext
      (by rw [hparse]; exact nofun)
    rw [hwhole, hsame, hparse] at hlarge
    cases hlarge

/-- **Requests are independent of how they are split, but for a length that was left out.** A
request of at most 1023 bytes comes to the same however its bytes are split into segments, with a
console line run once and as its headers announce it, exactly when it is not a console request
that leaves its length out, or when this does no harm. -/
theorem split_free_iff {req : Bytes} (hline : FirstLine req) (hnul : 0 ∉ req)
    (hlen : req.length ≤ 1023) :
    SplitFree req ↔
      ∀ headers body, CmdRequest req headers body → LengthBlank headers → LengthHarmless body := by
  constructor
  · intro hsplit headers body h hblank
    exact harmless_of_splitFree h hblank hnul hlen hsplit
  · intro hcond
    by_cases hcmd : ∃ headers body, CmdRequest req headers body
    · obtain ⟨headers, body, h⟩ := hcmd
      by_cases hblank : LengthBlank headers
      · exact splitFree_of_harmless h hblank (hcond headers body h hblank) hnul hlen
      · exact splitFree_of_length h hblank hnul hlen
    · exact splitFree_of_other hline hnul hlen fun headers body h => hcmd ⟨headers, body, h⟩

/-- A console line with its length. -/
def statusRequest : Bytes :=
  ascii "POST /api/cmd HTTP/1.1\r\nContent-Length: 6\r\n\r\nstatus\r\n"

theorem split_free_status : SplitFree statusRequest := by
  have hcmd : CmdRequest statusRequest (ascii "HTTP/1.1\r\nContent-Length: 6")
      (ascii "status\r\n") := ⟨rfl, by decide⟩
  have hline : FirstLine statusRequest :=
    ⟨ascii "POST", ascii "/api/cmd", ascii "HTTP/1.1", ascii "Content-Length: 6\r\n\r\nstatus\r\n",
      rfl, List.all_iff_forall_prop.mp (by decide), List.all_iff_forall_prop.mp (by decide)⟩
  refine (split_free_iff hline (by decide) (by decide)).mpr fun headers body h hblank => ?_
  obtain ⟨rfl, rfl⟩ := hcmd.unique h
  obtain ⟨w, hw, hall⟩ := hblank
  have hvalue : lengthText (ascii "HTTP/1.1\r\nContent-Length: 6") = some (ascii " 6") := by decide
  obtain rfl : ascii " 6" = w := Option.some.inj (hvalue.symm.trans hw)
  exact absurd hall (by decide)

/-- One without. -/
def bareRequest : Bytes := ascii "POST /api/cmd HTTP/1.1\r\nContent-Length:\r\n\r\n6status"

/-- In one segment its first six bytes are run, and when the headers come first an empty line. -/
theorem split_free_fails :
    ¬∀ req : Bytes, FirstLine req → 0 ∉ req → req.length ≤ 1023 → SplitFree req := by
  intro hclaim
  have hcmd : CmdRequest bareRequest (ascii "HTTP/1.1\r\nContent-Length:") (ascii "6status") :=
    ⟨rfl, by decide⟩
  have hline : FirstLine bareRequest :=
    ⟨ascii "POST", ascii "/api/cmd", ascii "HTTP/1.1", ascii "Content-Length:\r\n\r\n6status",
      rfl, List.all_iff_forall_prop.mp (by decide), List.all_iff_forall_prop.mp (by decide)⟩
  have hsplit := hclaim bareRequest hline (by decide) (by decide)
  rcases harmless_of_splitFree hcmd ⟨[], rfl, rfl⟩ (by decide) (by decide) hsplit with
    hzero | ⟨-, -, ⟨c, hc, hnewline⟩, -⟩
  · exact absurd hzero (by decide)
  · obtain rfl : 54 = c := by simpa [ascii] using hc
    exact absurd hnewline (by decide)

/-! ### The portal -/

/-- What a request makes the portal call. -/
def Request.upcalls : Request → List Upcall
  | .scan true => [.wifiConnRequestScan]
  | .command line => [.configProtoHandleLine line]
  | _ => []

namespace Portal

variable {s : Portal} {i : Fin httpConns}

theorem connSendMore_upcalls (writes : List Bool) (closeOk : Bool) :
    (s.connSendMore i writes closeOk).upcalls = s.upcalls := by
  have hfree (s' : Portal) : (s'.connFree i).upcalls = s'.upcalls := by
    unfold Portal.connFree
    dsimp only
    split_ifs <;> rfl
  unfold Portal.connSendMore
  split
  · rfl
  · dsimp only
    split_ifs
    · rfl
    · exact hfree _
    · exact hfree _

theorem handleRequest_upcalls (ans : Answers) :
    (s.handleRequest i ans).upcalls = s.upcalls ++ (parseRequest (s.conns i).req).upcalls := by
  have hrespond (s' : Portal) (status ctype extra : String) (body : Body) :
      (s'.connRespond i ans status ctype extra body).upcalls = s'.upcalls := by
    unfold Portal.connRespond
    cases body <;> exact connSendMore_upcalls _ _
  unfold Portal.handleRequest
  cases parseRequest (s.conns i).req with
  | incomplete => exact (List.append_nil _).symm
  | pcap => exact (connSendMore_upcalls _ _).trans (List.append_nil _).symm
  | scan post => cases post <;> simp [hrespond, Request.upcalls]
  | command line => exact hrespond _ _ _ _ _
  | preflight | badRequest | page | status | tooLarge | notFound =>
    exact (hrespond _ _ _ _ _).trans (List.append_nil _).symm

/-- The segments of a request, each with what the rest of the firmware answers to it. -/
def recvSegs (s : Portal) (i : Fin httpConns) (xs : List (Answers × Bytes)) : Portal :=
  xs.foldl (fun s x => s.httpRecv i x.1 (some x.2)) s

theorem recvSegs_responded (hr : (s.conns i).responded = true) (xs : List (Answers × Bytes)) :
    (s.recvSegs i xs).upcalls = s.upcalls := by
  induction xs generalizing s with
  | nil => rfl
  | cons x xs ih =>
    have hstep : s.httpRecv i x.1 (some x.2) = s.setConn i { s.conns i with
        req := (s.conns i).req ++ x.2.take (reqMax - 1 - (s.conns i).req.length)
        idle := 0 } := by
      simp only [Portal.httpRecv, hr, if_true]
    rw [recvSegs, List.foldl_cons, hstep]
    exact ih (by rw [setConn_self]; exact hr)

/-- The portal runs the lines that are found in the buffer of its connection. -/
theorem recvSegs_upcalls (hs : s.Sized) (hfresh : s.Fresh i) {xs : List (Answers × Bytes)}
    (hans : ∀ x ∈ xs, x.1.InBuffer) (hne : ∀ x ∈ xs, x.2 ≠ [])
    (hfit : ((s.conns i).req ++ (xs.map Prod.snd).flatten).length ≤ reqMax - 1) :
    (s.recvSegs i xs).upcalls =
      s.upcalls ++ (decided (s.conns i).req (xs.map Prod.snd)).flatMap Request.upcalls := by
  induction xs generalizing s with
  | nil => exact (List.append_nil _).symm
  | cons x xs ih =>
    have hans' : ∀ y ∈ xs, y.1.InBuffer := fun y hy => hans y (List.mem_cons_of_mem _ hy)
    have hne' : ∀ y ∈ xs, y.2 ≠ [] := fun y hy => hne y (List.mem_cons_of_mem _ hy)
    rw [List.map_cons, List.flatten_cons, ← List.append_assoc] at hfit
    have hx : x.2 ≠ [] := hne x List.mem_cons_self
    have htake : x.2.take (reqMax - 1 - (s.conns i).req.length) = x.2 := by
      refine List.take_of_length_le ?_
      simp only [List.length_append] at hfit
      omega
    set s₁ := s.setConn i { s.conns i with req := (s.conns i).req ++ x.2, idle := 0 } with hs₁
    have hconn : s₁.conns i = { s.conns i with req := (s.conns i).req ++ x.2, idle := 0 } :=
      setConn_self
    have hstep : s.httpRecv i x.1 (some x.2) = s₁.handleRequest i x.1 := by
      simp only [Portal.httpRecv, htake, hfresh.1, Bool.false_eq_true, if_false, if_neg hx, hs₁]
    have hsized : s₁.Sized := ⟨hs.page, hs.pcap⟩
    have hfresh₁ : s₁.Fresh i := by
      rw [Fresh, hconn]
      exact hfresh
    have hreq : (s₁.conns i).req = (s.conns i).req ++ x.2 := by rw [hconn]
    have hcalls : (s₁.handleRequest i x.1).upcalls =
        s.upcalls ++ (parseRequest ((s.conns i).req ++ x.2)).upcalls := by
      rw [handleRequest_upcalls, hreq]
      rfl
    rw [recvSegs, List.foldl_cons, hstep, ← recvSegs, List.map_cons, decided]
    rcases handleRequest_setsUp hsized (hans x List.mem_cons_self) hfresh₁ with
      ⟨hparse, hsame⟩ | hset
    · -- the request is not complete, and the next segment is waited for
      have hdone : s₁.handleRequest i x.1 = s₁ := hsame x.1.writes x.1.closeOk
      rw [hreq] at hparse
      rw [hdone, if_pos hparse, ih hsized hfresh₁ hans' hne' (by rw [hreq]; exact hfit), hreq]
      rfl
    · have hr : ((s₁.handleRequest i x.1).conns i).responded = true :=
        hset.responded x.1.writes x.1.closeOk
      have hparse : parseRequest ((s.conns i).req ++ x.2) ≠ .incomplete := by
        intro hparse
        have hdone : s₁.handleRequest i x.1 = s₁ := by
          rw [handleRequest, hreq, hparse]
        rw [hdone, hfresh₁.1] at hr
        exact absurd hr (by decide)
      rw [recvSegs_responded hr, hcalls, if_neg hparse]
      simp

end Portal

end Molewire
