/-
# Header lines

The headers of a response are lines that end in a carriage return and a line
feed, up to an empty one. Read as the portal itself reads a request, they end
where the body begins and name the length they were printed with.
-/

import Molewire.HttpPortal
import Molewire.PortalBodies

namespace Molewire

open ByteBuffer

/-! ### Searching -/

/-- Text without the first character of the pattern is passed over. -/
theorem strstr_skip {a : UInt8} {pat l : CStr} (hl : a ∉ l) (r : CStr) :
    strstr (a :: pat) (l ++ r) = (strstr (a :: pat) r).map (· + l.length) := by
  induction l with
  | nil => simp
  | cons c l ih =>
    obtain ⟨hc, hl⟩ := not_or.mp (List.mem_cons.not.mp hl)
    have hno : (a :: pat).isPrefixOf (c :: (l ++ r)) = false := by
      simp [List.isPrefixOf, hc]
    rw [List.cons_append, strstr, hno, if_neg (by decide), ih hl, Option.map_map]
    rfl

/-- The end of the headers. -/
abbrev blankLine : CStr := [13, 10, 13, 10]

theorem strstr_blankLine_skip {l : CStr} (hl : 13 ∉ l) (r : CStr) :
    strstr blankLine (l ++ r) = (strstr blankLine r).map (· + l.length) :=
  strstr_skip hl r

/-- A line end that is not followed by another. -/
theorem strstr_lineEnd {c : UInt8} (hc : c ≠ 13) (r : CStr) :
    strstr blankLine (13 :: 10 :: c :: r) = (strstr blankLine (c :: r)).map (· + 2) := by
  have h1 : blankLine.isPrefixOf (13 :: 10 :: c :: r) = false := by
    simp [List.isPrefixOf, Ne.symm hc]
  have h2 : blankLine.isPrefixOf (10 :: c :: r) = false := by
    simp [List.isPrefixOf]
  rw [strstr, h1, if_neg (by decide), strstr, h2, if_neg (by decide), Option.map_map]
  rfl

/-- Lines, and an empty one. -/
def headerText : List CStr → CStr
  | [] => [13, 10]
  | l :: ls => l ++ 13 :: 10 :: headerText ls

/-- A line with something in it and no carriage return. -/
def IsLine (l : CStr) : Prop := l ≠ [] ∧ 13 ∉ l

instance (l : CStr) : Decidable (IsLine l) := inferInstanceAs (Decidable (_ ∧ _))

theorem length_headerText_cons (l : CStr) (ls : List CStr) :
    (headerText (l :: ls)).length = l.length + 2 + (headerText ls).length := by
  simp only [headerText, List.length_append, List.length_cons]
  omega

theorem two_le_headerText (ls : List CStr) : 2 ≤ (headerText ls).length := by
  cases ls with
  | nil => exact le_rfl
  | cons l ls =>
    rw [length_headerText_cons]
    omega

/-- The blank line of some headers is their end, whatever comes behind them. -/
theorem strstr_headerText {l : CStr} {ls : List CStr} (h : ∀ x ∈ l :: ls, IsLine x) (body : CStr) :
    strstr blankLine (headerText (l :: ls) ++ body) =
      some ((headerText (l :: ls)).length - 4) := by
  induction ls generalizing l with
  | nil =>
    obtain ⟨-, hcr⟩ := h l List.mem_cons_self
    simp only [headerText, List.append_assoc, List.cons_append, List.nil_append]
    rw [strstr_skip hcr, strstr, if_pos (by simp [List.isPrefixOf])]
    simp
  | cons l' ls ih =>
    obtain ⟨-, hcr⟩ := h l List.mem_cons_self
    obtain ⟨hne, hcr'⟩ := h l' (by simp)
    have hrest := ih fun x hx => h x (List.mem_cons_of_mem _ hx)
    obtain ⟨c, r, rfl⟩ := List.exists_cons_of_ne_nil hne
    have hc : c ≠ 13 := fun hc => hcr' (by simp [hc])
    have hlen := length_headerText_cons l ((c :: r) :: ls)
    have hlen' := length_headerText_cons (c :: r) ls
    have hpos := two_le_headerText ls
    rw [headerText, List.append_assoc, strstr_skip hcr, List.cons_append, List.cons_append]
    rw [headerText, List.append_assoc, List.cons_append] at hrest ⊢
    rw [strstr_lineEnd hc, hrest, Option.map_some, Option.map_some]
    simp only [List.length_append, List.length_cons] at hlen hlen' ⊢
    congr 1
    omega

/-! ### The announced length -/

theorem contentLength_skip {l : CStr} (hl : 10 ∉ l) (n : Nat) (r : CStr) :
    contentLength (l.length + n) (l ++ r) = contentLength n r := by
  induction l with
  | nil => simp
  | cons c l ih =>
    obtain ⟨hc, hl⟩ := not_or.mp (List.mem_cons.not.mp hl)
    rw [List.length_cons, List.cons_append, show l.length + 1 + n = l.length + n + 1 by omega,
      contentLength, if_neg (by simp [Ne.symm hc]), ih hl]

/-- A decimal number is read back. -/
theorem foldl_decimal (n : Nat) :
    (decimal n).foldl (fun acc c => 10 * acc + (c - 48).toNat) 0 = n := by
  induction n using Nat.strong_induction_on with
  | _ n ih =>
    rcases Nat.lt_or_ge n 10 with hlt | hge
    · have hsmall : ∀ k < 10,
          (decimal k).foldl (fun acc c => 10 * acc + (c - 48).toNat) 0 = k := by decide
      exact hsmall n hlt
    · have hrest := ih (n / 10) (by omega)
      have hdigit : ∀ k < 10, ((k.digitChar.toNat.toUInt8) - 48).toNat = k := by decide
      rw [decimal_eq] at hrest ⊢
      rw [Nat.toDigits_of_base_le (by decide) hge, List.map_append, List.foldl_append, hrest,
        List.map_cons, List.map_nil, List.foldl_cons, List.foldl_nil, hdigit _ (by omega)]
      omega

theorem strtoul_decimal {n : Nat} (hn : n < 2 ^ 32) {c : UInt8} (hc : isdigit c = false)
    (r : CStr) : strtoul (32 :: decimal n ++ c :: r) = n := by
  have hdigits : ∀ x ∈ decimal n, isdigit x = true := List.all_eq_true.mp (decimal_isDigit n)
  have hne : decimal n ≠ [] := by
    rw [decimal_eq]
    simp [Nat.toDigits_ne_nil]
  obtain ⟨d, ds, hd⟩ := List.exists_cons_of_ne_nil hne
  have hdigit := hdigits d (by simp [hd])
  have hplain : isspace d = false ∧ d ≠ 45 ∧ d ≠ 43 := by
    simp only [isdigit, Bool.and_eq_true, decide_eq_true_eq] at hdigit
    grind [isspace]
  have hspace : (32 :: decimal n ++ c :: r).dropWhile isspace = decimal n ++ c :: r := by
    rw [List.cons_append, List.dropWhile_cons_of_pos (by decide), hd, List.cons_append,
      List.dropWhile_cons_of_neg (by simp [hplain.1])]
  have hhead : (decimal n ++ c :: r).head? = some d := by rw [hd]; rfl
  have htake : (decimal n ++ c :: r).takeWhile isdigit = decimal n := by
    rw [List.takeWhile_append_of_pos hdigits, List.takeWhile_cons_of_neg (by simp [hc]),
      List.append_nil]
  unfold strtoul
  simp only [hspace, hhead, Option.some.injEq, hplain.2.1, hplain.2.2, or_self, if_false, htake,
    foldl_decimal, if_neg (Nat.not_le.mpr hn)]

/-- A line that is not about the length is passed over, up to the line feed at its end. -/
theorem contentLength_line {l : CStr} (hl : 10 ∉ l) (n : Nat) (r : CStr)
    (hother : strcasecmpEq ((l ++ 13 :: r).take 15) (ascii "Content-Length:") = false) :
    contentLength (l.length + 2 + n) (10 :: l ++ 13 :: r) = contentLength n r := by
  have hskip := contentLength_skip (l := l ++ [13]) (by simpa using hl) n r
  rw [List.length_append, List.length_singleton, List.append_assoc, List.singleton_append] at hskip
  rw [show l.length + 2 + n = (l.length + 1 + n) + 1 by omega, List.cons_append, contentLength,
    if_neg (by simp [hother]), hskip]

/-- What is announced is found behind two lines that are neither of them about the length. -/
theorem contentLength_announced {l₀ l₁ : CStr} {n : Nat} (h₀ : 10 ∉ l₀) (h₁ : 10 ∉ l₁)
    (hother : ∀ r, strcasecmpEq ((l₁ ++ r).take 15) (ascii "Content-Length:") = false)
    (hn : n < 2 ^ 32) (ls : List CStr) (body : CStr) :
    contentLength (headerText (l₀ :: l₁ :: (ascii "Content-Length: " ++ decimal n) :: ls)).length
      (headerText (l₀ :: l₁ :: (ascii "Content-Length: " ++ decimal n) :: ls) ++ body) = n := by
  rw [length_headerText_cons, length_headerText_cons, length_headerText_cons]
  generalize (headerText ls).length = k
  simp only [headerText, List.append_assoc, List.cons_append]
  generalize headerText ls ++ body = rest
  have hfirst := contentLength_skip (l := l₀ ++ [13]) (by simpa using h₀)
    (l₁.length + 2 + ((ascii "Content-Length: " ++ decimal n).length + 2 + k + 1))
  have hsecond := contentLength_line h₁
    ((ascii "Content-Length: " ++ decimal n).length + 2 + k + 1)
    (10 :: (ascii "Content-Length: " ++ (decimal n ++ 13 :: 10 :: rest))) (hother _)
  have hthird (j : Nat) : contentLength (j + 1)
      (10 :: (ascii "Content-Length: " ++ (decimal n ++ 13 :: 10 :: rest))) =
        strtoul (32 :: decimal n ++ 13 :: 10 :: rest) := by
    rw [contentLength, if_pos ⟨rfl, rfl⟩]
    rfl
  have hall := (hfirst _).trans (hsecond.trans ((hthird _).trans
    (strtoul_decimal hn (by decide : isdigit 13 = false) (10 :: rest))))
  simp only [List.append_assoc, List.cons_append, List.nil_append] at hall
  convert hall using 2
  simp only [List.length_append, List.length_singleton]
  omega

/-! ### The portal's headers -/

/-- Some headers announce `n` bytes: they end at the first blank line, and the length they give is
`n`, whatever follows them. -/
structure Announces (head : Bytes) (n : Nat) : Prop where
  blank : ∀ body, strstr blankLine (head ++ body) = some (head.length - 4)
  length : ∀ body, contentLength head.length (head ++ body) = n

theorem ascii_append (a b : String) : ascii (a ++ b) = ascii a ++ ascii b := by
  simp [ascii]

theorem headerText_append (ls ls' : List CStr) :
    headerText (ls ++ ls') = ls.flatMap (fun l => l ++ [13, 10]) ++ headerText ls' := by
  induction ls with
  | nil => rfl
  | cons l ls ih => simp [headerText, ih]

/-- The first lines of a response, with the length in the third. -/
def headLines (status ctype : String) (n : Nat) : List CStr :=
  [ascii "HTTP/1.1 " ++ ascii status, ascii "Content-Type: " ++ ascii ctype,
    ascii "Content-Length: " ++ decimal n, ascii "Cache-Control: no-store",
    ascii "Access-Control-Allow-Origin: *"]

theorem respondHeader_eq (status ctype : String) {extra : String} {ls : List CStr}
    (hextra : ascii extra = ls.flatMap fun l => l ++ [13, 10]) (n : Nat) :
    Portal.respondHeader status ctype extra n =
      headerText (headLines status ctype n ++ (ls ++ [ascii "Connection: close"])) := by
  have htype : ascii "\r\nContent-Type: " = [13, 10] ++ ascii "Content-Type: " := rfl
  have hlength : ascii "\r\nContent-Length: " = [13, 10] ++ ascii "Content-Length: " := rfl
  have hcache : ascii "\r\nCache-Control: no-store\r\n" =
      [13, 10] ++ ascii "Cache-Control: no-store" ++ [13, 10] := rfl
  have hcors : ascii "Access-Control-Allow-Origin: *\r\n" =
      ascii "Access-Control-Allow-Origin: *" ++ [13, 10] := rfl
  have hclose : ascii "Connection: close\r\n\r\n" =
      ascii "Connection: close" ++ [13, 10, 13, 10] := rfl
  rw [headerText_append, headerText_append, ← hextra]
  simp only [Portal.respondHeader, Portal.corsHeaders, ascii_append, headLines, decimal, htype,
    hlength, hcache, hcors, hclose, List.flatMap_cons, List.flatMap_nil, List.append_assoc,
    List.cons_append, List.nil_append, headerText]

/-- What the headers of a download add to those of other responses. -/
def pcapExtra : String := "Content-Disposition: attachment; filename=\"molewire.pcap\"\r\n"

theorem pcapHeader_eq (n : Nat) :
    Portal.pcapHeader n =
      Portal.respondHeader "200 OK" "application/vnd.tcpdump.pcap" pcapExtra n := by
  have hstart :
      "HTTP/1.1 200 OK\r\nContent-Type: application/vnd.tcpdump.pcap\r\nContent-Length: " =
        "HTTP/1.1 " ++ ("200 OK" ++ ("\r\nContent-Type: " ++
          ("application/vnd.tcpdump.pcap" ++ "\r\nContent-Length: "))) := by decide
  have hend :
      "Content-Disposition: attachment; filename=\"molewire.pcap\"\r\nConnection: close\r\n\r\n" =
        pcapExtra ++ "Connection: close\r\n\r\n" := by decide
  simp only [Portal.pcapHeader, Portal.respondHeader, hstart, hend, String.append_assoc]

theorem decimal_notMem {c : UInt8} (hc : isdigit c = false) (n : Nat) : c ∉ decimal n := by
  intro hmem
  have hdigit : isdigit c = true := List.all_eq_true.mp (decimal_isDigit n) c hmem
  exact absurd (hdigit.symm.trans hc) (by decide)

theorem announces_lines {status ctype : String} {ls : List CStr} {n : Nat}
    (hstatus : 13 ∉ ascii status ∧ 10 ∉ ascii status) (hctype : 13 ∉ ascii ctype ∧ 10 ∉ ascii ctype)
    (hls : ∀ l ∈ ls, IsLine l) (hn : n < 2 ^ 32) :
    Announces (headerText (headLines status ctype n ++ ls)) n where
  blank body := by
    -- a fixed start keeps each of the first three lines from being empty
    have hline {a : CStr} (ha : IsLine a) {b : CStr} (hb : 13 ∉ b) : IsLine (a ++ b) :=
      ⟨by simp [ha.1], by simp [ha.2, hb]⟩
    have hall : ∀ l ∈ headLines status ctype n ++ ls, IsLine l := by
      intro l hl
      rcases List.mem_append.mp hl with hhead | hrest
      · simp only [headLines, List.mem_cons, List.not_mem_nil, or_false] at hhead
        rcases hhead with rfl | rfl | rfl | rfl | rfl
        · exact hline (by decide) hstatus.1
        · exact hline (by decide) hctype.1
        · exact hline (by decide) (decimal_notMem (by decide) n)
        · decide
        · decide
      · exact hls l hrest
    exact strstr_headerText hall body
  length body := by
    refine contentLength_announced ?_ ?_ (fun r => ?_) hn _ body
    · exact List.not_mem_append (by decide) hstatus.2
    · exact List.not_mem_append (by decide) hctype.2
    · simp [ascii, strcasecmpEq, tolower]

/-- A kind of response: its status, its type and what other headers it has. -/
structure HeaderKind (status ctype extra : String) (ls : List CStr) : Prop where
  status : 13 ∉ ascii status ∧ 10 ∉ ascii status
  ctype : 13 ∉ ascii ctype ∧ 10 ∉ ascii ctype
  lines : ∀ l ∈ ls, IsLine l
  extra : ascii extra = ls.flatMap fun l => l ++ [13, 10]

theorem announces_respondHeader {status ctype extra : String} {ls : List CStr}
    (hkind : HeaderKind status ctype extra ls) {n : Nat} (hn : n < 2 ^ 32) :
    Announces (Portal.respondHeader status ctype extra n) n := by
  rw [respondHeader_eq status ctype hkind.extra]
  refine announces_lines hkind.status hkind.ctype (fun l hl => ?_) hn
  rcases List.mem_append.mp hl with hl | hl
  · exact hkind.lines l hl
  · obtain rfl := List.mem_singleton.mp hl
    decide

/-- One with no other headers. -/
theorem HeaderKind.plain {status ctype : String} (hstatus : 13 ∉ ascii status ∧ 10 ∉ ascii status)
    (hctype : 13 ∉ ascii ctype ∧ 10 ∉ ascii ctype) : HeaderKind status ctype "" [] :=
  ⟨hstatus, hctype, nofun, rfl⟩

theorem length_respondHeader (status ctype extra : String) {n : Nat} (hn : n < 2 ^ 32) :
    (Portal.respondHeader status ctype extra n).length ≤
      133 + (ascii status).length + (ascii ctype).length + (ascii extra).length := by
  have hlen : (decimal n).length ≤ 10 := decimal_length (by decide) (by omega)
  rw [decimal] at hlen
  simp only [Portal.respondHeader, Portal.corsHeaders, ascii_append, List.length_append] at hlen ⊢
  have h1 : (ascii "HTTP/1.1 ").length = 9 := rfl
  have h2 : (ascii "\r\nContent-Type: ").length = 16 := rfl
  have h3 : (ascii "\r\nContent-Length: ").length = 18 := rfl
  have h4 : (ascii "\r\nCache-Control: no-store\r\n").length = 27 := rfl
  have h5 : (ascii "Access-Control-Allow-Origin: *\r\n").length = 32 := rfl
  have h6 : (ascii "Connection: close\r\n\r\n").length = 21 := rfl
  omega

theorem headerKind_pcap : HeaderKind "200 OK" "application/vnd.tcpdump.pcap" pcapExtra
    [ascii "Content-Disposition: attachment; filename=\"molewire.pcap\""] where
  status := by decide
  ctype := by decide
  lines := by decide
  extra := rfl

end Molewire
