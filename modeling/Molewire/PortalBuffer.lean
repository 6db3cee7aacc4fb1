/-
# Filling the portal's buffer

What the calls of a generator leave in the buffer: the texts one after the
other, a string without its end where the room ran short, and nothing past the
last byte. The next call goes on where the one before it ended, so the body is
the start of one text, and the whole of it when it fits.
-/

import Molewire.PortalJson

namespace Molewire

open ByteBuffer

/-! ### Stores -/

theorem splice_eq_append {o xs : Bytes} {off : Nat} (h : off + xs.length ≤ o.length) :
    splice o off xs = o.take off ++ (xs ++ o.drop (off + xs.length)) := by
  apply List.ext_getElem?
  intro i
  have hoff : (o.take off).length = off := by
    rw [List.length_take]
    omega
  rcases Nat.lt_or_ge i off with hlt | hge
  · rw [getElem?_splice_of_not_mem (.inl hlt), List.getElem?_append_left (by omega),
      List.getElem?_take_of_lt hlt]
  · rw [List.getElem?_append_right (by omega), hoff]
    rcases Nat.lt_or_ge i (off + xs.length) with hin | hout
    · rw [getElem?_splice_of_mem hge hin (by omega), List.getElem?_append_left (by omega)]
    · rw [getElem?_splice_of_not_mem (.inr hout), List.getElem?_append_right (by omega),
        List.getElem?_drop]
      congr 1
      omega

/-- Some bytes were stored, and what is in front of them is as it was. -/
structure Wrote (o : Bytes) (off : Nat) (xs o' : Bytes) : Prop where
  length : o'.length = o.length
  fits : off + xs.length ≤ o.length
  take : o'.take (off + xs.length) = o.take off ++ xs

namespace Wrote

variable {o o' o'' xs ys : Bytes} {off : Nat}

theorem nil (h : off ≤ o.length) : Wrote o off [] o := ⟨rfl, h, by simp⟩

theorem append (h : Wrote o off xs o') (h' : Wrote o' (off + xs.length) ys o'') :
    Wrote o off (xs ++ ys) o'' where
  length := h'.length.trans h.length
  fits := by
    have hfits := h'.fits
    rw [h.length] at hfits
    rw [List.length_append]
    omega
  take := by
    have htake := h'.take
    rwa [h.take, Nat.add_assoc, ← List.length_append, List.append_assoc] at htake

/-- The first of the stored bytes. -/
theorem left (h : Wrote o off (xs ++ ys) o') : Wrote o off xs o' where
  length := h.length
  fits := by
    have hfits := h.fits
    rw [List.length_append] at hfits
    omega
  take := by
    have hfits := h.fits
    have htake := congrArg (List.take (off + xs.length)) h.take
    rw [List.length_append] at hfits
    rw [List.take_take, List.length_append, min_eq_left (by omega), ← List.append_assoc] at htake
    rw [htake]
    exact List.take_left' (by simp; omega)

theorem take_of_le (h : Wrote o off xs o') {k : Nat} (hk : k ≤ off) : o'.take k = o.take k := by
  have hfits := h.fits
  have htake := congrArg (List.take k) h.take
  rwa [List.take_take, min_eq_left (by omega), List.take_append_of_le_length (by simp; omega),
    List.take_take, min_eq_left hk] at htake

end Wrote

theorem poke_wrote (o : Bytes) (off : Nat) (xs : Bytes) (h : off + xs.length ≤ o.length) :
    ∃ o', poke o off xs = some o' ∧ Wrote o off xs o' := by
  refine ⟨_, if_pos h, length_splice _ _ _, h, ?_⟩
  rw [splice_eq_append h, ← List.append_assoc]
  exact List.take_left' (by simp; omega)

theorem snprintf_wrote (o : Bytes) (off size : Nat) (t : CStr) (h : off + size ≤ o.length) :
    ∃ o', snprintf o off size t = some o' ∧ Wrote o off (t.take (size - 1)) o' := by
  rcases Nat.eq_zero_or_pos size with rfl | hpos
  · exact ⟨o, if_pos rfl, .nil (by omega)⟩
  · obtain ⟨o', hpoke, hwrote⟩ := poke_wrote o off (t.take (size - 1) ++ [0])
      (by simp; omega)
    exact ⟨o', (if_neg (by omega)).trans hpoke, hwrote.left⟩

/-! ### The text in the buffer -/

/-- The buffer holds the start of a text: all of it, or as much as there is room for in front of
the last byte. -/
structure Filled (cap : Nat) (t : Bytes) (s : Out) : Prop where
  length : s.o.length = cap
  le : s.n ≤ cap
  inside : t.length < cap → s.n = t.length
  beyond : cap ≤ t.length → cap - 1 ≤ s.n
  text : s.o.take (min s.n (cap - 1)) = t.take (cap - 1)

variable {cap : Nat} {t t' : Bytes} {s : Out}

theorem Filled.sizeLeft (hs : Filled cap t s) (hcap : cap < 2 ^ 16) :
    sizeLeft cap s.n = cap - s.n := by
  have hle := hs.le
  unfold Molewire.sizeLeft
  omega

/-- More of the text is stored behind it. -/
theorem Filled.append {o' : Bytes} {k n' : Nat} (hs : Filled cap t s)
    (hwrote : Wrote s.o s.n (t'.take k) o') (hk : cap - 1 - s.n ≤ k) (hle : n' ≤ cap)
    (hin : s.n + t'.length < cap → n' = s.n + t'.length)
    (hout : cap ≤ s.n + t'.length → cap - 1 ≤ n') : Filled cap (t ++ t') ⟨o', n'⟩ := by
  obtain ⟨hlen, hlen', hinside, hbeyond, htext⟩ := hs
  refine ⟨hwrote.length.trans hlen, hle, ?_, ?_, ?_⟩
  · intro hfull
    rw [List.length_append] at hfull ⊢
    dsimp only
    omega
  · intro hfull
    rw [List.length_append] at hfull
    dsimp only
    omega
  · rcases Nat.lt_or_ge t.length cap with hsmall | hfull
    · have hn := hinside hsmall
      have hlong : min n' (cap - 1) ≤ s.n + (t'.take k).length := by
        rw [List.length_take]
        omega
      rw [min_eq_left (by omega), List.take_of_length_le (by omega : t.length ≤ cap - 1)] at htext
      have hcut := congrArg (List.take (min n' (cap - 1))) hwrote.take
      rw [List.take_take, min_eq_left hlong, htext] at hcut
      rw [hcut, List.take_append, List.take_append, List.take_take,
        List.take_of_length_le (by omega : t.length ≤ min n' (cap - 1)),
        List.take_of_length_le (by omega : t.length ≤ cap - 1)]
      congr 1
      rcases Nat.lt_or_ge (s.n + t'.length) cap with hall | hcutoff
      · rw [List.take_of_length_le (by omega), List.take_of_length_le (by omega)]
      · congr 1
        omega
    · have hn := hbeyond hfull
      rw [min_eq_right hn] at htext
      rw [min_eq_right (show cap - 1 ≤ n' by omega), hwrote.take_of_le hn, htext,
        List.take_append_of_le_length (by omega)]

/-- A `JADD` adds its text, and ends in front of the last byte. -/
theorem jadd_filled (hs : Filled cap t s) (hpos : 0 < cap) (hcap : cap + t'.length < 2 ^ 16) :
    ∃ s', jadd cap t' s = some s' ∧ Filled cap (t ++ t') s' ∧ s'.n < cap := by
  have hle := hs.le
  have hlen := hs.length
  have hsum : (s.n + t'.length % 2 ^ 16) % 2 ^ 16 = s.n + t'.length := by omega
  obtain ⟨o', ho', hwrote⟩ := snprintf_wrote s.o s.n (cap - s.n) t' (by omega)
  refine ⟨⟨o', if cap ≤ s.n + t'.length then cap - 1 else s.n + t'.length⟩, ?_, ?_, ?_⟩
  · simp only [jadd, hs.sizeLeft (by omega), hsum, ho', Option.bind_eq_bind, Option.bind_some,
      Option.pure_def]
  · refine hs.append hwrote (by omega) ?_ ?_ ?_
    · split_ifs <;> omega
    · intro hfits
      rw [if_neg (by omega)]
    · intro hfull
      rw [if_pos hfull]
  · dsimp only
    split_ifs <;> omega

/-! ### Strings in the buffer -/

theorem length_escapeByte (ch : UInt8) :
    0 < (Json.escapeByte ch).length ∧ (Json.escapeByte ch).length ≤ 6 := by
  unfold Json.escapeByte
  split_ifs <;> simp [Json.bytes]

theorem unicodeEscape_eq {ch : UInt8} (h : ch < 0x20) :
    unicodeEscape ch = Json.bytes "\\u00" ++
      [Json.hexDigit (ch.toNat / 16), Json.hexDigit (ch.toNat % 16)] := by
  have hlt : ch.toNat < 32 := h
  have h3 : ch.toNat / 4096 % 16 = 0 := by omega
  have h2 : ch.toNat / 256 % 16 = 0 := by omega
  have h1 : ch.toNat / 16 % 16 = ch.toNat / 16 := by omega
  rw [unicodeEscape, h3, h2, h1]
  rfl

/-- One turn of the loop stores the escaped byte. -/
theorem jsonChar_wrote {o : Bytes} {off cap w : Nat} (ch : UInt8) (hroom : w + 8 < cap)
    (hfits : off + cap ≤ o.length) :
    ∃ o', jsonChar o off cap w ch = some (o', w + (Json.escapeByte ch).length) ∧
      Wrote o (off + w) (Json.escapeByte ch) o' := by
  unfold jsonChar
  split_ifs with hquote hctl
  · have hesc : Json.escapeByte ch = [92, ch] := if_pos hquote
    obtain ⟨o', ho', hwrote⟩ := poke_wrote o (off + w) [92, ch] (by simp; omega)
    exact ⟨o', by rw [ho', hesc]; rfl, hesc ▸ hwrote⟩
  · have hesc : Json.escapeByte ch = unicodeEscape ch := by
      rw [unicodeEscape_eq hctl, Json.escapeByte, if_neg hquote, if_pos hctl]
    obtain ⟨o', ho', hwrote⟩ := snprintf_wrote o (off + w) (cap - w) (unicodeEscape ch) (by omega)
    rw [List.take_of_length_le (by simp [unicodeEscape, ascii]; omega)] at hwrote
    exact ⟨o', by rw [ho', hesc]; rfl, hesc ▸ hwrote⟩
  · have hesc : Json.escapeByte ch = [ch] := by
      rw [Json.escapeByte, if_neg hquote, if_neg hctl]
    obtain ⟨o', ho', hwrote⟩ := poke_wrote o (off + w) [ch] (by simp; omega)
    exact ⟨o', by rw [ho', hesc]; rfl, hesc ▸ hwrote⟩

theorem escape_cons (ch : UInt8) (x : CStr) :
    Json.escape (ch :: x) = Json.escapeByte ch ++ Json.escape x := by
  simp [Json.escape]

/-- The loop stores the first characters of a string, with room left for the quote, and all of
them when there is room for the longest escape behind each. -/
theorem jsonChars_wrote (off : Nat) {cap : Nat} (x : CStr) {o : Bytes} {w : Nat} (hroom : w < cap)
    (hfits : off + cap ≤ o.length) :
    ∃ o' j, jsonChars off cap x o w = some (o', w + (Json.escape (x.take j)).length) ∧
      Wrote o (off + w) (Json.escape (x.take j)) o' ∧
      w + (Json.escape (x.take j)).length < cap ∧
      (w + (Json.escape x).length + 8 ≤ cap → x.take j = x) := by
  induction x generalizing o w with
  | nil => exact ⟨o, 0, rfl, .nil (by omega), hroom, fun _ => rfl⟩
  | cons ch x ih =>
    rw [jsonChars]
    split_ifs with hmore
    · have hlen := length_escapeByte ch
      obtain ⟨o₁, ho₁, hwrote₁⟩ := jsonChar_wrote ch hmore hfits
      obtain ⟨o', j, ho', hwrote, hroom', hall⟩ := ih (o := o₁)
        (w := w + (Json.escapeByte ch).length) (by omega) (by rw [hwrote₁.length]; exact hfits)
      refine ⟨o', j + 1, ?_, ?_, ?_, ?_⟩
      · simp only [ho₁, Option.bind_some]
        rw [ho', List.take_succ_cons, escape_cons, List.length_append,
          Nat.add_assoc]
      · rw [List.take_succ_cons, escape_cons]
        rw [← Nat.add_assoc] at hwrote
        exact hwrote₁.append hwrote
      · rw [List.take_succ_cons, escape_cons, List.length_append]
        omega
      · intro hspace
        rw [escape_cons, List.length_append] at hspace
        rw [List.take_succ_cons, hall (by omega)]
    · refine ⟨o, 0, rfl, .nil (by omega), hroom, ?_⟩
      intro hspace
      have hlen := length_escapeByte ch
      rw [escape_cons, List.length_append] at hspace
      omega

theorem jsonQuote_wrote (o : Bytes) (off : Nat) {cap w : Nat} (hroom : w < cap)
    (hfits : off + cap ≤ o.length) :
    ∃ o', jsonQuote off cap o w = some (o', w + 1) ∧ Wrote o (off + w) [34] o' := by
  obtain ⟨o', ho', hwrote⟩ := poke_wrote o (off + w) [34] (by simp; omega)
  exact ⟨o', by rw [jsonQuote, if_pos hroom, ho']; rfl, hwrote⟩

/-- `json_str` stores a quoted string with as many characters as there is room for. -/
theorem jsonStr_wrote (o : Bytes) (off cap : Nat) (x : CStr) (hfits : off + cap ≤ o.length) :
    ∃ o' j, jsonStr o off cap x = some (o', min (Json.quote (x.take j)).length cap) ∧
      Wrote o off ((Json.quote (x.take j)).take cap) o' ∧
      ((Json.quote x).length + 7 ≤ cap → x.take j = x) := by
  have hquote (y : CStr) : (Json.quote y).length = (Json.escape y).length + 2 := by
    simp [Json.quote]
  rcases Nat.lt_or_ge 1 cap with hcap | hcap
  · obtain ⟨o₁, ho₁, hwrote₁⟩ := jsonQuote_wrote o off (w := 0) (by omega) hfits
    obtain ⟨o₂, j, ho₂, hwrote₂, hroom, hall⟩ := jsonChars_wrote off x hcap
      (by rw [hwrote₁.length]; exact hfits)
    obtain ⟨o₃, ho₃, hwrote₃⟩ := jsonQuote_wrote o₂ off hroom
      (by rw [hwrote₂.length, hwrote₁.length]; exact hfits)
    refine ⟨o₃, j, ?_, ?_, ?_⟩
    · simp only [jsonStr, ho₁, ho₂, ho₃, Option.bind_eq_bind, Option.bind_some, hquote]
      congr 2
      omega
    · rw [List.take_of_length_le (by rw [hquote]; omega)]
      refine (hwrote₁.append hwrote₂).append ?_
      rwa [List.length_append, List.length_singleton, Nat.add_zero]
    · intro hspace
      rw [hquote] at hspace
      exact hall (by omega)
  · -- no room for two quotes
    have hshort : ¬(Json.quote x).length + 7 ≤ cap := by
      rw [hquote]
      omega
    rcases Nat.lt_or_ge 0 cap with hpos | hzero
    · obtain rfl : cap = 1 := by omega
      obtain ⟨o₁, ho₁, hwrote₁⟩ := jsonQuote_wrote o off (w := 0) (by omega) hfits
      refine ⟨o₁, 0, ?_, ?_, fun h => absurd h hshort⟩
      · have hloop : jsonChars off 1 x o₁ 1 = some (o₁, 1) := by
          cases x <;> simp [jsonChars]
        have hclose : jsonQuote off 1 o₁ 1 = some (o₁, 1) := if_neg (by omega)
        simp only [jsonStr, ho₁, hloop, hclose, Option.bind_eq_bind, Option.bind_some, hquote]
        congr 2
      · simpa [Json.quote] using hwrote₁
    · obtain rfl : cap = 0 := by omega
      refine ⟨o, 0, ?_, .nil (by omega), fun h => absurd h hshort⟩
      have hloop : jsonChars off 0 x o 0 = some (o, 0) := by
        cases x <;> simp [jsonChars]
      simp [jsonStr, jsonQuote, hloop]

/-- A string is added with some or all of its characters. -/
theorem jaddStr_filled (hs : Filled cap t s) (x : CStr) (hcap : cap < 2 ^ 16) :
    ∃ s' j, jaddStr cap x s = some s' ∧ Filled cap (t ++ Json.quote (x.take j)) s' ∧
      (t.length + (Json.quote x).length + 7 ≤ cap → x.take j = x) := by
  have hle := hs.le
  have hlen := hs.length
  obtain ⟨o', j, ho', hwrote, hall⟩ := jsonStr_wrote s.o s.n (cap - s.n) x (by omega)
  have hsum : (s.n + min (Json.quote (x.take j)).length (cap - s.n) % 2 ^ 16) % 2 ^ 16 =
      s.n + min (Json.quote (x.take j)).length (cap - s.n) := by omega
  refine ⟨⟨o', s.n + min (Json.quote (x.take j)).length (cap - s.n)⟩, j, ?_, ?_, ?_⟩
  · simp only [jaddStr, hs.sizeLeft hcap, ho', hsum, Option.bind_eq_bind, Option.bind_some,
      Option.pure_def]
  · exact hs.append hwrote (by omega) (by omega) (by omega) (by omega)
  · intro hspace
    have hin := hs.inside (by omega)
    exact hall (by omega)

/-! ### Runs of a generator -/

/-- The bytes a call prints when there is room for them. -/
def Piece.bytes : Piece → Bytes
  | .text t => t
  | .str x => Json.quote x

def pieceBytes (ps : List Piece) : Bytes := ps.flatMap Piece.bytes

/-- A piece that came out as it is, or a string without its end. -/
inductive Piece.Cut : Piece → Piece → Prop
  | whole (p : Piece) : Cut p p
  | str (x : CStr) (j : Nat) : Cut (.str x) (.str (x.take j))

/-- Every string has at least six bytes behind it, which is what `json_str` leaves free. -/
def Spaced : List Piece → Prop
  | [] => True
  | .text _ :: ps => Spaced ps
  | .str _ :: ps => 6 ≤ (pieceBytes ps).length ∧ Spaced ps

/-- The texts a 16-bit length can count. -/
def Short (cap : Nat) (ps : List Piece) : Prop := ∀ t, .text t ∈ ps → cap + t.length < 2 ^ 16

theorem emit_filled (hs : Filled cap t s) (hpos : 0 < cap) (hcap : cap < 2 ^ 16) (p : Piece)
    (hshort : Short cap [p]) :
    ∃ s' p', emit cap s p = some s' ∧ p.Cut p' ∧ Filled cap (t ++ p'.bytes) s' ∧
      (∀ t', p = .text t' → s'.n < cap) ∧
      (∀ x, p = .str x → t.length + p.bytes.length + 7 ≤ cap → p' = p) := by
  cases p with
  | text t' =>
    obtain ⟨s', hs', hfilled, hlt⟩ := jadd_filled hs hpos (hshort t' (by simp))
    exact ⟨s', .text t', hs', .whole _, hfilled, fun _ _ => hlt, nofun⟩
  | str x =>
    obtain ⟨s', j, hs', hfilled, hall⟩ := jaddStr_filled hs x hcap
    refine ⟨s', .str (x.take j), hs', .str x j, hfilled, nofun, ?_⟩
    intro y _ hspace
    rw [hall hspace]

/-- A run stores the texts and what there is room for of the strings, without a write outside the
buffer. When all of it fits, nothing is cut. -/
theorem emitAll_filled (ps : List Piece) (hs : Filled cap t s) (hpos : 0 < cap)
    (hcap : cap < 2 ^ 16) (hshort : Short cap ps) :
    ∃ s' ps', emitAll cap ps s = some s' ∧ List.Forall₂ Piece.Cut ps ps' ∧
      Filled cap (t ++ pieceBytes ps') s' ∧
      (∀ t', ps.getLast? = some (.text t') → s'.n < cap) ∧
      (Spaced ps → t.length + (pieceBytes ps).length < cap → ps' = ps) := by
  induction ps generalizing t s with
  | nil => exact ⟨s, [], rfl, .nil, by simpa [pieceBytes] using hs, by simp, fun _ _ => rfl⟩
  | cons p ps ih =>
    obtain ⟨s₁, p', hs₁, hcut, hfilled₁, hlast, hwhole⟩ := emit_filled hs hpos hcap p
      fun t' ht' => hshort t' (by simp_all)
    obtain ⟨s', ps', hs', hcuts, hfilled, hend, hall⟩ := ih hfilled₁ fun t' ht' =>
      hshort t' (List.mem_cons_of_mem _ ht')
    have hbytes (q : Piece) (qs : List Piece) :
        pieceBytes (q :: qs) = q.bytes ++ pieceBytes qs := List.flatMap_cons
    refine ⟨s', p' :: ps', ?_, .cons hcut hcuts, ?_, ?_, ?_⟩
    · rw [emitAll, List.foldlM_cons, hs₁]
      exact hs'
    · rwa [hbytes, ← List.append_assoc]
    · intro t' ht'
      cases ps with
      | nil =>
        obtain rfl : s₁ = s' := Option.some.inj hs'
        exact hlast t' (by simpa using ht')
      | cons q qs => exact hend t' (by simpa using ht')
    · intro hspaced hfits
      rw [hbytes, List.length_append] at hfits
      have hp : p' = p := by
        cases p with
        | text t' => cases hcut; rfl
        | str x => exact hwhole x rfl (by have := hspaced.1; omega)
      subst hp
      rw [hall _ (by rw [List.length_append]; omega)]
      cases p' with
      | text t' => exact hspaced
      | str x => exact hspaced.2

/-- A generator that ends with a `JADD`, started on a buffer: the body is the start of what came
out, up to the last byte of the buffer. -/
theorem emitAll_body {o : Bytes} {last : CStr} (ps : List Piece) (ho : o.length = cap)
    (hlast : ps.getLast? = some (.text last)) (hpos : 0 < cap) (hcap : cap < 2 ^ 16)
    (hshort : Short cap ps) :
    ∃ s ps', emitAll cap ps ⟨o, 0⟩ = some s ∧ s.n < cap ∧ List.Forall₂ Piece.Cut ps ps' ∧
      s.o.take s.n = (pieceBytes ps').take (cap - 1) ∧
      (Spaced ps → (pieceBytes ps).length < cap → ps' = ps) := by
  have hstart : Filled cap [] ⟨o, 0⟩ := ⟨ho, Nat.zero_le _, fun _ => rfl, by simp; omega, by simp⟩
  obtain ⟨s, ps', hs, hcuts, hfilled, hend, hall⟩ := emitAll_filled ps hstart hpos hcap hshort
  have hlt := hend last hlast
  have htext := hfilled.text
  rw [min_eq_left (by omega), List.nil_append] at htext
  exact ⟨s, ps', hs, hlt, hcuts, htext, fun hspaced hfits => hall hspaced (by simpa using hfits)⟩

end Molewire
