/-
# Byte buffers

A buffer is the list of its bytes. Reading past the end yields zero; writing
replaces a span in place and keeps the length when the span lies inside. Two
spans that do not overlap do not see each other's writes, and a write at a word
boundary changes the word sum of an enclosing span by the difference of the
old and the new words.
-/

import Mathlib.Tactic.Common
import Molewire.Library.OnesComplement

namespace ByteBuffer

open OnesComplement

/-- The bytes of a buffer, lowest offset first. -/
abbrev Bytes := List UInt8

/-- The byte at an offset. -/
def byte (b : Bytes) (i : Nat) : UInt8 := b.getD i 0

/-- The big-endian 16-bit word at an offset. -/
def be16 (b : Bytes) (i : Nat) : Nat := word (byte b i) (byte b (i + 1))

/-- The `n` bytes from an offset on. -/
def span (b : Bytes) (off n : Nat) : Bytes := (b.drop off).take n

/-- Overwrite the bytes from an offset on. What would fall past the end is not written. -/
def splice (b : Bytes) (off : Nat) (xs : Bytes) : Bytes :=
  b.mapIdx fun i x => if off ≤ i then xs.getD (i - off) x else x

variable {b xs : Bytes} {off : Nat}

theorem getElem?_span (b : Bytes) (off n i : Nat) :
    (span b off n)[i]? = if i < n then b[off + i]? else none := by
  simp [span, List.getElem?_take]

theorem getElem?_splice (b : Bytes) (off : Nat) (xs : Bytes) (i : Nat) :
    (splice b off xs)[i]? = b[i]?.map fun x => if off ≤ i then xs.getD (i - off) x else x := by
  simp [splice]

@[simp] theorem length_splice (b : Bytes) (off : Nat) (xs : Bytes) :
    (splice b off xs).length = b.length := by
  simp [splice]

theorem length_span {n : Nat} (h : off + n ≤ b.length) : (span b off n).length = n := by
  simp [span]
  omega

theorem getElem?_splice_of_not_mem {i : Nat} (hi : i < off ∨ off + xs.length ≤ i) :
    (splice b off xs)[i]? = b[i]? := by
  rw [getElem?_splice]
  rcases hi with hlt | hge
  · simp [Nat.not_le.mpr hlt]
  · have hnone : xs[i - off]? = none := List.getElem?_eq_none (by omega)
    simp [List.getD_eq_getElem?_getD, hnone]

theorem getElem?_splice_of_mem {i : Nat} (hlo : off ≤ i) (hhi : i < off + xs.length)
    (hb : i < b.length) : (splice b off xs)[i]? = xs[i - off]? := by
  rw [getElem?_splice, List.getElem?_eq_getElem hb,
    List.getElem?_eq_getElem (show i - off < xs.length by omega)]
  simp [hlo, List.getElem?_eq_getElem (show i - off < xs.length by omega)]

/-- A write leaves every byte outside its span alone. -/
theorem byte_splice_of_not_mem {i : Nat} (hi : i < off ∨ off + xs.length ≤ i) :
    byte (splice b off xs) i = byte b i := by
  simp only [byte, List.getD_eq_getElem?_getD, getElem?_splice_of_not_mem hi]

/-- A write stores the bytes it is given. -/
theorem byte_splice_of_mem {i : Nat} (hlo : off ≤ i) (hhi : i < off + xs.length)
    (hb : i < b.length) : byte (splice b off xs) i = xs.getD (i - off) 0 := by
  simp only [byte, List.getD_eq_getElem?_getD, getElem?_splice_of_mem hlo hhi hb]

/-- Reading a word back where two bytes were stored. -/
theorem be16_splice_self {x y : UInt8} (h : off + 2 ≤ b.length) :
    be16 (splice b off [x, y]) off = word x y := by
  unfold be16
  rw [byte_splice_of_mem (Nat.le_refl _) (by simp) (by omega),
    byte_splice_of_mem (by omega) (by simp) (by omega)]
  simp

theorem span_splice_self (h : off + xs.length ≤ b.length) :
    span (splice b off xs) off xs.length = xs := by
  apply List.ext_getElem?
  intro i
  rw [getElem?_span]
  rcases Nat.lt_or_ge i xs.length with hi | hi
  · rw [if_pos hi, getElem?_splice_of_mem (by omega) (by omega) (by omega), Nat.add_sub_cancel_left]
  · rw [if_neg (by omega), List.getElem?_eq_none hi]

theorem span_two (h : off + 2 ≤ b.length) :
    span b off 2 = [byte b off, byte b (off + 1)] := by
  apply List.ext_getElem?
  intro i
  rw [getElem?_span]
  match i with
  | 0 => simp [byte, List.getD_eq_getElem?_getD,
      List.getElem?_eq_getElem (show off < b.length by omega)]
  | 1 => simp [byte, List.getD_eq_getElem?_getD,
      List.getElem?_eq_getElem (show off + 1 < b.length by omega)]
  | k + 2 => simp

theorem wordSum_span_two (h : off + 2 ≤ b.length) : wordSum (span b off 2) = be16 b off := by
  rw [span_two h, wordSum_pair, be16]

/-- The front of a buffer does not see what stands behind it. -/
theorem span_append {b pad : Bytes} {s n : Nat} (h : s + n ≤ b.length) :
    span (b ++ pad) s n = span b s n := by
  apply List.ext_getElem?
  intro i
  rw [getElem?_span, getElem?_span]
  split_ifs
  · exact List.getElem?_append_left (by omega)
  · rfl

theorem byte_append {b pad : Bytes} {k : Nat} (h : k < b.length) :
    byte (b ++ pad) k = byte b k := by
  rw [byte, byte, List.getD_eq_getElem?_getD, List.getD_eq_getElem?_getD,
    List.getElem?_append_left h]

theorem splice_append {b pad xs : Bytes} {off : Nat} (h : off + xs.length ≤ b.length) :
    splice (b ++ pad) off xs = splice b off xs ++ pad := by
  apply List.ext_getElem?
  intro i
  rcases Nat.lt_or_ge i b.length with hi | hi
  · rw [getElem?_splice, List.getElem?_append_left hi,
      List.getElem?_append_left (by rwa [length_splice]), getElem?_splice]
  · rw [getElem?_splice_of_not_mem (by omega), List.getElem?_append_right hi,
      List.getElem?_append_right (by rwa [length_splice]), length_splice]

/-- A write at the front replaces as many bytes. -/
theorem splice_front {b xs : Bytes} (h : xs.length ≤ b.length) :
    splice b 0 xs = xs ++ b.drop xs.length := by
  apply List.ext_getElem?
  intro i
  rcases Nat.lt_or_ge i xs.length with hi | hi
  · rw [getElem?_splice_of_mem (Nat.zero_le i) (by omega) (by omega), Nat.sub_zero,
      List.getElem?_append_left hi]
  · rw [getElem?_splice_of_not_mem (.inr (by omega)), List.getElem?_append_right hi,
      List.getElem?_drop, Nat.add_sub_cancel' hi]

/-- A zero stored over a zero. -/
theorem splice_zero {b : Bytes} {off : Nat} (h : be16 b off = 0) : splice b off (bytes 0) = b := by
  obtain ⟨hhi, hlo⟩ := (word_eq_zero_iff _ _).mp h
  apply List.ext_getElem?
  intro i
  rcases Nat.lt_or_ge i b.length with hi | hi
  · rcases Nat.lt_or_ge i off with hlt | hge
    · exact getElem?_splice_of_not_mem (.inl hlt)
    rcases Nat.lt_or_ge i (off + 2) with hlt2 | hge2
    · rw [getElem?_splice_of_mem hge (show i < off + (bytes 0).length from hlt2) hi]
      have hbyte : byte b i = 0 := by
        obtain rfl | rfl : i = off ∨ i = off + 1 := by omega
        · exact hhi
        · exact hlo
      have hget : b[i]? = some 0 := by
        rw [List.getElem?_eq_getElem hi, ← hbyte]
        simp [byte, List.getD_eq_getElem?_getD, List.getElem?_eq_getElem hi]
      obtain rfl | rfl : i = off ∨ i = off + 1 := by omega
      · rw [hget, Nat.sub_self]
        rfl
      · rw [hget, Nat.add_sub_cancel_left]
        rfl
    · exact getElem?_splice_of_not_mem (.inr hge2)
  · rw [List.getElem?_eq_none hi, List.getElem?_eq_none (by rwa [length_splice])]

theorem span_add (b : Bytes) (s m n : Nat) : span b s (m + n) = span b s m ++ span b (s + m) n := by
  rw [span, span, span, List.take_add, List.drop_drop]

/-! ### Buffers that differ in one window -/

/-- Two buffers that differ at most in the `m` bytes from `c` on. -/
structure AgreeOff (b b' : Bytes) (c m : Nat) : Prop where
  length_eq : b'.length = b.length
  byte_eq : ∀ k, k < c ∨ c + m ≤ k → byte b' k = byte b k

theorem agreeOff_splice (b : Bytes) (off : Nat) (xs : Bytes) :
    AgreeOff b (splice b off xs) off xs.length :=
  ⟨length_splice b off xs, fun _ hk => byte_splice_of_not_mem hk⟩

theorem AgreeOff.refl (b : Bytes) (c m : Nat) : AgreeOff b b c m :=
  ⟨rfl, fun _ _ => rfl⟩

theorem AgreeOff.trans {b' b'' : Bytes} {c m : Nat} (h : AgreeOff b b' c m)
    (h' : AgreeOff b' b'' c m) : AgreeOff b b'' c m :=
  ⟨h'.length_eq.trans h.length_eq, fun k hk => (h'.byte_eq k hk).trans (h.byte_eq k hk)⟩

theorem AgreeOff.be16_eq {b' : Bytes} {c m k : Nat} (h : AgreeOff b b' c m)
    (hk : k + 2 ≤ c ∨ c + m ≤ k) : be16 b' k = be16 b k := by
  unfold be16
  rw [h.byte_eq k (by omega), h.byte_eq (k + 1) (by omega)]

theorem AgreeOff.span_eq {b' : Bytes} {c m s n : Nat} (h : AgreeOff b b' c m)
    (hs : s + n ≤ c ∨ c + m ≤ s) : span b' s n = span b s n := by
  apply List.ext_getElem?
  intro i
  rw [getElem?_span, getElem?_span]
  split_ifs with hi
  · have hbyte := h.byte_eq (s + i) (by omega)
    have hlen := h.length_eq
    rcases Nat.lt_or_ge (s + i) b.length with hlt | hge
    · simpa [byte, List.getD_eq_getElem?_getD, List.getElem?_eq_getElem hlt,
        List.getElem?_eq_getElem (show s + i < b'.length by omega)] using hbyte
    · rw [List.getElem?_eq_none hge, List.getElem?_eq_none (by omega)]
  · rfl

/-- Around a window at a word boundary the word sums differ as the windows do. -/
theorem AgreeOff.wordSum_span {b' : Bytes} {c m s n : Nat} (h : AgreeOff b b' c m)
    (hs : s ≤ c) (he : c + m ≤ s + n) (hc : (c - s) % 2 = 0) (hm : m % 2 = 0)
    (hlen : s + n ≤ b.length) :
    wordSum (span b' s n) + wordSum (span b c m) =
      wordSum (span b s n) + wordSum (span b' c m) := by
  -- in front of the window, the window, and behind it
  have hsplit : ∀ a : Bytes, a.length = b.length → wordSum (span a s n) =
      wordSum (span a s (c - s)) + (wordSum (span a c m) +
        wordSum (span a (c + m) (s + n - (c + m)))) := by
    intro a ha
    conv_lhs => rw [show n = (c - s) + (m + (s + n - (c + m))) by omega]
    rw [span_add, span_add, show s + (c - s) = c by omega,
      wordSum_append _ _ (by rw [length_span (by omega)]; exact hc),
      wordSum_append _ _ (by rw [length_span (by omega)]; exact hm)]
  rw [hsplit b' h.length_eq, hsplit b rfl, h.span_eq (.inl (by omega)), h.span_eq (.inr le_rfl)]
  omega

/-- The same for a single word. -/
theorem AgreeOff.wordSum_word {b' : Bytes} {c s n : Nat} (h : AgreeOff b b' c 2)
    (hs : s ≤ c) (he : c + 2 ≤ s + n) (hc : (c - s) % 2 = 0) (hlen : s + n ≤ b.length) :
    wordSum (span b' s n) + be16 b c = wordSum (span b s n) + be16 b' c := by
  have hlen' := h.length_eq
  have hsum := h.wordSum_span hs he hc rfl hlen
  rwa [wordSum_span_two (by omega), wordSum_span_two (by omega)] at hsum

/-- Around two bytes at an odd place the sums differ as the two bytes do when swapped. -/
theorem AgreeOff.wordSum_odd {b b' : Bytes} {k s n : Nat} (h : AgreeOff b b' k 2)
    (hs : s < k) (he : k + 3 ≤ s + n) (hk : (k - s) % 2 = 1) (hlen : s + n ≤ b.length) :
    wordSum (span b' s n) + word (byte b (k + 1)) (byte b k) =
      wordSum (span b s n) + word (byte b' (k + 1)) (byte b' k) := by
  -- the two words that share the bytes
  have hwide : AgreeOff b b' (k - 1) 4 :=
    ⟨h.length_eq, fun i hi => h.byte_eq i (by omega)⟩
  have hsum := hwide.wordSum_span (s := s) (n := n) (by omega) (by omega) (by omega) rfl hlen
  have hwindow (a : Bytes) (ha : a.length = b.length) : wordSum (span a (k - 1) 4) =
      word (byte a (k - 1)) (byte a k) + word (byte a (k + 1)) (byte a (k + 2)) := by
    rw [show (4 : Nat) = 2 + 2 from rfl, span_add, wordSum_append _ _ (by
      rw [length_span (by omega)]), wordSum_span_two (by omega), wordSum_span_two (by omega),
      be16, be16, show k - 1 + 1 = k by omega, show k - 1 + 2 = k + 1 by omega]
  rw [hwindow b rfl, hwindow b' h.length_eq, h.byte_eq (k - 1) (by omega),
    h.byte_eq (k + 2) (by omega)] at hsum
  -- what is in front and behind cancels
  have hcancel (m m' : Nat) (u x y w x' y' : UInt8)
      (heq : m' + (word u x + word y w) = m + (word u x' + word y' w)) :
      m' + word y x = m + word y' x' := by
    refine Nat.add_right_cancel (m := word u w) ?_
    calc m' + word y x + word u w = m' + (word u x + word y w) := by unfold word; ring
      _ = m + (word u x' + word y' w) := heq
      _ = m + word y' x' + word u w := by unfold word; ring
  exact hcancel _ _ _ _ _ _ _ _ hsum

end ByteBuffer
