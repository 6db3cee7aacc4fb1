/-
# Keys as text

The base64 code of `wireguard.c`, in both directions. What the encoder writes
is read back, and a text that reads as 32 bytes has 44 characters at most, so
the 46 bytes of a key field never cut one off.
-/

import Molewire.ConfigProto

namespace Molewire

open ByteBuffer

/-! ### The length of a text -/

section Decoding

variable {outlen : Nat} {s rest : CStr} {c : UInt8} {accum : UInt32} {charCount byteCount : Nat}
  {out r : Bytes}

/-- A padding character takes a byte from what the block still gives, another one needs all. -/
theorem base64Bits_cases {bits : UInt32} {n : Nat} (h : base64Bits byteCount c = some (bits, n)) :
    byteCount = n + 1 ∨ byteCount = 3 ∧ n = 3 := by
  unfold base64Bits at h
  split_ifs at h with hpad hzero hthree
  · simp only [Option.some.injEq, Prod.mk.injEq] at h
    omega
  · obtain ⟨i, -, hi⟩ := Option.map_eq_some_iff.mp h
    simp only [Prod.mk.injEq] at hi
    omega

/-- One character read: the block goes on, or is full and its bytes come out. -/
theorem base64DecodeLoop_cons
    (h : base64DecodeLoop outlen (c :: rest) accum charCount byteCount out = some r) :
    ∃ accum' n block, (byteCount = n + 1 ∨ byteCount = 3 ∧ n = 3) ∧
      (charCount + 1 = 4 ∧ (1 ≤ block.length ∧ (n = 3 → block.length = 3)) ∧
          base64DecodeLoop outlen rest 0 0 n (out ++ block) = some r ∨
        charCount + 1 ≠ 4 ∧
          base64DecodeLoop outlen rest accum' (charCount + 1) n out = some r) := by
  unfold base64DecodeLoop at h
  split at h
  case h_1 => cases h
  case h_2 bits n hbits =>
    have hn := base64Bits_cases hbits
    dsimp only at h
    -- the fourth character empties the accumulator, if the buffer has room for the block
    split_ifs at h with hfull hroom
    · refine ⟨accum, n, base64Block (accum <<< 6 ||| bits) n, hn, .inl ⟨hfull, ⟨?_, ?_⟩, h⟩⟩
      · rw [base64Block, List.length_cons]
        exact Nat.succ_pos _
      · rintro rfl
        rfl
    · exact ⟨_, n, [], hn, .inr ⟨hfull, h⟩⟩

/-- Behind padding only padding is read, as much as the block still owes. A block that was begun
gives a byte. -/
theorem base64DecodeLoop_padding (hpad : byteCount < 3)
    (h : base64DecodeLoop outlen s accum charCount byteCount out = some r) :
    s.length ≤ byteCount ∧ out.length ≤ r.length ∧ (0 < charCount → out.length < r.length) := by
  -- on the text; what the block still owes goes down with every padding character
  induction s generalizing accum charCount byteCount out with
  | nil =>
    simp only [base64DecodeLoop, Option.ite_none_right_eq_some, Option.some.injEq] at h
    obtain ⟨rfl, rfl⟩ := h
    exact ⟨Nat.zero_le _, le_rfl, nofun⟩
  | cons c rest ih =>
    obtain ⟨_, n, block, hn, ⟨-, hblock, hrest⟩ | ⟨-, hrest⟩⟩ := base64DecodeLoop_cons h
    · obtain ⟨hshort, hout, -⟩ := ih (by omega) hrest
      rw [List.length_append] at hout
      rw [List.length_cons]
      exact ⟨by omega, by omega, fun _ => by omega⟩
    · obtain ⟨hshort, -, hbegun⟩ := ih (by omega) hrest
      have hout := hbegun (Nat.succ_pos _)
      rw [List.length_cons]
      exact ⟨by omega, by omega, fun _ => hout⟩

/-- A text is read in whole blocks of four. -/
theorem base64DecodeLoop_blocks (hcount : charCount < 4)
    (h : base64DecodeLoop outlen s accum charCount byteCount out = some r) :
    (charCount + s.length) % 4 = 0 := by
  induction s generalizing accum charCount byteCount out with
  | nil =>
    simp only [base64DecodeLoop, Option.ite_none_right_eq_some, Option.some.injEq] at h
    simp [h.1]
  | cons c rest ih =>
    obtain ⟨_, n, block, -, ⟨hfull, -, hrest⟩ | ⟨hopen, hrest⟩⟩ := base64DecodeLoop_cons h
    · have := ih (by omega) hrest
      rw [List.length_cons]
      omega
    · have := ih (by omega) hrest
      rw [List.length_cons]
      omega

/-- Each block but the last gives three bytes. -/
theorem base64DecodeLoop_length (hcount : charCount < 4)
    (h : base64DecodeLoop outlen s accum charCount 3 out = some r) :
    3 * (charCount + s.length) + 4 * out.length ≤ 4 * r.length + 8 := by
  -- on the text, as long as no padding was read; from then on the block is the last
  induction s generalizing accum charCount out with
  | nil =>
    simp only [base64DecodeLoop, Option.ite_none_right_eq_some, Option.some.injEq] at h
    obtain ⟨rfl, rfl⟩ := h
    simp
  | cons c rest ih =>
    have hblocks := base64DecodeLoop_blocks hcount h
    rw [List.length_cons] at hblocks ⊢
    obtain ⟨_, n, block, hn, ⟨hfull, hblock, hrest⟩ | ⟨hopen, hrest⟩⟩ := base64DecodeLoop_cons h
    · rcases hn with hpad | ⟨-, rfl⟩
      · obtain ⟨hshort, hout, -⟩ := base64DecodeLoop_padding (by omega) hrest
        rw [List.length_append] at hout
        omega
      · have := ih (by omega) hrest
        rw [List.length_append, hblock.2 rfl] at this
        omega
    · rcases hn with hpad | ⟨-, rfl⟩
      · -- the first padding character: at most two more follow, and they end the block
        obtain ⟨hshort, -, hbegun⟩ := base64DecodeLoop_padding (by omega) hrest
        have hout := hbegun (Nat.succ_pos _)
        omega
      · have := ih (by omega) hrest
        omega

end Decoding

/-- A key that is accepted is stored as it was typed. -/
theorem validWgKey_length {s : CStr} (h : validWgKey s) : s.length ≤ 44 := by
  unfold validWgKey base64Decode at h
  cases hr : base64DecodeLoop 64 s 0 0 3 [] with
  | none => simp [hr] at h
  | some r =>
    have h32 : r.length = 32 := by simpa [hr] using h
    -- 32 bytes take at most eleven blocks
    have hlen := base64DecodeLoop_length (by decide) hr
    have hblocks := base64DecodeLoop_blocks (by decide) hr
    simp only [List.length_nil] at hlen
    omega

/-! ### What the encoder writes -/

theorem base64Lookup_char : ∀ n < 64,
    base64Lookup.idxOf? (base64Lookup.getD n 0) = some n ∧ base64Lookup.getD n 0 ≠ 61 := by
  decide +kernel

/-- The six bits a character stands for. -/
def base64Sextet (tmp : UInt32) (i : Nat) : UInt32 := (tmp >>> (18 - 6 * i).toUInt32) &&& 0x3F

theorem base64Sextet_lt (tmp : UInt32) (i : Nat) : (base64Sextet tmp i).toNat < 64 := by
  rw [base64Sextet, UInt32.toNat_and]
  exact Nat.lt_of_le_of_lt Nat.and_le_right (by decide)

theorem base64Bits_char (tmp : UInt32) (i : Nat) :
    base64Bits 3 (base64Char tmp i) = some (base64Sextet tmp i, 3) := by
  obtain ⟨hidx, hne⟩ := base64Lookup_char _ (base64Sextet_lt tmp i)
  have hchar : base64Char tmp i = base64Lookup.getD (base64Sextet tmp i).toNat 0 := rfl
  have hmask : (base64Sextet tmp i).toNat.toUInt32 &&& 0x3F = base64Sextet tmp i := by
    change UInt32.ofNat _ &&& 0x3F = _
    rw [UInt32.ofNat_toNat, base64Sextet, UInt32.and_assoc]
    rfl
  rw [base64Bits, hchar, if_neg hne, if_neg (by decide), hidx, Option.map_some, hmask]

theorem base64Bits_pad {n : Nat} : base64Bits (n + 1) 61 = some (0, n) := rfl

/-- Six bits shifted in from the right. -/
def shiftIn (a x : UInt32) : UInt32 := a <<< 6 ||| x

theorem shiftIn_toNat {a x : UInt32} (ha : a.toNat < 2 ^ 26) (hx : x.toNat < 2 ^ 6) :
    (shiftIn a x).toNat = a.toNat * 64 + x.toNat := by
  have hshift : (a <<< 6).toNat = a.toNat <<< 6 := by
    rw [UInt32.toNat_shiftLeft]
    apply Nat.mod_eq_of_lt
    rw [Nat.shiftLeft_eq]
    change a.toNat * 2 ^ 6 < 2 ^ 32
    omega
  rw [shiftIn, UInt32.toNat_or, hshift, ← Nat.shiftLeft_add_eq_or_of_lt hx, Nat.shiftLeft_eq]

theorem base64Sextet_toNat (tmp : UInt32) {i : Nat} (hi : i ≤ 3) :
    (base64Sextet tmp i).toNat = tmp.toNat / 2 ^ (18 - 6 * i) % 64 := by
  have hshift : (18 - 6 * i).toUInt32.toNat % 32 = 18 - 6 * i := by
    change (UInt32.ofNat _).toNat % 32 = _
    rw [UInt32.toNat_ofNat']
    omega
  have hmask : (0x3F : UInt32).toNat = 2 ^ 6 - 1 := rfl
  rw [base64Sextet, UInt32.toNat_and, UInt32.toNat_shiftRight, hshift, hmask,
    Nat.and_two_pow_sub_one_eq_mod, Nat.shiftRight_eq_div_pow]

theorem shiftIn_four_toNat {w x y z : UInt32} (hw : w.toNat < 2 ^ 6) (hx : x.toNat < 2 ^ 6)
    (hy : y.toNat < 2 ^ 6) (hz : z.toNat < 2 ^ 6) :
    (shiftIn (shiftIn (shiftIn (shiftIn 0 w) x) y) z).toNat =
      w.toNat * 2 ^ 18 + x.toNat * 2 ^ 12 + y.toNat * 2 ^ 6 + z.toNat := by
  have hzero : (0 : UInt32).toNat = 0 := rfl
  have h0 := shiftIn_toNat (a := 0) (by decide) hw
  have h1 := shiftIn_toNat (a := shiftIn 0 w) (by omega) hx
  have h2 := shiftIn_toNat (a := shiftIn (shiftIn 0 w) x) (by omega) hy
  have h3 := shiftIn_toNat (a := shiftIn (shiftIn (shiftIn 0 w) x) y) (by omega) hz
  omega

/-- Shifting the sextets of a block in again gives back the block. -/
theorem shiftIn_sextets {tmp : UInt32} (h : tmp.toNat < 2 ^ 24) :
    shiftIn (shiftIn (shiftIn (shiftIn 0 (base64Sextet tmp 0)) (base64Sextet tmp 1))
      (base64Sextet tmp 2)) (base64Sextet tmp 3) = tmp := by
  -- as numbers: four digits to the base of 64
  rw [← UInt32.toNat_inj, shiftIn_four_toNat (base64Sextet_lt tmp 0) (base64Sextet_lt tmp 1)
    (base64Sextet_lt tmp 2) (base64Sextet_lt tmp 3), base64Sextet_toNat tmp (by decide),
    base64Sextet_toNat tmp (by decide), base64Sextet_toNat tmp (by decide),
    base64Sextet_toNat tmp (by decide)]
  omega

/-- Three bytes as one block. -/
def packBytes (a b c : UInt8) : UInt32 := a.toUInt32 <<< 16 ||| b.toUInt32 <<< 8 ||| c.toUInt32

theorem packBytes_toNat (a b c : UInt8) :
    (packBytes a b c).toNat = a.toNat * 2 ^ 16 + b.toNat * 2 ^ 8 + c.toNat := by
  have ha := a.toNat_lt
  have hb := b.toNat_lt
  have hc := c.toNat_lt
  -- the three bytes do not overlap, so `or` adds them up
  have hhigh : (a.toUInt32 <<< 16).toNat = a.toNat <<< 16 := by
    rw [UInt32.toNat_shiftLeft, UInt8.toNat_toUInt32]
    apply Nat.mod_eq_of_lt
    rw [Nat.shiftLeft_eq]
    change a.toNat * 2 ^ 16 < 2 ^ 32
    omega
  have hmid : (b.toUInt32 <<< 8).toNat = b.toNat <<< 8 := by
    rw [UInt32.toNat_shiftLeft, UInt8.toNat_toUInt32]
    apply Nat.mod_eq_of_lt
    rw [Nat.shiftLeft_eq]
    change b.toNat * 2 ^ 8 < 2 ^ 32
    omega
  have hlow : b.toNat <<< 8 ||| c.toNat = b.toNat * 2 ^ 8 + c.toNat := by
    rw [← Nat.shiftLeft_add_eq_or_of_lt hc, Nat.shiftLeft_eq]
  have hlt : b.toNat * 2 ^ 8 + c.toNat < 2 ^ 16 := by omega
  rw [packBytes, UInt32.toNat_or, UInt32.toNat_or, hhigh, hmid, UInt8.toNat_toUInt32, Nat.or_assoc,
    hlow, ← Nat.shiftLeft_add_eq_or_of_lt hlt, Nat.shiftLeft_eq]
  omega

theorem packBytes_bytes (a b c : UInt8) :
    (packBytes a b c >>> 16).toUInt8 = a ∧ (packBytes a b c >>> 8).toUInt8 = b ∧
      (packBytes a b c).toUInt8 = c := by
  have h := packBytes_toNat a b c
  have hb := b.toNat_lt
  have hc := c.toNat_lt
  have ha := a.toNat_lt
  have shift (n : UInt32) (hn : n.toNat < 32) :
      (packBytes a b c >>> n).toNat = (packBytes a b c).toNat / 2 ^ n.toNat := by
    rw [UInt32.toNat_shiftRight, Nat.mod_eq_of_lt hn, Nat.shiftRight_eq_div_pow]
  have hhigh : (packBytes a b c >>> 16).toNat = (packBytes a b c).toNat / 2 ^ 16 :=
    shift 16 (by decide)
  have hmid : (packBytes a b c >>> 8).toNat = (packBytes a b c).toNat / 2 ^ 8 :=
    shift 8 (by decide)
  refine ⟨?_, ?_, ?_⟩
  · rw [← UInt8.toNat_inj, UInt32.toNat_toUInt8, hhigh]
    omega
  · rw [← UInt8.toNat_inj, UInt32.toNat_toUInt8, hmid]
    omega
  · rw [← UInt8.toNat_inj, UInt32.toNat_toUInt8]
    omega

theorem packBytes_lt (a b c : UInt8) : (packBytes a b c).toNat < 2 ^ 24 := by
  have ha := a.toNat_lt
  have hb := b.toNat_lt
  have hc := c.toNat_lt
  rw [packBytes_toNat]
  omega

/-- The sextets behind the last byte of a short block are empty, so padding stands for them. -/
theorem packBytes_sextets (a b : UInt8) :
    base64Sextet (packBytes a b 0) 3 = 0 ∧ base64Sextet (packBytes a 0 0) 2 = 0 := by
  have hb := packBytes_toNat a b 0
  have ha := packBytes_toNat a 0 0
  have hzero : (0 : UInt8).toNat = 0 := rfl
  have hzero' : (0 : UInt32).toNat = 0 := rfl
  rw [← UInt32.toNat_inj, ← UInt32.toNat_inj, base64Sextet_toNat _ (by decide),
    base64Sextet_toNat _ (by decide), hb, ha, hzero, hzero']
  exact ⟨by omega, by omega⟩

/-- A character inside a block. -/
theorem base64DecodeLoop_open {outlen charCount byteCount n : Nat} {c : UInt8} {bits : UInt32}
    (h : base64Bits byteCount c = some (bits, n)) (hopen : charCount + 1 ≠ 4) (rest : CStr)
    (accum : UInt32) (out : Bytes) :
    base64DecodeLoop outlen (c :: rest) accum charCount byteCount out =
      base64DecodeLoop outlen rest (shiftIn accum bits) (charCount + 1) n out := by
  simp only [base64DecodeLoop, h, if_neg hopen]
  rfl

/-- The fourth character of a block there is room for. -/
theorem base64DecodeLoop_full {outlen byteCount n : Nat} {c : UInt8} {bits : UInt32}
    (h : base64Bits byteCount c = some (bits, n)) {out : Bytes} (hroom : out.length + n ≤ outlen)
    (rest : CStr) (accum : UInt32) :
    base64DecodeLoop outlen (c :: rest) accum 3 byteCount out =
      base64DecodeLoop outlen rest 0 0 n (out ++ base64Block (shiftIn accum bits) n) := by
  simp only [base64DecodeLoop, h, if_neg (Nat.not_lt_of_le hroom), if_pos]
  rfl

/-- What was encoded is read back into any buffer it fits. -/
theorem base64DecodeLoop_encode {outlen : Nat} (bs out : Bytes)
    (hroom : out.length + bs.length ≤ outlen) :
    base64DecodeLoop outlen (base64Encode bs) 0 0 3 out = some (out ++ bs) := by
  -- along the encoder's recursion: one byte left, two, or a whole block and the rest
  induction bs using base64Encode.induct generalizing out with
  | case1 => simp [base64Encode, base64DecodeLoop]
  | case2 a =>
    have hpack : a.toUInt32 <<< 16 = packBytes a 0 0 := by simp [packBytes]
    -- two characters carry the byte, the padding shifts in zeros
    have hsext := shiftIn_sextets (packBytes_lt a 0 0)
    rw [(packBytes_sextets a 0).1, (packBytes_sextets a 0).2] at hsext
    simp only [base64Encode, hpack]
    rw [base64DecodeLoop_open (base64Bits_char _ 0) (by decide),
      base64DecodeLoop_open (base64Bits_char _ 1) (by decide),
      base64DecodeLoop_open (base64Bits_pad (n := 2)) (by decide),
      base64DecodeLoop_full (base64Bits_pad (n := 1)) hroom, hsext]
    simp [base64DecodeLoop, base64Block, (packBytes_bytes a 0 0).1]
  | case3 a b =>
    have hpack : a.toUInt32 <<< 16 ||| b.toUInt32 <<< 8 = packBytes a b 0 := by simp [packBytes]
    have hsext := shiftIn_sextets (packBytes_lt a b 0)
    rw [(packBytes_sextets a b).1] at hsext
    simp only [base64Encode, hpack]
    rw [base64DecodeLoop_open (base64Bits_char _ 0) (by decide),
      base64DecodeLoop_open (base64Bits_char _ 1) (by decide),
      base64DecodeLoop_open (base64Bits_char _ 2) (by decide),
      base64DecodeLoop_full (base64Bits_pad (n := 2)) hroom, hsext]
    simp [base64DecodeLoop, base64Block, (packBytes_bytes a b 0).1, (packBytes_bytes a b 0).2.1]
  | case4 a b c rest ih =>
    obtain ⟨hhigh, hmid, hlow⟩ := packBytes_bytes a b c
    have hblock : base64Block (packBytes a b c) 3 = [a, b, c] := by
      simp [base64Block, hhigh, hmid, hlow]
    have hpack : a.toUInt32 <<< 16 ||| b.toUInt32 <<< 8 ||| c.toUInt32 = packBytes a b c := rfl
    simp only [List.length_cons] at hroom
    simp only [base64Encode, hpack]
    rw [base64DecodeLoop_open (base64Bits_char _ 0) (by decide),
      base64DecodeLoop_open (base64Bits_char _ 1) (by decide),
      base64DecodeLoop_open (base64Bits_char _ 2) (by decide),
      base64DecodeLoop_full (base64Bits_char _ 3) (by omega),
      shiftIn_sextets (packBytes_lt a b c), hblock, ih _ (by simp; omega), List.append_assoc]
    rfl

theorem base64Decode_encode {outlen : Nat} {bs : Bytes} (hroom : bs.length ≤ outlen) :
    base64Decode outlen (base64Encode bs) = some bs := by
  rw [base64Decode, base64DecodeLoop_encode bs [] (by simpa using hroom), List.nil_append]

/-- The text of 32 bytes is a key. -/
theorem validWgKey_encode {bs : Bytes} (h : bs.length = 32) : validWgKey (base64Encode bs) := by
  rw [validWgKey, base64Decode_encode (by omega)]
  simp [h]

end Molewire
