/-
# BLAKE2s

The hash of `blake2s.c`. Bytes are put into a buffer one by one; a full buffer is
compressed when the next byte comes, so that the last block is still there when
the digest is made and can be marked. A key is a first block of its own. What
comes out is the standard's function of the key and the message, however the
message is cut into calls.
-/

import Mathlib.Data.Vector.Basic
import Molewire.Crypto
import Molewire.Library.BlockBuffer

namespace Molewire

open ByteBuffer LittleEndian BlockBuffer

/-! ### The compression function -/

/-- `ROTR32`. -/
def rotr32 (x y : UInt32) : UInt32 := x >>> y ^^^ x <<< (32 - y)

/-- `B2S_G`, on the work words with these indices. -/
def b2sG (v : Vector UInt32 16) (a b c d : Fin 16) (x y : UInt32) : Vector UInt32 16 :=
  let v := v.set a (v[a] + v[b] + x)
  let v := v.set d (rotr32 (v[d] ^^^ v[a]) 16)
  let v := v.set c (v[c] + v[d])
  let v := v.set b (rotr32 (v[b] ^^^ v[c]) 12)
  let v := v.set a (v[a] + v[b] + y)
  let v := v.set d (rotr32 (v[d] ^^^ v[a]) 8)
  let v := v.set c (v[c] + v[d])
  v.set b (rotr32 (v[b] ^^^ v[c]) 7)

/-- `blake2s_iv`. -/
def blake2sIv : Vector UInt32 8 :=
  #v[0x6A09E667, 0xBB67AE85, 0x3C6EF372, 0xA54FF53A,
    0x510E527F, 0x9B05688C, 0x1F83D9AB, 0x5BE0CD19]

/-- `sigma`, a row for each of the ten rounds. -/
def blake2sSigma : List (Vector (Fin 16) 16) :=
  [#v[0, 1, 2, 3, 4, 5, 6, 7, 8, 9, 10, 11, 12, 13, 14, 15],
    #v[14, 10, 4, 8, 9, 15, 13, 6, 1, 12, 0, 2, 11, 7, 5, 3],
    #v[11, 8, 12, 0, 5, 2, 15, 13, 10, 14, 3, 6, 7, 1, 9, 4],
    #v[7, 9, 3, 1, 13, 12, 11, 14, 2, 6, 5, 10, 4, 0, 15, 8],
    #v[9, 0, 5, 7, 2, 4, 10, 15, 14, 1, 11, 12, 6, 8, 3, 13],
    #v[2, 12, 6, 10, 0, 11, 8, 3, 4, 13, 7, 5, 15, 14, 1, 9],
    #v[12, 5, 1, 15, 14, 13, 4, 10, 0, 7, 6, 3, 9, 2, 8, 11],
    #v[13, 11, 7, 14, 12, 1, 3, 9, 5, 0, 15, 4, 8, 6, 2, 10],
    #v[6, 15, 14, 9, 11, 3, 0, 8, 12, 2, 13, 7, 1, 4, 10, 5],
    #v[10, 2, 8, 4, 7, 6, 1, 5, 15, 11, 9, 14, 3, 12, 13, 0]]

/-- One of the ten rounds. -/
def b2sRound (m v : Vector UInt32 16) (s : Vector (Fin 16) 16) : Vector UInt32 16 :=
  let v := b2sG v 0 4 8 12 m[s[0]] m[s[1]]
  let v := b2sG v 1 5 9 13 m[s[2]] m[s[3]]
  let v := b2sG v 2 6 10 14 m[s[4]] m[s[5]]
  let v := b2sG v 3 7 11 15 m[s[6]] m[s[7]]
  let v := b2sG v 0 5 10 15 m[s[8]] m[s[9]]
  let v := b2sG v 1 6 11 12 m[s[10]] m[s[11]]
  let v := b2sG v 2 7 8 13 m[s[12]] m[s[13]]
  b2sG v 3 4 9 14 m[s[14]] m[s[15]]

/-- `blake2s_compress`: the chained state after a buffer `b` of 64 bytes. -/
def blake2sCompress (h : Vector UInt32 8) (t0 t1 : UInt32) (b : Bytes) (last : Bool) :
    Vector UInt32 8 :=
  let v : Vector UInt32 16 := h ++ blake2sIv
  let v := v.set 12 (v[12] ^^^ t0)
  let v := v.set 13 (v[13] ^^^ t1)
  let v := if last then v.set 14 (~~~v[14]) else v
  let m : Vector UInt32 16 := Vector.ofFn fun i => u8to32Little b (4 * i.val)
  let v := blake2sSigma.foldl (b2sRound m) v
  Vector.ofFn fun i => h[i] ^^^ (v[i.castLE (by decide : 8 ≤ 16)] ^^^
    v[(i.addNat 8).cast (by decide : 8 + 8 = 16)])

/-! ### The hash -/

/-- `blake2s_ctx`. The buffer holds the bytes put so far, `c` is their number. -/
structure Blake2sCtx where
  b : Bytes
  h : Vector UInt32 8
  t0 : UInt32
  t1 : UInt32
  outlen : Nat

/-- `t[0] += c`, with the carry into `t[1]`. -/
def Blake2sCtx.addCounters (ctx : Blake2sCtx) : Blake2sCtx :=
  let t0 := ctx.t0 + UInt32.ofNat ctx.b.length
  { ctx with t0 := t0, t1 := if t0 < UInt32.ofNat ctx.b.length then ctx.t1 + 1 else ctx.t1 }

/-- The loop of `blake2s_update`. -/
def blake2sPut (ctx : Blake2sCtx) (x : UInt8) : Blake2sCtx :=
  if ctx.b.length = 64 then
    let ctx := ctx.addCounters
    { ctx with h := blake2sCompress ctx.h ctx.t0 ctx.t1 ctx.b false, b := [x] }
  else { ctx with b := ctx.b ++ [x] }

/-- `blake2s_update`. -/
def blake2sUpdate (ctx : Blake2sCtx) (input : Bytes) : Blake2sCtx := input.foldl blake2sPut ctx

/-- The chained state before the first block: the lengths are mixed into its first word. -/
def blake2sStart (outlen keylen : Nat) : Vector UInt32 8 :=
  blake2sIv.set 0
    (blake2sIv[0] ^^^ ((0x01010000 : UInt32) ^^^ UInt32.ofNat keylen <<< 8 ^^^ UInt32.ofNat outlen))

/-- The context in front of the first byte. -/
def Blake2sCtx.fresh (outlen keylen : Nat) : Blake2sCtx where
  b := []
  h := blake2sStart outlen keylen
  t0 := 0
  t1 := 0
  outlen := outlen

/-- `blake2s_init`; `none` stands for the answer -1. A key is put and the buffer counted as full. -/
def blake2sInit (outlen : Nat) (key : Bytes) : Option Blake2sCtx :=
  if outlen = 0 ∨ 32 < outlen ∨ 32 < key.length then none
  else
    let ctx := Blake2sCtx.fresh outlen key.length
    if key.length = 0 then some ctx
    else
      let ctx := blake2sUpdate ctx key
      some { ctx with b := ctx.b ++ List.replicate (64 - ctx.b.length) 0 }

/-- `blake2s_final`. -/
def blake2sFinal (ctx : Blake2sCtx) : Bytes :=
  let ctx := ctx.addCounters
  let b := ctx.b ++ List.replicate (64 - ctx.b.length) 0
  ((blake2sCompress ctx.h ctx.t0 ctx.t1 b true).toList.flatMap u32to8Little).take ctx.outlen

/-- `blake2s`; `none` stands for the answer -1. -/
def blake2s (outlen : Nat) (key input : Bytes) : Option Bytes :=
  (blake2sInit outlen key).map fun ctx => blake2sFinal (blake2sUpdate ctx input)

/-! ### Lengths -/

@[simp] theorem blake2sUpdate_outlen (ctx : Blake2sCtx) (input : Bytes) :
    (blake2sUpdate ctx input).outlen = ctx.outlen := by
  rw [blake2sUpdate]
  induction input generalizing ctx with
  | nil => rfl
  | cons x input ih =>
    rw [List.foldl_cons, ih, blake2sPut]
    split
    · rfl
    · rfl

@[simp] theorem length_blake2sFinal (ctx : Blake2sCtx) :
    (blake2sFinal ctx).length = min ctx.outlen 32 := by
  rw [blake2sFinal, List.length_take]
  rfl

theorem length_of_blake2s {outlen : Nat} {key input digest : Bytes}
    (h : blake2s outlen key input = some digest) : digest.length = outlen := by
  rw [blake2s, Option.map_eq_some_iff] at h
  obtain ⟨ctx, init, rfl⟩ := h
  rw [blake2sInit] at init
  split at init
  case isTrue => cases init
  case isFalse good =>
    have same : ctx.outlen = outlen := by
      dsimp only at init
      split at init
      · rw [← Option.some.inj init]
        rfl
      · rw [← Option.some.inj init]
        exact blake2sUpdate_outlen _ key
    rw [length_blake2sFinal, blake2sUpdate_outlen, same]
    omega

/-! ### The standard's function -/

/-- The counter of the standard, cut into the two words. -/
def b2sF (h : Vector UInt32 8) (t : Nat) (b : Bytes) (last : Bool) : Vector UInt32 8 :=
  blake2sCompress h (UInt32.ofNat t) (UInt32.ofNat (t / 2 ^ 32)) b last

/-- The key, filled up to a block, in front of the message. -/
def b2sData (key m : Bytes) : Bytes :=
  if key.length = 0 then m else key ++ List.replicate (64 - key.length) 0 ++ m

/-- The state in front of the last block: how many bytes were compressed, and to what. -/
def b2sChain (h : Vector UInt32 8) (bs : List Bytes) : Vector UInt32 8 × Nat :=
  bs.foldl (fun s b => (b2sF s.1 (s.2 + 64) b false, s.2 + 64)) (h, 0)

/-- The standard's function: all blocks but the last are compressed with the number of bytes so
far, the last, filled up with zeros, with the number of all bytes and the mark. -/
def b2sSpec (outlen : Nat) (key m : Bytes) : Bytes :=
  let data := b2sData key m
  let chain := b2sChain (blake2sStart outlen key.length) (blocks 64 ((data.length - 1) / 64) data)
  let rest := data.drop (64 * ((data.length - 1) / 64))
  ((b2sF chain.1 data.length (rest ++ List.replicate (64 - rest.length) 0) true).toList.flatMap
    u32to8Little).take outlen

/-! ### The code computes it -/

/-- The rule of `blake2s_update`: a full block waits for the next byte. -/
def b2sRule : Rule 64 := patient 64 (by decide)

/-- What is done with a block that is not the last. -/
private def b2sStep (s : Vector UInt32 8 × Nat) (b : Bytes) : Vector UInt32 8 × Nat :=
  (b2sF s.1 (s.2 + 64) b false, s.2 + 64)

/-- The context holds a chained state and a buffer, and counts the bytes compressed. -/
private structure Tracks (outlen : Nat) (ctx : Blake2sCtx) (s : (Vector UInt32 8 × Nat) × Bytes) :
    Prop where
  out : ctx.outlen = outlen
  h : ctx.h = s.1.1
  b : ctx.b = s.2
  t0 : ctx.t0 = UInt32.ofNat s.1.2
  t1 : ctx.t1 = UInt32.ofNat (s.1.2 / 2 ^ 32)
  room : s.2.length ≤ 64

/-- The carry into the high word is the one of the sum. -/
private theorem Tracks.addCounters {outlen : Nat} {ctx : Blake2sCtx}
    {s : (Vector UInt32 8 × Nat) × Bytes} (ht : Tracks outlen ctx s) :
    ctx.addCounters.t0 = UInt32.ofNat (s.1.2 + s.2.length) ∧
      ctx.addCounters.t1 = UInt32.ofNat ((s.1.2 + s.2.length) / 2 ^ 32) := by
  have room := ht.room
  have low : ctx.t0 + UInt32.ofNat ctx.b.length = UInt32.ofNat (s.1.2 + s.2.length) := by
    rw [ht.t0, ht.b, UInt32.ofNat_add]
  have carry : ctx.t0 + UInt32.ofNat ctx.b.length < UInt32.ofNat ctx.b.length ↔
      s.1.2 / 2 ^ 32 ≠ (s.1.2 + s.2.length) / 2 ^ 32 := by
    rw [low, ht.b, UInt32.lt_iff_toNat_lt, UInt32.toNat_ofNat', UInt32.toNat_ofNat']
    omega
  refine ⟨low, ?_⟩
  rw [Blake2sCtx.addCounters]
  by_cases wraps : s.1.2 / 2 ^ 32 = (s.1.2 + s.2.length) / 2 ^ 32
  · rw [if_neg fun h => (carry.mp h) wraps, ht.t1, wraps]
  · have next : (s.1.2 + s.2.length) / 2 ^ 32 = s.1.2 / 2 ^ 32 + 1 := by omega
    rw [if_pos (carry.mpr wraps), ht.t1, next, UInt32.ofNat_add]
    rfl

/-- A byte put is a piece of one byte fed. -/
private theorem Tracks.put {outlen : Nat} {ctx : Blake2sCtx}
    {s : (Vector UInt32 8 × Nat) × Bytes} (ht : Tracks outlen ctx s) (x : UInt8) :
    Tracks outlen (blake2sPut ctx x) (b2sRule.feed b2sStep s [x]) := by
  have room := ht.room
  have count : b2sRule.count (s.2 ++ [x]).length = s.2.length / 64 := by
    rw [List.length_append]
    rfl
  rw [Rule.feed, count, blake2sPut, ht.b]
  by_cases full : s.2.length = 64
  · -- the block is compressed, the byte begins the next
    obtain ⟨c0, c1⟩ := ht.addCounters
    rw [if_pos full, full]
    have front : (s.2 ++ [x]).take 64 = s.2 := by rw [← full, List.take_left]
    have back : (s.2 ++ [x]).drop 64 = [x] := by rw [← full, List.drop_left]
    have one : takeBlocks b2sStep 64 (64 / 64) (s.1, s.2 ++ [x]) = (b2sStep s.1 s.2, [x]) := by
      rw [Nat.div_self (by decide), takeBlocks, takeBlocks, front, back]
    have state : ctx.addCounters.h = s.1.1 := ht.h
    have buffer : ctx.addCounters.b = s.2 := ht.b
    have compressed : blake2sCompress ctx.addCounters.h ctx.addCounters.t0 ctx.addCounters.t1
        ctx.addCounters.b false = (b2sStep s.1 s.2).1 := by
      rw [state, buffer, c0, c1, full]
      rfl
    rw [full] at c0 c1
    rw [one]
    exact ⟨ht.out, compressed, rfl, c0, c1, Nat.le_of_ble_eq_true rfl⟩
  · have none : s.2.length / 64 = 0 := by omega
    rw [if_neg full, none, takeBlocks]
    exact ⟨ht.out, ht.h, rfl, ht.t0, ht.t1, by
      rw [List.length_append, List.length_singleton]
      omega⟩

private theorem Tracks.update {outlen : Nat} {ctx : Blake2sCtx}
    {s : (Vector UInt32 8 × Nat) × Bytes} (ht : Tracks outlen ctx s) (settled : b2sRule.Settled s) (input : Bytes) :
    Tracks outlen (blake2sUpdate ctx input) (b2sRule.feed b2sStep s input) := by
  induction input generalizing ctx s with
  | nil =>
    rw [Rule.feed_nil _ _ settled]
    exact ht
  | cons x input ih =>
    have rest := ih (ht.put x) (Rule.settled_feed _ _ _ _)
    rw [Rule.feed_feed] at rest
    exact rest

private theorem b2sChain_count (h : Vector UInt32 8) (bs : List Bytes) :
    (bs.foldl b2sStep (h, 0)).2 = 64 * bs.length := by
  have from_ (s : Vector UInt32 8 × Nat) : (bs.foldl b2sStep s).2 = s.2 + 64 * bs.length := by
    induction bs generalizing s with
    | nil => rfl
    | cons b bs ih =>
      rw [List.foldl_cons, ih, List.length_cons, b2sStep]
      omega
  rw [from_]
  omega

/-- The digest of a context that has been fed all of the data. -/
private theorem Tracks.final {outlen keylen : Nat} {ctx : Blake2sCtx} {data : Bytes}
    (ht : Tracks outlen ctx (b2sRule.feed b2sStep ((blake2sStart outlen keylen, 0), []) data)) :
    blake2sFinal ctx =
      let chain := b2sChain (blake2sStart outlen keylen)
        (blocks 64 ((data.length - 1) / 64) data)
      let rest := data.drop (64 * ((data.length - 1) / 64))
      ((b2sF chain.1 data.length (rest ++ List.replicate (64 - rest.length) 0)
        true).toList.flatMap u32to8Little).take outlen := by
  have count : b2sRule.count data.length = (data.length - 1) / 64 := rfl
  have fed : b2sRule.feed b2sStep ((blake2sStart outlen keylen, 0), []) data =
      (b2sChain (blake2sStart outlen keylen) (blocks 64 ((data.length - 1) / 64) data),
        data.drop (64 * ((data.length - 1) / 64))) := by
    rw [Rule.feed, List.nil_append, count, takeBlocks_eq]
    rfl
  rw [fed] at ht
  obtain ⟨c0, c1⟩ := ht.addCounters
  have total : (b2sChain (blake2sStart outlen keylen)
        (blocks 64 ((data.length - 1) / 64) data)).2 +
      (data.drop (64 * ((data.length - 1) / 64))).length = data.length := by
    have within := Nat.mul_div_le (data.length - 1) 64
    have chained := b2sChain_count (blake2sStart outlen keylen)
      (blocks 64 ((data.length - 1) / 64) data)
    rw [length_blocks] at chained
    rw [List.length_drop, show (b2sChain (blake2sStart outlen keylen)
      (blocks 64 ((data.length - 1) / 64) data)).2 = _ from chained]
    omega
  rw [total] at c0 c1
  have state : ctx.addCounters.h = _ := ht.h
  have buffer : ctx.addCounters.b = _ := ht.b
  have digest : ctx.addCounters.outlen = outlen := ht.out
  rw [blake2sFinal]
  simp only [state, buffer, digest, c0, c1]
  rfl

/-- Whatever length of digest and key is accepted and however the message is cut, the digest is
the standard's. -/
theorem blake2sFinal_eq_b2sSpec {outlen : Nat} {key : Bytes} {ctx : Blake2sCtx}
    (h : blake2sInit outlen key = some ctx) (pieces : List Bytes) :
    blake2sFinal (pieces.foldl blake2sUpdate ctx) = b2sSpec outlen key pieces.flatten := by
  have whole : pieces.foldl blake2sUpdate ctx = blake2sUpdate ctx pieces.flatten :=
    (List.foldl_flatten ..).symm
  have start : Tracks outlen (.fresh outlen key.length)
      ((blake2sStart outlen key.length, 0), []) :=
    ⟨rfl, rfl, rfl, rfl, by rw [Nat.zero_div]; rfl, Nat.zero_le _⟩
  rw [blake2sInit] at h
  split at h
  case isTrue => cases h
  case isFalse legal =>
    dsimp only at h
    split at h
    case isTrue keyless =>
      cases h
      rw [whole, (start.update (Nat.zero_div 64) pieces.flatten).final, b2sSpec, b2sData, if_pos keyless]
    case isFalse keyed =>
      cases h
      -- the key's block stands in the buffer as if it had been put
      have put := start.update (Nat.zero_div 64) key
      have none : b2sRule.count key.length = 0 := Nat.div_eq_of_lt (by omega)
      have waiting : b2sRule.feed b2sStep ((blake2sStart outlen key.length, 0), []) key =
          ((blake2sStart outlen key.length, 0), key) := by
        rw [Rule.feed, List.nil_append, none, takeBlocks]
      rw [waiting] at put
      generalize blake2sUpdate (.fresh outlen key.length) key = ctx at *
      have full : (key ++ List.replicate (64 - key.length) (0 : UInt8)).length = 64 := by
        rw [List.length_append, List.length_replicate]
        omega
      have block : Tracks outlen { ctx with b := ctx.b ++ List.replicate (64 - ctx.b.length) 0 }
          ((blake2sStart outlen key.length, 0), key ++ List.replicate (64 - key.length) 0) :=
        ⟨put.out, put.h, by rw [put.b], put.t0, put.t1, Nat.le_of_eq full⟩
      have settled : b2sRule.Settled ((blake2sStart outlen key.length, 0),
          key ++ List.replicate (64 - key.length) (0 : UInt8)) := by
        rw [Rule.Settled, full]
        rfl
      have data : b2sRule.feed b2sStep ((blake2sStart outlen key.length, 0),
            key ++ List.replicate (64 - key.length) 0) pieces.flatten =
          b2sRule.feed b2sStep ((blake2sStart outlen key.length, 0), [])
            (key ++ List.replicate (64 - key.length) 0 ++ pieces.flatten) := rfl
      have fed := block.update settled pieces.flatten
      rw [data] at fed
      rw [whole, fed.final, b2sSpec, b2sData, if_neg keyed]

/-- For instance three bytes in two calls without a key. -/
theorem blake2sFinal_two_pieces :
    blake2sFinal ([[97], [98, 99]].foldl blake2sUpdate (.fresh 32 0)) =
      b2sSpec 32 [] [97, 98, 99] :=
  blake2sFinal_eq_b2sSpec (by rfl) [[97], [98, 99]]

end Molewire
