/-
# ChaCha20

The stream cipher of `chacha20.c`. Sixteen words hold the constants, the key, a
block counter and the nonce. Every call enciphers its input with the blocks
from the counter on and leaves the counter behind the last block used, so a
message may be enciphered in pieces wherever the pieces end on whole blocks.
-/

import Mathlib.Data.Vector.Basic
import Molewire.Crypto

namespace Molewire

open ByteBuffer LittleEndian

/-! ### The block function -/

/-- `struct chacha20_ctx`: the words of `state`. -/
abbrev ChaCha20Ctx := Vector UInt32 16

/-- `ROTL32`. -/
def rotl32 (v n : UInt32) : UInt32 := v <<< n ||| v >>> (32 - n)

/-- `QUARTERROUND`, on the words with these indices. -/
def quarterRound (x : ChaCha20Ctx) (a b c d : Fin 16) : ChaCha20Ctx :=
  let x := setWord x a (x.get a + x.get b)
  let x := setWord x d (rotl32 (x.get d ^^^ x.get a) 16)
  let x := setWord x c (x.get c + x.get d)
  let x := setWord x b (rotl32 (x.get b ^^^ x.get c) 12)
  let x := setWord x a (x.get a + x.get b)
  let x := setWord x d (rotl32 (x.get d ^^^ x.get a) 8)
  let x := setWord x c (x.get c + x.get d)
  setWord x b (rotl32 (x.get b ^^^ x.get c) 7)

/-- `INNER_BLOCK`: the columns, then the diagonals. -/
def innerBlock (block : ChaCha20Ctx) : ChaCha20Ctx :=
  let block := quarterRound block 0 4 8 12
  let block := quarterRound block 1 5 9 13
  let block := quarterRound block 2 6 10 14
  let block := quarterRound block 3 7 11 15
  let block := quarterRound block 0 5 10 15
  let block := quarterRound block 1 6 11 12
  let block := quarterRound block 2 7 8 13
  quarterRound block 3 4 9 14

/-- `TWENTY_ROUNDS`. -/
def twentyRounds (x : ChaCha20Ctx) : ChaCha20Ctx := innerBlock^[10] x

/-- `chacha20_block`: the 64 bytes of the stream that belong to the counter in the state. -/
def chacha20Block (ctx : ChaCha20Ctx) : Bytes :=
  (Vector.zipWith (· + ·) (twentyRounds ctx) ctx).toList.flatMap u32to8Little

/-- The counter of the next block, in word 12. -/
def ChaCha20Ctx.next (ctx : ChaCha20Ctx) : ChaCha20Ctx := setWord ctx 12 (ctx.get 12 + 1)

/-! ### The cipher -/

/-- The loop of `chacha20`, with the rest of the input. Every round but the last takes 64 bytes, so
as many rounds as there are bytes are enough. -/
def chacha20Loop : Nat → ChaCha20Ctx → Bytes → ChaCha20Ctx × Bytes
  | 0, ctx, _ => (ctx, [])
  | rounds + 1, ctx, input =>
    let output := chacha20Block ctx
    let ctx := ctx.next
    if input.length ≤ 64 then (ctx, List.zipWith (· ^^^ ·) input output)
    else
      let rest := chacha20Loop rounds ctx (input.drop 64)
      (rest.1, List.zipWith (· ^^^ ·) (input.take 64) output ++ rest.2)

/-- `chacha20`: the state left behind and the bytes written to `out`. -/
def chacha20 (ctx : ChaCha20Ctx) (input : Bytes) : ChaCha20Ctx × Bytes :=
  if input.length = 0 then (ctx, []) else chacha20Loop input.length ctx input

/-- `chacha20_init`: the four words `CHACHA20_CONSTANT_1` to `_4`, the key, the counter, and the
64-bit nonce in the last two words. -/
def chacha20Init (key : Bytes) (nonce : UInt64) : ChaCha20Ctx :=
  #v[0x61707865, 0x3320646e, 0x79622d32, 0x6b206574,
    u8to32Little key 0, u8to32Little key 4, u8to32Little key 8, u8to32Little key 12,
    u8to32Little key 16, u8to32Little key 20, u8to32Little key 24, u8to32Little key 28,
    0, 0, (nonce &&& 0xFFFFFFFF).toUInt32, (nonce >>> 32).toUInt32]

/-- `hchacha20`: a key from a key and the first 16 bytes of a long nonce. -/
def hchacha20 (nonce key : Bytes) : Bytes :=
  let state := twentyRounds
    #v[0x61707865, 0x3320646e, 0x79622d32, 0x6b206574,
      u8to32Little key 0, u8to32Little key 4, u8to32Little key 8, u8to32Little key 12,
      u8to32Little key 16, u8to32Little key 20, u8to32Little key 24, u8to32Little key 28,
      u8to32Little nonce 0, u8to32Little nonce 4, u8to32Little nonce 8, u8to32Little nonce 12]
  [state.get 0, state.get 1, state.get 2, state.get 3, state.get 12, state.get 13, state.get 14,
    state.get 15].flatMap u32to8Little

/-! ### The stream of a state -/

private theorem length_flatMap_words (l : List UInt32) :
    (l.flatMap u32to8Little).length = 4 * l.length := by
  induction l with
  | nil => rfl
  | cons v l ih => rw [List.flatMap_cons, List.length_append, ih, length_u32to8Little,
      List.length_cons, Nat.mul_succ, Nat.add_comm]

@[simp] theorem length_chacha20Block (ctx : ChaCha20Ctx) : (chacha20Block ctx).length = 64 := by
  rw [chacha20Block, length_flatMap_words, Vector.length_toList]

@[simp] theorem length_hchacha20 (nonce key : Bytes) : (hchacha20 nonce key).length = 32 := rfl

/-- The blocks of a state from its counter on. -/
def keystream (ctx : ChaCha20Ctx) : Nat → Bytes
  | 0 => []
  | k + 1 => chacha20Block ctx ++ keystream ctx.next k

/-- The blocks that an input needs, the last of them for what is left over. -/
def blocksFor (len : Nat) : Nat := (len + 63) / 64

theorem length_keystream (ctx : ChaCha20Ctx) (k : Nat) : (keystream ctx k).length = 64 * k := by
  induction k generalizing ctx with
  | zero => rfl
  | succ k ih => rw [keystream, List.length_append, length_chacha20Block, ih, Nat.mul_succ,
      Nat.add_comm]

private theorem chacha20Loop_eq {rounds : Nat} {ctx : ChaCha20Ctx} {input : Bytes}
    (pos : 0 < input.length) (enough : input.length ≤ rounds) :
    chacha20Loop rounds ctx input =
      (ChaCha20Ctx.next^[blocksFor input.length] ctx,
        List.zipWith (· ^^^ ·) input (keystream ctx (blocksFor input.length))) := by
  induction rounds generalizing ctx input with
  | zero => omega
  | succ rounds ih =>
    rw [chacha20Loop]
    by_cases last : input.length ≤ 64
    · have one : blocksFor input.length = 1 := by
        rw [blocksFor]
        omega
      rw [if_pos last, one, keystream, keystream, List.append_nil, Function.iterate_one]
    · have more : blocksFor input.length = blocksFor (input.drop 64).length + 1 := by
        rw [blocksFor, blocksFor, List.length_drop]
        omega
      rw [if_neg last, more, ih (by rw [List.length_drop]; omega) (by
        rw [List.length_drop]; omega), Function.iterate_succ_apply]
      -- 64 bytes against the first block, the rest against the others
      have front : (input.take 64).length = (chacha20Block ctx).length := by
        rw [length_chacha20Block, List.length_take]
        omega
      have split : List.zipWith (· ^^^ ·) (input.take 64 ++ input.drop 64)
            (chacha20Block ctx ++ keystream ctx.next (blocksFor (input.drop 64).length)) =
          List.zipWith (· ^^^ ·) (input.take 64) (chacha20Block ctx) ++
            List.zipWith (· ^^^ ·) (input.drop 64)
              (keystream ctx.next (blocksFor (input.drop 64).length)) :=
        List.zipWith_append front
      rw [List.take_append_drop] at split
      rw [keystream, split]

/-- The cipher adds the stream, block by block, and moves the counter past it. -/
theorem chacha20_eq (ctx : ChaCha20Ctx) (input : Bytes) :
    chacha20 ctx input =
      (ChaCha20Ctx.next^[blocksFor input.length] ctx,
        List.zipWith (· ^^^ ·) input (keystream ctx (blocksFor input.length))) := by
  rw [chacha20]
  by_cases empty : input.length = 0
  · rw [if_pos empty, empty, List.length_eq_zero_iff.mp empty]
    rfl
  · rw [if_neg empty, chacha20Loop_eq (by omega) (Nat.le_refl _)]

theorem length_keystream_blocksFor (ctx : ChaCha20Ctx) (len : Nat) :
    len ≤ (keystream ctx (blocksFor len)).length := by
  rw [length_keystream, blocksFor]
  omega

@[simp] theorem length_chacha20 (ctx : ChaCha20Ctx) (input : Bytes) :
    (chacha20 ctx input).2.length = input.length := by
  rw [chacha20_eq, List.length_zipWith]
  exact Nat.min_eq_left (length_keystream_blocksFor ctx input.length)

private theorem zipWith_xor_xor {a s : Bytes} (h : a.length ≤ s.length) :
    List.zipWith (· ^^^ ·) (List.zipWith (· ^^^ ·) a s) s = a := by
  induction a generalizing s with
  | nil => rfl
  | cons x a ih =>
    cases s with
    | nil => cases h
    | cons y s =>
      rw [List.zipWith_cons_cons, List.zipWith_cons_cons, ih (Nat.le_of_succ_le_succ h),
        UInt8.xor_assoc, UInt8.xor_self, UInt8.xor_zero]

/-- The same call on the result gives the input back. -/
theorem chacha20_chacha20 (ctx : ChaCha20Ctx) (input : Bytes) :
    (chacha20 ctx (chacha20 ctx input).2).2 = input := by
  rw [chacha20_eq, length_chacha20, chacha20_eq]
  exact zipWith_xor_xor (length_keystream_blocksFor ctx input.length)

end Molewire
