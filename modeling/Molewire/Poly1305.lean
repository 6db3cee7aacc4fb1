/-
# Poly1305

The one-time authenticator of `poly1305-donna`. A number of 130 bits is held in
five limbs of 26 bits. A block is added and the sum multiplied by the key in
64-bit arithmetic, with the carries passed on once, so that a limb may stand a
little above its 26 bits; the end of the computation passes them on fully and
reduces. No addition or multiplication on the way overflows, and what is stored
is the evaluation of the message's polynomial modulo 2^130 - 5.
-/

import Molewire.Crypto
import Molewire.Library.BlockBuffer

namespace Molewire

open ByteBuffer LittleEndian BlockBuffer

/-! ### The code -/

/-- Five limbs, the lowest first. -/
structure Limbs where
  l0 : UInt32
  l1 : UInt32
  l2 : UInt32
  l3 : UInt32
  l4 : UInt32

/-- `poly1305_state_internal_t`. The buffer holds the bytes that wait for a full block, `leftover`
is how many. -/
structure Poly1305State where
  r : Limbs
  h : Limbs
  pad : UInt32 × UInt32 × UInt32 × UInt32
  buffer : Bytes

/-- `poly1305_init`. -/
def poly1305Init (key : Bytes) : Poly1305State where
  r := ⟨u8to32Little key 0 &&& 0x3ffffff, (u8to32Little key 3 >>> 2) &&& 0x3ffff03,
    (u8to32Little key 6 >>> 4) &&& 0x3ffc0ff, (u8to32Little key 9 >>> 6) &&& 0x3f03fff,
    (u8to32Little key 12 >>> 8) &&& 0x00fffff⟩
  h := ⟨0, 0, 0, 0, 0⟩
  pad := (u8to32Little key 16, u8to32Little key 20, u8to32Little key 24, u8to32Little key 28)
  buffer := []

/-- `h += m[i]`: the limbs of a block, with the bit above it, which the caller gives as `hibit`. -/
def Limbs.addBlock (h : Limbs) (hibit : UInt32) (m : Bytes) : Limbs where
  l0 := h.l0 + (u8to32Little m 0 &&& 0x3ffffff)
  l1 := h.l1 + ((u8to32Little m 3 >>> 2) &&& 0x3ffffff)
  l2 := h.l2 + ((u8to32Little m 6 >>> 4) &&& 0x3ffffff)
  l3 := h.l3 + ((u8to32Little m 9 >>> 6) &&& 0x3ffffff)
  l4 := h.l4 + (u8to32Little m 12 >>> 8 ||| hibit)

/-- Five products of 32-bit limbs added up in 64 bits. -/
def dot5 (a0 b0 a1 b1 a2 b2 a3 b3 a4 b4 : UInt32) : UInt64 :=
  a0.toUInt64 * b0.toUInt64 + a1.toUInt64 * b1.toUInt64 + a2.toUInt64 * b2.toUInt64 +
    a3.toUInt64 * b3.toUInt64 + a4.toUInt64 * b4.toUInt64

/-- `(partial) h %= p`: the carries of the five sums passed on once around. -/
def partialReduce (d0 d1 d2 d3 d4 : UInt64) : Limbs :=
  let c := (d0 >>> 26).toUInt32
  let h0 := d0.toUInt32 &&& 0x3ffffff
  let d1 := d1 + c.toUInt64
  let c := (d1 >>> 26).toUInt32
  let h1 := d1.toUInt32 &&& 0x3ffffff
  let d2 := d2 + c.toUInt64
  let c := (d2 >>> 26).toUInt32
  let h2 := d2.toUInt32 &&& 0x3ffffff
  let d3 := d3 + c.toUInt64
  let c := (d3 >>> 26).toUInt32
  let h3 := d3.toUInt32 &&& 0x3ffffff
  let d4 := d4 + c.toUInt64
  let c := (d4 >>> 26).toUInt32
  let h4 := d4.toUInt32 &&& 0x3ffffff
  let h0 := h0 + c * 5
  let c := h0 >>> 26
  let h0 := h0 &&& 0x3ffffff
  let h1 := h1 + c
  ⟨h0, h1, h2, h3, h4⟩

/-- `h *= r`, with the limbs that stand above 2^130 folded in by `s1` to `s4`. -/
def Limbs.mul (h r : Limbs) : Limbs :=
  let s1 := r.l1 * 5
  let s2 := r.l2 * 5
  let s3 := r.l3 * 5
  let s4 := r.l4 * 5
  partialReduce
    (dot5 h.l0 r.l0 h.l1 s4 h.l2 s3 h.l3 s2 h.l4 s1)
    (dot5 h.l0 r.l1 h.l1 r.l0 h.l2 s4 h.l3 s3 h.l4 s2)
    (dot5 h.l0 r.l2 h.l1 r.l1 h.l2 r.l0 h.l3 s4 h.l4 s3)
    (dot5 h.l0 r.l3 h.l1 r.l2 h.l2 r.l1 h.l3 r.l0 h.l4 s4)
    (dot5 h.l0 r.l4 h.l1 r.l3 h.l2 r.l2 h.l3 r.l1 h.l4 r.l0)

/-- One round of the loop of `poly1305_blocks`. -/
def Limbs.block (r : Limbs) (hibit : UInt32) (h : Limbs) (m : Bytes) : Limbs :=
  (h.addBlock hibit m).mul r

/-- `poly1305_blocks`, as many rounds as there are whole blocks. -/
def poly1305Blocks (st : Poly1305State) (hibit : UInt32) (m : Bytes) : Poly1305State :=
  { st with h := (takeBlocks (st.r.block hibit) 16 (m.length / 16) (st.h, m)).1 }

/-- `poly1305_update`. -/
def poly1305Update (st : Poly1305State) (m : Bytes) : Poly1305State :=
  let want := min (16 - st.buffer.length) m.length
  let filled := st.buffer ++ m.take want
  -- handle leftover
  if st.buffer.length ≠ 0 ∧ filled.length < 16 then { st with buffer := filled }
  else
    let st' := if st.buffer.length ≠ 0 then
      { poly1305Blocks st ((1 : UInt32) <<< 24) filled with buffer := [] } else st
    let m := if st.buffer.length ≠ 0 then m.drop want else m
    -- process full blocks
    let full := m.length / 16 * 16
    let st' := if 16 ≤ m.length then poly1305Blocks st' ((1 : UInt32) <<< 24) (m.take full)
      else st'
    let m := if 16 ≤ m.length then m.drop full else m
    -- store leftover
    if m.length ≠ 0 then { st' with buffer := st'.buffer ++ m } else st'

/-- `fully carry h`. -/
def Limbs.carry (h : Limbs) : Limbs :=
  let c := h.l1 >>> 26
  let h1 := h.l1 &&& 0x3ffffff
  let h2 := h.l2 + c
  let c := h2 >>> 26
  let h2 := h2 &&& 0x3ffffff
  let h3 := h.l3 + c
  let c := h3 >>> 26
  let h3 := h3 &&& 0x3ffffff
  let h4 := h.l4 + c
  let c := h4 >>> 26
  let h4 := h4 &&& 0x3ffffff
  let h0 := h.l0 + c * 5
  let c := h0 >>> 26
  let h0 := h0 &&& 0x3ffffff
  ⟨h0, h1 + c, h2, h3, h4⟩

/-- `select h if h < p, or h + -p if h >= p`, without a branch. -/
def Limbs.select (h : Limbs) : Limbs :=
  let g0 := h.l0 + 5
  let c := g0 >>> 26
  let g0 := g0 &&& 0x3ffffff
  let g1 := h.l1 + c
  let c := g1 >>> 26
  let g1 := g1 &&& 0x3ffffff
  let g2 := h.l2 + c
  let c := g2 >>> 26
  let g2 := g2 &&& 0x3ffffff
  let g3 := h.l3 + c
  let c := g3 >>> 26
  let g3 := g3 &&& 0x3ffffff
  let g4 := h.l4 + c - ((1 : UInt32) <<< 26)
  let mask := (g4 >>> 31) - 1
  ⟨h.l0 &&& ~~~mask ||| g0 &&& mask, h.l1 &&& ~~~mask ||| g1 &&& mask,
    h.l2 &&& ~~~mask ||| g2 &&& mask, h.l3 &&& ~~~mask ||| g3 &&& mask,
    h.l4 &&& ~~~mask ||| g4 &&& mask⟩

/-- `h = h % (2^128)` and `mac = (h + pad) % (2^128)`: the four words of the tag. -/
def Limbs.tagBytes (h : Limbs) (pad : UInt32 × UInt32 × UInt32 × UInt32) : Bytes :=
  let h0 := h.l0 ||| h.l1 <<< 26
  let h1 := h.l1 >>> 6 ||| h.l2 <<< 20
  let h2 := h.l2 >>> 12 ||| h.l3 <<< 14
  let h3 := h.l3 >>> 18 ||| h.l4 <<< 8
  let f := h0.toUInt64 + pad.1.toUInt64
  let h0 := f.toUInt32
  let f := h1.toUInt64 + pad.2.1.toUInt64 + (f >>> 32)
  let h1 := f.toUInt32
  let f := h2.toUInt64 + pad.2.2.1.toUInt64 + (f >>> 32)
  let h2 := f.toUInt32
  let f := h3.toUInt64 + pad.2.2.2.toUInt64 + (f >>> 32)
  let h3 := f.toUInt32
  u32to8Little h0 ++ u32to8Little h1 ++ u32to8Little h2 ++ u32to8Little h3

/-- `poly1305_finish`: the bytes left over are a last block, ended by a one and zeros. -/
def poly1305Finish (st : Poly1305State) : Bytes :=
  let h := if st.buffer.length ≠ 0 then
    st.r.block 0 st.h (st.buffer ++ 1 :: List.replicate (15 - st.buffer.length) 0) else st.h
  h.carry.select.tagBytes st.pad

end Molewire
