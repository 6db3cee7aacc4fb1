/-
# X25519

The key exchange of `x25519.c` as it is compiled: eight limbs of 32 bits, the
parameters copied, and the inversion by a power chain. A field element is any
number below 2^256; the operations reduce it far enough that nothing overflows,
and only the result is brought into its least form.
-/

import Molewire.Crypto

namespace Molewire

open ByteBuffer

/-! ### Limbs -/

/-- `umaal`: the low word of a product with two additions, and the high word. -/
def umaal (carry acc mand mier : UInt32) : UInt32 × UInt32 :=
  let tmp := mand.toUInt64 * mier.toUInt64 + acc.toUInt64 + carry.toUInt64
  (tmp.toUInt32, (tmp >>> 32).toUInt32)

/-- `adc`: the low word of a sum and the carry. -/
def adc (carry acc mand : UInt32) : UInt32 × UInt32 :=
  let total := carry.toUInt64 + acc.toUInt64 + mand.toUInt64
  (total.toUInt32, (total >>> 32).toUInt32)

/-- `adc0`. -/
def adc0 (carry acc : UInt32) : UInt32 × UInt32 :=
  let total := carry.toUInt64 + acc.toUInt64
  (total.toUInt32, (total >>> 32).toUInt32)

/-- The loop of `adc0` over the limbs of `x`, with the last carry. -/
def adc0Loop : UInt32 → List UInt32 → List UInt32 × UInt32
  | carry, [] => ([], carry)
  | carry, x :: xs =>
    let rest := adc0Loop (adc0 carry x).2 xs
    ((adc0 carry x).1 :: rest.1, rest.2)

/-- The loop of `adc` over the limbs of `a` and `b`, with the last carry. -/
def adcLoop : UInt32 → List UInt32 → List UInt32 → List UInt32 × UInt32
  | carry, a :: as, b :: bs =>
    let rest := adcLoop (adc carry a b).2 as bs
    ((adc carry a b).1 :: rest.1, rest.2)
  | carry, _, _ => ([], carry)

/-- The loop of `sub`, whose carry is a signed word of 64 bits, with the last carry. -/
def subLoop : Int → List UInt32 → List UInt32 → List UInt32 × Int
  | carry, a :: as, b :: bs =>
    let carry := carry + a.toNat - b.toNat
    let rest := subLoop (carry / 2 ^ 32) as bs
    (UInt32.ofNat (carry % 2 ^ 32).toNat :: rest.1, rest.2)
  | carry, _, _ => ([], carry)

/-- The loop of `umaal` over `acc` and the limbs of `a`, with the last carry. -/
def umaalLoop (mand : UInt32) : UInt32 → List UInt32 → List UInt32 → List UInt32 × UInt32
  | carry, acc :: accs, a :: as =>
    let step := umaal carry acc mand a
    let rest := umaalLoop mand step.2 accs as
    (step.1 :: rest.1, rest.2)
  | carry, _, _ => ([], carry)

/-! ### Field elements -/

/-- `fe`: eight limbs, the lowest first. -/
abbrev Fe := List UInt32

/-- `propagate`: what stands above 2^255 is folded in. -/
def propagate (x : Fe) (overflow : UInt32) : Fe :=
  let top := x.getD 7 0
  let overflow := top >>> 31 ||| overflow <<< 1
  (adc0Loop (overflow * 19) (x.take 7 ++ [top &&& 0x7fffffff])).1

namespace Fe

/-- `add`. -/
def add (a b : Fe) : Fe :=
  let sum := adcLoop 0 a b
  propagate sum.1 sum.2

/-- `sub`. -/
def sub (a b : Fe) : Fe :=
  let difference := subLoop (-38) a b
  propagate difference.1 (UInt32.ofNat ((1 + difference.2) % 2 ^ 32).toNat)

/-- The rows of the product in `mul`. Row `i` adds `a * b[i]` into `accum[i..i+7]` and stores its
carry in `accum[i+8]`; after it `accum[i]` is not written again, and `window` is what the next row
adds to. -/
def mulRows (a : Fe) : List UInt32 → List UInt32 → List UInt32
  | [], window => window
  | mand :: bs, window =>
    let row := umaalLoop mand 0 window a
    match row.1 with
    | low :: rest => low :: mulRows a bs (rest ++ [row.2])
    | [] => []

/-- `mul`, with the `nb` limbs of `b`: the upper half of the product is folded in, 38 for 2^256. -/
def mul (a : Fe) (b : List UInt32) : Fe :=
  let accum := mulRows a b (List.replicate 8 0) ++ List.replicate (8 - b.length) 0
  let out := umaalLoop 38 0 (accum.take 8) (accum.drop 8)
  propagate out.1 out.2

/-- `sqr`. -/
def sqr (a : Fe) : Fe := mul a a

/-- `canon`: the least residue, and the word that is -1 where it is zero. -/
def canon (x : Fe) : Fe × Bool :=
  let x := adc0Loop 19 x
  let x := propagate x.1 x.2
  let res := subLoop (-19) x (List.replicate 8 0)
  (res.1, res.1.foldl (· ||| ·) 0 == 0)

end Fe

/-! ### The ladder -/

/-- The five field elements `xs` of the ladder. -/
structure Ladder where
  x2 : Fe
  z2 : Fe
  x3 : Fe
  z3 : Fe
  t1 : Fe

/-- `condswap` of one pair of field elements: `doswap` is zero or all ones. -/
def condswapFe (doswap : UInt32) (a b : Fe) : Fe × Fe :=
  let xor := List.zipWith (fun a b => (a ^^^ b) &&& doswap) a b
  (List.zipWith (· ^^^ ·) a xor, List.zipWith (· ^^^ ·) b xor)

/-- `condswap(x2,x3,doswap)`, over the limbs of `x2`, `z2` and of `x3`, `z3`. -/
def Ladder.condswap (s : Ladder) (doswap : UInt32) : Ladder :=
  let x := condswapFe doswap s.x2 s.x3
  let z := condswapFe doswap s.z2 s.z3
  { s with x2 := x.1, z2 := z.1, x3 := x.2, z3 := z.2 }

/-- `ladder_part1`. -/
def ladderPart1 (xs : Ladder) : Ladder :=
  let t1 := xs.x2.add xs.z2
  let z2 := xs.x2.sub xs.z2
  let x2 := xs.x3.add xs.z3
  let z3 := xs.x3.sub xs.z3
  let z3 := t1.mul z3
  let x2 := z2.mul x2
  let x3 := z3.add x2
  let z3 := z3.sub x2
  let t1 := t1.mul t1
  let z2 := z2.mul z2
  let x2 := t1.sub z2
  let z2 := x2.mul [121665]
  let z2 := z2.add t1
  ⟨x2, z2, x3, z3, t1⟩

/-- `ladder_part2`. -/
def ladderPart2 (xs : Ladder) (x1 : Fe) : Ladder :=
  let z3 := xs.z3.mul xs.z3
  let z3 := x1.mul z3
  let x3 := xs.x3.mul xs.x3
  let z2 := xs.x2.mul xs.z2
  let x2 := xs.t1.sub xs.x2
  let x2 := xs.t1.mul x2
  ⟨x2, z2, x3, z3, xs.t1⟩

/-- `swapin`: the limbs of 32 bytes. -/
def swapin (b : Bytes) : Fe := (List.range 8).map fun i => u8to32Little b (4 * i)

/-- `swapout`. -/
def swapout (x : Fe) : Bytes := x.flatMap u32to8Little

/-- The byte of the scalar that the loop of `x25519_core` looks at, as clamping leaves it. -/
def clampedByte (scalar : Bytes) (clamp : Bool) (k : Nat) : UInt8 :=
  let bytei := byte scalar k
  if clamp then
    if k = 0 then bytei &&& ~~~7
    else if k = 31 then bytei &&& 0x7F ||| 0x40
    else bytei
  else bytei

/-- `doswap` in round `i`: all ones where the bit is set. -/
def swapMask (scalar : Bytes) (clamp : Bool) (i : Nat) : UInt32 :=
  0 - (((clampedByte scalar clamp (i / 8)) >>> UInt8.ofNat (i % 8)) &&& 1).toUInt32

/-- The loop of `x25519_core`, from round `i - 1` down to 0, with `swap` as the round before
left it. -/
def coreLoop (scalar : Bytes) (clamp : Bool) (x1 : Fe) : Nat → UInt32 → Ladder → UInt32 × Ladder
  | 0, swap, xs => (swap, xs)
  | i + 1, swap, xs =>
    let doswap := swapMask scalar clamp i
    let xs := xs.condswap (swap ^^^ doswap)
    coreLoop scalar clamp x1 i doswap (ladderPart2 (ladderPart1 xs) x1)

/-- The field element with a small value. -/
def Fe.ofWord (w : UInt32) : Fe := w :: List.replicate 7 0

/-- `x25519_core`. The bytes of `x1` are read as limbs where they stand, and the scratch element
`xs[4]` is written before it is read. -/
def x25519Core (scalar x1 : Bytes) (clamp : Bool) : Ladder :=
  let x1 := swapin x1
  let xs : Ladder := ⟨Fe.ofWord 1, Fe.ofWord 0, x1, Fe.ofWord 1, Fe.ofWord 0⟩
  let core := coreLoop scalar clamp x1 256 0 xs
  core.2.condswap core.1

/-- The rows of `steps`: `xs[a]` becomes `prev` squared `n` times, then multiplied by `xs[c]`. -/
def powerSteps : List (Nat × Nat × Nat) :=
  [(2, 1, 1), (2, 1, 1), (4, 2, 3), (2, 4, 6), (3, 1, 1), (3, 2, 12), (4, 3, 25), (2, 3, 25),
    (2, 4, 50), (3, 2, 125), (3, 1, 2), (3, 1, 2), (3, 1, 1)]

/-- One row of `steps`, on the five elements by their numbers and `prev`. -/
def powerStep (s : List Fe × Fe) (step : Nat × Nat × Nat) : List Fe × Fe :=
  let a := (Fe.sqr^[step.2.2]) s.2
  let a := (s.1.getD step.2.1 []).mul a
  (s.1.set step.1 a, a)

/-- `x25519`: the bytes of the result, and whether the answer is -1. -/
def x25519 (scalar x1 : Bytes) (clamp : Bool) : Bytes × Bool :=
  let xs := x25519Core scalar x1 clamp
  let power := powerSteps.foldl powerStep ([xs.x2, xs.z2, xs.x3, xs.z3, xs.t1], xs.z2)
  let x2 := (power.1.getD 3 []).mul xs.x2
  let out := x2.canon
  (swapout out.1, clamp && out.2)

end Molewire
