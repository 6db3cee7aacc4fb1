/-
# C strings and keys as text

What the command interpreter takes from the C library, comparison without case,
cutting at a character and decimal numbers, and the base64 code of
`wireguard.c` in which keys are typed and shown.
-/

import Mathlib.Data.List.TakeWhile
import Molewire.Config

namespace Molewire

open ByteBuffer

/-! ### Characters -/

def toupper (c : UInt8) : UInt8 := if 97 ≤ c ∧ c ≤ 122 then c - 32 else c

def tolower (c : UInt8) : UInt8 := if 65 ≤ c ∧ c ≤ 90 then c + 32 else c

def isspace (c : UInt8) : Bool := c == 32 || (9 ≤ c && c ≤ 13)

def isdigit (c : UInt8) : Bool := 48 ≤ c && c ≤ 57

/-- `strcasecmp(a, b) == 0`. -/
def strcasecmpEq (a b : CStr) : Bool := a.map tolower == b.map tolower

/-- `strchr(s, c)` with a zero written over what it finds: the text before and the text after. -/
def strchrCut (s : CStr) (c : UInt8) : Option (CStr × CStr) :=
  match s.dropWhile (· != c) with
  | [] => none
  | _ :: rest => some (s.takeWhile (· != c), rest)

/-! ### Numbers -/

/-- The range of `long`: 32 bits on the target. -/
def longMin : Int := -2147483648

def longMax : Int := 2147483647

/-- `strtol(s, &end, 10)`: the value, saturated, and the text at `end`. Without a digit that is
the whole of `s`. -/
def strtol (s : CStr) : Int × CStr :=
  let t := s.dropWhile isspace
  let unsigned := if t.head? = some 45 ∨ t.head? = some 43 then t.tail else t
  let digits := unsigned.takeWhile isdigit
  if digits = [] then (0, s)
  else
    let n : Int := digits.foldl (fun acc c => 10 * acc + (c - 48).toNat) 0
    (max longMin (min longMax (if t.head? = some 45 then -n else n)), unsigned.dropWhile isdigit)

/-! ### Base64 -/

def base64Lookup : CStr := ascii "ABCDEFGHIJKLMNOPQRSTUVWXYZabcdefghijklmnopqrstuvwxyz0123456789+/"

/-- The bits of one character and how many bytes its block still gives. Padding takes one away and
allows nothing but padding after it. -/
def base64Bits (byteCount : Nat) (c : UInt8) : Option (UInt32 × Nat) :=
  if c = 61 then if byteCount = 0 then none else some (0, byteCount - 1)
  else if byteCount ≠ 3 then none
  else (base64Lookup.idxOf? c).map fun i => (i.toUInt32 &&& 0x3F, byteCount)

/-- The bytes of one full block. The first is written whatever the padding says. -/
def base64Block (accum : UInt32) (byteCount : Nat) : Bytes :=
  (accum >>> 16).toUInt8 :: ((if 1 < byteCount then [(accum >>> 8).toUInt8] else []) ++
    (if 2 < byteCount then [accum.toUInt8] else []))

/-- The loop of `wireguard_base64_decode`. -/
def base64DecodeLoop (outlen : Nat) : CStr → UInt32 → Nat → Nat → Bytes → Option Bytes
  | [], _, charCount, _, out => if charCount = 0 then some out else none
  | c :: rest, accum, charCount, byteCount, out =>
    match base64Bits byteCount c with
    | none => none
    | some (bits, byteCount) =>
      let accum := (accum <<< 6) ||| bits
      if charCount + 1 = 4 then
        if outlen < out.length + byteCount then none
        else base64DecodeLoop outlen rest 0 0 byteCount (out ++ base64Block accum byteCount)
      else base64DecodeLoop outlen rest accum (charCount + 1) byteCount out

/-- `wireguard_base64_decode` into a buffer of `outlen` bytes. -/
def base64Decode (outlen : Nat) (s : CStr) : Option Bytes := base64DecodeLoop outlen s 0 0 3 []

/-- Character `i`, from the left, of a block of three bytes. -/
def base64Char (tmp : UInt32) (i : Nat) : UInt8 :=
  base64Lookup.getD ((tmp >>> (18 - 6 * i).toUInt32) &&& 0x3F).toNat 0

/-- `wireguard_base64_encode`, into a buffer with room for the text. -/
def base64Encode : Bytes → CStr
  | [] => []
  | [a] =>
    let tmp := a.toUInt32 <<< 16
    [base64Char tmp 0, base64Char tmp 1, 61, 61]
  | [a, b] =>
    let tmp := a.toUInt32 <<< 16 ||| b.toUInt32 <<< 8
    [base64Char tmp 0, base64Char tmp 1, base64Char tmp 2, 61]
  | a :: b :: c :: rest =>
    let tmp := a.toUInt32 <<< 16 ||| b.toUInt32 <<< 8 ||| c.toUInt32
    base64Char tmp 0 :: base64Char tmp 1 :: base64Char tmp 2 :: base64Char tmp 3 ::
      base64Encode rest

example : base64Decode 64 (base64Encode [1, 2, 3, 4, 250]) = some [1, 2, 3, 4, 250] := by decide

end Molewire
