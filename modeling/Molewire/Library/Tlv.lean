/-
# Tagged options

A run of options, each a tag, a length byte and that many bytes of value. Two
tags stand alone: padding, which is skipped, and the end mark, behind which
nothing is read. A reader of bytes from outside takes the options up to the
first that does not fit; what a writer appended one by one reads back as it was
written.
-/

import Mathlib.Tactic.Common

namespace Tlv

/-- A tag and its value. -/
abbrev Opt := UInt8 × List UInt8

variable {pad stop : UInt8}

/-- The options up to the end mark or to the first that does not fit, and whether the mark was
found. -/
def walk (pad stop : UInt8) : List UInt8 → List Opt × Bool
  | [] => ([], false)
  | [c] => ([], c == stop)
  | c :: len :: rest =>
    if c = stop then ([], true)
    else if c = pad then walk pad stop (len :: rest)
    else if rest.length < len.toNat then ([], false)
    else
      let tail := walk pad stop (rest.drop len.toNat)
      ((c, rest.take len.toNat) :: tail.1, tail.2)
termination_by b => b.length
decreasing_by
  · simp
  · simp only [List.length_drop, List.length_cons]
    omega

/-- All the options, when the end mark is there. -/
def decode (pad stop : UInt8) (b : List UInt8) : Option (List Opt) :=
  if (walk pad stop b).2 then some (walk pad stop b).1 else none

/-- One option as it is written. -/
def put (o : Opt) : List UInt8 := o.1 :: o.2.length.toUInt8 :: o.2

/-- Options written one behind the other. -/
def encode (opts : List Opt) : List UInt8 := opts.flatMap put

@[simp] theorem length_put (o : Opt) : (put o).length = o.2.length + 2 := rfl

@[simp] theorem encode_nil : encode [] = [] := rfl

@[simp] theorem encode_cons (o : Opt) (opts : List Opt) :
    encode (o :: opts) = put o ++ encode opts := rfl

@[simp] theorem encode_append (opts opts' : List Opt) :
    encode (opts ++ opts') = encode opts ++ encode opts' := List.flatMap_append

/-- A tag that is not one of the two marks, with a value whose length fits its byte. -/
structure Writable (pad stop : UInt8) (o : Opt) : Prop where
  notPad : o.1 ≠ pad
  notStop : o.1 ≠ stop
  fits : o.2.length < 256

/-- An option in front is read first. -/
theorem walk_put {o : Opt} (h : Writable pad stop o) (rest : List UInt8) :
    walk pad stop (put o ++ rest) =
      (o :: (walk pad stop rest).1, (walk pad stop rest).2) := by
  have hlen : o.2.length.toUInt8.toNat = o.2.length := UInt8.toNat_ofNat_of_lt' h.fits
  obtain ⟨c, v⟩ := o
  have hroom : ¬(v ++ rest).length < v.length := by
    rw [List.length_append]
    omega
  rw [put, List.cons_append, List.cons_append, walk, if_neg h.notStop, if_neg h.notPad, hlen,
    if_neg hroom, List.drop_left, List.take_left]

/-- The end mark ends the reading whatever follows it. -/
theorem walk_stop (rest : List UInt8) : walk pad stop (stop :: rest) = ([], true) := by
  cases rest <;> simp [walk]

/-- An option that is cut off ends the reading. -/
theorem walk_cut {o : Opt} (h : Writable pad stop o) {rest : List UInt8}
    (hcut : rest.length < o.2.length) :
    walk pad stop (o.1 :: o.2.length.toUInt8 :: rest) = ([], false) := by
  have hlen : o.2.length.toUInt8.toNat = o.2.length := UInt8.toNat_ofNat_of_lt' h.fits
  rw [walk, if_neg h.notStop, if_neg h.notPad, hlen, if_pos hcut]

/-- What was written reads back. -/
theorem decode_encode {opts : List Opt} (h : ∀ o ∈ opts, Writable pad stop o)
    (rest : List UInt8) : decode pad stop (encode opts ++ stop :: rest) = some opts := by
  have hwalk : walk pad stop (encode opts ++ stop :: rest) = (opts, true) := by
    induction opts with
    | nil => exact walk_stop rest
    | cons o opts ih =>
      rw [encode_cons, List.append_assoc, walk_put (h o List.mem_cons_self),
        ih fun o ho => h o (List.mem_cons_of_mem _ ho)]
  rw [decode, hwalk]
  rfl

/-- The value of the first option with a tag. -/
def lookup (code : UInt8) (opts : List Opt) : Option (List UInt8) :=
  (opts.find? (·.1 == code)).map (·.2)

@[simp] theorem lookup_nil (code : UInt8) : lookup code [] = none := rfl

theorem lookup_cons_self (code : UInt8) (v : List UInt8) (opts : List Opt) :
    lookup code ((code, v) :: opts) = some v := by simp [lookup]

theorem lookup_cons_of_ne {code c : UInt8} (h : c ≠ code) (v : List UInt8) (opts : List Opt) :
    lookup code ((c, v) :: opts) = lookup code opts := by simp [lookup, h]

end Tlv
