/-
# Data queued by reference

A span names bytes of a buffer without copying them, and a queue of spans is
read when it is sent, not when it was filled. What such a queue yields is
therefore a function of the memory at that moment. Each byte is read with the
buffer it comes from, so that the share of one buffer in a mixed queue can be
told apart: it depends on that buffer alone, and on nothing when the queue has
no byte of it.
-/

import Mathlib.Data.List.Basic

namespace SpanQueue

variable {R : Type*}

/-- `len` bytes of a buffer, from `off`. -/
structure Span (R : Type*) where
  region : R
  off : Nat
  len : Nat
  deriving DecidableEq, Repr

/-- The contents of every buffer. -/
abbrev Memory (R : Type*) := R → Nat → UInt8

/-- The first `n` bytes. -/
def Span.take (n : Nat) (s : Span R) : Span R := { s with len := min n s.len }

/-- What follows the first `n` bytes. -/
def Span.drop (n : Nat) (s : Span R) : Span R := { s with off := s.off + n, len := s.len - n }

/-- The bytes a span names, each with its buffer. -/
def Span.read (m : Memory R) (s : Span R) : List (R × UInt8) :=
  (List.range s.len).map fun i => (s.region, m s.region (s.off + i))

/-- The bytes of a queue. -/
def read (m : Memory R) (q : List (Span R)) : List (R × UInt8) := q.flatMap (Span.read m)

/-- How many bytes a queue names. -/
def size : List (Span R) → Nat
  | [] => 0
  | s :: q => s.len + size q

/-- A queue without its first `n` bytes. -/
def drop : Nat → List (Span R) → List (Span R)
  | _, [] => []
  | n, s :: q => if s.len ≤ n then drop (n - s.len) q else s.drop n :: q

variable {m m' : Memory R} {q q' : List (Span R)}

@[simp] theorem size_nil : size ([] : List (Span R)) = 0 := rfl

@[simp] theorem size_cons (s : Span R) : size (s :: q) = s.len + size q := rfl

@[simp] theorem size_append : size (q ++ q') = size q + size q' := by
  induction q with
  | nil => simp
  | cons s q ih => simp [ih, Nat.add_assoc]

/-! ### Reading -/

@[simp] theorem length_span_read (s : Span R) : (s.read m).length = s.len := by simp [Span.read]

@[simp] theorem read_nil : read m [] = [] := rfl

@[simp] theorem read_cons (s : Span R) : read m (s :: q) = s.read m ++ read m q := by simp [read]

@[simp] theorem read_append : read m (q ++ q') = read m q ++ read m q' := by simp [read]

@[simp] theorem length_read : (read m q).length = size q := by
  induction q with
  | nil => rfl
  | cons s q ih => simp [ih]

/-- Splitting a span splits what is read. -/
theorem span_read_take_append_drop (n : Nat) (s : Span R) (h : n ≤ s.len) :
    (s.take n).read m ++ (s.drop n).read m = s.read m := by
  have hlen : s.len = n + (s.len - n) := by omega
  conv_rhs => rw [Span.read, hlen, List.range_add, List.map_append, List.map_map]
  simp [Span.read, Span.take, Span.drop, Nat.min_eq_left h, Nat.add_assoc, Function.comp_def]

theorem span_read_drop (n : Nat) (s : Span R) (h : n ≤ s.len) :
    (s.drop n).read m = (s.read m).drop n := by
  rw [← span_read_take_append_drop n s h, List.drop_left']
  simp [Span.take, h]

/-- Dropping from a queue drops from what is read. -/
theorem read_drop (n : Nat) : read m (drop n q) = (read m q).drop n := by
  induction q generalizing n with
  | nil => simp [drop]
  | cons s q ih =>
    rw [read_cons, List.drop_append, length_span_read]
    by_cases h : s.len ≤ n
    · -- the whole first span goes, and the rest is dropped from what follows
      have hnil : (s.read m).drop n = [] := List.drop_eq_nil_of_le (by simpa using h)
      rw [drop, if_pos h, ih, hnil, List.nil_append]
    · rw [drop, if_neg h, read_cons, span_read_drop n s (by omega),
        Nat.sub_eq_zero_of_le (by omega), List.drop_zero]

theorem size_drop (n : Nat) : size (drop n q) = size q - n := by
  rw [← length_read (m := fun _ _ => 0), read_drop, List.length_drop, length_read]

/-! ### The share of one buffer -/

variable [DecidableEq R] {r : R}

/-- The bytes that come from buffer `r`. -/
def bytesOf (r : R) (bs : List (R × UInt8)) : List UInt8 :=
  bs.filterMap fun b => if b.1 = r then some b.2 else none

/-- How many bytes of buffer `r` a queue names. -/
def count (r : R) : List (Span R) → Nat
  | [] => 0
  | s :: q => (if s.region = r then s.len else 0) + count r q

@[simp] theorem bytesOf_nil : bytesOf r [] = [] := rfl

@[simp] theorem bytesOf_append (a b : List (R × UInt8)) :
    bytesOf r (a ++ b) = bytesOf r a ++ bytesOf r b := by simp [bytesOf]

@[simp] theorem count_nil : count r [] = 0 := rfl

@[simp] theorem count_cons (s : Span R) :
    count r (s :: q) = (if s.region = r then s.len else 0) + count r q := rfl

@[simp] theorem count_append : count r (q ++ q') = count r q + count r q' := by
  induction q with
  | nil => simp
  | cons s q ih => simp [ih, Nat.add_assoc]

theorem bytesOf_span_read (s : Span R) : bytesOf r (s.read m) =
    if s.region = r then (List.range s.len).map fun i => m r (s.off + i) else [] := by
  by_cases h : s.region = r
  · subst h
    simp [bytesOf, Span.read, List.filterMap_map]
  · simp [bytesOf, Span.read, h]

theorem length_bytesOf_read : (bytesOf r (read m q)).length = count r q := by
  induction q with
  | nil => rfl
  | cons s q ih =>
    rw [read_cons, bytesOf_append, List.length_append, ih, bytesOf_span_read, count_cons]
    split <;> simp

theorem bytesOf_read_eq_nil (h : count r q = 0) : bytesOf r (read m q) = [] := by
  rw [← List.length_eq_zero_iff, length_bytesOf_read, h]

/-- Only the buffer itself matters. -/
theorem bytesOf_read_congr (h : m r = m' r) : bytesOf r (read m q) = bytesOf r (read m' q) := by
  induction q with
  | nil => rfl
  | cons s q ih =>
    simp only [read_cons, bytesOf_append, ih, bytesOf_span_read, h]

/-- Queues that read the same in every memory have the same share. -/
theorem count_eq_of_read (h : read (fun _ _ => 0) q = read (fun _ _ => 0) q') :
    count r q = count r q' := by
  rw [← length_bytesOf_read (m := fun _ _ => 0), h, length_bytesOf_read]

theorem count_le_size : count r q ≤ size q := by
  induction q with
  | nil => simp [count, size]
  | cons s q ih =>
    rw [count_cons, size_cons]
    split <;> omega

theorem count_drop_le (n : Nat) : count r (drop n q) ≤ count r q := by
  induction q generalizing n with
  | nil => simp [drop]
  | cons s q ih =>
    unfold drop
    split_ifs with h
    · have := ih (n - s.len)
      rw [count_cons]
      omega
    · simp only [count_cons, Span.drop]
      split <;> omega

end SpanQueue
