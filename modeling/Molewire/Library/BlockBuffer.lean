/-
# Buffered block processing

Code that works through a message in blocks of one length takes the message in
pieces of any length and keeps what has not filled a block. A rule says how
many blocks are taken from a buffer: an eager one takes every full block, a
patient one keeps the last full block back until more comes. Under any rule
that takes the same blocks early or late, the pieces do not matter: what is
reached is what the concatenated message reaches.
-/

import Mathlib.Tactic.Ring
import Mathlib.Tactic.TypeStar

namespace BlockBuffer

variable {α σ : Type*} {n : Nat}

/-! ### Rules -/

/-- How many blocks of length `n` are taken from a buffer of a given length. -/
structure Rule (n : Nat) where
  count : Nat → Nat
  /-- What is taken stands in the buffer. -/
  within : ∀ x, n * count x ≤ x
  /-- Taking before more comes takes no other blocks than taking afterwards. -/
  later : ∀ x y, count (x + y) = count x + count (x - n * count x + y)

/-- Every full block. -/
def eager (n : Nat) (pos : 0 < n) : Rule n where
  count x := x / n
  within x := Nat.mul_div_le x n
  later x y := by
    have within := Nat.mul_div_le x n
    have split : x + y = x - n * (x / n) + y + n * (x / n) := by omega
    calc (x + y) / n = (x - n * (x / n) + y + n * (x / n)) / n := by rw [← split]
      _ = x / n + (x - n * (x / n) + y) / n := by
        rw [Nat.add_mul_div_left _ _ pos, Nat.add_comm (x / n)]

/-- Every full block that something follows. -/
def patient (n : Nat) (pos : 0 < n) : Rule n where
  count x := (x - 1) / n
  within x := (Nat.mul_div_le (x - 1) n).trans (Nat.sub_le x 1)
  later x y := by
    rcases Nat.eq_zero_or_pos x with rfl | hx
    · simp
    -- a buffer that holds something keeps something
    have kept := Nat.mul_div_le (x - 1) n
    have split : x + y - 1 = x - n * ((x - 1) / n) + y - 1 + n * ((x - 1) / n) := by omega
    calc (x + y - 1) / n
        = (x - n * ((x - 1) / n) + y - 1 + n * ((x - 1) / n)) / n := by rw [← split]
      _ = (x - 1) / n + (x - n * ((x - 1) / n) + y - 1) / n := by
        rw [Nat.add_mul_div_left _ _ pos, Nat.add_comm ((x - 1) / n)]

/-! ### Taking blocks -/

/-- The first `k` blocks of a list. -/
def blocks (n : Nat) : Nat → List α → List (List α)
  | 0, _ => []
  | k + 1, l => l.take n :: blocks n k (l.drop n)

/-- A list cut into blocks, the last of them with what is left. -/
def chunks (n : Nat) (l : List α) : List (List α) :=
  blocks n (l.length / n) l ++
    if l.length % n = 0 then [] else [l.drop (n * (l.length / n))]

/-- `k` blocks worked off the front of a buffer. -/
def takeBlocks (f : σ → List α → σ) (n : Nat) : Nat → σ × List α → σ × List α
  | 0, s => s
  | k + 1, s => takeBlocks f n k (f s.1 (s.2.take n), s.2.drop n)

theorem length_blocks (n k : Nat) (l : List α) : (blocks n k l).length = k := by
  induction k generalizing l with
  | zero => rfl
  | succ k ih => rw [blocks, List.length_cons, ih]

theorem length_of_mem_blocks {k : Nat} {l b : List α} (h : n * k ≤ l.length)
    (hb : b ∈ blocks n k l) : b.length = n := by
  induction k generalizing l with
  | zero => cases hb
  | succ k ih =>
    rw [Nat.mul_succ] at h
    rw [blocks, List.mem_cons] at hb
    rcases hb with rfl | rest
    · rw [List.length_take]
      omega
    · exact ih (by rw [List.length_drop]; omega) rest

variable (f : σ → List α → σ)

theorem takeBlocks_eq (k : Nat) (s : σ × List α) :
    takeBlocks f n k s = ((blocks n k s.2).foldl f s.1, s.2.drop (n * k)) := by
  induction k generalizing s with
  | zero => simp [takeBlocks, blocks]
  | succ k ih =>
    rw [takeBlocks, ih, blocks, List.foldl_cons, List.drop_drop, Nat.mul_succ, Nat.add_comm n]

theorem takeBlocks_add (j k : Nat) (s : σ × List α) :
    takeBlocks f n (j + k) s = takeBlocks f n k (takeBlocks f n j s) := by
  induction j generalizing s with
  | zero => rw [Nat.zero_add, takeBlocks]
  | succ j ih => rw [Nat.succ_add, takeBlocks, takeBlocks, ih]

/-- Blocks that stand in front do not see what is appended. -/
theorem takeBlocks_append {k : Nat} {x : σ} {a b : List α} (h : n * k ≤ a.length) :
    takeBlocks f n k (x, a ++ b) =
      ((takeBlocks f n k (x, a)).1, (takeBlocks f n k (x, a)).2 ++ b) := by
  induction k generalizing x a with
  | zero => rfl
  | succ k ih =>
    rw [Nat.mul_succ] at h
    have here : n ≤ a.length := by omega
    simp only [takeBlocks]
    rw [List.take_append_of_le_length here, List.drop_append_of_le_length here,
      ih (by rw [List.length_drop]; omega)]

/-! ### Feeding -/

namespace Rule

variable (R : Rule n)

/-- Append a piece to the buffer and take the blocks that the rule allows. -/
def feed (s : σ × List α) (piece : List α) : σ × List α :=
  takeBlocks f n (R.count (s.2 ++ piece).length) (s.1, s.2 ++ piece)

theorem length_feed (s : σ × List α) (piece : List α) :
    (R.feed f s piece).2.length =
      s.2.length + piece.length - n * R.count (s.2.length + piece.length) := by
  rw [feed, takeBlocks_eq, List.length_drop, List.length_append]

/-- Two pieces fed one after the other are their concatenation fed at once. -/
theorem feed_feed (s : σ × List α) (a b : List α) :
    R.feed f (R.feed f s a) b = R.feed f s (a ++ b) := by
  have within := R.within (s.2 ++ a).length
  have hlen : ((R.feed f s a).2 ++ b).length =
      (s.2 ++ a).length - n * R.count (s.2 ++ a).length + b.length := by
    rw [List.length_append, length_feed, List.length_append]
  have htotal : (s.2 ++ (a ++ b)).length = (s.2 ++ a).length + b.length := by
    simp [Nat.add_assoc]
  calc R.feed f (R.feed f s a) b
      = takeBlocks f n (R.count ((R.feed f s a).2 ++ b).length)
          (takeBlocks f n (R.count (s.2 ++ a).length) (s.1, (s.2 ++ a) ++ b)) := by
        rw [takeBlocks_append f within]
        rfl
    _ = R.feed f s (a ++ b) := by
        rw [← takeBlocks_add, hlen, ← R.later, ← htotal, List.append_assoc]
        rfl

/-- The rule takes nothing more from the buffer. -/
def Settled (s : σ × List α) : Prop := R.count s.2.length = 0

theorem feed_nil {s : σ × List α} (h : R.Settled s) : R.feed f s [] = s := by
  rw [feed, List.append_nil, h, takeBlocks]

/-- What a rule leaves, it leaves again. -/
theorem settled_feed (s : σ × List α) (piece : List α) : R.Settled (R.feed f s piece) := by
  rw [Settled, length_feed]
  have := R.later (s.2.length + piece.length) 0
  rw [Nat.add_zero, Nat.add_zero] at this
  omega

/-- However a message is cut, feeding the pieces in order is feeding the message. -/
theorem foldl_feed {s : σ × List α} (h : R.Settled s) (pieces : List (List α)) :
    pieces.foldl (R.feed f) s = R.feed f s pieces.flatten := by
  induction pieces generalizing s with
  | nil => exact (R.feed_nil f h).symm
  | cons a rest ih =>
    rw [List.foldl_cons, ih (R.settled_feed f s a), feed_feed, List.flatten_cons]

end Rule

end BlockBuffer
