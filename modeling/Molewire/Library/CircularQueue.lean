/-
# Circular queues

A queue in an array of `n` slots between a tail, where entries are taken, and a
head, where they are put. Both indices go around the array. Head and tail on one
slot is the empty queue, so one slot always stays free.
-/

import Mathlib.Data.Nat.ModEq
import Mathlib.Logic.Function.Basic

namespace CircularQueue

variable {α : Type*} {n : Nat} {slots : Nat → α} {head tail : Nat} {q : List α}

/-- Two entries of the array less than a turn from the tail are in different slots. -/
theorem index_inj {i j : Nat} (hi : i < n) (hj : j < n) :
    (tail + i) % n = (tail + j) % n ↔ i = j := by
  refine ⟨fun h => ?_, fun h => congrArg (fun k => (tail + k) % n) h⟩
  have hmod : i % n = j % n := Nat.ModEq.add_left_cancel' tail h
  rwa [Nat.mod_eq_of_lt hi, Nat.mod_eq_of_lt hj] at hmod

/-- The slots from the tail up to the head hold the entries of `q` in their order. -/
structure Holds (n : Nat) (slots : Nat → α) (head tail : Nat) (q : List α) : Prop where
  tail_lt : tail < n
  length_lt : q.length < n
  head_eq : head = (tail + q.length) % n
  slot : ∀ i (h : i < q.length), slots ((tail + i) % n) = q[i]

theorem holds_nil (hn : 0 < n) (slots : Nat → α) : Holds n slots 0 0 [] where
  tail_lt := hn
  length_lt := hn
  head_eq := (Nat.zero_mod n).symm
  slot _ h := absurd h (Nat.not_lt_zero _)

namespace Holds

variable (h : Holds n slots head tail q)

include h

theorem pos : 0 < n := Nat.lt_of_le_of_lt (Nat.zero_le _) h.tail_lt

/-- Head and tail meet on the empty queue. -/
theorem tail_eq_head : tail = head ↔ q = [] := by
  have hinj := @index_inj n tail 0 q.length h.pos h.length_lt
  rw [Nat.add_zero tail, Nat.mod_eq_of_lt h.tail_lt, ← h.head_eq] at hinj
  rw [hinj, eq_comm, List.length_eq_zero_iff]

/-- The slot behind the head is the tail when all but one are taken. -/
theorem next_eq_tail : (head + 1) % n = tail ↔ q.length + 1 = n := by
  rw [h.head_eq, Nat.mod_add_mod, Nat.add_assoc]
  rcases Nat.lt_or_ge (q.length + 1) n with hlt | hge
  · have hinj := @index_inj n tail (q.length + 1) 0 hlt h.pos
    rw [Nat.add_zero tail, Nat.mod_eq_of_lt h.tail_lt] at hinj
    rw [hinj]
    omega
  · have hfull : q.length + 1 = n := Nat.le_antisymm h.length_lt hge
    rw [hfull, Nat.add_mod_right, Nat.mod_eq_of_lt h.tail_lt]
    exact iff_of_true rfl rfl

/-- How many entries there are, from the indices. -/
theorem depth : (head + n - tail) % n = q.length := by
  have ht := h.tail_lt
  have hl := h.length_lt
  rw [h.head_eq]
  rcases Nat.lt_or_ge (tail + q.length) n with hlt | hge
  · rw [Nat.mod_eq_of_lt hlt, show tail + q.length + n - tail = q.length + n by omega,
      Nat.add_mod_right, Nat.mod_eq_of_lt hl]
  · have hmod : (tail + q.length) % n = tail + q.length - n := by
      rw [Nat.mod_eq_sub_mod hge, Nat.mod_eq_of_lt (by omega)]
    rw [hmod, show tail + q.length - n + n - tail = q.length by omega, Nat.mod_eq_of_lt hl]

/-- The head is none of the slots taken. -/
theorem head_ne {i : Nat} (hi : i < q.length) : (tail + i) % n ≠ head := by
  rw [h.head_eq, Ne, index_inj (Nat.lt_trans hi h.length_lt) h.length_lt]
  exact Nat.ne_of_lt hi

/-- An entry put at the head comes last, where a slot stays free. -/
theorem push (x : α) (hroom : (head + 1) % n ≠ tail) :
    Holds n (Function.update slots head x) ((head + 1) % n) tail (q ++ [x]) := by
  have hlt : q.length + 1 < n := by
    have hfull := mt h.next_eq_tail.mpr hroom
    have hl := h.length_lt
    omega
  refine ⟨h.tail_lt, ?_, ?_, fun i hi => ?_⟩
  · rwa [List.length_append]
  · rw [h.head_eq, Nat.mod_add_mod, Nat.add_assoc, List.length_append, List.length_singleton]
  · rw [List.length_append, List.length_singleton] at hi
    rcases Nat.lt_succ_iff_lt_or_eq.mp hi with hold | rfl
    · rw [Function.update_of_ne (h.head_ne hold), h.slot i hold, List.getElem_append_left hold]
    · rw [← h.head_eq, Function.update_self]
      simp

end Holds

/-- The entry at the tail is the first. -/
theorem Holds.front {x : α} (h : Holds n slots head tail (x :: q)) : slots tail = x := by
  have hslot := h.slot 0 (Nat.succ_pos _)
  rwa [Nat.add_zero tail, Nat.mod_eq_of_lt h.tail_lt] at hslot

/-- Without the first entry the tail is one further. -/
theorem Holds.pop {x : α} (h : Holds n slots head tail (x :: q)) :
    Holds n slots head ((tail + 1) % n) q where
  tail_lt := Nat.mod_lt _ h.pos
  length_lt := Nat.lt_of_succ_lt h.length_lt
  head_eq := by
    rw [h.head_eq, List.length_cons, Nat.mod_add_mod, Nat.add_assoc, Nat.add_comm q.length]
  slot i hi := by
    rw [Nat.mod_add_mod, Nat.add_assoc, Nat.add_comm 1]
    exact h.slot (i + 1) (Nat.succ_lt_succ hi)

end CircularQueue
