/-
# Lists with a marked position

A list kept beside the position of one of its entries, as code does that holds a
selection in an array. Read as a list of marked entries the selection travels
with its entry, and the adjustments of the position are exactly what makes
erasing, appending and moving to the front the plain operations on that list. A
position past the end marks nothing.
-/

import Mathlib.Data.List.Perm.Basic

namespace MarkedList

variable {α : Type*}

/-- The entries, each with whether it is the one at position `k`. -/
def marked (l : List α) (k : Nat) : List (α × Bool) := l.mapIdx fun i x => (x, i == k)

/-- The entry at position `i` in front, the others behind it in their order. -/
def moveToFront (i : Nat) (l : List α) : List α := l[i]?.toList ++ l.eraseIdx i

/-- Mark the first entry. -/
def markFront : List (α × Bool) → List (α × Bool)
  | [] => []
  | (x, _) :: rest => (x, true) :: rest

/-- Where position `k` goes when position `i` is erased. -/
def eraseShift (i k : Nat) : Nat := if i < k then k - 1 else k

/-- Where position `k` goes when position `i` moves to the front. -/
def frontShift (i k : Nat) : Nat := if k = i then 0 else if k < i then k + 1 else k

/-! ### Reading -/

@[simp] theorem length_marked (l : List α) (k : Nat) : (marked l k).length = l.length :=
  List.length_mapIdx

@[simp] theorem getElem?_marked (l : List α) (k i : Nat) :
    (marked l k)[i]? = l[i]?.map fun x => (x, i == k) := List.getElem?_mapIdx

/-- Only the flags depend on the position, and those past the end are all unset. -/
theorem marked_congr {l : List α} {k k' : Nat} (h : ∀ i < l.length, i = k ↔ i = k') :
    marked l k = marked l k' := by
  apply List.ext_getElem?
  intro i
  rw [getElem?_marked, getElem?_marked]
  by_cases hi : i < l.length
  · have hflag : (i == k) = (i == k') := by rw [Bool.eq_iff_iff, beq_iff_eq, beq_iff_eq, h i hi]
    rw [hflag]
  · rw [List.getElem?_eq_none (Nat.le_of_not_lt hi)]
    rfl

theorem moveToFront_perm (i : Nat) (l : List α) : (moveToFront i l).Perm l := by
  unfold moveToFront
  rcases Nat.lt_or_ge i l.length with hi | hi
  · rw [List.getElem?_eq_getElem hi]
    exact List.getElem_cons_eraseIdx_perm hi
  · rw [List.getElem?_eq_none hi, List.eraseIdx_of_length_le hi]
    exact .refl l

theorem mem_moveToFront {l : List α} {i : Nat} {x : α} (h : x ∈ moveToFront i l) : x ∈ l :=
  (moveToFront_perm i l).mem_iff.mp h

/-! ### Edits -/

@[simp] theorem moveToFront_zero (l : List α) : moveToFront 0 l = l := by
  cases l <;> rfl

@[simp] theorem length_moveToFront {l : List α} {i : Nat} (h : i < l.length) :
    (moveToFront i l).length = l.length := by
  rw [moveToFront, List.getElem?_eq_getElem h, List.length_append, List.length_eraseIdx_of_lt h,
    Option.toList_some, List.length_singleton]
  omega

theorem marked_append {l : List α} {k : Nat} (h : k ≠ l.length) (x : α) :
    marked (l ++ [x]) k = marked l k ++ [(x, false)] := by
  have hflag : (l.length == k) = false := beq_false_of_ne h.symm
  rw [marked, List.mapIdx_append, marked]
  simp [hflag]

theorem marked_eraseIdx {l : List α} {i k : Nat} (h : k ≠ i) :
    marked (l.eraseIdx i) (eraseShift i k) = (marked l k).eraseIdx i := by
  apply List.ext_getElem?
  intro j
  rw [getElem?_marked, List.getElem?_eraseIdx, List.getElem?_eraseIdx]
  by_cases hj : j < i
  · have hflag : (j == eraseShift i k) = (j == k) := by
      rw [Bool.eq_iff_iff, beq_iff_eq, beq_iff_eq]
      grind [eraseShift]
    rw [if_pos hj, if_pos hj, getElem?_marked, hflag]
  · have hflag : (j == eraseShift i k) = (j + 1 == k) := by
      rw [Bool.eq_iff_iff, beq_iff_eq, beq_iff_eq]
      grind [eraseShift]
    rw [if_neg hj, if_neg hj, getElem?_marked, hflag]

/-- When the marked entry itself goes, the mark moves to the front. -/
theorem marked_eraseIdx_self (l : List α) (k : Nat) :
    marked (l.eraseIdx k) 0 = markFront ((marked l k).eraseIdx k) := by
  have hrest : (marked l k).eraseIdx k = (l.eraseIdx k).map fun x => (x, false) := by
    apply List.ext_getElem?
    intro j
    rw [List.getElem?_eraseIdx, List.getElem?_map, List.getElem?_eraseIdx]
    split_ifs with hj
    · rw [getElem?_marked, beq_false_of_ne (Nat.ne_of_lt hj)]
    · have hne : j + 1 ≠ k := by omega
      rw [getElem?_marked, beq_false_of_ne hne]
  rw [hrest]
  cases l.eraseIdx k with
  | nil => rfl
  | cons x rest =>
    apply List.ext_getElem?
    intro j
    rw [getElem?_marked]
    cases j <;> simp [markFront]

theorem marked_moveToFront {l : List α} {i : Nat} (h : i < l.length) (k : Nat) :
    marked (moveToFront i l) (frontShift i k) = moveToFront i (marked l k) := by
  apply List.ext_getElem?
  intro j
  have hi : l[i]? = some l[i] := List.getElem?_eq_getElem h
  cases j with
  | zero =>
    have hflag : (0 == frontShift i k) = (i == k) := by
      rw [Bool.eq_iff_iff, beq_iff_eq, beq_iff_eq]
      grind [frontShift]
    rw [getElem?_marked]
    simp [moveToFront, hi, hflag]
  | succ j =>
    have hbelow : j < i → (j + 1 == frontShift i k) = (j == k) := by
      intro hj
      rw [Bool.eq_iff_iff, beq_iff_eq, beq_iff_eq]
      grind [frontShift]
    have habove : ¬j < i → (j + 1 == frontShift i k) = (j + 1 == k) := by
      intro hj
      rw [Bool.eq_iff_iff, beq_iff_eq, beq_iff_eq]
      grind [frontShift]
    simp only [moveToFront, hi, getElem?_marked, Option.map_some, Option.toList_some,
      List.singleton_append, List.getElem?_cons_succ, List.getElem?_eraseIdx]
    split_ifs with hj
    · rw [hbelow hj]
    · rw [habove hj]

end MarkedList
