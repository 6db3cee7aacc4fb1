/-
# Layouts of C structures

The members of a structure stand in their order, each at the next multiple of
its alignment; the structure ends at the next multiple of the largest of these.
So members never overlap, and structures that begin with the same members have
them at the same places. An object is its bytes, a member of it a span of them.
-/

import Molewire.Library.ByteBuffer

namespace StructLayout

open ByteBuffer

/-- The type of a member, as far as the layout depends on it. -/
structure Member where
  size : Nat
  align : Nat
  align_pos : 0 < align := by decide

/-- The next multiple of `a`. -/
def alignUp (n a : Nat) : Nat := (n + (a - 1)) / a * a

theorem le_alignUp (n : Nat) {a : Nat} (ha : 0 < a) : n ≤ alignUp n a := by
  have hdiv := Nat.div_add_mod (n + (a - 1)) a
  have hmod := Nat.mod_lt (n + (a - 1)) ha
  rw [alignUp, Nat.mul_comm]
  omega

/-- Where member `i` is, if the first one may start at `n`. -/
def offsetFrom : Nat → List Member → Nat → Nat
  | n, [], _ => n
  | n, m :: _, 0 => alignUp n m.align
  | n, m :: ms, i + 1 => offsetFrom (alignUp n m.align + m.size) ms i

/-- `offsetof`. -/
def offsetOf (ms : List Member) (i : Nat) : Nat := offsetFrom 0 ms i

/-- The size of member `i`. -/
def sizeAt (ms : List Member) (i : Nat) : Nat := (ms[i]?.map Member.size).getD 0

/-- The alignment of the structure. -/
def alignOf (ms : List Member) : Nat := ms.foldr (fun m a => max m.align a) 1

theorem alignOf_pos (ms : List Member) : 0 < alignOf ms := by
  induction ms with
  | nil => exact Nat.one_pos
  | cons m ms ih => exact Nat.lt_of_lt_of_le ih (Nat.le_max_right _ _)

/-- `sizeof`. -/
def structSize (ms : List Member) : Nat := alignUp (offsetOf ms ms.length) (alignOf ms)

/-- A structure as a member. -/
def Member.struct (ms : List Member) : Member := ⟨structSize ms, alignOf ms, alignOf_pos ms⟩

/-- An array as a member. -/
def Member.array (n : Nat) (m : Member) : Member := ⟨n * m.size, m.align, m.align_pos⟩

/-! ### Places -/

theorem le_offsetFrom (n : Nat) (ms : List Member) (i : Nat) : n ≤ offsetFrom n ms i := by
  induction ms generalizing n i with
  | nil =>
    rw [offsetFrom]
  | cons m ms ih =>
    have hle := le_alignUp n m.align_pos
    cases i with
    | zero => exact hle
    | succ i =>
      have hrest := ih (alignUp n m.align + m.size) i
      rw [offsetFrom]
      omega

/-- A member ends before any later one starts. -/
theorem offsetFrom_add_le (n : Nat) {ms : List Member} {i j : Nat} (hij : i < j) :
    offsetFrom n ms i + sizeAt ms i ≤ offsetFrom n ms j := by
  induction ms generalizing n i j with
  | nil =>
    rw [offsetFrom, offsetFrom]
    exact Nat.le_refl n
  | cons m ms ih =>
    obtain ⟨j, rfl⟩ := Nat.exists_eq_add_of_lt hij
    cases i with
    | zero =>
      rw [Nat.zero_add, offsetFrom, offsetFrom]
      exact le_offsetFrom (alignUp n m.align + m.size) ms j
    | succ i =>
      rw [show i + 1 + j + 1 = (i + j + 1) + 1 by omega, offsetFrom, offsetFrom]
      exact ih (alignUp n m.align + m.size) (by omega)

theorem offsetOf_add_le {ms : List Member} {i j : Nat} (hij : i < j) :
    offsetOf ms i + sizeAt ms i ≤ offsetOf ms j :=
  offsetFrom_add_le 0 hij

/-- And within the structure. -/
theorem offsetOf_add_le_structSize {ms : List Member} {i : Nat} (hi : i < ms.length) :
    offsetOf ms i + sizeAt ms i ≤ structSize ms :=
  le_trans (offsetOf_add_le hi) (le_alignUp _ (alignOf_pos ms))

/-- What follows the members does not move them. -/
theorem offsetFrom_append (n : Nat) {ms ns : List Member} {i : Nat} (hi : i < ms.length) :
    offsetFrom n (ms ++ ns) i = offsetFrom n ms i := by
  induction ms generalizing n i with
  | nil => exact absurd hi (Nat.not_lt_zero i)
  | cons m ms ih =>
    cases i with
    | zero => rfl
    | succ i => exact ih _ (Nat.lt_of_succ_lt_succ hi)

theorem offsetOf_append {ms ns : List Member} {i : Nat} (hi : i < ms.length) :
    offsetOf (ms ++ ns) i = offsetOf ms i :=
  offsetFrom_append 0 hi

theorem sizeAt_append {ms ns : List Member} {i : Nat} (hi : i < ms.length) :
    sizeAt (ms ++ ns) i = sizeAt ms i := by
  rw [sizeAt, sizeAt, List.getElem?_append_left hi]

/-! ### Members of an object -/

/-- The bytes of member `i`. -/
def get (ms : List Member) (i : Nat) (obj : Bytes) : Bytes :=
  span obj (offsetOf ms i) (sizeAt ms i)

/-- Member `i` replaced. -/
def set (ms : List Member) (i : Nat) (xs : Bytes) (obj : Bytes) : Bytes :=
  splice obj (offsetOf ms i) xs

variable {ms ns : List Member} {i j : Nat} {xs obj : Bytes}

@[simp] theorem length_set : (set ms i xs obj).length = obj.length := length_splice _ _ _

theorem length_get (hi : i < ms.length) (hobj : structSize ms ≤ obj.length) :
    (get ms i obj).length = sizeAt ms i :=
  length_span (le_trans (offsetOf_add_le_structSize hi) hobj)

theorem get_set_self (hi : i < ms.length) (hobj : structSize ms ≤ obj.length)
    (hxs : xs.length = sizeAt ms i) : get ms i (set ms i xs obj) = xs := by
  have hend := offsetOf_add_le_structSize hi
  rw [get, set, ← hxs]
  exact span_splice_self (by omega)

theorem get_set_ne (hxs : xs.length = sizeAt ms i) (hij : i ≠ j) :
    get ms j (set ms i xs obj) = get ms j obj := by
  refine (agreeOff_splice obj (offsetOf ms i) xs).span_eq ?_
  -- the other member is in front or behind
  rcases Nat.lt_or_gt_of_ne hij with hlt | hgt
  · have hle : offsetOf ms i + sizeAt ms i ≤ offsetOf ms j := offsetOf_add_le hlt
    omega
  · have hle : offsetOf ms j + sizeAt ms j ≤ offsetOf ms i := offsetOf_add_le hgt
    omega

/-- What is in front of a member does not change with it. -/
theorem take_set {n : Nat} (hn : n ≤ offsetOf ms i) :
    (set ms i xs obj).take n = obj.take n := by
  apply List.ext_getElem?
  intro k
  rcases Nat.lt_or_ge k n with hk | hk
  · rw [List.getElem?_take_of_lt hk, List.getElem?_take_of_lt hk]
    exact getElem?_splice_of_not_mem (.inl (by omega))
  · rw [List.getElem?_take_eq_none hk, List.getElem?_take_eq_none hk]

/-- A member of the common beginning is the same in both structures. -/
theorem get_append (hi : i < ms.length) : get (ms ++ ns) i obj = get ms i obj := by
  rw [get, get, offsetOf_append hi, sizeAt_append hi]

/-- Several members replaced, one after the other. -/
theorem get_foldl_set (vals : Nat → Bytes) {is : List Nat} (hobj : structSize ms ≤ obj.length)
    (his : ∀ i ∈ is, i < ms.length ∧ (vals i).length = sizeAt ms i) (j : Nat) :
    get ms j (is.foldl (fun r i => set ms i (vals i) r) obj) =
      if j ∈ is then vals j else get ms j obj := by
  induction is generalizing obj with
  | nil => rw [if_neg List.not_mem_nil, List.foldl_nil]
  | cons i is ih =>
    obtain ⟨hi, hlen⟩ := his i List.mem_cons_self
    rw [List.foldl_cons, ih (by rwa [length_set]) fun k hk => his k (List.mem_cons_of_mem i hk)]
    by_cases hj : j ∈ is
    · rw [if_pos hj, if_pos (List.mem_cons_of_mem i hj)]
    rw [if_neg hj]
    rcases eq_or_ne i j with rfl | hne
    · rw [if_pos List.mem_cons_self, get_set_self hi hobj hlen]
    · rw [if_neg fun hmem => hj ((List.mem_cons.mp hmem).resolve_left (Ne.symm hne)),
        get_set_ne hlen hne]

end StructLayout
