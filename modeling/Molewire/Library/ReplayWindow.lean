/-
# Replay windows

A receiver that accepts every number at most once, though the numbers arrive out
of order, would have to remember all of them. A window remembers the greatest
and, one bit each, which of the numbers just below it were accepted; what lies
below the window is refused. The rule this implements is stated on the list of
the numbers accepted so far, and the window is shown to follow it.
-/

import Mathlib.Data.List.Nodup

namespace ReplayWindow

variable {w : Nat} {seen : List Nat} {m n : Nat}

/-! ### The rule -/

/-- After the numbers `seen`, `n` is accepted: it is none of them and not `w` or more below one. -/
def Fresh (w : Nat) (seen : List Nat) (n : Nat) : Prop := n ∉ seen ∧ ∀ m ∈ seen, m < n + w

instance (w : Nat) (seen : List Nat) (n : Nat) : Decidable (Fresh w seen n) :=
  inferInstanceAs (Decidable (n ∉ seen ∧ ∀ m ∈ seen, m < n + w))

/-- The numbers accepted, the latest first, when `n` is offered after `seen`. -/
def offer (w : Nat) (seen : List Nat) (n : Nat) : List Nat :=
  if Fresh w seen n then n :: seen else seen

theorem offer_of_fresh (h : Fresh w seen n) : offer w seen n = n :: seen := if_pos h

theorem offer_of_not_fresh (h : ¬ Fresh w seen n) : offer w seen n = seen := if_neg h

/-! ### The window -/

/-- One more than the greatest number accepted, and for each of the `w` numbers below whether it
was accepted, the greatest at bit 0. -/
structure Window (w : Nat) where
  bitmap : BitVec w
  top : Nat

/-- The window in front of the first number. -/
def Window.empty (w : Nat) : Window w := ⟨0#w, 0⟩

/-- A number above the window moves it up; one inside it is looked up. -/
def Window.accept (s : Window w) (n : Nat) : Option (Window w) :=
  if s.top ≤ n then
    some ⟨if n + 1 - s.top < w then s.bitmap <<< (n + 1 - s.top) ||| 1#w else 1#w, n + 1⟩
  else if s.top - (n + 1) < w then
    if s.bitmap.getLsbD (s.top - (n + 1)) then none
    else some ⟨s.bitmap ||| 1#w <<< (s.top - (n + 1)), s.top⟩
  else none

/-- The window after the numbers `seen`. -/
structure Tracks (s : Window w) (seen : List Nat) : Prop where
  below : ∀ m ∈ seen, m < s.top
  greatest : ∀ n, s.top = n + 1 → n ∈ seen
  bits : ∀ i < w, s.bitmap.getLsbD i = true ↔ ∃ m ∈ seen, m + 1 + i = s.top

theorem Tracks.empty (w : Nat) : Tracks (.empty w) [] where
  below := by
    intro m hm
    cases hm
  greatest := by
    intro n h
    cases h
  bits := by
    intro i _
    rw [Window.empty, BitVec.getLsbD_zero]
    constructor
    · intro h
      cases h
    · rintro ⟨m, hm, _⟩
      cases hm

/-- A bit that is moved up stands for the same number. -/
private theorem moved_iff {t i : Nat} (hn : t ≤ n) (hi : ¬ i < n + 1 - t) :
    m + 1 + (i - (n + 1 - t)) = t ↔ m + 1 + i = n + 1 := by
  omega

/-- A number above the window. -/
private theorem Tracks.above {s : Window w} (h : Tracks s seen) (n : Nat) (hn : s.top ≤ n) :
    Fresh w seen n ∧
      Tracks ⟨if n + 1 - s.top < w then s.bitmap <<< (n + 1 - s.top) ||| 1#w else 1#w, n + 1⟩
        (n :: seen) := by
  have new : n ∉ seen := fun hm => Nat.not_lt.mpr hn (h.below n hm)
  refine ⟨⟨new, fun m hm => ?_⟩, ⟨fun m hm => ?_, fun k hk => ?_, fun i hi => ?_⟩⟩
  · have := h.below m hm
    omega
  · rcases List.mem_cons.mp hm with rfl | hm
    · exact Nat.lt_succ_self m
    · have := h.below m hm
      simp only
      omega
  · rw [Nat.succ.inj hk]
    exact List.mem_cons_self
  · -- bit 0 is the number itself, the others are those from before, as far as they fit
    have others : (∃ m ∈ n :: seen, m + 1 + i = n + 1) ↔
        i = 0 ∨ ∃ m ∈ seen, m + 1 + i = n + 1 := by
      rw [List.exists_mem_cons_iff]
      exact or_congr ⟨fun h => by omega, fun h => by omega⟩ Iff.rfl
    simp only [others]
    split
    case isTrue room =>
      rw [BitVec.getLsbD_or, BitVec.getLsbD_shiftLeft, BitVec.getLsbD_one]
      by_cases first : i = 0
      · simp [first, show 0 < w by omega]
      · by_cases inside : i < n + 1 - s.top
        · have none : ¬ ∃ m ∈ seen, m + 1 + i = n + 1 := by
            rintro ⟨m, hm, heq⟩
            have := h.below m hm
            omega
          simp [first, inside, none]
        · have moved := h.bits (i - (n + 1 - s.top)) (by omega)
          simp only [moved_iff hn inside] at moved
          simp [first, inside, hi, moved]
    case isFalse far =>
      have none : ¬ ∃ m ∈ seen, m + 1 + i = n + 1 := by
        rintro ⟨m, hm, heq⟩
        have := h.below m hm
        omega
      simp only [none, or_false, BitVec.getLsbD_one]
      by_cases first : i = 0
      · simp [first, show 0 < w by omega]
      · simp [first]

/-- A number inside the window that was not accepted before. -/
private theorem Tracks.inside {s : Window w} (h : Tracks s seen) {n : Nat} (hn : n < s.top)
    (room : s.top - (n + 1) < w) :
    Tracks ⟨s.bitmap ||| 1#w <<< (s.top - (n + 1)), s.top⟩ (n :: seen) := by
  refine ⟨fun m hm => ?_, fun k hk => List.mem_cons_of_mem n (h.greatest k hk), fun i hi => ?_⟩
  · rcases List.mem_cons.mp hm with rfl | hm
    · exact hn
    · exact h.below m hm
  · rw [List.exists_mem_cons_iff, BitVec.getLsbD_or, Bool.or_eq_true, h.bits i hi,
      BitVec.getLsbD_shiftLeft, BitVec.getLsbD_one, or_comm]
    apply or_congr _ Iff.rfl
    simp only [hi, decide_true, Bool.true_and, Bool.and_eq_true, Bool.not_eq_true',
      decide_eq_false_iff_not, decide_eq_true_eq]
    omega

/-- The window accepts what the rule accepts, and goes on as it does. -/
theorem Tracks.accept {s : Window w} (h : Tracks s seen) (n : Nat) :
    ((s.accept n).isSome = true ↔ Fresh w seen n) ∧
      Tracks ((s.accept n).getD s) (offer w seen n) := by
  rw [Window.accept]
  by_cases up : s.top ≤ n
  · obtain ⟨fresh, next⟩ := h.above n up
    rw [if_pos up, offer_of_fresh fresh]
    exact ⟨⟨fun _ => fresh, fun _ => rfl⟩, next⟩
  · have below : n < s.top := Nat.not_le.mp up
    rw [if_neg up]
    by_cases room : s.top - (n + 1) < w
    · rw [if_pos room]
      have known : s.bitmap.getLsbD (s.top - (n + 1)) = true ↔ n ∈ seen := by
        rw [h.bits _ room]
        constructor
        · rintro ⟨m, hm, heq⟩
          have same : m = n := by omega
          exact same ▸ hm
        · intro hm
          exact ⟨n, hm, by omega⟩
      by_cases old : n ∈ seen
      · have stale : ¬ Fresh w seen n := fun fresh => fresh.1 old
        rw [if_pos (known.mpr old), offer_of_not_fresh stale]
        exact ⟨⟨fun h => absurd h Bool.false_ne_true, fun fresh => absurd fresh stale⟩, h⟩
      · have fresh : Fresh w seen n := ⟨old, fun m hm => by
          have := h.below m hm
          omega⟩
        rw [if_neg fun h => old (known.mp h), offer_of_fresh fresh]
        exact ⟨⟨fun _ => fresh, fun _ => rfl⟩, h.inside below room⟩
    · -- the greatest number is too far above
      have stale : ¬ Fresh w seen n := by
        intro fresh
        have far := fresh.2 (s.top - 1) (h.greatest _ (by omega))
        omega
      rw [if_neg room, offer_of_not_fresh stale]
      exact ⟨⟨fun h => absurd h Bool.false_ne_true, fun fresh => absurd fresh stale⟩, h⟩

end ReplayWindow
