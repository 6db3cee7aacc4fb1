/-
# Insertion from the end

One step of an insertion sort that looks for the place from the end of the list
and moves everything it passes behind the new entry. What it passes is a
predicate. Where the list is ordered in a way the predicate respects, the
entries passed are exactly those it holds of.
-/

import Mathlib.Data.List.DropRight

namespace Insertion

variable {α : Type*} {p : α → Bool} {e : α} {l : List α}

/-- The list with `e` before the longest final part that satisfies `p`. -/
def insertEnd (p : α → Bool) (e : α) (l : List α) : List α :=
  l.rdropWhile p ++ e :: l.rtakeWhile p

theorem rdropWhile_append_rtakeWhile (p : α → Bool) (l : List α) :
    l.rdropWhile p ++ l.rtakeWhile p = l := by
  rw [List.rdropWhile, List.rtakeWhile, ← List.reverse_append, List.takeWhile_append_dropWhile,
    List.reverse_reverse]

/-- The new entry is added to those of the list. -/
theorem perm_insertEnd (p : α → Bool) (e : α) (l : List α) : (insertEnd p e l).Perm (e :: l) := by
  have hmiddle : (insertEnd p e l).Perm (e :: (l.rdropWhile p ++ l.rtakeWhile p)) :=
    List.perm_middle
  rwa [rdropWhile_append_rtakeWhile] at hmiddle

/-- Where every entry behind one that is passed is passed, the entries that stay in front are
those that are not. -/
theorem not_of_mem_rdropWhile {r : α → α → Prop} (hl : l.Pairwise r)
    (hmono : ∀ a b, r a b → p a → p b) {x : α} (hx : x ∈ l.rdropWhile p) : ¬p x := by
  induction l using List.reverseRecOn with
  | nil => simp [List.rdropWhile_nil] at hx
  | append_singleton l y ih =>
    obtain ⟨hfront, -, hlast⟩ := List.pairwise_append.mp hl
    rw [List.rdropWhile_concat] at hx
    split_ifs at hx with hy
    · exact ih hfront hx
    · rcases List.mem_append.mp hx with hx | hx
      · exact fun hpx => hy (hmono x y (hlast x hx y (List.mem_singleton_self y)) hpx)
      · rwa [List.mem_singleton.mp hx]

/-- Insertion keeps an order in which the new entry belongs behind what it does not pass and
before what it passes. -/
theorem pairwise_insertEnd {r : α → α → Prop} (hl : l.Pairwise r)
    (hmono : ∀ a b, r a b → p a → p b) (hbehind : ∀ x ∈ l, ¬p x → r x e)
    (hbefore : ∀ x ∈ l, p x → r e x) : (insertEnd p e l).Pairwise r := by
  have hsplit := rdropWhile_append_rtakeWhile p l
  have hparts := hl
  rw [← hsplit] at hparts
  obtain ⟨hfront, hback, hcross⟩ := List.pairwise_append.mp hparts
  have hfront_e : ∀ x ∈ l.rdropWhile p, r x e := fun x hx =>
    hbehind x (hsplit ▸ List.mem_append_left _ hx) (not_of_mem_rdropWhile hl hmono hx)
  have he_back : ∀ x ∈ l.rtakeWhile p, r e x := fun x hx =>
    hbefore x (hsplit ▸ List.mem_append_right _ hx) (List.mem_rtakeWhile_imp hx)
  refine List.pairwise_append.mpr ⟨hfront, List.pairwise_cons.mpr ⟨he_back, hback⟩, ?_⟩
  intro x hx y hy
  rcases List.mem_cons.mp hy with rfl | hy
  · exact hfront_e x hx
  · exact hcross x hx y hy

end Insertion
