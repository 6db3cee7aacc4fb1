/-
# Keeping the strongest

A table of bounded size that is fed one item at a time and keeps, for the
strongest keys, the strongest item of each. It holds no history: an item that
was thrown out may come again. What makes that harmless is that nothing outside
a full table ever beats anything inside it.
-/

import Mathlib.Order.Lattice
import Mathlib.Logic.Function.Basic

namespace Strongest

variable {α κ σ : Type*} [LinearOrder σ] (key : α → κ) (score : α → σ)

/-- The first `n` slots hold the strongest items of at most `K` keys of those that were offered,
and more keys than these only if the table is full of items as strong. -/
structure Keeps (K : Nat) (offered : List α) (slots : Nat → α) (n : Nat) : Prop where
  count_le : n ≤ K
  distinct : ∀ i < n, ∀ j < n, key (slots i) = key (slots j) → i = j
  mem : ∀ i < n, slots i ∈ offered
  best : ∀ i < n, ∀ y ∈ offered, key y = key (slots i) → score y ≤ score (slots i)
  missing : ∀ y ∈ offered, (∀ i < n, key (slots i) ≠ key y) →
    K ≤ n ∧ ∀ i < n, score y ≤ score (slots i)

/-- What a table of `K` slots does with one item `x`. -/
inductive Step (K : Nat) (x : α) (slots : Nat → α) (n : Nat) : (Nat → α) → Nat → Prop
  | weaker (i : Nat) (hi : i < n) (hkey : key (slots i) = key x)
      (hle : score x ≤ score (slots i)) : Step K x slots n slots n
  | stronger (i : Nat) (hi : i < n) (hkey : key (slots i) = key x)
      (hlt : score (slots i) < score x) : Step K x slots n (Function.update slots i x) n
  | add (hnew : ∀ i < n, key (slots i) ≠ key x) (hn : n < K) :
      Step K x slots n (Function.update slots n x) (n + 1)
  | replace (w : Nat) (hw : w < n) (hnew : ∀ i < n, key (slots i) ≠ key x) (hn : K ≤ n)
      (hmin : ∀ i < n, score (slots w) ≤ score (slots i)) (hlt : score (slots w) < score x) :
      Step K x slots n (Function.update slots w x) n
  | reject (hnew : ∀ i < n, key (slots i) ≠ key x) (hn : K ≤ n)
      (hle : ∀ i < n, score x ≤ score (slots i)) : Step K x slots n slots n

variable {key score} {K : Nat} {offered : List α} {slots slots' : Nat → α} {n n' : Nat} {x : α}

/-- An empty table keeps all of nothing. -/
theorem Keeps.nil (K : Nat) (slots : Nat → α) : Keeps key score K [] slots 0 where
  count_le := Nat.zero_le K
  distinct _ hi := absurd hi (Nat.not_lt_zero _)
  mem _ hi := absurd hi (Nat.not_lt_zero _)
  best _ hi := absurd hi (Nat.not_lt_zero _)
  missing _ hy := absurd hy List.not_mem_nil

namespace Keeps

variable (h : Keeps key score K offered slots n)

include h

theorem weaker {i : Nat} (hi : i < n) (hkey : key (slots i) = key x)
    (hle : score x ≤ score (slots i)) : Keeps key score K (offered ++ [x]) slots n where
  count_le := h.count_le
  distinct := h.distinct
  mem j hj := List.mem_append_left _ (h.mem j hj)
  best j hj y hy hyj := by
    rcases List.mem_append.mp hy with hold | hnew
    · exact h.best j hj y hold hyj
    · obtain rfl := List.mem_singleton.mp hnew
      rw [← h.distinct i hi j hj (hkey.trans hyj)]
      exact hle
  missing y hy hout := by
    rcases List.mem_append.mp hy with hold | hnew
    · exact h.missing y hold hout
    · obtain rfl := List.mem_singleton.mp hnew
      exact absurd hkey (hout i hi)

theorem stronger {i : Nat} (hi : i < n) (hkey : key (slots i) = key x)
    (hlt : score (slots i) < score x) :
    Keeps key score K (offered ++ [x]) (Function.update slots i x) n := by
  have hkeys : ∀ j, key (Function.update slots i x j) = key (slots j) := by
    intro j
    rcases eq_or_ne j i with rfl | hne
    · rw [Function.update_self, hkey]
    · rw [Function.update_of_ne hne]
  refine ⟨h.count_le, fun j hj k hk hjk => ?_, fun j hj => ?_, fun j hj y hy hyj => ?_,
    fun y hy hout => ?_⟩
  · rw [hkeys, hkeys] at hjk
    exact h.distinct j hj k hk hjk
  · rcases eq_or_ne j i with rfl | hne
    · rw [Function.update_self]
      exact List.mem_append_right _ (List.mem_singleton_self x)
    · rw [Function.update_of_ne hne]
      exact List.mem_append_left _ (h.mem j hj)
  · rw [hkeys] at hyj
    rcases eq_or_ne j i with rfl | hne
    · rw [Function.update_self]
      rcases List.mem_append.mp hy with hold | hnew
      · exact le_trans (h.best j hj y hold hyj) (le_of_lt hlt)
      · rw [List.mem_singleton.mp hnew]
    · rw [Function.update_of_ne hne]
      rcases List.mem_append.mp hy with hold | hnew
      · exact h.best j hj y hold hyj
      · -- the key of the new item is that of slot `i` alone
        rw [List.mem_singleton.mp hnew] at hyj
        exact absurd (h.distinct i hi j hj (hkey.trans hyj)) (Ne.symm hne)
  · have hout' : ∀ j < n, key (slots j) ≠ key y := fun j hj => by
      rw [← hkeys]
      exact hout j hj
    rcases List.mem_append.mp hy with hold | hnew
    · obtain ⟨hfull, hle⟩ := h.missing y hold hout'
      refine ⟨hfull, fun j hj => le_trans (hle j hj) ?_⟩
      rcases eq_or_ne j i with rfl | hne
      · rw [Function.update_self]
        exact le_of_lt hlt
      · rw [Function.update_of_ne hne]
    · rw [List.mem_singleton.mp hnew] at hout'
      exact absurd hkey (hout' i hi)

/-- While there is room nothing that was offered is missing. -/
theorem present (hn : n < K) {y : α} (hy : y ∈ offered) : ∃ i < n, key (slots i) = key y := by
  by_contra hnone
  refine absurd (h.missing y hy fun i hi hkey => hnone ⟨i, hi, hkey⟩).1 ?_
  exact Nat.not_le_of_lt hn

theorem add (hnew : ∀ i < n, key (slots i) ≠ key x) (hn : n < K) :
    Keeps key score K (offered ++ [x]) (Function.update slots n x) (n + 1) := by
  have hold : ∀ i < n, Function.update slots n x i = slots i := fun i hi =>
    Function.update_of_ne (Nat.ne_of_lt hi) _ _
  have hself : Function.update slots n x n = x := Function.update_self _ _ _
  refine ⟨hn, fun j hj k hk hjk => ?_, fun j hj => ?_, fun j hj y hy hyj => ?_,
    fun y hy hout => ?_⟩
  · rcases Nat.lt_succ_iff_lt_or_eq.mp hj with hj | rfl <;>
      rcases Nat.lt_succ_iff_lt_or_eq.mp hk with hk | rfl
    · rw [hold j hj, hold k hk] at hjk
      exact h.distinct j hj k hk hjk
    · rw [hold j hj, hself] at hjk
      exact absurd hjk (hnew j hj)
    · rw [hold k hk, hself] at hjk
      exact absurd hjk.symm (hnew k hk)
    · rfl
  · rcases Nat.lt_succ_iff_lt_or_eq.mp hj with hj | rfl
    · rw [hold j hj]
      exact List.mem_append_left _ (h.mem j hj)
    · rw [hself]
      exact List.mem_append_right _ (List.mem_singleton_self x)
  · rcases Nat.lt_succ_iff_lt_or_eq.mp hj with hj | rfl
    · rw [hold j hj] at hyj ⊢
      rcases List.mem_append.mp hy with hy | hy
      · exact h.best j hj y hy hyj
      · rw [List.mem_singleton.mp hy] at hyj
        exact absurd hyj.symm (hnew j hj)
    · rw [hself] at hyj ⊢
      rcases List.mem_append.mp hy with hy | hy
      · obtain ⟨i, hi, hkey⟩ := h.present hn hy
        exact absurd (hkey.trans hyj) (hnew i hi)
      · rw [List.mem_singleton.mp hy]
  · rcases List.mem_append.mp hy with hy | hy
    · obtain ⟨i, hi, hkey⟩ := h.present hn hy
      exact absurd ((congrArg key (hold i hi)).trans hkey) (hout i (Nat.lt_succ_of_lt hi))
    · refine absurd ?_ (hout n (Nat.lt_succ_self n))
      rw [hself, List.mem_singleton.mp hy]

/-- The weakest item gives way, and is from then on one that nothing in the table is weaker
than. -/
theorem replace {w : Nat} (hw : w < n) (hnew : ∀ i < n, key (slots i) ≠ key x) (hn : K ≤ n)
    (hmin : ∀ i < n, score (slots w) ≤ score (slots i)) (hlt : score (slots w) < score x) :
    Keeps key score K (offered ++ [x]) (Function.update slots w x) n := by
  have hself : Function.update slots w x w = x := Function.update_self _ _ _
  have hold : ∀ i, i ≠ w → Function.update slots w x i = slots i := fun i hi =>
    Function.update_of_ne hi _ _
  -- what did not beat the weakest does not beat anything now
  have hbelow : ∀ y, score y ≤ score (slots w) →
      ∀ i < n, score y ≤ score (Function.update slots w x i) := by
    intro y hy i hi
    rcases eq_or_ne i w with rfl | hne
    · rw [hself]
      exact le_trans hy (le_of_lt hlt)
    · rw [hold i hne]
      exact le_trans hy (hmin i hi)
  refine ⟨h.count_le, fun j hj k hk hjk => ?_, fun j hj => ?_, fun j hj y hy hyj => ?_,
    fun y hy hout => ?_⟩
  · rcases eq_or_ne j w with hjw | hjw <;> rcases eq_or_ne k w with hkw | hkw
    · exact hjw.trans hkw.symm
    · rw [hjw, hself, hold k hkw] at hjk
      exact absurd hjk.symm (hnew k hk)
    · rw [hkw, hself, hold j hjw] at hjk
      exact absurd hjk (hnew j hj)
    · rw [hold j hjw, hold k hkw] at hjk
      exact h.distinct j hj k hk hjk
  · rcases eq_or_ne j w with rfl | hne
    · rw [hself]
      exact List.mem_append_right _ (List.mem_singleton_self x)
    · rw [hold j hne]
      exact List.mem_append_left _ (h.mem j hj)
  · rcases eq_or_ne j w with rfl | hne
    · rw [hself] at hyj ⊢
      rcases List.mem_append.mp hy with hy | hy
      · -- it was missing, and so no stronger than the weakest
        have hmissing := h.missing y hy fun i hi hkey => hnew i hi (hkey.trans hyj)
        exact le_trans (hmissing.2 j hj) (le_of_lt hlt)
      · rw [List.mem_singleton.mp hy]
    · rw [hold j hne] at hyj ⊢
      rcases List.mem_append.mp hy with hy | hy
      · exact h.best j hj y hy hyj
      · rw [List.mem_singleton.mp hy] at hyj
        exact absurd hyj.symm (hnew j hj)
  · refine ⟨hn, ?_⟩
    rcases List.mem_append.mp hy with hy | hy
    · refine hbelow y ?_
      by_cases hkey : key (slots w) = key y
      · exact h.best w hw y hy hkey.symm
      · refine (h.missing y hy fun i hi => ?_).2 w hw
        rcases eq_or_ne i w with rfl | hne
        · exact hkey
        · rw [← hold i hne]
          exact hout i hi
    · refine absurd ?_ (hout w hw)
      rw [hself, List.mem_singleton.mp hy]

theorem reject (hnew : ∀ i < n, key (slots i) ≠ key x) (hn : K ≤ n)
    (hle : ∀ i < n, score x ≤ score (slots i)) : Keeps key score K (offered ++ [x]) slots n where
  count_le := h.count_le
  distinct := h.distinct
  mem j hj := List.mem_append_left _ (h.mem j hj)
  best j hj y hy hyj := by
    rcases List.mem_append.mp hy with hold | hy
    · exact h.best j hj y hold hyj
    · rw [List.mem_singleton.mp hy] at hyj
      exact absurd hyj.symm (hnew j hj)
  missing y hy hout := by
    rcases List.mem_append.mp hy with hold | hy
    · exact h.missing y hold hout
    · rw [List.mem_singleton.mp hy]
      exact ⟨hn, hle⟩

/-- Every step keeps the strongest of one item more. -/
theorem step (hstep : Step key score K x slots n slots' n') :
    Keeps key score K (offered ++ [x]) slots' n' := by
  cases hstep with
  | weaker i hi hkey hle => exact h.weaker hi hkey hle
  | stronger i hi hkey hlt => exact h.stronger hi hkey hlt
  | add hnew hn => exact h.add hnew hn
  | replace w hw hnew hn hmin hlt => exact h.replace hw hnew hn hmin hlt
  | reject hnew hn hle => exact h.reject hnew hn hle

end Keeps

end Strongest
