/-
# Candidate ordering

`wifi_pick.c`: which saved networks to try in a cycle and in what order, from
what the latest scan and the earlier attempts said about each of them.
-/

import Mathlib.Tactic.Common
import Molewire.Config
import Molewire.Library.Insertion

namespace Molewire

/-! ### Runtime state of a profile -/

/-- `wifi_prof_status_t`. -/
inductive ProfStatus
  /-- No attempt since boot, a list edit or the decay of the status. -/
  | untried
  | connected
  /-- The last attempt timed out or failed short of authentication. -/
  | nojoin
  /-- Authentication was rejected. -/
  | badpass
  deriving DecidableEq, Repr

/-- `WIFI_RSSI_UNSEEN`: the network was not in the latest scan. -/
def wifiRssiUnseen : Int := -32768

/-- `wifi_prof_state_t`. -/
structure ProfState where
  rssi : Int := 0
  status : ProfStatus := .untried
  deriving DecidableEq, Repr

/-- `WIFI_PICK_ACTIVE_BONUS_DB`. -/
def wifiPickActiveBonusDb : Int := 10

/-! ### The order -/

/-- One insertion: behind every entry that scores at least as much, looked up from the end. -/
def wifiPickInsert (e : Nat × Int) (l : List (Nat × Int)) : List (Nat × Int) :=
  l.rdropWhile (·.2 < e.2) ++ e :: l.rtakeWhile (·.2 < e.2)

/-- One turn of the first loop: profiles not seen or rejected are passed over. -/
def wifiPickStep (st : Nat → ProfState) (active : Nat) (l : List (Nat × Int)) (i : Nat) :
    List (Nat × Int) :=
  if (st i).rssi = wifiRssiUnseen ∨ (st i).status = .badpass then l
  else wifiPickInsert (i, (st i).rssi + if i = active then wifiPickActiveBonusDb else 0) l

/-- The profiles seen in the scan and not rejected, by descending score. -/
def wifiPickSeen (st : Nat → ProfState) (count active : Nat) : List (Nat × Int) :=
  (List.range count).foldl (wifiPickStep st active) []

/-- One profile the scan did not see, from a place that rotates over the cycles. -/
def wifiPickUnseen (st : Nat → ProfState) (count : Nat) (rrUnseen : UInt8) : Option Nat :=
  ((List.range count).map fun k => (rrUnseen.toNat + k) % count).find? fun i =>
    (st i).rssi = wifiRssiUnseen ∧ (st i).status ≠ .badpass

/-- `wifi_pick_order`. -/
def wifiPickOrder (st : Nat → ProfState) (count active : Nat) (rrUnseen : UInt8) : List Nat :=
  let count := min count configProfileMax
  (wifiPickSeen st count active).map (·.1) ++ (wifiPickUnseen st count rrUnseen).toList

/-! ### Candidates are saved profiles -/

theorem wifiPickInsert_perm (e : Nat × Int) (l : List (Nat × Int)) :
    (wifiPickInsert e l).Perm (e :: l) :=
  Insertion.perm_insertEnd _ e l

theorem mem_wifiPickInsert {e x : Nat × Int} {l : List (Nat × Int)} :
    x ∈ wifiPickInsert e l ↔ x = e ∨ x ∈ l := by
  rw [(wifiPickInsert_perm e l).mem_iff, List.mem_cons]

theorem mem_wifiPickStep {st : Nat → ProfState} {active i : Nat} {l : List (Nat × Int)}
    {x : Nat × Int} (h : x ∈ wifiPickStep st active l i) : x.1 = i ∨ x ∈ l := by
  unfold wifiPickStep at h
  split_ifs at h
  · exact .inr h
  all_goals
    rcases mem_wifiPickInsert.mp h with rfl | h
    · exact .inl rfl
    · exact .inr h

theorem wifiPickSeen_lt {st : Nat → ProfState} {count active : Nat} {x : Nat × Int}
    (h : x ∈ wifiPickSeen st count active) : x.1 < count := by
  have hfold : ∀ (is : List Nat) (l : List (Nat × Int)),
      x ∈ is.foldl (wifiPickStep st active) l → x.1 ∈ is ∨ x ∈ l := by
    intro is
    induction is with
    | nil => exact fun l h => .inr h
    | cons i rest ih =>
      intro l h
      rcases ih _ h with h | h
      · exact .inl (List.mem_cons_of_mem _ h)
      · rcases mem_wifiPickStep h with h | h
        · exact .inl (h ▸ List.mem_cons_self)
        · exact .inr h
  rcases hfold _ [] h with h | h
  · exact List.mem_range.mp h
  · cases h

theorem wifiPickUnseen_lt {st : Nat → ProfState} {count i : Nat} {rrUnseen : UInt8}
    (h : wifiPickUnseen st count rrUnseen = some i) : i < count := by
  have hmem := List.mem_of_find?_eq_some h
  simp only [List.mem_map, List.mem_range] at hmem
  obtain ⟨k, hk, rfl⟩ := hmem
  exact Nat.mod_lt _ (by omega)

/-- Every candidate is an index into the list it was picked from. -/
theorem wifiPickOrder_lt {st : Nat → ProfState} {count active i : Nat} {rrUnseen : UInt8}
    (h : i ∈ wifiPickOrder st count active rrUnseen) : i < count := by
  simp only [wifiPickOrder, List.mem_append, List.mem_map, Option.mem_toList] at h
  rcases h with ⟨x, hx, rfl⟩ | h
  · exact (wifiPickSeen_lt hx).trans_le (min_le_left _ _)
  · exact (wifiPickUnseen_lt h).trans_le (min_le_left _ _)

theorem length_wifiPickInsert (e : Nat × Int) (l : List (Nat × Int)) :
    (wifiPickInsert e l).length = l.length + 1 :=
  (wifiPickInsert_perm e l).length_eq

/-- A profile that the first loop does not pass over. -/
def wifiPickEligible (st : Nat → ProfState) (i : Nat) : Bool :=
  !((st i).rssi = wifiRssiUnseen ∨ (st i).status = .badpass)

theorem length_wifiPickStep (st : Nat → ProfState) (active : Nat) (l : List (Nat × Int)) (i : Nat) :
    (wifiPickStep st active l i).length =
      l.length + if wifiPickEligible st i then 1 else 0 := by
  by_cases hskip : (st i).rssi = wifiRssiUnseen ∨ (st i).status = .badpass
  · simp [wifiPickStep, wifiPickEligible, hskip]
  · simp [wifiPickStep, wifiPickEligible, hskip, length_wifiPickInsert]

theorem length_wifiPickSeen (st : Nat → ProfState) (count active : Nat) :
    (wifiPickSeen st count active).length = (List.range count).countP (wifiPickEligible st) := by
  have hfold : ∀ (is : List Nat) (l : List (Nat × Int)),
      (is.foldl (wifiPickStep st active) l).length =
        l.length + is.countP (wifiPickEligible st) := by
    intro is
    induction is with
    | nil => exact fun l => rfl
    | cons i rest ih =>
      intro l
      rw [List.foldl_cons, ih, List.countP_cons, length_wifiPickStep]
      omega
  rw [wifiPickSeen, hfold, List.length_nil, Nat.zero_add]

/-- The order fits the array it is written to: the blind candidate is none of those seen. -/
theorem length_wifiPickOrder (st : Nat → ProfState) (count active : Nat) (rrUnseen : UInt8) :
    (wifiPickOrder st count active rrUnseen).length ≤ configProfileMax := by
  have hcount : min count configProfileMax ≤ configProfileMax := min_le_right _ _
  have hseen := length_wifiPickSeen st (min count configProfileMax) active
  have hle : (List.range (min count configProfileMax)).countP (wifiPickEligible st) ≤ _ :=
    List.countP_le_length
  rw [List.length_range] at hle
  simp only [wifiPickOrder, List.length_append, List.length_map, hseen]
  cases hblind : wifiPickUnseen st (min count configProfileMax) rrUnseen with
  | none =>
    simp only [Option.toList_none, List.length_nil]
    omega
  | some i =>
    -- one profile at least was passed over
    have hne : (List.range (min count configProfileMax)).countP (wifiPickEligible st) ≠
        (List.range (min count configProfileMax)).length := by
      intro hall
      have hi := List.countP_eq_length.mp hall i (List.mem_range.mpr (wifiPickUnseen_lt hblind))
      have hunseen := List.find?_some hblind
      simp only [decide_eq_true_eq] at hunseen
      simp [wifiPickEligible, hunseen.1] at hi
    rw [List.length_range] at hne
    simp only [Option.toList_some, List.length_singleton]
    omega

end Molewire
