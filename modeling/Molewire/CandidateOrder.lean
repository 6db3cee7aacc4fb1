/-
# The candidate order

`wifi_pick_order` sorts into the array it was given, with the scores in a second
array beside it, and appends one profile that the scan did not see. On its
arrays it never leaves their bounds and writes the order that the connection
manager uses; the order is the one its header describes, of the first
`CONFIG_PROFILE_MAX` profiles.
-/

import Mathlib.Data.List.Nodup
import Molewire.WifiPick

namespace Molewire

open Insertion

/-! ### On the arrays -/

/-- A write to an array, which has to be within its bounds. -/
def store {α : Type} (l : List α) (i : Nat) (x : α) : Option (List α) :=
  if i < l.length then some (l.set i x) else none

theorem store_append {α : Type} (l : List α) (x y : α) (rest : List α) :
    store (l ++ y :: rest) l.length x = some (l ++ x :: rest) := by
  have hlt : l.length < (l ++ y :: rest).length := by
    rw [List.length_append, List.length_cons]
    omega
  rw [store, if_pos hlt, List.set_append_right _ _ (Nat.le_refl _), Nat.sub_self,
    List.set_cons_zero]

/-- The locals of `wifi_pick_order`. -/
structure WifiPickArrays where
  out : List Nat
  score : List Int
  n : Nat := 0

/-- The `while` loop: entries that score less than `s` move up, from position `j` down. -/
def wifiPickShift (s : Int) : Nat → List Nat → List Int → Option (Nat × List Nat × List Int)
  | 0, out, score => some (0, out, score)
  | j + 1, out, score => do
    let prev ← score[j]?
    if prev < s then
      let out ← store out (j + 1) (← out[j]?)
      let score ← store score (j + 1) prev
      wifiPickShift s j out score
    else
      some (j + 1, out, score)

/-- One turn of the first loop. -/
def wifiPickPlace (st : Nat → ProfState) (active : Nat) (a : WifiPickArrays) (i : Nat) :
    Option WifiPickArrays :=
  if (st i).rssi = wifiRssiUnseen ∨ (st i).status = .badpass then some a
  else do
    let s := (st i).rssi + if i = active then wifiPickActiveBonusDb else 0
    let (j, out, score) ← wifiPickShift s a.n a.out a.score
    let out ← store out j i
    let score ← store score j s
    some { out, score, n := a.n + 1 }

/-- `wifi_pick_order` on its arrays. The second loop ends at the first profile that fits. -/
def wifiPickOrderInPlace (st : Nat → ProfState) (count active : Nat) (rrUnseen : UInt8)
    (a : WifiPickArrays) : Option WifiPickArrays := do
  let count := min count configProfileMax
  let a ← (List.range count).foldlM (wifiPickPlace st active) a
  match wifiPickUnseen st count rrUnseen with
  | none => some a
  | some i => some { a with out := ← store a.out a.n i, n := a.n + 1 }

/-- The arrays hold the entries of `l`, with `out` and `score` behind them. -/
def WifiPickArrays.Holds (a : WifiPickArrays) (l : List (Nat × Int)) (out : List Nat)
    (score : List Int) : Prop :=
  a.out = l.map (·.1) ++ out ∧ a.score = l.map (·.2) ++ score ∧ a.n = l.length

/-- What is left of `l` in front after the loop, and a free place behind it. The entries in `moved`
have moved up already. -/
theorem wifiPickShift_eq (s : Int) (l moved : List (Nat × Int)) (x : Nat) (y : Int)
    (out : List Nat) (score : List Int) :
    ∃ x' y', wifiPickShift s l.length (l.map (·.1) ++ x :: (moved.map (·.1) ++ out))
        (l.map (·.2) ++ y :: (moved.map (·.2) ++ score)) =
      some ((l.rdropWhile (·.2 < s)).length,
        (l.rdropWhile (·.2 < s)).map (·.1) ++
          x' :: ((l.rtakeWhile (·.2 < s) ++ moved).map (·.1) ++ out),
        (l.rdropWhile (·.2 < s)).map (·.2) ++
          y' :: ((l.rtakeWhile (·.2 < s) ++ moved).map (·.2) ++ score)) := by
  induction l using List.reverseRecOn generalizing moved x y with
  | nil => exact ⟨x, y, rfl⟩
  | append_singleton l e ih =>
    have hprev : (l.map (·.2) ++ e.2 :: y :: (moved.map (·.2) ++ score))[l.length]? = some e.2 := by
      rw [List.getElem?_append_right (by simp)]
      simp
    have hout : (l.map (·.1) ++ e.1 :: x :: (moved.map (·.1) ++ out))[l.length]? = some e.1 := by
      rw [List.getElem?_append_right (by simp)]
      simp
    have hmoveOut := store_append (l.map (·.1) ++ [e.1]) e.1 x (moved.map (·.1) ++ out)
    have hmoveScore := store_append (l.map (·.2) ++ [e.2]) e.2 y (moved.map (·.2) ++ score)
    simp only [List.append_assoc, List.cons_append, List.nil_append, List.length_append,
      List.length_map, List.length_cons, List.length_nil, Nat.zero_add] at hmoveOut hmoveScore
    rw [List.length_append, List.length_singleton, wifiPickShift, List.rdropWhile_concat]
    simp only [List.map_append, List.map_cons, List.map_nil, List.append_assoc, List.cons_append,
      List.nil_append, hprev, Option.bind_eq_bind, Option.bind_some, decide_eq_true_eq]
    split_ifs with hlt
    · rw [hout, Option.bind_some, hmoveOut, Option.bind_some, hmoveScore, Option.bind_some]
      obtain ⟨x', y', heq⟩ := ih (e :: moved) e.1 e.2
      refine ⟨x', y', ?_⟩
      simpa [List.rtakeWhile_concat, hlt] using heq
    · exact ⟨x, y, by simp [hlt]⟩

/-- One turn of the loop is one turn of the model's, and takes one place of the arrays for a
profile it does not pass over. -/
theorem WifiPickArrays.Holds.place {a : WifiPickArrays} {l : List (Nat × Int)} {out : List Nat}
    {score : List Int} (h : a.Holds l out score) (st : Nat → ProfState) (active i : Nat)
    (hout : out ≠ []) (hscore : score ≠ []) :
    ∃ a', wifiPickPlace st active a i = some a' ∧
      a'.Holds (wifiPickStep st active l i)
        (out.drop ((wifiPickStep st active l i).length - l.length))
        (score.drop ((wifiPickStep st active l i).length - l.length)) := by
  by_cases hskip : (st i).rssi = wifiRssiUnseen ∨ (st i).status = .badpass
  · rw [wifiPickPlace, wifiPickStep, if_pos hskip, if_pos hskip]
    exact ⟨a, rfl, by simpa using h⟩
  · rw [wifiPickPlace, wifiPickStep, if_neg hskip, if_neg hskip]
    obtain ⟨x, out, rfl⟩ := List.exists_cons_of_ne_nil hout
    obtain ⟨y, score, rfl⟩ := List.exists_cons_of_ne_nil hscore
    obtain ⟨houtEq, hscoreEq, hn⟩ := h
    generalize (st i).rssi + (if i = active then wifiPickActiveBonusDb else 0) = s
    obtain ⟨x', y', hshift⟩ := wifiPickShift_eq s l [] x y out score
    simp only [List.map_nil, List.nil_append, List.append_nil] at hshift
    have hkeepOut := store_append ((l.rdropWhile (·.2 < s)).map (·.1)) i x'
      ((l.rtakeWhile (·.2 < s)).map (·.1) ++ out)
    have hkeepScore := store_append ((l.rdropWhile (·.2 < s)).map (·.2)) s y'
      ((l.rtakeWhile (·.2 < s)).map (·.2) ++ score)
    rw [List.length_map] at hkeepOut hkeepScore
    have hlen : (wifiPickInsert (i, s) l).length - l.length = 1 := by
      rw [length_wifiPickInsert]
      omega
    rw [houtEq, hscoreEq, hn, hlen]
    simp only [hshift, Option.bind_eq_bind, Option.bind_some, hkeepOut, hkeepScore]
    refine ⟨_, rfl, ?_, ?_, ?_⟩
    · simp [wifiPickInsert]
    · simp [wifiPickInsert]
    · rw [length_wifiPickInsert]

theorem wifiPickSeen_succ (st : Nat → ProfState) (n active : Nat) :
    wifiPickSeen st (n + 1) active = wifiPickStep st active (wifiPickSeen st n active) n := by
  rw [wifiPickSeen, List.range_succ, List.foldl_append]
  rfl

theorem length_wifiPickSeen_le (st : Nat → ProfState) (n active : Nat) :
    (wifiPickSeen st n active).length ≤ n := by
  have hle : (List.range n).countP (wifiPickEligible st) ≤ _ := List.countP_le_length
  rwa [List.length_range, ← length_wifiPickSeen st n active] at hle

/-- The first loop stays within arrays of as many places as there are profiles. -/
theorem foldlM_wifiPickPlace (st : Nat → ProfState) (active : Nat) (out : List Nat)
    (score : List Int) {n : Nat} (hout : n ≤ out.length) (hscore : n ≤ score.length) :
    ∃ a, (List.range n).foldlM (wifiPickPlace st active) { out, score } = some a ∧
      a.Holds (wifiPickSeen st n active) (out.drop (wifiPickSeen st n active).length)
        (score.drop (wifiPickSeen st n active).length) := by
  induction n with
  | zero => exact ⟨{ out, score }, rfl, rfl, rfl, rfl⟩
  | succ n ih =>
    obtain ⟨a, hrun, hholds⟩ := ih (by omega) (by omega)
    have hle := length_wifiPickSeen_le st n active
    have hout' : out.drop (wifiPickSeen st n active).length ≠ [] := by
      rw [Ne, List.drop_eq_nil_iff]
      omega
    have hscore' : score.drop (wifiPickSeen st n active).length ≠ [] := by
      rw [Ne, List.drop_eq_nil_iff]
      omega
    obtain ⟨a', hplace, hholds'⟩ := hholds.place st active n hout' hscore'
    have hgrow := length_wifiPickStep st active (wifiPickSeen st n active) n
    refine ⟨a', ?_, ?_⟩
    · rw [List.range_succ, List.foldlM_append, hrun]
      simp [hplace]
    · rw [wifiPickSeen_succ]
      rw [List.drop_drop, List.drop_drop] at hholds'
      have hsum : (wifiPickSeen st n active).length +
          ((wifiPickStep st active (wifiPickSeen st n active) n).length -
            (wifiPickSeen st n active).length) =
          (wifiPickStep st active (wifiPickSeen st n active) n).length := by omega
      rwa [hsum] at hholds'

/-- On its arrays the function writes the order, and nothing behind it. -/
theorem wifiPickOrderInPlace_eq (st : Nat → ProfState) (count active : Nat) (rrUnseen : UInt8)
    {out : List Nat} {score : List Int} (hout : out.length = configProfileMax)
    (hscore : score.length = configProfileMax) :
    ∃ a, wifiPickOrderInPlace st count active rrUnseen { out, score } = some a ∧
      a.n = (wifiPickOrder st count active rrUnseen).length ∧
      a.out = wifiPickOrder st count active rrUnseen ++ out.drop a.n := by
  have hcount : min count configProfileMax ≤ configProfileMax := min_le_right _ _
  obtain ⟨a, hrun, houtEq, -, hn⟩ := foldlM_wifiPickPlace st active out score
    (hcount.trans_eq hout.symm) (hcount.trans_eq hscore.symm)
  have hlen := length_wifiPickOrder st count active rrUnseen
  unfold wifiPickOrderInPlace wifiPickOrder at *
  simp only [hrun, Option.bind_eq_bind, Option.bind_some] at hlen ⊢
  cases hblind : wifiPickUnseen st (min count configProfileMax) rrUnseen with
  | none => exact ⟨a, rfl, by simp [hn], by simp [houtEq, hn]⟩
  | some i =>
    rw [hblind] at hlen
    simp only [Option.toList_some, List.length_append, List.length_map, List.length_singleton]
      at hlen ⊢
    obtain ⟨x, rest, hrest⟩ := List.exists_cons_of_ne_nil
      (l := out.drop (wifiPickSeen st (min count configProfileMax) active).length) (by
        rw [Ne, List.drop_eq_nil_iff]
        omega)
    have hstore := store_append
      ((wifiPickSeen st (min count configProfileMax) active).map (·.1)) i x rest
    have hbehind : out.drop ((wifiPickSeen st (min count configProfileMax) active).length + 1) =
        rest := by
      rw [← List.drop_drop, hrest]
      rfl
    rw [List.length_map] at hstore
    rw [houtEq, hn, hrest, hstore, Option.bind_some]
    exact ⟨_, rfl, rfl, by rw [hbehind]; simp⟩

/-! ### The profiles seen -/

/-- What a profile is ranked by. -/
def wifiPickScore (st : Nat → ProfState) (active i : Nat) : Int :=
  (st i).rssi + if i = active then wifiPickActiveBonusDb else 0

/-- A higher score, or the same one earlier in the list. -/
def Outranks (st : Nat → ProfState) (active i j : Nat) : Prop :=
  wifiPickScore st active j < wifiPickScore st active i ∨
    wifiPickScore st active j = wifiPickScore st active i ∧ i < j

theorem wifiPickStep_of_eligible {st : Nat → ProfState} {active i : Nat} {l : List (Nat × Int)}
    (h : wifiPickEligible st i) :
    wifiPickStep st active l i = wifiPickInsert (i, wifiPickScore st active i) l := by
  have hkeep : ¬((st i).rssi = wifiRssiUnseen ∨ (st i).status = .badpass) := by
    simpa [wifiPickEligible] using h
  rw [wifiPickStep, if_neg hkeep, wifiPickScore]

theorem wifiPickStep_of_not_eligible {st : Nat → ProfState} {active i : Nat}
    {l : List (Nat × Int)} (h : ¬wifiPickEligible st i) : wifiPickStep st active l i = l := by
  have hskip : (st i).rssi = wifiRssiUnseen ∨ (st i).status = .badpass := by
    simpa [wifiPickEligible, or_iff_not_imp_left] using h
  rw [wifiPickStep, if_pos hskip]

/-- Every profile that is not passed over is an entry, once. -/
theorem wifiPickSeen_perm (st : Nat → ProfState) (n active : Nat) :
    ((wifiPickSeen st n active).map (·.1)).Perm ((List.range n).filter (wifiPickEligible st)) := by
  induction n with
  | zero => exact .refl _
  | succ n ih =>
    rw [wifiPickSeen_succ, List.range_succ, List.filter_append, List.filter_singleton]
    by_cases h : wifiPickEligible st n
    · rw [wifiPickStep_of_eligible h, h, cond_true]
      refine ((wifiPickInsert_perm _ _).map _).trans ?_
      exact (ih.cons n).trans (List.perm_append_singleton n _).symm
    · rw [wifiPickStep_of_not_eligible h, Bool.eq_false_of_not_eq_true h, cond_false,
        List.append_nil]
      exact ih

theorem wifiPickSeen_score {st : Nat → ProfState} {n active : Nat} {x : Nat × Int}
    (h : x ∈ wifiPickSeen st n active) : x.2 = wifiPickScore st active x.1 := by
  induction n with
  | zero => cases h
  | succ n ih =>
    rw [wifiPickSeen_succ] at h
    by_cases hn : wifiPickEligible st n
    · rw [wifiPickStep_of_eligible hn, mem_wifiPickInsert] at h
      rcases h with rfl | h
      · rfl
      · exact ih h
    · rw [wifiPickStep_of_not_eligible hn] at h
      exact ih h

/-- The entries are in the order of their ranks. -/
theorem wifiPickSeen_pairwise (st : Nat → ProfState) (n active : Nat) :
    ((wifiPickSeen st n active).Pairwise fun x y => Outranks st active x.1 y.1) := by
  induction n with
  | zero => exact .nil
  | succ n ih =>
    rw [wifiPickSeen_succ]
    by_cases h : wifiPickEligible st n
    · rw [wifiPickStep_of_eligible h]
      -- on entries with their scores the order is one the insertion respects
      have hscores : ((wifiPickSeen st n active).Pairwise fun x y =>
          Outranks st active x.1 y.1 ∧ y.2 ≤ x.2) := by
        refine ih.imp_of_mem fun {x y} hx hy hxy => ⟨hxy, ?_⟩
        rw [wifiPickSeen_score hx, wifiPickSeen_score hy]
        rcases hxy with hlt | ⟨heq, -⟩
        · exact hlt.le
        · exact heq.le
      have hinsert := pairwise_insertEnd (p := (·.2 < wifiPickScore st active n))
        (e := (n, wifiPickScore st active n)) hscores ?mono ?behind ?before
      · exact hinsert.imp fun h => h.1
      case mono =>
        intro x y hxy hx
        simp only [decide_eq_true_eq] at hx ⊢
        exact hxy.2.trans_lt hx
      case behind =>
        intro x hx hle
        simp only [decide_eq_true_eq, not_lt] at hle
        refine ⟨?_, hle⟩
        rw [wifiPickSeen_score hx] at hle
        rcases hle.lt_or_eq with hlt | heq
        · exact .inl hlt
        · exact .inr ⟨heq, wifiPickSeen_lt hx⟩
      case before =>
        intro x hx hlt
        simp only [decide_eq_true_eq] at hlt
        refine ⟨.inl ?_, hlt.le⟩
        rwa [wifiPickSeen_score hx] at hlt
    · rw [wifiPickStep_of_not_eligible h]
      exact ih

/-! ### The blind candidate -/

/-- A profile that is neither in the scan nor rejected. -/
def Blind (st : Nat → ProfState) (i : Nat) : Prop :=
  (st i).rssi = wifiRssiUnseen ∧ (st i).status ≠ .badpass

/-- The first one counting cyclically from the rotation. -/
theorem wifiPickUnseen_eq_some {st : Nat → ProfState} {n i : Nat} {rrUnseen : UInt8} :
    wifiPickUnseen st n rrUnseen = some i ↔
      ∃ k < n, i = (rrUnseen.toNat + k) % n ∧ Blind st i ∧
        ∀ k' < k, ¬Blind st ((rrUnseen.toNat + k') % n) := by
  simp only [wifiPickUnseen, List.find?_map, Option.map_eq_some_iff, List.find?_range_eq_some,
    Function.comp_apply, decide_eq_true_eq, List.mem_range, Bool.not_eq_true',
    decide_eq_false_iff_not]
  constructor
  · rintro ⟨k, ⟨hk, hlt, hfirst⟩, rfl⟩
    exact ⟨k, hlt, rfl, hk, hfirst⟩
  · rintro ⟨k, hlt, rfl, hk, hfirst⟩
    exact ⟨k, ⟨hk, hlt, hfirst⟩, rfl⟩

/-- Every profile comes up in a turn of the rotation. -/
theorem wifiPickUnseen_eq_none {st : Nat → ProfState} {n : Nat} {rrUnseen : UInt8} :
    wifiPickUnseen st n rrUnseen = none ↔ ∀ i < n, ¬Blind st i := by
  simp only [wifiPickUnseen, List.find?_eq_none, List.mem_map, List.mem_range,
    forall_exists_index, and_imp, forall_apply_eq_imp_iff₂, decide_eq_true_eq]
  constructor
  · intro h i hi
    have hcome : (rrUnseen.toNat + (i + (n - rrUnseen.toNat % n)) % n) % n = i := by
      have hr : rrUnseen.toNat % n < n := Nat.mod_lt _ (by omega)
      have hturn : rrUnseen.toNat + (i + (n - rrUnseen.toNat % n)) =
          i + n * (rrUnseen.toNat / n + 1) := by
        have hdiv := Nat.div_add_mod rrUnseen.toNat n
        rw [Nat.mul_add, Nat.mul_one]
        omega
      rw [Nat.add_mod_mod, hturn, Nat.add_mul_mod_self_left, Nat.mod_eq_of_lt hi]
    have hmiss := h ((i + (n - rrUnseen.toNat % n)) % n) (Nat.mod_lt _ (by omega))
    rw [hcome] at hmiss
    exact hmiss
  · intro h k hk
    exact h _ (Nat.mod_lt _ (by omega))

/-! ### The whole order -/

/-- Of the first `CONFIG_PROFILE_MAX` profiles: those seen and not rejected, by rank, then one
that the scan did not see, if there is one. It is written to the array without leaving it. -/
theorem wifiPickOrder_correct (st : Nat → ProfState) (count active : Nat) (rrUnseen : UInt8)
    {out : List Nat} {score : List Int} (hout : out.length = configProfileMax)
    (hscore : score.length = configProfileMax) :
    ∃ a seen blind, wifiPickOrderInPlace st count active rrUnseen { out, score } = some a ∧
      a.out.take a.n = seen ++ Option.toList blind ∧
      a.n ≤ configProfileMax ∧ a.out.length = configProfileMax ∧
      (a.out.take a.n).Nodup ∧ (∀ i ∈ a.out.take a.n, i < min count configProfileMax) ∧
      (∀ i, i ∈ seen ↔ i < min count configProfileMax ∧ (st i).rssi ≠ wifiRssiUnseen ∧
        (st i).status ≠ .badpass) ∧
      seen.Pairwise (Outranks st active) ∧
      (∀ i, blind = some i ↔ ∃ k < min count configProfileMax,
        i = (rrUnseen.toNat + k) % min count configProfileMax ∧ Blind st i ∧
          ∀ k' < k, ¬Blind st ((rrUnseen.toNat + k') % min count configProfileMax)) ∧
      (blind = none ↔ ∀ i < min count configProfileMax, ¬Blind st i) := by
  obtain ⟨a, hrun, hn, houtEq⟩ := wifiPickOrderInPlace_eq st count active rrUnseen hout hscore
  have htake : a.out.take a.n = wifiPickOrder st count active rrUnseen := by
    rw [houtEq, hn, List.take_left]
  have hperm := wifiPickSeen_perm st (min count configProfileMax) active
  have hseen : ∀ i, i ∈ (wifiPickSeen st (min count configProfileMax) active).map (·.1) ↔
      i < min count configProfileMax ∧ (st i).rssi ≠ wifiRssiUnseen ∧ (st i).status ≠ .badpass := by
    intro i
    rw [hperm.mem_iff, List.mem_filter, List.mem_range]
    simp [wifiPickEligible]
  have hsorted : ((wifiPickSeen st (min count configProfileMax) active).map (·.1)).Pairwise
      (Outranks st active) :=
    List.pairwise_map.mpr (wifiPickSeen_pairwise st _ active)
  have hle := length_wifiPickOrder st count active rrUnseen
  refine ⟨a, _, wifiPickUnseen st (min count configProfileMax) rrUnseen, hrun, htake, hn ▸ hle, ?_,
    ?_, ?_, hseen, hsorted, fun i => wifiPickUnseen_eq_some, wifiPickUnseen_eq_none⟩
  · rw [houtEq, List.length_append, List.length_drop]
    omega
  · rw [htake]
    refine List.nodup_append.mpr ⟨?_, ?_, ?_⟩
    · exact hperm.nodup_iff.mpr (List.nodup_range.filter _)
    · cases wifiPickUnseen st (min count configProfileMax) rrUnseen with
      | none => exact List.nodup_nil
      | some i => exact List.nodup_singleton i
    · -- a blind candidate was not seen
      rintro i hi j hj rfl
      obtain ⟨-, -, -, hblind, -⟩ := wifiPickUnseen_eq_some.mp (Option.mem_toList.mp hj)
      exact ((hseen i).mp hi).2.1 hblind.1
  · rw [htake]
    intro i hi
    rcases List.mem_append.mp hi with hi | hi
    · exact ((hseen i).mp hi).1
    · exact wifiPickUnseen_lt (Option.mem_toList.mp hi)

/-- Two seen, one hidden and one rejected. -/
def fourProfiles : Nat → ProfState
  | 0 => { rssi := -70 }
  | 1 => { rssi := wifiRssiUnseen }
  | 2 => { rssi := -50 }
  | _ => { rssi := -40, status := .badpass }

theorem wifiPickOrder_correct_fourProfiles :
    ∃ a, wifiPickOrderInPlace fourProfiles 4 255 0
      { out := List.replicate 8 0, score := List.replicate 8 0 } = some a ∧
      (a.out.take a.n).Nodup ∧ ∀ i ∈ a.out.take a.n, i < 4 := by
  have hout : (List.replicate 8 (0 : Nat)).length = configProfileMax := List.length_replicate
  have hscore : (List.replicate 8 (0 : Int)).length = configProfileMax := List.length_replicate
  obtain ⟨a, -, -, hrun, -, -, -, hnodup, hlt, -⟩ :=
    wifiPickOrder_correct fourProfiles 4 255 0 hout hscore
  exact ⟨a, hrun, hnodup, hlt⟩

/-- A ninth profile is not considered, seen or not. -/
theorem wifiPickOrder_ignores_ninth :
    8 ∉ wifiPickOrder (fun _ => { rssi := -50 }) 9 255 0 ∧
      ∃ a, wifiPickOrderInPlace (fun _ => { rssi := -50 }) 9 255 0
        { out := List.replicate 8 0, score := List.replicate 8 0 } = some a ∧
          8 ∉ a.out.take a.n :=
  ⟨by decide, _, rfl, by decide⟩

end Molewire
