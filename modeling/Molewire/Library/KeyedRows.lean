/-
# Tables of keyed rows

A table holds rows, each under a key. Rows are opened, dropped, and go on step by
step, some of their steps seen from outside and some not; where in the table a row
stands is of no account. If a key is opened only once, then what is seen under
that key, among all that is seen, is what one single row did. Whatever the runs of
a single row have in common is by this a fact about the whole table.
-/

import Mathlib.Data.Multiset.MapFold

namespace KeyedRows

variable {κ σ ε : Type*}

/-- What is seen of a table. -/
inductive Entry (κ ε : Type*)
  | opened (key : κ)
  | did (key : κ) (event : ε)

section Table

variable (fresh : σ → Prop) (step : κ → σ → Option ε → σ → Prop)

/-- The runs of one row, with what is seen of them. -/
inductive Path (key : κ) : σ → List ε → σ → Prop
  | refl (s : σ) : Path key s [] s
  | silent {s t u : σ} {es : List ε} (h : Path key s es t) (ht : step key t none u) :
      Path key s es u
  | did {s t u : σ} {es : List ε} {e : ε} (h : Path key s es t) (ht : step key t (some e) u) :
      Path key s (es ++ [e]) u

/-- The runs of a table, with what is seen of them. -/
inductive Leads (start : Multiset (κ × σ)) :
    List (Entry κ ε) → Multiset (κ × σ) → Prop
  | refl : Leads start [] start
  | forget {log : List (Entry κ ε)} {t u : Multiset (κ × σ)} (h : Leads start log t)
      (hu : u ≤ t) : Leads start log u
  | opened {log : List (Entry κ ε)} {t : Multiset (κ × σ)} {key : κ} {s : σ}
      (h : Leads start log t) (hs : fresh s) : Leads start (log ++ [.opened key]) ({(key, s)} + t)
  | silent {log : List (Entry κ ε)} {t : Multiset (κ × σ)} {key : κ} {s s' : σ}
      (h : Leads start log ({(key, s)} + t)) (hs : step key s none s') :
      Leads start log ({(key, s')} + t)
  | did {log : List (Entry κ ε)} {t : Multiset (κ × σ)} {key : κ} {s s' : σ} {e : ε}
      (h : Leads start log ({(key, s)} + t)) (hs : step key s (some e) s') :
      Leads start (log ++ [.did key e]) ({(key, s')} + t)

variable {fresh step} {start t u : Multiset (κ × σ)} {log log' : List (Entry κ ε)}

theorem Leads.trans (h : Leads fresh step start log t) (h' : Leads fresh step t log' u) :
    Leads fresh step start (log ++ log') u := by
  induction h' with
  | refl =>
    rw [List.append_nil]
    exact h
  | forget _ hu ih => exact ih.forget hu
  | opened _ hs ih =>
    rw [← List.append_assoc]
    exact ih.opened hs
  | silent _ hs ih => exact ih.silent hs
  | did _ hs ih =>
    rw [← List.append_assoc]
    exact ih.did hs

/-- From an empty table, a row was opened and went on from there. -/
theorem Leads.path_of_mem {key : κ} {s : σ} (h : Leads fresh step 0 log t) (hs : (key, s) ∈ t) :
    .opened key ∈ log ∧ ∃ s₀ es, fresh s₀ ∧ Path step key s₀ es s := by
  induction h generalizing key s with
  | refl => exact absurd hs (Multiset.notMem_zero _)
  | forget _ hu ih => exact ih (Multiset.mem_of_le hu hs)
  | opened _ new ih =>
    rcases Multiset.mem_add.mp hs with here | there
    · obtain ⟨rfl, rfl⟩ := Prod.mk.inj (Multiset.mem_singleton.mp here)
      exact ⟨List.mem_append_right _ (List.mem_singleton_self _), s, [], new, .refl s⟩
    · obtain ⟨opened, path⟩ := ih there
      exact ⟨List.mem_append_left _ opened, path⟩
  | silent _ next ih =>
    rcases Multiset.mem_add.mp hs with here | there
    · obtain ⟨rfl, rfl⟩ := Prod.mk.inj (Multiset.mem_singleton.mp here)
      obtain ⟨opened, s₀, es, new, path⟩ :=
        ih (Multiset.mem_add.mpr (.inl (Multiset.mem_singleton_self _)))
      exact ⟨opened, s₀, es, new, path.silent next⟩
    · exact ih (Multiset.mem_add.mpr (.inr there))
  | did _ next ih =>
    rcases Multiset.mem_add.mp hs with here | there
    · obtain ⟨rfl, rfl⟩ := Prod.mk.inj (Multiset.mem_singleton.mp here)
      obtain ⟨opened, s₀, es, new, path⟩ :=
        ih (Multiset.mem_add.mpr (.inl (Multiset.mem_singleton_self _)))
      exact ⟨List.mem_append_left _ opened, s₀, _, new, path.did next⟩
    · obtain ⟨opened, path⟩ := ih (Multiset.mem_add.mpr (.inr there))
      exact ⟨List.mem_append_left _ opened, path⟩

/-- What is seen under a key, a row did that was opened before. -/
theorem Leads.path_of_did {key : κ} {e : ε} (h : Leads fresh step 0 log t)
    (he : .did key e ∈ log) :
    .opened key ∈ log ∧
      ∃ s₀ s es s', fresh s₀ ∧ Path step key s₀ es s ∧ step key s (some e) s' := by
  induction h with
  | refl => cases he
  | forget _ _ ih => exact ih he
  | opened _ _ ih =>
    rcases List.mem_append.mp he with before | now
    · obtain ⟨opened, row⟩ := ih before
      exact ⟨List.mem_append_left _ opened, row⟩
    · cases List.mem_singleton.mp now
  | silent _ _ ih => exact ih he
  | did run next ih =>
    rcases List.mem_append.mp he with before | now
    · obtain ⟨opened, row⟩ := ih before
      exact ⟨List.mem_append_left _ opened, row⟩
    · cases List.mem_singleton.mp now
      obtain ⟨opened, s₀, es, new, path⟩ :=
        run.path_of_mem (Multiset.mem_add.mpr (.inl (Multiset.mem_singleton_self _)))
      exact ⟨List.mem_append_left _ opened, s₀, _, es, _, new, path, next⟩

/-! ### One key -/

variable [DecidableEq κ]

/-- How often a key is opened. -/
def opens (key : κ) (log : List (Entry κ ε)) : Nat :=
  log.countP fun entry => match entry with
    | .opened key' => decide (key' = key)
    | .did _ _ => false

/-- What is seen under a key. -/
def history (key : κ) (log : List (Entry κ ε)) : List ε :=
  log.filterMap fun entry => match entry with
    | .opened _ => none
    | .did key' e => if key' = key then some e else none

@[simp] theorem opens_append (key : κ) (log log' : List (Entry κ ε)) :
    opens key (log ++ log') = opens key log + opens key log' := List.countP_append

@[simp] theorem history_append (key : κ) (log log' : List (Entry κ ε)) :
    history key (log ++ log') = history key log ++ history key log' := List.filterMap_append

/-- The rows under a key. -/
def rowsOf (key : κ) (t : Multiset (κ × σ)) : Nat := t.countP fun row => row.1 = key

private theorem rowsOf_add (key key' : κ) (s : σ) (t : Multiset (κ × σ)) :
    rowsOf key ({(key', s)} + t) = rowsOf key t + if key' = key then 1 else 0 := by
  rw [rowsOf, Multiset.singleton_add, Multiset.countP_cons, rowsOf]

private theorem not_mem_of_rowsOf {key : κ} {s : σ} (h : rowsOf key t = 0) : (key, s) ∉ t :=
  fun hm => Multiset.countP_eq_zero.mp h (key, s) hm rfl

/-- What holds of a key that is opened at most once: no more rows than openings, and each row has
done all that was seen. -/
private structure Tracks (fresh : σ → Prop) (step : κ → σ → Option ε → σ → Prop) (key : κ)
    (log : List (Entry κ ε)) (t : Multiset (κ × σ)) : Prop where
  rows : rowsOf key t ≤ opens key log
  row : ∀ s, (key, s) ∈ t → ∃ s₀, fresh s₀ ∧ Path step key s₀ (history key log) s
  seen : history key log = [] ∨ ∃ s₀ s, fresh s₀ ∧ Path step key s₀ (history key log) s
  unopened : opens key log = 0 → history key log = []

private theorem Tracks.of_leads {key : κ} (h : Leads fresh step 0 log t)
    (once : opens key log ≤ 1) : Tracks fresh step key log t := by
  induction h with
  | refl =>
    refine ⟨Nat.le_refl 0, fun s hs => ?_, .inl rfl, fun _ => rfl⟩
    exact absurd hs (Multiset.notMem_zero _)
  | forget _ hu ih =>
    have known := ih once
    exact ⟨le_trans (Multiset.countP_le_of_le _ hu) known.rows,
      fun s hs => known.row s (Multiset.mem_of_le hu hs), known.seen, known.unopened⟩
  | @opened log t key' s _ hs ih =>
    rw [opens_append] at once
    have known := ih (by omega)
    have same : history key (log ++ [.opened key']) = history key log := by
      rw [history_append]
      exact List.append_nil _
    by_cases this : key' = key
    · -- the key is new, so nothing stands under it and nothing was seen
      subst this
      have one : opens key' [(.opened key' : Entry κ ε)] = 1 := by simp [opens]
      rw [one] at once
      have none : opens key' log = 0 := by omega
      have empty : rowsOf key' t = 0 := by
        have := known.rows
        omega
      have silent := known.unopened none
      refine ⟨?_, ?_, ?_, ?_⟩
      · rw [rowsOf_add, if_pos rfl, empty, opens_append, one, none]
      · rintro s' hs'
        rw [same, silent]
        rcases Multiset.mem_add.mp hs' with here | there
        · obtain rfl : s' = s := congrArg Prod.snd (Multiset.mem_singleton.mp here)
          exact ⟨s', hs, .refl s'⟩
        · exact absurd there (not_mem_of_rowsOf empty)
      · exact .inl (same.trans silent)
      · intro h
        rw [opens_append, one] at h
        cases h
    · have zero : opens key [(.opened key' : Entry κ ε)] = 0 := by simp [opens, this]
      refine ⟨?_, ?_, ?_, ?_⟩
      · rw [rowsOf_add, if_neg this, opens_append, zero]
        exact known.rows
      · intro s' hs'
        rw [same]
        rcases Multiset.mem_add.mp hs' with here | there
        · exact absurd (congrArg Prod.fst (Multiset.mem_singleton.mp here)).symm this
        · exact known.row s' there
      · rw [same]
        exact known.seen
      · intro h
        rw [opens_append, zero] at h
        exact same.trans (known.unopened h)
  | @silent log t key' s s' _ hs ih =>
    have known := ih once
    refine ⟨?_, ?_, known.seen, known.unopened⟩
    · rw [rowsOf_add, ← rowsOf_add key key' s]
      exact known.rows
    · intro s'' hs''
      rcases Multiset.mem_add.mp hs'' with here | there
      · obtain ⟨rfl, rfl⟩ := Prod.mk.inj (Multiset.mem_singleton.mp here)
        obtain ⟨s₀, h₀, path⟩ := known.row s
          (Multiset.mem_add.mpr (.inl (Multiset.mem_singleton_self _)))
        exact ⟨s₀, h₀, path.silent hs⟩
      · exact known.row s'' (Multiset.mem_add.mpr (.inr there))
  | @did log t key' s s' e _ hs ih =>
    have same : opens key (log ++ [.did key' e]) = opens key log := by
      rw [opens_append]
      exact Nat.add_zero _
    rw [same] at once
    have known := ih once
    have rows : rowsOf key ({(key', s')} + t) ≤ opens key (log ++ [.did key' e]) := by
      rw [same, rowsOf_add, ← rowsOf_add key key' s]
      exact known.rows
    by_cases this : key' = key
    · subst this
      obtain ⟨s₀, h₀, path⟩ := known.row s
        (Multiset.mem_add.mpr (.inl (Multiset.mem_singleton_self _)))
      have longer : history key' (log ++ [.did key' e]) = history key' log ++ [e] := by
        rw [history_append]
        simp [history]
      have alone : rowsOf key' t = 0 := by
        have := known.rows
        rw [rowsOf_add, if_pos rfl] at this
        omega
      refine ⟨rows, ?_, ?_, ?_⟩
      · intro s'' hs''
        rw [longer]
        rcases Multiset.mem_add.mp hs'' with here | there
        · obtain rfl : s'' = s' := congrArg Prod.snd (Multiset.mem_singleton.mp here)
          exact ⟨s₀, h₀, path.did hs⟩
        · exact absurd there (not_mem_of_rowsOf alone)
      · rw [longer]
        exact .inr ⟨s₀, s', h₀, path.did hs⟩
      · intro h
        have := known.rows
        rw [rowsOf_add, if_pos rfl, ← same, h] at this
        cases this
    · have quiet : history key (log ++ [.did key' e]) = history key log := by
        rw [history_append]
        simp [history, this]
      refine ⟨rows, ?_, ?_, ?_⟩
      · intro s'' hs''
        rw [quiet]
        rcases Multiset.mem_add.mp hs'' with here | there
        · exact absurd (congrArg Prod.fst (Multiset.mem_singleton.mp here)).symm this
        · exact known.row s'' (Multiset.mem_add.mpr (.inr there))
      · rw [quiet]
        exact known.seen
      · intro h
        rw [same] at h
        exact quiet.trans (known.unopened h)

/-- From an empty table, what is seen under a key that is opened at most once is what one row
did. -/
theorem Leads.history {key : κ} (h : Leads fresh step 0 log t) (once : opens key log ≤ 1) :
    history key log = [] ∨ ∃ s₀ s, fresh s₀ ∧ Path step key s₀ (history key log) s :=
  (Tracks.of_leads h once).seen

end Table

/-! ### Keys renamed -/

section Rename

variable {κ' : Type*} (f : κ → κ')

/-- An entry under the renamed key. -/
def Entry.rename : Entry κ ε → Entry κ' ε
  | .opened key => .opened (f key)
  | .did key e => .did (f key) e

variable {fresh : σ → Prop} {step : κ → σ → Option ε → σ → Prop}
  {step' : κ' → σ → Option ε → σ → Prop} {start t : Multiset (κ × σ)}
  {log : List (Entry κ ε)}

theorem Leads.rename (hstep : ∀ key s o s', step key s o s' → step' (f key) s o s')
    (h : Leads fresh step start log t) :
    Leads fresh step' (start.map (Prod.map f id)) (log.map (Entry.rename f))
      (t.map (Prod.map f id)) := by
  induction h with
  | refl => exact .refl
  | forget _ hu ih => exact ih.forget (Multiset.map_le_map hu)
  | opened _ hs ih =>
    rw [List.map_append, Multiset.map_add]
    exact ih.opened hs
  | silent _ hs ih =>
    rw [Multiset.map_add] at ih ⊢
    exact ih.silent (hstep _ _ _ _ hs)
  | did _ hs ih =>
    rw [List.map_append, Multiset.map_add]
    rw [Multiset.map_add] at ih
    exact ih.did (hstep _ _ _ _ hs)

end Rename

end KeyedRows
