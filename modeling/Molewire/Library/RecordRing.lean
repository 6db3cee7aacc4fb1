/-
# A ring of records

Records of different lengths are appended to a memory, each in one piece. One
that no longer fits before the end goes to the start, and the records of the
lap before give way to it, oldest first. The log in place is then a suffix of
what was appended: the rest of the lap before, followed by this lap.

Records decode one after the other, so a log in place can be read back.
-/

import Mathlib.Data.List.Basic

namespace RecordRing

variable {α β : Type*}

/-! ### Records in memory -/

/-- The memory holds `bs` from `off` on. -/
def Holds (m : Nat → α) (off : Nat) (bs : List α) : Prop :=
  ∀ i (h : i < bs.length), m (off + i) = bs[i]

/-- `n` cells of the memory. -/
def cells (m : Nat → α) (off n : Nat) : List α := (List.range n).map fun i => m (off + i)

section Memory

variable {m m' : Nat → α} {off n : Nat} {a b : List α}

@[simp] theorem length_cells : (cells m off n).length = n := by simp [cells]

@[simp] theorem holds_nil : Holds m off [] := fun _ h => absurd h (Nat.not_lt_zero _)

theorem Holds.cells_eq (h : Holds m off a) : cells m off a.length = a := by
  apply List.ext_getElem (length_cells)
  intro i _ hi
  simp only [cells, List.getElem_map, List.getElem_range]
  exact h i hi

theorem holds_append : Holds m off (a ++ b) ↔ Holds m off a ∧ Holds m (off + a.length) b := by
  constructor
  · intro h
    refine ⟨fun i hi => ?_, fun i hi => ?_⟩
    · rw [h i (by rw [List.length_append]; omega), List.getElem_append_left hi]
    · rw [Nat.add_assoc, h (a.length + i) (by rw [List.length_append]; omega),
        List.getElem_append_right (Nat.le_add_right _ _)]
      simp only [Nat.add_sub_cancel_left]
  · rintro ⟨ha, hb⟩ i hi
    -- a cell of the first part, or one of the second
    by_cases hlt : i < a.length
    · rw [ha i hlt, List.getElem_append_left hlt]
    · rw [List.length_append] at hi
      have hcell := hb (i - a.length) (by omega)
      rw [show off + a.length + (i - a.length) = off + i by omega] at hcell
      rw [hcell, List.getElem_append_right (by omega)]

/-- What is written elsewhere leaves it there. -/
theorem Holds.congr (h : Holds m off a)
    (hm : ∀ i, off ≤ i → i < off + a.length → m' i = m i) : Holds m' off a := by
  intro i hi
  rw [hm (off + i) (Nat.le_add_right _ _) (by omega)]
  exact h i hi

end Memory

/-! ### Reading a log back -/

/-- Decode records to the end, and refuse what does not decode so. -/
def decodeAll (decode : List α → Option (β × List α)) : Nat → List α → Option (List β)
  | _, [] => some []
  | 0, _ :: _ => none
  | n + 1, c :: bs =>
    (decode (c :: bs)).bind fun found => (decodeAll decode n found.2).map (found.1 :: ·)

theorem decodeAll_flatMap {γ : Type*} {decode : List α → Option (γ × List α)} {encode : β → List α}
    {value : β → γ} {bs : List β} {n : Nat}
    (hdecode : ∀ b ∈ bs, ∀ rest, decode (encode b ++ rest) = some (value b, rest))
    (hsome : ∀ b ∈ bs, encode b ≠ []) (hn : bs.length ≤ n) :
    decodeAll decode n (bs.flatMap encode) = some (bs.map value) := by
  induction bs generalizing n with
  | nil => cases n <;> rfl
  | cons b bs ih =>
    rw [List.length_cons] at hn
    -- the fuel is at least the number of records
    obtain ⟨n, rfl⟩ : ∃ k, n = k + 1 := ⟨n - 1, by omega⟩
    have htail := ih (n := n) (fun b hb => hdecode b (List.mem_cons_of_mem _ hb))
      (fun b hb => hsome b (List.mem_cons_of_mem _ hb)) (by omega)
    obtain ⟨c, cs, hc⟩ := List.exists_cons_of_ne_nil (hsome b List.mem_cons_self)
    have hhead := hdecode b List.mem_cons_self (bs.flatMap encode)
    rw [hc, List.cons_append] at hhead
    rw [List.flatMap_cons, hc, List.cons_append, decodeAll, hhead, Option.bind_some]
    exact congrArg (Option.map (value b :: ·)) htail

/-- A log of records of `k` cells at least. -/
theorem length_le_flatMap (k : Nat) (encode : β → List α) (bs : List β)
    (h : ∀ b ∈ bs, k ≤ (encode b).length) : k * bs.length ≤ (bs.flatMap encode).length := by
  induction bs with
  | nil => simp
  | cons b bs ih =>
    have hb := h b List.mem_cons_self
    have hbs := ih fun b hb => h b (List.mem_cons_of_mem _ hb)
    rw [List.flatMap_cons, List.length_append, List.length_cons, Nat.mul_succ]
    omega

/-! ### The ring -/

/-- A memory with the offset of the next record, that of the oldest, and the end of the lap
before. -/
structure RingState (α : Type*) where
  mem : Nat → α
  head : Nat
  tail : Nat
  high : Nat
  lapped : Bool

/-- The log in place. -/
def RingState.log (r : RingState α) : List α :=
  if r.lapped then cells r.mem r.tail (r.high - r.tail) ++ cells r.mem 0 r.head
  else cells r.mem r.tail (r.head - r.tail)

/-- Start over. -/
def RingState.lap (r : RingState α) : RingState α :=
  { r with tail := 0, high := r.head, head := 0, lapped := true }

/-- The oldest record gives way. -/
def RingState.dropFirst (r : RingState α) (n : Nat) : RingState α := { r with tail := r.tail + n }

/-- Nothing is left of the lap before. -/
def RingState.unlap (r : RingState α) : RingState α :=
  { r with tail := 0, high := r.head, lapped := false }

section Ring

variable (cap recMax : Nat) (encode : β → List α)

/-- The log of this lap alone, which will end at `next`. If records were dropped before, it takes
most of the memory. -/
structure Linear (r : RingState α) (next : Nat) (dropped log : List β) : Prop where
  lapped : r.lapped = false
  tail : r.tail = 0
  head : r.head = (log.flatMap encode).length
  held : Holds r.mem 0 (log.flatMap encode)
  head_le : r.head ≤ cap
  high_le : r.high ≤ cap
  full : dropped ≠ [] → cap < next + 2 * recMax

/-- The rest `top` of the lap before, and `low` of this one, which will end at `next`. The gap
between them is less than a record, and so is what the lap before left at the end. -/
structure Lapped (r : RingState α) (next : Nat) (top low : List β) : Prop where
  lapped : r.lapped = true
  heldTop : Holds r.mem r.tail (top.flatMap encode)
  high : r.high = r.tail + (top.flatMap encode).length
  heldLow : Holds r.mem 0 (low.flatMap encode)
  head : r.head = (low.flatMap encode).length
  left : top ≠ []
  head_le : r.head ≤ r.tail
  high_le : r.high ≤ cap
  gap : r.tail < next + recMax
  full : cap < r.high + recMax

/-- The ring keeps the records `kept`, the last of all, after `dropped`. -/
inductive Keeps (r : RingState α) (next : Nat) (dropped : List β) : List β → Prop
  | linear {log : List β} (h : Linear cap recMax encode r next dropped log) :
    Keeps r next dropped log
  | lapped {top low : List β} (h : Lapped cap recMax encode r next top low) :
    Keeps r next dropped (top ++ low)

/-- There is room for `n` cells after the last record. -/
inductive Room (r : RingState α) (n : Nat) (dropped : List β) : List β → Prop
  | linear {log : List β} (h : Linear cap recMax encode r (r.head + n) dropped log)
      (hroom : r.head + n ≤ cap) : Room r n dropped log
  | lapped {top low : List β} (h : Lapped cap recMax encode r (r.head + n) top low)
      (hroom : r.head + n ≤ r.tail) : Room r n dropped (top ++ low)

variable {cap recMax encode} {r r' : RingState α} {next next' : Nat} {b : β}
  {dropped kept log top low : List β}

theorem Linear.mono (h : Linear cap recMax encode r next dropped log) (hle : next ≤ next') :
    Linear cap recMax encode r next' dropped log :=
  { h with full := fun hd => Nat.lt_of_lt_of_le (h.full hd) (by omega) }

theorem Lapped.mono (h : Lapped cap recMax encode r next top low) (hle : next ≤ next') :
    Lapped cap recMax encode r next' top low :=
  { h with gap := Nat.lt_of_lt_of_le h.gap (by omega) }

/-- The log in place is that of the records kept. -/
theorem Keeps.log_eq (h : Keeps cap recMax encode r next dropped kept) :
    r.log = kept.flatMap encode := by
  cases h with
  | linear h =>
    rw [RingState.log, h.lapped, if_neg Bool.false_ne_true, h.tail, Nat.sub_zero, h.head,
      h.held.cells_eq]
  | lapped h =>
    rw [RingState.log, h.lapped, if_pos rfl, h.high, Nat.add_sub_cancel_left, h.heldTop.cells_eq,
      h.head, h.heldLow.cells_eq, List.flatMap_append]

/-- Every offset is in the memory. -/
theorem Keeps.offset_le (h : Keeps cap recMax encode r next dropped kept) :
    r.head ≤ cap ∧ r.tail ≤ cap ∧ r.high ≤ cap := by
  cases h with
  | linear h => exact ⟨h.head_le, by rw [h.tail]; exact Nat.zero_le _, h.high_le⟩
  | lapped h =>
    have hhigh := h.high
    have hhead := h.head_le
    have hcap := h.high_le
    omega

/-- The oldest record is not behind the end of the log it starts. -/
theorem Keeps.tail_le (h : Keeps cap recMax encode r next dropped kept) :
    r.tail ≤ if r.lapped then r.high else r.head := by
  cases h with
  | linear h =>
    rw [h.lapped, h.tail]
    exact Nat.zero_le _
  | lapped h =>
    rw [h.lapped, if_pos rfl, h.high]
    exact Nat.le_add_right _ _

/-- Records were dropped only for want of room. -/
theorem Keeps.full (h : Keeps cap recMax encode r r.head dropped kept) (hd : dropped ≠ []) :
    cap < (kept.flatMap encode).length + 2 * recMax := by
  cases h with
  | linear h => exact h.head ▸ h.full hd
  | lapped h =>
    have hhigh := h.high
    have hhead := h.head
    -- the gap between the laps is less than a record, and so is what the lap before left over
    have hgap := h.gap
    have hfull := h.full
    rw [List.flatMap_append, List.length_append]
    omega

/-- If anything was ever kept or dropped, something still is. -/
theorem Keeps.ne_nil (h : Keeps cap recMax encode r r.head dropped kept) (hcap : 2 * recMax ≤ cap)
    (hsome : dropped ++ kept ≠ []) : kept ≠ [] := by
  intro hnil
  have hd : dropped ≠ [] := by
    rintro rfl
    exact hsome hnil
  have hfull := h.full hd
  rw [hnil, List.flatMap_nil, List.length_nil] at hfull
  omega

/-- Starting over drops what was left of the lap before. -/
theorem Keeps.lap (h : Keeps cap recMax encode r r.head dropped kept) (hcap : recMax ≤ cap)
    (hfull : cap < r.head + recMax) :
    ∃ dropped' kept', dropped ++ kept = dropped' ++ kept' ∧
      Lapped cap recMax encode r.lap 0 kept' [] := by
  -- this lap becomes the one before, whichever form the ring had
  have hlap : ∀ log : List β, r.head = (log.flatMap encode).length →
      Holds r.mem 0 (log.flatMap encode) → r.head ≤ cap →
        Lapped cap recMax encode r.lap 0 log [] := by
    intro log hhead hlog hle
    exact {
      lapped := rfl
      heldTop := hlog
      high := hhead.trans (Nat.zero_add _).symm
      heldLow := holds_nil
      head := rfl
      left := by
        rintro rfl
        rw [List.flatMap_nil, List.length_nil] at hhead
        omega
      head_le := Nat.le_refl 0
      high_le := hle
      gap := by
        change 0 < 0 + recMax
        omega
      full := hfull }
  cases h with
  | linear h => exact ⟨dropped, kept, rfl, hlap kept h.head h.held h.head_le⟩
  | @lapped top low h =>
    -- the rest of the lap before that is dropped
    refine ⟨dropped ++ top, low, (List.append_assoc _ _ _).symm, hlap low h.head h.heldLow ?_⟩
    have hkeeps : Keeps cap recMax encode r r.head dropped (top ++ low) := .lapped h
    exact hkeeps.offset_le.1

/-- The oldest record is the last of its lap just when it reaches to the end of that lap. -/
theorem Lapped.high_le_iff (h : Lapped cap recMax encode r next (b :: top) low)
    (hsome : ∀ b, encode b ≠ []) : r.high ≤ r.tail + (encode b).length ↔ top = [] := by
  have hhigh := h.high
  rw [List.flatMap_cons, List.length_append] at hhigh
  constructor
  · -- a further record takes at least one cell behind it
    intro hle
    by_contra htop
    obtain ⟨b', top', rfl⟩ := List.exists_cons_of_ne_nil htop
    have hpos := List.length_pos_of_ne_nil (hsome b')
    rw [List.flatMap_cons, List.length_append] at hhigh
    omega
  · rintro rfl
    rw [List.flatMap_nil, List.length_nil] at hhigh
    omega

/-- A record gives way that the next one would overwrite, and others follow. -/
theorem Lapped.dropFirst (h : Lapped cap recMax encode r next (b :: top) low)
    (hmax : (encode b).length ≤ recMax) (hover : r.tail < next) (htop : top ≠ []) :
    Lapped cap recMax encode (r.dropFirst (encode b).length) next top low := by
  have hheld := holds_append.mp (List.flatMap_cons ▸ h.heldTop)
  have hhigh := h.high
  have hhead := h.head_le
  rw [List.flatMap_cons, List.length_append] at hhigh
  exact {
    lapped := h.lapped
    heldTop := hheld.2
    high := by
      change r.high = r.tail + (encode b).length + _
      omega
    heldLow := h.heldLow
    head := h.head
    left := htop
    head_le := by
      change r.head ≤ r.tail + (encode b).length
      omega
    high_le := h.high_le
    gap := by
      change r.tail + (encode b).length < next + recMax
      omega
    full := h.full }

/-- The last record of the lap before gives way: it is over. -/
theorem Lapped.unlap (h : Lapped cap recMax encode r next [b] low)
    (hmax : (encode b).length ≤ recMax) (hover : r.tail < next) (dropped : List β) :
    Linear cap recMax encode r.unlap next dropped low := by
  have hkeeps : Keeps cap recMax encode r next dropped ([b] ++ low) := .lapped h
  have hoffset := hkeeps.offset_le
  have hhigh := h.high
  have hfull := h.full
  rw [List.flatMap_singleton] at hhigh
  exact {
    lapped := rfl
    tail := rfl
    head := h.head
    held := h.heldLow
    head_le := hoffset.1
    high_le := hoffset.1
    full := fun _ => by omega }

/-- The next record is written after the last one. -/
theorem Linear.append (h : Linear cap recMax encode r (r.head + (encode b).length) dropped log)
    (hroom : r.head + (encode b).length ≤ cap)
    (hmem : ∀ i, i < r.head → r'.mem i = r.mem i) (hrec : Holds r'.mem r.head (encode b))
    (hhead : r'.head = r.head + (encode b).length) (htail : r'.tail = r.tail)
    (hhigh : r'.high ≤ cap) (hlapped : r'.lapped = false) :
    Linear cap recMax encode r' r'.head dropped (log ++ [b]) where
  lapped := hlapped
  tail := htail.trans h.tail
  head := by rw [hhead, h.head, List.flatMap_append, List.length_append, List.flatMap_singleton]
  held := by
    rw [List.flatMap_append, List.flatMap_singleton, holds_append, Nat.zero_add, ← h.head]
    refine ⟨h.held.congr fun i _ hi => hmem i ?_, hrec⟩
    rw [h.head]
    omega
  head_le := hhead ▸ hroom
  high_le := hhigh
  full := hhead ▸ h.full

theorem Lapped.append (h : Lapped cap recMax encode r (r.head + (encode b).length) top low)
    (hroom : r.head + (encode b).length ≤ r.tail)
    (hmem : ∀ i, i < r.head ∨ r.head + (encode b).length ≤ i → r'.mem i = r.mem i)
    (hrec : Holds r'.mem r.head (encode b)) (hhead : r'.head = r.head + (encode b).length)
    (htail : r'.tail = r.tail) (hhigh : r'.high = r.high) (hlapped : r'.lapped = true) :
    Lapped cap recMax encode r' r'.head top (low ++ [b]) where
  lapped := hlapped
  heldTop := by
    rw [htail]
    exact h.heldTop.congr fun i hi _ => hmem i (.inr (Nat.le_trans hroom hi))
  high := by rw [hhigh, htail, h.high]
  heldLow := by
    rw [List.flatMap_append, List.flatMap_singleton, holds_append, Nat.zero_add, ← h.head]
    refine ⟨h.heldLow.congr fun i _ hi => hmem i (.inl ?_), hrec⟩
    rw [h.head]
    omega
  head := by rw [hhead, h.head, List.flatMap_append, List.length_append, List.flatMap_singleton]
  left := h.left
  head_le := by rw [hhead, htail]; exact hroom
  high_le := hhigh ▸ h.high_le
  gap := by rw [hhead, htail]; exact h.gap
  full := hhigh ▸ h.full

theorem Room.offset_le {n : Nat} (h : Room cap recMax encode r n dropped kept) :
    r.head + n ≤ cap ∧ r.high ≤ cap := by
  cases h with
  | linear h hroom => exact ⟨hroom, h.high_le⟩
  | @lapped top low h hroom =>
    have hkeeps : Keeps cap recMax encode r (r.head + n) dropped (top ++ low) := .lapped h
    have hoffset := hkeeps.offset_le
    exact ⟨Nat.le_trans hroom hoffset.2.1, hoffset.2.2⟩

theorem Room.append (h : Room cap recMax encode r (encode b).length dropped kept)
    (hmem : ∀ i, i < r.head ∨ r.head + (encode b).length ≤ i → r'.mem i = r.mem i)
    (hrec : Holds r'.mem r.head (encode b)) (hhead : r'.head = r.head + (encode b).length)
    (htail : r'.tail = r.tail) (hlapped : r'.lapped = r.lapped)
    (hhigh : r.lapped = true → r'.high = r.high) (hle : r'.high ≤ cap) :
    Keeps cap recMax encode r' r'.head dropped (kept ++ [b]) := by
  cases h with
  | linear h hroom =>
    exact .linear (h.append hroom (fun i hi => hmem i (.inl hi)) hrec hhead htail hle
      (hlapped.trans h.lapped))
  | lapped h hroom =>
    rw [List.append_assoc]
    exact .lapped (h.append hroom hmem hrec hhead htail (hhigh h.lapped)
      (hlapped.trans h.lapped))

end Ring

end RecordRing
