/-
# Telnet streams

Data bytes between commands. A data byte of the value IAC is sent twice, a
command is an IAC with a code behind it, an option is negotiated with a verb
and its number, and a subnegotiation encloses a payload in which an IAC is sent
twice as well. A reader either parses a stream strictly, into what it consists
of, or only keeps the data apart from the rest.
-/

import Mathlib.Data.List.Basic
import Mathlib.Tactic.Common

namespace Telnet

/-! ### Streams -/

/-- Interpret as command. -/
abbrev iac : UInt8 := 255

/-- Subnegotiation begin. -/
abbrev sb : UInt8 := 250

/-- Subnegotiation end. -/
abbrev se : UInt8 := 240

/-- The first and the last of the verbs, `WILL`, `WONT`, `DO` and `DONT`. -/
abbrev will : UInt8 := 251

abbrev dont : UInt8 := 254

/-- What a stream consists of. -/
inductive Item
  | data (b : UInt8)
  | command (code : UInt8)
  | negotiation (verb option : UInt8)
  | sub (payload : List UInt8)
  deriving DecidableEq, Repr

/-- An IAC is sent twice. -/
def escape (bs : List UInt8) : List UInt8 := bs.flatMap fun b => if b = iac then [iac, iac] else [b]

/-- An item as it is sent. -/
def Item.render : Item → List UInt8
  | .data b => escape [b]
  | .command code => [iac, code]
  | .negotiation verb option => [iac, verb, option]
  | .sub payload => [iac, sb] ++ escape payload ++ [iac, se]

/-- The code of a command is no verb and begins no subnegotiation. -/
def Item.Proper : Item → Prop
  | .command code => code < sb
  | .negotiation verb _ => will ≤ verb ∧ verb ≤ dont
  | _ => True

/-- Some items one after the other. -/
def stream (items : List Item) : List UInt8 := items.flatMap Item.render

/-- The data of a stream. -/
def dataOf (items : List Item) : List UInt8 :=
  items.filterMap fun | .data b => some b | _ => none

/-- The payloads of its subnegotiations. -/
def subsOf (items : List Item) : List (List UInt8) :=
  items.filterMap fun | .sub payload => some payload | _ => none

/-! ### A strict reader -/

/-- Where a reader is in a stream. -/
inductive State
  | data
  | iac
  | negotiation (verb : UInt8)
  | sub (got : List UInt8)
  | subIac (got : List UInt8)
  deriving DecidableEq, Repr

/-- One byte: the state behind it and what it completes. -/
def step : State → UInt8 → Option (State × Option Item)
  | .data, b => if b = iac then some (.iac, none) else some (.data, some (.data b))
  | .iac, b =>
    if b = iac then some (.data, some (.data b))
    else if b = sb then some (.sub [], none)
    else if will ≤ b then some (.negotiation b, none)
    else some (.data, some (.command b))
  | .negotiation verb, b => some (.data, some (.negotiation verb b))
  | .sub got, b => if b = iac then some (.subIac got, none) else some (.sub (got ++ [b]), none)
  | .subIac got, b =>
    if b = iac then some (.sub (got ++ [b]), none)
    else if b = se then some (.data, some (.sub got))
    else none

/-- Some bytes. -/
def run : State → List UInt8 → Option (State × List Item)
  | s, [] => some (s, [])
  | s, b :: bs =>
    match step s b with
    | none => none
    | some (s', item) => (run s' bs).map fun r => (r.1, item.toList ++ r.2)

/-- A whole stream, which ends between two items. -/
def parse (bs : List UInt8) : Option (List Item) :=
  match run .data bs with
  | some (.data, items) => some items
  | _ => none

theorem run_cons {s s' : State} {item : Option Item} {b : UInt8} (bs : List UInt8)
    (h : step s b = some (s', item)) :
    run s (b :: bs) = (run s' bs).map fun r => (r.1, item.toList ++ r.2) := by
  rw [run, h]

theorem run_append {s s' : State} {items : List Item} {bs : List UInt8}
    (h : run s bs = some (s', items)) (cs : List UInt8) :
    run s (bs ++ cs) = (run s' cs).map fun r => (r.1, items ++ r.2) := by
  induction bs generalizing s items with
  | nil =>
    obtain ⟨rfl, rfl⟩ := Prod.mk.inj (Option.some.inj h)
    rw [List.nil_append, show (fun r : State × List Item => (r.1, [] ++ r.2)) = id from rfl,
      Option.map_id_fun, id]
  | cons b bs ih =>
    cases hstep : step s b with
    | none => simp [run, hstep] at h
    | some r =>
      obtain ⟨s₁, item⟩ := r
      rw [run_cons bs hstep] at h
      obtain ⟨⟨s₂, items₂⟩, hrun, heq⟩ := Option.map_eq_some_iff.mp h
      obtain ⟨rfl, rfl⟩ := Prod.mk.inj heq
      rw [List.cons_append, run_cons _ hstep, ih hrun, Option.map_map]
      simp [Function.comp_def]

/-- A payload is read as it was. -/
theorem run_escape (got payload : List UInt8) :
    run (.sub got) (escape payload) = some (.sub (got ++ payload), []) := by
  induction payload generalizing got with
  | nil => simp [escape, run]
  | cons b payload ih =>
    have hrest := ih (got ++ [b])
    rw [List.append_assoc, List.singleton_append] at hrest
    by_cases hb : b = iac
    · subst hb
      have hfirst : step (.sub got) iac = some (.subIac got, none) := rfl
      have hsecond : step (.subIac got) iac = some (.sub (got ++ [iac]), none) := rfl
      rw [show escape (iac :: payload) = iac :: iac :: escape payload from rfl,
        run_cons _ hfirst, run_cons _ hsecond, hrest]
      rfl
    · have hstep : step (.sub got) b = some (.sub (got ++ [b]), none) := if_neg hb
      rw [show escape (b :: payload) = b :: escape payload by simp [escape, hb],
        run_cons _ hstep, hrest]
      rfl

/-- The code of a proper command is read as one. -/
theorem Item.Proper.command {code : UInt8} (h : (Item.command code).Proper) :
    code ≠ iac ∧ code ≠ sb ∧ ¬will ≤ code := by
  have hcode : code < 250 := h
  refine ⟨?_, ?_, fun hle => absurd (UInt8.lt_of_le_of_lt hle hcode) (by decide)⟩
  · rintro rfl
    exact absurd hcode (by decide)
  · rintro rfl
    exact absurd hcode (by decide)

/-- And so is a verb. -/
theorem Item.Proper.negotiation {verb option : UInt8} (h : (Item.negotiation verb option).Proper) :
    verb ≠ iac ∧ verb ≠ sb ∧ will ≤ verb ∧ verb ≤ dont := by
  obtain ⟨hwill, hdont⟩ := h
  refine ⟨?_, ?_, hwill, hdont⟩
  · rintro rfl
    exact absurd hdont (by decide)
  · rintro rfl
    exact absurd hwill (by decide)

/-- A proper item is read as it is. -/
theorem run_render {item : Item} (h : item.Proper) :
    run .data item.render = some (.data, [item]) := by
  cases item with
  | data b => by_cases hb : b = iac <;> simp [Item.render, escape, run, step, hb]
  | command code =>
    obtain ⟨hiac, hsb, hwill⟩ := h.command
    simp [Item.render, run, step, hiac, hsb, hwill]
  | negotiation verb option =>
    obtain ⟨hiac, hsb, hwill, -⟩ := h.negotiation
    simp [Item.render, run, step, hiac, hsb, hwill]
  | sub payload =>
    have hend : run (.sub payload) [iac, se] = some (.data, [.sub payload]) := rfl
    have hpayload := run_append (run_escape [] payload) [iac, se]
    rw [List.nil_append, hend] at hpayload
    have hstart : run .data [iac, sb] = some (.sub [], []) := rfl
    rw [Item.render, List.append_assoc, run_append hstart, hpayload]
    rfl

theorem run_stream {items : List Item} (h : ∀ item ∈ items, item.Proper) :
    run .data (stream items) = some (.data, items) := by
  induction items with
  | nil => rfl
  | cons item items ih =>
    have hrest := ih fun x hx => h x (List.mem_cons_of_mem _ hx)
    rw [stream, List.flatMap_cons, run_append (run_render (h item List.mem_cons_self)), ← stream,
      hrest]
    rfl

/-- A stream of proper items is parsed into them. -/
theorem parse_stream {items : List Item} (h : ∀ item ∈ items, item.Proper) :
    parse (stream items) = some items := by
  rw [parse, run_stream h]

/-! ### A lenient reader -/

/-- Where a reader is that looks for data only. -/
inductive Phase
  | data
  | iac
  | verb
  | sub
  | subIac
  deriving DecidableEq, Repr

/-- The phase behind a byte. Whatever follows an IAC in a subnegotiation, but another, ends it. -/
def Phase.next : Phase → UInt8 → Phase
  | .data, b => if b = Telnet.iac then .iac else .data
  | .iac, b =>
    if b = Telnet.iac then .data
    else if b = Telnet.sb then .sub
    else if will ≤ b ∧ b ≤ dont then .verb
    else .data
  | .verb, _ => .data
  | .sub, b => if b = Telnet.iac then .subIac else .sub
  | .subIac, b => if b = Telnet.iac then .sub else .data

/-- The byte is data. -/
def Phase.isData : Phase → UInt8 → Bool
  | .data, b => b ≠ Telnet.iac
  | .iac, b => b = Telnet.iac
  | _, _ => false

/-- The phase behind some bytes. -/
def Phase.after (p : Phase) (bs : List UInt8) : Phase := bs.foldl Phase.next p

/-- The data among some bytes. -/
def Phase.keep : Phase → List UInt8 → List UInt8
  | _, [] => []
  | p, b :: bs => if p.isData b then b :: (p.next b).keep bs else (p.next b).keep bs

/-- What a subnegotiation has behind a byte. -/
def Phase.hold : Phase → List UInt8 → UInt8 → List UInt8
  | .iac, got, b => if b = Telnet.sb then [] else got
  | .sub, got, b => if b = Telnet.iac then got else got ++ [b]
  | .subIac, got, b => if b = Telnet.iac then got ++ [b] else got
  | _, got, _ => got

/-- What one has behind some bytes. -/
def Phase.held : Phase → List UInt8 → List UInt8 → List UInt8
  | _, got, [] => got
  | p, got, b :: bs => (p.next b).held (p.hold got b) bs

/-- The byte ends a subnegotiation. -/
def Phase.ends : Phase → UInt8 → Bool
  | .subIac, b => b ≠ Telnet.iac
  | _, _ => false

/-- The subnegotiations that end among some bytes. -/
def Phase.bodies : Phase → List UInt8 → List UInt8 → List (List UInt8)
  | _, _, [] => []
  | p, got, b :: bs =>
    (if p.ends b then [got] else []) ++ (p.next b).bodies (p.hold got b) bs

theorem Phase.bodies_append (p : Phase) (got bs cs : List UInt8) :
    p.bodies got (bs ++ cs) = p.bodies got bs ++ (p.after bs).bodies (p.held got bs) cs := by
  induction bs generalizing p got with
  | nil => rfl
  | cons b bs ih =>
    rw [List.cons_append, Phase.bodies, Phase.bodies, ih, List.append_assoc]
    rfl

theorem Phase.held_append (p : Phase) (got bs cs : List UInt8) :
    p.held got (bs ++ cs) = (p.after bs).held (p.held got bs) cs := by
  induction bs generalizing p got with
  | nil => rfl
  | cons b bs ih => exact ih (p.next b) (p.hold got b)

theorem Phase.keep_append (p : Phase) (bs cs : List UInt8) :
    p.keep (bs ++ cs) = p.keep bs ++ (p.after bs).keep cs := by
  induction bs generalizing p with
  | nil => rfl
  | cons b bs ih =>
    simp only [List.cons_append, Phase.keep, ih, Phase.after, List.foldl_cons]
    split_ifs <;> rfl

theorem Phase.after_append (p : Phase) (bs cs : List UInt8) :
    p.after (bs ++ cs) = (p.after bs).after cs := List.foldl_append

theorem Phase.keep_singleton (p : Phase) (b : UInt8) :
    p.keep [b] = if p.isData b then [b] else [] := rfl

theorem Phase.next_of_isData {p : Phase} {b : UInt8} (h : p.isData b = true) :
    p.next b = .data := by
  cases p with
  | data => exact if_neg (by simpa [Phase.isData] using h)
  | iac => exact if_pos (by simpa [Phase.isData] using h)
  | verb => cases h
  | sub => cases h
  | subIac => cases h

/-- A subnegotiation holds no data. -/
theorem Phase.sub_escape (payload : List UInt8) :
    Phase.sub.keep (escape payload) = [] ∧ Phase.sub.after (escape payload) = .sub := by
  induction payload with
  | nil => exact ⟨rfl, rfl⟩
  | cons b payload ih =>
    by_cases hb : b = Telnet.iac
    · subst hb
      simpa [escape, Phase.keep, Phase.after, Phase.isData, Phase.next] using ih
    · simpa [escape, Phase.keep, Phase.after, Phase.isData, Phase.next, hb] using ih

theorem Phase.keep_render {item : Item} (h : item.Proper) :
    Phase.data.keep item.render = dataOf [item] ∧ Phase.data.after item.render = .data := by
  cases item with
  | data b =>
    by_cases hb : b = Telnet.iac <;>
      simp [Item.render, escape, Phase.keep, Phase.after, Phase.isData, Phase.next, dataOf, hb]
  | command code =>
    obtain ⟨hiac, hsb, hwill⟩ := h.command
    simp [Item.render, Phase.keep, Phase.after, Phase.isData, Phase.next, dataOf, hiac, hsb, hwill]
  | negotiation verb option =>
    obtain ⟨hiac, hsb, hwill, hdont⟩ := h.negotiation
    simp [Item.render, Phase.keep, Phase.after, Phase.isData, Phase.next, dataOf, hiac, hsb, hwill,
      hdont]
  | sub payload =>
    obtain ⟨hkeep, hafter⟩ := Phase.sub_escape payload
    rw [Item.render, Phase.keep_append, Phase.keep_append, Phase.after_append, Phase.after_append]
    have hstart : Phase.data.after [Telnet.iac, sb] = .sub := by decide
    rw [Phase.after_append, hstart, hkeep, hafter]
    exact ⟨rfl, rfl⟩

/-- What is kept of a stream is its data. -/
theorem Phase.keep_stream {items : List Item} (h : ∀ item ∈ items, item.Proper) :
    Phase.data.keep (stream items) = dataOf items := by
  induction items with
  | nil => rfl
  | cons item items ih =>
    obtain ⟨hkeep, hafter⟩ := Phase.keep_render (h item List.mem_cons_self)
    rw [stream, List.flatMap_cons, Phase.keep_append, hkeep, hafter, ← stream,
      ih fun x hx => h x (List.mem_cons_of_mem _ hx), dataOf, dataOf, dataOf,
      ← List.filterMap_append, List.singleton_append]

end Telnet
