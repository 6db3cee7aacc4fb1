/-
# The to-host queue

Frames for the host are put into a ring wherever the stack routes them from,
the background context included, and taken out by the main loop alone. The main
loop drains the ring statement by statement, and a frame may be put in between
any two of its statements; only within a guarded section nothing comes between.

A run remembers the frames that were accepted, those handed to the USB stack and
those whose reference was dropped after, and the references that others hold.
-/

import Mathlib.Data.List.Count
import Molewire.Library.CircularQueue
import Molewire.Library.Transition

namespace Molewire

open CircularQueue Transition

/-! ### The ring -/

/-- A packet buffer, by its identity. -/
abbrev PbufPtr := Nat

/-- `USB_TX_QUEUE_LEN`. -/
def usbTxQueueLen : Nat := 32

/-- The statics of the queue, and how often each packet buffer is referenced. -/
structure UsbTx where
  queue : Nat → Option PbufPtr := fun _ => none
  head : Nat := 0
  tail : Nat := 0
  refs : PbufPtr → Nat := fun _ => 0
  cntToHost : UInt32 := 0
  cntTxdrop : UInt32 := 0
  cntRingMax : UInt32 := 0
  cntRingRecent : UInt32 := 0

/-- What `usb_linkoutput` returns: `ERR_OK`, `ERR_IF` or `ERR_MEM`. -/
inductive LinkErr | ok | iface | mem
  deriving DecidableEq, Repr

def pbufRef (u : UsbTx) (p : PbufPtr) : UsbTx :=
  { u with refs := Function.update u.refs p (u.refs p + 1) }

def pbufFree (u : UsbTx) : Option PbufPtr → UsbTx
  | none => u
  | some p => { u with refs := Function.update u.refs p (u.refs p - 1) }

/-- `usb_tx_push`, which runs with interrupts disabled. -/
def usbTxPush (u : UsbTx) (q : PbufPtr) : Bool × UsbTx :=
  let next := (u.head + 1) % usbTxQueueLen
  if next ≠ u.tail then
    let depth := UInt32.ofNat ((next + usbTxQueueLen - u.tail) % usbTxQueueLen)
    (true, { u with
      queue := Function.update u.queue u.head (some q)
      head := next
      cntRingMax := if u.cntRingMax < depth then depth else u.cntRingMax
      cntRingRecent := if u.cntRingRecent < depth then depth else u.cntRingRecent })
  else (false, u)

/-- `usb_linkoutput`. The ring holds a reference until the frame is drained. -/
def usbLinkoutput (u : UsbTx) (tudReady : Bool) (p : PbufPtr) : LinkErr × UsbTx :=
  if !tudReady then (.iface, { u with cntTxdrop := u.cntTxdrop + 1 })
  else
    let (ok, u) := usbTxPush (pbufRef u p) p
    if ok then (.ok, u)
    else
      let u := pbufFree u (some p)
      (.mem, { u with cntTxdrop := u.cntTxdrop + 1 })

/-- `usb_net_ring_recent_reset`. -/
def usbNetRingRecentReset (u : UsbTx) : UInt32 × UsbTx :=
  (u.cntRingRecent, { u with cntRingRecent := 0 })

/-! ### The drain, statement by statement -/

/-- Where the main loop is in `usb_tx_drain`, with the frame it has read. -/
inductive DrainPc
  /-- Elsewhere in the main loop. -/
  | idle
  /-- At the condition of the loop. -/
  | test
  /-- Before the slot is read. -/
  | load
  /-- Before the USB stack is asked whether it takes the frame. -/
  | check (q : Option PbufPtr)
  /-- Before the frame is handed over. -/
  | xmit (q : Option PbufPtr)
  /-- Before the tail moves on. -/
  | advance (q : Option PbufPtr)
  /-- Before the reference is dropped. -/
  | release (q : Option PbufPtr)
  deriving DecidableEq, Repr

/-- The frame in the slot at the tail that is being transmitted. -/
def DrainPc.transmits : DrainPc → Option (Option PbufPtr)
  | .check q | .xmit q | .advance q => some q
  | _ => none

/-- What of the ring is still to be handed over. -/
def DrainPc.unsent {α : Type} (pc : DrainPc) (ring : List α) : List α :=
  match pc with
  | .advance _ => ring.tail
  | _ => ring

/-- The frame that was handed over and is still referenced. -/
def DrainPc.unreleased : DrainPc → List (Option PbufPtr)
  | .advance q | .release q => [q]
  | _ => []

/-! ### Runs -/

/-- The queue and the drain with what an observer remembers. -/
structure UsbTxRun where
  tx : UsbTx := {}
  pc : DrainPc := .idle
  /-- Frames `usb_linkoutput` returned `ERR_OK` for. -/
  accepted : List PbufPtr := []
  /-- Frames handed to `tud_network_xmit`. -/
  sent : List (Option PbufPtr) := []
  /-- Frames whose reference the drain has dropped. -/
  released : List (Option PbufPtr) := []
  /-- References that others hold. -/
  ext : PbufPtr → Nat := fun _ => 0

inductive UsbTxOp
  /-- `usb_linkoutput`, in whatever context, with what `tud_ready` answers. -/
  | linkoutput (tudReady : Bool) (p : PbufPtr)
  /-- The next statement of the drain, with what the USB stack answers if it is asked. -/
  | drain (tudReady canXmit : Bool)
  | ringRecentReset
  /-- Somebody else takes a reference, or drops one of theirs. -/
  | hold (p : PbufPtr)
  | unhold (p : PbufPtr)
  deriving DecidableEq, Repr

namespace UsbTxRun

/-- One statement of `usb_tx_drain`. -/
def stepDrain (r : UsbTxRun) (tudReady canXmit : Bool) : UsbTxRun :=
  match r.pc with
  | .idle => { r with pc := .test }
  | .test => { r with pc := if r.tx.tail ≠ r.tx.head then .load else .idle }
  | .load => { r with pc := .check (r.tx.queue r.tx.tail) }
  | .check q => { r with pc := if !tudReady || !canXmit then .idle else .xmit q }
  | .xmit q =>
    { r with
      tx := { r.tx with cntToHost := r.tx.cntToHost + 1 }
      sent := r.sent ++ [q]
      pc := .advance q }
  | .advance q =>
    { r with tx := { r.tx with tail := (r.tx.tail + 1) % usbTxQueueLen }, pc := .release q }
  | .release q => { r with tx := pbufFree r.tx q, released := r.released ++ [q], pc := .test }

def step (r : UsbTxRun) : UsbTxOp → UsbTxRun
  | .linkoutput tudReady p =>
    { r with
      tx := (usbLinkoutput r.tx tudReady p).2
      accepted := if (usbLinkoutput r.tx tudReady p).1 = .ok then r.accepted ++ [p]
        else r.accepted }
  | .drain tudReady canXmit => r.stepDrain tudReady canXmit
  | .ringRecentReset => { r with tx := (usbNetRingRecentReset r.tx).2 }
  | .hold p =>
    { r with tx := pbufRef r.tx p, ext := Function.update r.ext p (r.ext p + 1) }
  | .unhold p =>
    { r with tx := pbufFree r.tx (some p), ext := Function.update r.ext p (r.ext p - 1) }

/-- Others drop only references they hold. -/
def admits (r : UsbTxRun) : UsbTxOp → Prop
  | .unhold p => 0 < r.ext p
  | _ => True

/-- The runs from power-up. -/
def Reachable (r : UsbTxRun) : Prop := Reach (· = {}) admits step r

/-! ### The invariant -/

/-- What every run keeps, with the frames in the ring. -/
structure Inv (r : UsbTxRun) (queued : List PbufPtr) : Prop where
  ring : Holds usbTxQueueLen r.tx.queue r.tx.head r.tx.tail (queued.map some)
  order : r.accepted.map some = r.sent ++ r.pc.unsent (queued.map some)
  sent_eq : r.sent = r.released ++ r.pc.unreleased
  first : ∀ q, r.pc.transmits = some q → (queued.map some).head? = some q
  loads : r.pc = .load → queued ≠ []
  refs : ∀ p, r.tx.refs p + r.released.count (some p) = r.ext p + r.accepted.count p

end UsbTxRun

/-! ### One call of the producer -/

/-- What a call returns, and what it does to the ring: it puts the frame at the head, or nothing
but the drop counter changes. -/
theorem usbLinkoutput_cases (u : UsbTx) (tudReady : Bool) (p : PbufPtr) :
    (tudReady = true ∧ (u.head + 1) % usbTxQueueLen ≠ u.tail ∧
      (usbLinkoutput u tudReady p).1 = .ok ∧
      (usbLinkoutput u tudReady p).2.queue = Function.update u.queue u.head (some p) ∧
      (usbLinkoutput u tudReady p).2.head = (u.head + 1) % usbTxQueueLen ∧
      (usbLinkoutput u tudReady p).2.tail = u.tail ∧
      (usbLinkoutput u tudReady p).2.refs = Function.update u.refs p (u.refs p + 1)) ∨
    ((tudReady = false ∨ (u.head + 1) % usbTxQueueLen = u.tail) ∧
      (usbLinkoutput u tudReady p).1 ≠ .ok ∧
      (usbLinkoutput u tudReady p).2 = { u with cntTxdrop := u.cntTxdrop + 1 }) := by
  unfold usbLinkoutput usbTxPush
  cases tudReady with
  | false => exact .inr ⟨.inl rfl, by simp⟩
  | true =>
    by_cases hfull : (u.head + 1) % usbTxQueueLen = u.tail
    · -- the reference taken for the ring is dropped again
      have hrefs : Function.update (Function.update u.refs p (u.refs p + 1)) p (u.refs p) =
          u.refs := by
        rw [Function.update_idem, Function.update_eq_self]
      exact .inr ⟨.inr hfull, by simp [pbufRef, pbufFree, hfull, hrefs]⟩
    · exact .inl ⟨rfl, hfull, by simp [pbufRef, hfull]⟩

namespace UsbTxRun

/-! ### Steps -/

theorem count_update_self (f : PbufPtr → Nat) (p x : PbufPtr) :
    Function.update f p (f p + 1) x = f x + [p].count x := by
  rcases eq_or_ne x p with rfl | hne
  · rw [Function.update_self, List.count_singleton_self]
  · rw [Function.update_of_ne hne, List.count_eq_zero_of_not_mem (by simpa using hne)]
    rfl

/-- A frame that the ring or the drain has is referenced. -/
theorem Inv.refs_pos {r : UsbTxRun} {queued : List PbufPtr} (h : r.Inv queued) {p : PbufPtr}
    (hp : some p ∈ r.pc.unreleased) : 0 < r.tx.refs p := by
  have hrefs := h.refs p
  have hsent : r.released.count (some p) + 1 ≤ r.sent.count (some p) := by
    rw [h.sent_eq, List.count_append]
    have hone := List.count_pos_iff.mpr hp
    omega
  have haccepted : r.sent.count (some p) ≤ r.accepted.count p := by
    rw [← List.count_map_of_injective r.accepted some (Option.some_injective _), h.order,
      List.count_append]
    exact Nat.le_add_right _ _
  omega

theorem Inv.linkoutput {r : UsbTxRun} {queued : List PbufPtr} (h : r.Inv queued) (tudReady : Bool)
    (p : PbufPtr) : ∃ queued', (r.step (.linkoutput tudReady p)).Inv queued' := by
  obtain ⟨-, hroom, hok, hqueue, hhead, htail, hrefs⟩ | ⟨-, hok, htx⟩ :=
    usbLinkoutput_cases r.tx tudReady p
  · refine ⟨queued ++ [p], ?_⟩
    have hring := h.ring.push (some p) hroom
    have hmap : (queued ++ [p]).map some = queued.map some ++ [some p] := List.map_append
    -- while the drain has a frame of the ring, there is one in front of the new one
    have hunsent : r.pc.unsent (queued.map some ++ [some p]) =
        r.pc.unsent (queued.map some) ++ [some p] := by
      cases hpc : r.pc with
      | advance q =>
        have hfirst := h.first q (by rw [hpc]; rfl)
        obtain ⟨rest, hrest⟩ := List.head?_eq_some_iff.mp hfirst
        rw [hrest]
        rfl
      | _ => rfl
    simp only [step, if_pos hok]
    refine ⟨?_, ?_, h.sent_eq, fun q hq => ?_, fun _ => by simp, fun x => ?_⟩
    · dsimp only
      rw [hqueue, hhead, htail, hmap]
      exact hring
    · rw [hmap, hunsent, List.map_append, h.order, List.append_assoc]
      rfl
    · rw [hmap, List.head?_append, h.first q hq]
      rfl
    · dsimp only
      rw [hrefs, count_update_self, List.count_append]
      have := h.refs x
      omega
  · refine ⟨queued, ?_⟩
    simp only [step, if_neg hok, htx]
    exact { h with }

/-- A statement of the drain takes out what was handed over, once the tail moves on. -/
theorem Inv.drain {r : UsbTxRun} {queued : List PbufPtr} (h : r.Inv queued)
    (tudReady canXmit : Bool) : (r.stepDrain tudReady canXmit).Inv (r.pc.unsent queued) := by
  obtain ⟨ring, order, sent_eq, first, loads, refs⟩ := h
  cases hpc : r.pc with
  | idle =>
    simp only [hpc, stepDrain] at *
    exact ⟨ring, order, sent_eq, by simp [DrainPc.transmits], by simp, refs⟩
  | test =>
    simp only [hpc, stepDrain] at *
    refine ⟨ring, ?_, ?_, ?_, ?_, refs⟩
    · split_ifs <;> exact order
    · split_ifs <;> exact sent_eq
    · split_ifs <;> simp [DrainPc.transmits]
    · intro hload hnil
      have hnil : queued = [] := hnil
      have hempty := ring.tail_eq_head.mpr (by rw [hnil]; rfl)
      simp [hempty] at hload
  | load =>
    simp only [hpc, stepDrain] at *
    refine ⟨ring, order, sent_eq, ?_, by simp, refs⟩
    rintro q hq
    obtain rfl : r.tx.queue r.tx.tail = q := Option.some.inj hq
    obtain ⟨p, rest, rfl⟩ := List.exists_cons_of_ne_nil (loads trivial)
    rw [ring.front]
    rfl
  | check q =>
    simp only [hpc, stepDrain] at *
    refine ⟨ring, ?_, ?_, ?_, ?_, refs⟩
    · split_ifs <;> exact order
    · split_ifs <;> exact sent_eq
    · split_ifs
      · simp [DrainPc.transmits]
      · exact first
    · split_ifs <;> simp
  | xmit q =>
    simp only [hpc, stepDrain] at *
    obtain ⟨rest, hrest⟩ := List.head?_eq_some_iff.mp (first q rfl)
    refine ⟨ring, ?_, ?_, first, by simp, refs⟩
    · change _ = (r.sent ++ [q]) ++ (queued.map some).tail
      rw [order, hrest, List.append_assoc]
      rfl
    · rw [sent_eq]
      simp [DrainPc.unreleased]
  | advance q =>
    simp only [hpc, stepDrain] at *
    obtain ⟨rest, hrest⟩ := List.head?_eq_some_iff.mp (first q rfl)
    obtain ⟨p, queued', rfl, -, rfl⟩ := List.map_eq_cons_iff.mp hrest
    exact ⟨ring.pop, order, sent_eq, by simp [DrainPc.transmits], by simp, refs⟩
  | release q =>
    have hpos : ∀ p, q = some p → 0 < r.tx.refs p := fun p hp =>
      Inv.refs_pos ⟨ring, order, sent_eq, first, loads, refs⟩
        (by simp [hpc, hp, DrainPc.unreleased])
    simp only [hpc, stepDrain] at *
    cases q with
    | none =>
      exact ⟨ring, order, by simpa [DrainPc.unreleased] using sent_eq,
        by simp [DrainPc.transmits], by simp, fun x => by simpa [pbufFree] using refs x⟩
    | some p =>
      refine ⟨ring, order, by simpa [DrainPc.unreleased] using sent_eq,
        by simp [DrainPc.transmits], by simp, fun x => ?_⟩
      have hx := refs x
      have hp := hpos p rfl
      simp only [pbufFree, List.count_append, List.count_singleton]
      rcases eq_or_ne x p with rfl | hne
      · simp
        omega
      · simp [Function.update_of_ne hne, hne.symm]
        omega

/-- Every step keeps the invariant, with some frames in the ring. -/
theorem Inv.step {r : UsbTxRun} {queued : List PbufPtr} (h : r.Inv queued) {a : UsbTxOp}
    (ha : r.admits a) : ∃ queued', (r.step a).Inv queued' := by
  cases a with
  | linkoutput tudReady p => exact h.linkoutput tudReady p
  | drain tudReady canXmit => exact ⟨_, h.drain tudReady canXmit⟩
  | ringRecentReset => exact ⟨queued, { h with }⟩
  | hold p =>
    refine ⟨queued, { h with refs := fun x => ?_ }⟩
    have hx := h.refs x
    simp only [UsbTxRun.step, pbufRef, count_update_self]
    omega
  | unhold p =>
    refine ⟨queued, { h with refs := fun x => ?_ }⟩
    have hx := h.refs x
    have hp : 0 < r.ext p := ha
    simp only [UsbTxRun.step, pbufFree]
    rcases eq_or_ne x p with rfl | hne
    · -- what the drain has dropped was accepted before
      have hle : r.released.count (some x) ≤ r.accepted.count x := by
        rw [← List.count_map_of_injective r.accepted some (Option.some_injective _), h.order,
          h.sent_eq, List.append_assoc, List.count_append]
        exact Nat.le_add_right _ _
      simp only [Function.update_self]
      omega
    · simp only [Function.update_of_ne hne]
      exact hx

theorem Reachable.inv {r : UsbTxRun} (hr : r.Reachable) : ∃ queued, r.Inv queued := by
  induction hr with
  | start hs =>
    obtain rfl := hs
    exact ⟨[], holds_nil (by decide) _, rfl, rfl, fun q h => (nomatch h), fun h => (nomatch h),
      fun p => rfl⟩
  | step _ ha ih =>
    obtain ⟨queued, h⟩ := ih
    exact h.step ha

/-! ### While the USB stack takes frames -/

/-- How many statements the drain needs at most to empty the ring of `n` frames. -/
def work (pc : DrainPc) (n : Nat) : Nat :=
  match pc with
  | .idle => if n = 0 then 0 else 6 * n + 2
  | .test => 6 * n + 1
  | .load => 6 * n
  | .check _ => 6 * n - 1
  | .xmit _ => 6 * n - 2
  | .advance _ => 6 * n - 3
  | .release _ => 6 * n + 2

/-- A frame that the drain has read is in the ring. -/
theorem Inv.length_pos {r : UsbTxRun} {queued : List PbufPtr} (h : r.Inv queued)
    {q : Option PbufPtr} (hq : r.pc.transmits = some q) : 0 < queued.length := by
  obtain ⟨rest, hrest⟩ := List.head?_eq_some_iff.mp (h.first q hq)
  have hlen := congrArg List.length hrest
  rw [List.length_map, List.length_cons] at hlen
  omega

/-- Each statement brings the drain closer to the end. -/
theorem Inv.work_lt {r : UsbTxRun} {queued : List PbufPtr} (h : r.Inv queued)
    (hwork : work r.pc queued.length ≠ 0) :
    work (r.stepDrain true true).pc (r.pc.unsent queued).length < work r.pc queued.length := by
  cases hpc : r.pc with
  | idle =>
    rw [hpc] at hwork
    simp only [stepDrain, hpc, DrainPc.unsent, work] at hwork ⊢
    split_ifs at hwork ⊢ <;> omega
  | test =>
    have hempty := h.ring.tail_eq_head
    rw [List.map_eq_nil_iff] at hempty
    simp only [stepDrain, hpc, DrainPc.unsent]
    by_cases hmeet : r.tx.tail = r.tx.head
    · simp [hmeet, hempty.mp hmeet, work]
    · simp [hmeet, work]
  | load =>
    have hpos := List.length_pos_iff.mpr (h.loads hpc)
    simp only [stepDrain, hpc, DrainPc.unsent, work]
    omega
  | check q =>
    have hpos := h.length_pos (q := q) (by rw [hpc]; rfl)
    simp only [stepDrain, hpc, DrainPc.unsent, work, Bool.not_true, Bool.or_self,
      Bool.false_eq_true, if_false]
    omega
  | xmit q =>
    have hpos := h.length_pos (q := q) (by rw [hpc]; rfl)
    simp only [stepDrain, hpc, DrainPc.unsent, work]
    omega
  | advance q =>
    have hpos := h.length_pos (q := q) (by rw [hpc]; rfl)
    simp only [stepDrain, hpc, DrainPc.unsent, work, List.length_tail]
    omega
  | release q =>
    simp only [stepDrain, hpc, DrainPc.unsent, work]
    omega

/-- At the end the ring is empty. -/
theorem Inv.done_of_work {r : UsbTxRun} {queued : List PbufPtr} (h : r.Inv queued)
    (hwork : work r.pc queued.length = 0) : r.pc = .idle ∧ queued = [] := by
  have hsome := fun q => h.length_pos (q := q)
  have hload := h.loads
  cases hpc : r.pc with
  | idle =>
    rw [hpc] at hwork
    simp only [work] at hwork
    refine ⟨rfl, List.length_eq_zero_iff.mp ?_⟩
    split_ifs at hwork with hzero
    · exact hzero
  | test => simp [hpc, work] at hwork
  | load =>
    have hpos := List.length_pos_iff.mpr (hload hpc)
    simp only [hpc, work] at hwork
    omega
  | check q | xmit q | advance q =>
    have hpos := hsome q (by rw [hpc]; rfl)
    simp only [hpc, work] at hwork
    omega
  | release q => simp [hpc, work] at hwork

/-- The drain neither accepts a frame nor touches a reference of others. -/
theorem stepDrain_keeps (r : UsbTxRun) (tudReady canXmit : Bool) :
    (r.stepDrain tudReady canXmit).accepted = r.accepted ∧
      (r.stepDrain tudReady canXmit).ext = r.ext := by
  unfold stepDrain
  split <;> exact ⟨rfl, rfl⟩

/-- While the USB stack takes frames, the drain sends everything that was accepted, and drops every
reference the ring held. -/
theorem Inv.drains {r : UsbTxRun} {queued : List PbufPtr} (h : r.Inv queued) :
    ∃ n, ∃ r', r' = (List.replicate n (UsbTxOp.drain true true)).foldl UsbTxRun.step r ∧
      r'.pc = .idle ∧ r'.sent = r.accepted.map some ∧ r'.released = r'.sent ∧
      r'.tx.refs = r.ext := by
  induction hn : work r.pc queued.length using Nat.strong_induction_on generalizing r queued with
  | _ m ih =>
    subst hn
    by_cases hwork : work r.pc queued.length = 0
    · -- nothing left, and the drain is at its end
      obtain ⟨hpc, hnil⟩ := h.done_of_work hwork
      have horder := h.order
      have hsent := h.sent_eq
      rw [hpc, hnil] at horder
      rw [hpc] at hsent
      simp only [DrainPc.unsent, DrainPc.unreleased, List.map_nil, List.append_nil] at horder hsent
      refine ⟨0, r, rfl, hpc, horder.symm, hsent.symm, funext fun p => ?_⟩
      have hrefs := h.refs p
      rw [← hsent, ← horder, List.count_map_of_injective _ _ (Option.some_injective _)] at hrefs
      omega
    · have hnext := h.drain true true
      obtain ⟨n, r', hr', hpc, hsent, hreleased, hrefs⟩ := ih _ (h.work_lt hwork) hnext rfl
      obtain ⟨haccepted, hext⟩ := r.stepDrain_keeps true true
      rw [haccepted] at hsent
      rw [hext] at hrefs
      exact ⟨n + 1, r', hr', hpc, hsent, hreleased, hrefs⟩

/-! ### What the queue promises -/

/-- A frame is refused where USB is not ready or one slot only is free. -/
theorem Inv.refused_iff {r : UsbTxRun} {queued : List PbufPtr} (h : r.Inv queued) (tudReady : Bool)
    (p : PbufPtr) :
    (usbLinkoutput r.tx tudReady p).1 ≠ .ok ↔ tudReady = false ∨ queued.length = 31 := by
  have hfull : (r.tx.head + 1) % usbTxQueueLen = r.tx.tail ↔ queued.length = 31 := by
    rw [h.ring.next_eq_tail, List.length_map]
    exact Nat.succ_inj
  rw [← hfull]
  obtain ⟨hready, hroom, hok, -⟩ | ⟨hwhy, hok, -⟩ := usbLinkoutput_cases r.tx tudReady p
  · refine iff_of_false (not_not_intro hok) ?_
    rintro (hnot | hnext)
    · rw [hready] at hnot
      cases hnot
    · exact hroom hnext
  · exact iff_of_true hok hwhy

/-- While the drain has the frame at the tail, no call puts another in its slot. -/
theorem Inv.slot_kept {r : UsbTxRun} {queued : List PbufPtr} (h : r.Inv queued) {q : Option PbufPtr}
    (hq : r.pc.transmits = some q) :
    r.tx.queue r.tx.tail = q ∧
      ∀ tudReady p, (usbLinkoutput r.tx tudReady p).2.queue r.tx.tail = q := by
  obtain ⟨rest, hrest⟩ := List.head?_eq_some_iff.mp (h.first q hq)
  have hring := h.ring
  rw [hrest] at hring
  have hne : r.tx.tail ≠ r.tx.head := mt hring.tail_eq_head.mp (List.cons_ne_nil q rest)
  refine ⟨hring.front, ?_⟩
  intro tudReady p
  obtain ⟨-, -, -, hqueue, -⟩ | ⟨-, -, htx⟩ := usbLinkoutput_cases r.tx tudReady p
  · rw [hqueue, Function.update_of_ne hne]
    exact hring.front
  · rw [htx]
    exact hring.front

/-- In every state of every run, with `queued` what is in the ring: what was accepted is what was
handed over, in order, and then what is still in the ring; a call is refused when USB is not ready
or 31 frames are queued, and leaves the references as they were; the queue's share in the references
is what was accepted and not yet released; the slot being transmitted is not overwritten; and while
the USB stack takes frames, everything accepted is sent and released. -/
theorem usb_tx_lossless_fifo {r : UsbTxRun} (hr : r.Reachable) :
    ∃ queued : List PbufPtr,
      Holds usbTxQueueLen r.tx.queue r.tx.head r.tx.tail (queued.map some) ∧
      r.accepted.map some = r.sent ++ r.pc.unsent (queued.map some) ∧
      (∀ tudReady p, ((usbLinkoutput r.tx tudReady p).1 ≠ .ok ↔
        tudReady = false ∨ queued.length = 31)) ∧
      (∀ tudReady p, (usbLinkoutput r.tx tudReady p).1 ≠ .ok →
        (usbLinkoutput r.tx tudReady p).2.refs = r.tx.refs) ∧
      r.sent = r.released ++ r.pc.unreleased ∧
      (∀ p, r.tx.refs p + r.released.count (some p) = r.ext p + r.accepted.count p) ∧
      (∀ q, r.pc.transmits = some q → r.tx.queue r.tx.tail = q ∧
        ∀ tudReady p, (usbLinkoutput r.tx tudReady p).2.queue r.tx.tail = q) ∧
      ∃ n, ∃ r', r' = (List.replicate n (UsbTxOp.drain true true)).foldl step r ∧
        r'.pc = .idle ∧ r'.sent = r.accepted.map some ∧ r'.released = r'.sent ∧
        r'.tx.refs = r.ext := by
  obtain ⟨queued, h⟩ := hr.inv
  refine ⟨queued, h.ring, h.order, h.refused_iff, ?_, h.sent_eq, h.refs,
    fun q hq => h.slot_kept hq, h.drains⟩
  intro tudReady p hrefused
  obtain ⟨-, -, hok, -⟩ | ⟨-, -, htx⟩ := usbLinkoutput_cases r.tx tudReady p
  · exact absurd hok hrefused
  · rw [htx]

/-- A frame is accepted between the read of the slot before it and the hand-over of that. -/
def twoFrames : List UsbTxOp :=
  [.hold 1, .hold 2, .linkoutput true 1, .drain true true, .drain true true, .drain true true,
    .linkoutput true 2]

theorem usb_tx_lossless_fifo_twoFrames :
    ∃ n, ∃ r', r' = (List.replicate n (UsbTxOp.drain true true)).foldl step
        (twoFrames.foldl step {}) ∧
      r'.sent = [some 1, some 2] ∧ r'.tx.refs 1 = 1 ∧ r'.tx.refs 2 = 1 := by
  have hall : AdmitsAll admits step {} twoFrames :=
    ⟨trivial, trivial, trivial, trivial, trivial, trivial, trivial, trivial⟩
  have h0 : Reachable {} := .start rfl
  have hr : Reachable (twoFrames.foldl step {}) := Reach.foldl h0 hall
  obtain ⟨-, -, -, -, -, -, -, -, n, r', hr', -, hsent, -, hrefs⟩ := usb_tx_lossless_fifo hr
  exact ⟨n, r', hr', hsent, by rw [hrefs]; rfl, by rw [hrefs]; rfl⟩

end UsbTxRun

end Molewire
