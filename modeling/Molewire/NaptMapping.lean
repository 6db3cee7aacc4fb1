/-
# Mapping correctness of the NAT over whole runs

A run is any sequence of packets in both directions, address changes, clamp
changes and resets, under a clock that never goes back. The run remembers when
each slot was last used and which key was last given its port. Assumed of the
clock is only that it has not wrapped since the last use of a slot still in the
table; then the age the firmware computes is the real one.

In every such run a key has at most one live slot, and a slot that is still in
the table holds the key that was last given its port. The outbound and inbound
rewritings are inverse to each other because of that.
-/

import Molewire.Library.Clock32
import Molewire.Library.Transition
import Molewire.Napt

namespace Molewire

open ByteBuffer OnesComplement Transition

/-! ### Runs -/

/-- The 32-bit millisecond clock at a point in time. -/
def clock32 (t : Nat) : UInt32 := UInt32.ofNat t

/-- The calls that reach the translation core. -/
inductive NaptOp
  | outbound (pkt : Bytes) (avail : Nat)
  | inbound (pkt : Bytes) (avail : Nat)
  | setExtIp (ip : Ip4)
  | setMssClamp (mss : UInt16)
  | reset

/-- The statics of the core with what an observer remembers: the time of the last call, when each
slot last carried a packet, and the key of the last outbound packet given the slot's port. -/
structure NaptRun where
  napt : Napt := {}
  clock : Nat := 0
  lastUse : Fin naptMax → Nat := fun _ => 0
  owner : Fin naptMax → Option NaptKey := fun _ => none

namespace NaptRun

/-- The slot an observer sees a packet go through: that of the given port, when translated. -/
def slotOf (res : NaptResult) (port : Nat) : Option (Fin naptMax) :=
  if res.translated then portSlot port else none

def stepOutbound (r : NaptRun) (t : Nat) (pkt : Bytes) (avail : Nat) : NaptRun :=
  let res := naptOutbound r.napt pkt avail (clock32 t)
  let r := { r with napt := res.napt, clock := t }
  match parse pkt avail with
  | none => r
  | some v =>
    match slotOf res (be16 res.pkt (keyfield v true)) with
    | none => r
    | some i =>
      { r with
        lastUse := Function.update r.lastUse i t
        owner := Function.update r.owner i (some (outboundKey pkt v)) }

def stepInbound (r : NaptRun) (t : Nat) (pkt : Bytes) (avail : Nat) : NaptRun :=
  let res := naptInbound r.napt pkt avail (clock32 t)
  let r := { r with napt := res.napt, clock := t }
  match parse pkt avail with
  | none => r
  | some v =>
    match slotOf res (be16 pkt (keyfield v false)) with
    | none => r
    | some i => { r with lastUse := Function.update r.lastUse i t }

/-- One call at a point in time. -/
def step (r : NaptRun) : Nat × NaptOp → NaptRun
  | (t, .outbound pkt avail) => r.stepOutbound t pkt avail
  | (t, .inbound pkt avail) => r.stepInbound t pkt avail
  | (t, .setExtIp ip) => { r with napt := naptSetExtIp r.napt ip, clock := t }
  | (t, .setMssClamp mss) => { r with napt := naptSetMssClamp r.napt mss, clock := t }
  | (t, .reset) => { r with napt := naptReset r.napt, clock := t }

/-- A time a call may come at: not before the last one, and within one turn of the 32-bit clock
of the last use of every slot in the table. -/
def Ticks (r : NaptRun) (t : Nat) : Prop :=
  r.clock ≤ t ∧ ∀ i, (r.napt.table i).proto ≠ 0 → t - r.lastUse i < 4294967296

/-- A call hands over no more bytes than the buffer has. -/
def admits (r : NaptRun) : Nat × NaptOp → Prop
  | (t, .outbound pkt avail) => r.Ticks t ∧ avail ≤ pkt.length
  | (t, .inbound pkt avail) => r.Ticks t ∧ avail ≤ pkt.length
  | (t, _) => r.Ticks t

/-- The runs from power-up. -/
def Reachable (r : NaptRun) : Prop := Reach (· = {}) admits step r

/-- The slot's entry is live at a point in time, as the firmware decides it. -/
def Live (r : NaptRun) (t : Nat) (i : Fin naptMax) : Prop :=
  entryLive (r.napt.table i) (clock32 t)

instance (r : NaptRun) (t : Nat) (i : Fin naptMax) : Decidable (r.Live t i) :=
  inferInstanceAs (Decidable (entryLive (r.napt.table i) (clock32 t) = true))

theorem admits.ticks {r : NaptRun} {t : Nat} {op : NaptOp} (h : r.admits (t, op)) : r.Ticks t := by
  cases op with
  | outbound pkt avail => exact h.1
  | inbound pkt avail => exact h.1
  | setExtIp ip => exact h
  | setMssClamp mss => exact h
  | reset => exact h

/-! ### The invariant -/

/-- What every run keeps. Liveness is written with the real clock. -/
structure Inv (r : NaptRun) : Prop where
  stamp : ∀ i, (r.napt.table i).proto ≠ 0 → (r.napt.table i).lastMs = clock32 (r.lastUse i)
  past : ∀ i, (r.napt.table i).proto ≠ 0 → r.lastUse i ≤ r.clock
  owned : ∀ i, (r.napt.table i).proto ≠ 0 → r.owner i = some (r.napt.table i).key
  unique : ∀ i j, (r.napt.table i).proto ≠ 0 → (r.napt.table j).proto ≠ 0 →
    r.clock - r.lastUse i < (timeoutMs (r.napt.table i)).toNat →
    r.clock - r.lastUse j < (timeoutMs (r.napt.table j)).toNat →
    (r.napt.table i).key = (r.napt.table j).key → i = j

/-- Two stamps less than a turn of the clock apart differ by the time between them. -/
theorem clock32_sub {s t : Nat} (hst : s ≤ t) (hwrap : t - s < 4294967296) :
    (clock32 t - clock32 s).toNat = t - s := by
  -- subtraction on the clock wraps, so only the time between counts
  exact (Clock32.toNat_sub hst).trans (Nat.mod_eq_of_lt hwrap)

/-- The firmware's liveness test measures the real age. -/
theorem Inv.live_iff {r : NaptRun} (h : r.Inv) {t : Nat} (ht : r.Ticks t) (i : Fin naptMax) :
    r.Live t i ↔ (r.napt.table i).proto ≠ 0 ∧
      t - r.lastUse i < (timeoutMs (r.napt.table i)).toNat := by
  unfold Live entryLive
  simp only [Bool.and_eq_true, bne_iff_ne, decide_eq_true_eq]
  refine and_congr_right fun hproto => ?_
  have hage := clock32_sub ((h.past i hproto).trans ht.1) (ht.2 i hproto)
  rw [h.stamp i hproto, UInt32.lt_iff_toNat_lt, hage]

/-- At most one live slot for a key. -/
theorem Inv.live_unique {r : NaptRun} (h : r.Inv) {t : Nat} (ht : r.Ticks t) {i j : Fin naptMax}
    (hi : r.Live t i) (hj : r.Live t j)
    (hkey : (r.napt.table i).key = (r.napt.table j).key) : i = j := by
  obtain ⟨hpi, hti⟩ := (h.live_iff ht i).mp hi
  obtain ⟨hpj, htj⟩ := (h.live_iff ht j).mp hj
  have hle := ht.1
  exact h.unique i j hpi hpj (by omega) (by omega) hkey

/-- Time passing and changes outside the table keep the invariant. -/
theorem Inv.of_table_eq {r r' : NaptRun} (h : r.Inv) (htable : r'.napt.table = r.napt.table)
    (hclock : r.clock ≤ r'.clock) (huse : r'.lastUse = r.lastUse) (howner : r'.owner = r.owner) :
    r'.Inv where
  stamp i hi := by
    rw [htable] at hi ⊢
    rw [huse]
    exact h.stamp i hi
  past i hi := by
    rw [htable] at hi
    rw [huse]
    exact (h.past i hi).trans hclock
  owned i hi := by
    rw [htable] at hi ⊢
    rw [howner]
    exact h.owned i hi
  unique i j hi hj hti htj hkey := by
    rw [htable] at hi hj hti htj hkey
    rw [huse] at hti htj
    exact h.unique i j hi hj (by omega) (by omega) hkey

/-- A packet through a slot keeps the invariant when no other live slot has the entry's key. -/
theorem Inv.touch {r r' : NaptRun} (h : r.Inv) {t : Nat} (ht : r.Ticks t) {i : Fin naptMax}
    {e : NaptEntry} (flags : UInt8)
    (hsole : ∀ j, r.Live t j → (r.napt.table j).key = e.key → j = i)
    (htable : r'.napt.table = Function.update r.napt.table i (e.touch flags (clock32 t)))
    (hclock : r'.clock = t) (huse : r'.lastUse = Function.update r.lastUse i t)
    (howner : r'.owner = Function.update r.owner i (some e.key)) : r'.Inv := by
  have hself : r'.napt.table i = e.touch flags (clock32 t) := by rw [htable, Function.update_self]
  have hother : ∀ j, j ≠ i → r'.napt.table j = r.napt.table j ∧ r'.lastUse j = r.lastUse j ∧
      r'.owner j = r.owner j := by
    intro j hj
    rw [htable, huse, howner]
    simp [Function.update_of_ne hj]
  have huse_self : r'.lastUse i = t := by rw [huse, Function.update_self]
  have howner_self : r'.owner i = some e.key := by rw [howner, Function.update_self]
  -- the other slots, at the new time, are live only if they were
  have hlive : ∀ j, j ≠ i → (r'.napt.table j).proto ≠ 0 →
      r'.clock - r'.lastUse j < (timeoutMs (r'.napt.table j)).toNat → r.Live t j := by
    intro j hj hproto hage
    obtain ⟨h1, h2, -⟩ := hother j hj
    rw [h1] at hproto hage
    rw [hclock, h2] at hage
    exact (h.live_iff ht j).mpr ⟨hproto, hage⟩
  refine { stamp := ?stamp, past := ?past, owned := ?owned, unique := ?unique }
  case stamp =>
    intro j hj
    by_cases hji : j = i
    · rw [hji, hself, huse_self, NaptEntry.lastMs_touch]
    · obtain ⟨h1, h2, -⟩ := hother j hji
      rw [h1] at hj ⊢
      rw [h2]
      exact h.stamp j hj
  case past =>
    intro j hj
    by_cases hji : j = i
    · rw [hji, huse_self, hclock]
    · obtain ⟨h1, h2, -⟩ := hother j hji
      rw [h1] at hj
      rw [h2, hclock]
      exact (h.past j hj).trans ht.1
  case owned =>
    intro j hj
    by_cases hji : j = i
    · rw [hji, hself, howner_self, NaptEntry.key_touch]
    · obtain ⟨h1, -, h3⟩ := hother j hji
      rw [h1] at hj ⊢
      rw [h3]
      exact h.owned j hj
  case unique =>
    -- a second live slot with the key of the touched one is what `hsole` rules out
    intro j j' hj hj' htj htj' hkey
    by_cases hji : j = i <;> by_cases hji' : j' = i
    · rw [hji, hji']
    · refine absurd (hsole j' (hlive j' hji' hj' htj') ?_) hji'
      rw [← (hother j' hji').1, ← hkey, hji, hself, NaptEntry.key_touch]
    · refine absurd (hsole j (hlive j hji hj htj) ?_) hji
      rw [← (hother j hji).1, hkey, hji', hself, NaptEntry.key_touch]
    · refine h.live_unique ht (hlive j hji hj htj) (hlive j' hji' hj' htj') ?_
      rw [← (hother j hji).1, hkey, (hother j' hji').1]

/-! ### Steps -/

/-- The port a packet leaves with is that of its slot. -/
theorem portSlot_translated (n : Napt) {pkt : Bytes} {avail : Nat} {v : PktView}
    (hp : Parsed pkt avail v) (havail : avail ≤ pkt.length) (i : Fin naptMax) :
    portSlot (be16 (translate n.gMss pkt v 12 (keyfield v true) n.gExt (natPortBytes i))
      (keyfield v true)) = some i := by
  rw [portSlot_eq_some, be16_translate_field ((hp.keyfield_le true).trans havail),
    word_natPortBytes]

/-- An outbound step: a packet refused, or one given the port of the entry of its key. -/
theorem stepOutbound_cases (r : NaptRun) (t : Nat) {pkt : Bytes} {avail : Nat}
    (havail : avail ≤ pkt.length) :
    (∃ v i e, parse pkt avail = some v ∧
      outboundEntry r.napt.table (clock32 t) (outboundKey pkt v) = some (i, e) ∧
      r.stepOutbound t pkt avail =
        { napt := r.napt.setEntry i (e.touch (byte pkt (v.ihl + 13)) (clock32 t)),
          clock := t,
          lastUse := Function.update r.lastUse i t,
          owner := Function.update r.owner i (some (outboundKey pkt v)) }) ∨
      r.stepOutbound t pkt avail =
        { r with napt := { r.napt with gDrops := r.napt.gDrops + 1 }, clock := t } := by
  obtain ⟨v, i, e, hp, hparse, hext, hecho, hentry, hres⟩ | hres :=
    naptOutbound_cases r.napt pkt avail (clock32 t)
  · left
    have hport := portSlot_translated r.napt hp havail i
    refine ⟨v, i, e, hparse, hentry, ?_⟩
    simp only [stepOutbound, hparse, slotOf, hres, if_true, hport]
  · right
    simp only [stepOutbound, hres, slotOf]
    split <;> rfl

/-- An inbound step: a packet that matches nothing, or one for a live slot. -/
theorem stepInbound_cases (r : NaptRun) (t : Nat) (pkt : Bytes) (avail : Nat) :
    (∃ i flags, entryLive (r.napt.table i) (clock32 t) ∧
      r.stepInbound t pkt avail =
        { r with
          napt := r.napt.setEntry i ((r.napt.table i).touch flags (clock32 t)),
          clock := t,
          lastUse := Function.update r.lastUse i t }) ∨
      r.stepInbound t pkt avail = { r with clock := t } := by
  obtain ⟨v, i, hp, hparse, hdst, hecho, hport, hlive, hproto, hres⟩ | hres :=
    naptInbound_cases r.napt pkt avail (clock32 t)
  · left
    refine ⟨i, byte pkt (v.ihl + 13), hlive, ?_⟩
    simp only [stepInbound, hparse, slotOf, hres, if_true, portSlot_eq_some.mpr hport]
  · right
    simp only [stepInbound, hres, slotOf]
    split <;> rfl

/-- One step keeps the invariant. -/
theorem Inv.step {r : NaptRun} (h : r.Inv) {a : Nat × NaptOp} (ha : r.admits a) :
    (r.step a).Inv := by
  obtain ⟨t, op⟩ := a
  have ht : r.Ticks t := ha.ticks
  cases op with
  | outbound pkt avail =>
    obtain ⟨v, i, e, hparse, hentry, heq⟩ | heq := stepOutbound_cases r t ha.2
    · have hkey : e.key = outboundKey pkt v := by
        obtain ⟨-, hk, rfl⟩ | ⟨-, hk, -⟩ := outboundEntry_cases hentry <;> exact hk
      -- no other live slot has the key: the search found the live one, or none
      have hsole : ∀ j, r.Live t j → (r.napt.table j).key = e.key → j = i := by
        intro j hj hjk
        obtain ⟨hlive, hk, rfl⟩ | ⟨-, hk, hnone⟩ := outboundEntry_cases hentry
        · exact h.live_unique ht hj hlive hjk
        · exact absurd (hjk.trans hk) (hnone j hj)
      exact h.touch ht (byte pkt (v.ihl + 13)) hsole (by rw [NaptRun.step, heq]; rfl)
        (by rw [NaptRun.step, heq]) (by rw [NaptRun.step, heq]) (by rw [NaptRun.step, heq, hkey])
    · exact h.of_table_eq (by rw [NaptRun.step, heq]) (by rw [NaptRun.step, heq]; exact ht.1)
        (by rw [NaptRun.step, heq]) (by rw [NaptRun.step, heq])
  | inbound pkt avail =>
    obtain ⟨i, flags, hlive, heq⟩ | heq := stepInbound_cases r t pkt avail
    · have hproto : (r.napt.table i).proto ≠ 0 := ((h.live_iff ht i).mp hlive).1
      refine h.touch ht flags (fun j hj hjk => h.live_unique ht hj hlive hjk)
        (by rw [NaptRun.step, heq]; rfl) (by rw [NaptRun.step, heq])
        (by rw [NaptRun.step, heq]) ?_
      rw [NaptRun.step, heq, ← h.owned i hproto, Function.update_eq_self]
    · exact h.of_table_eq (by rw [NaptRun.step, heq]) (by rw [NaptRun.step, heq]; exact ht.1)
        (by rw [NaptRun.step, heq]) (by rw [NaptRun.step, heq])
  | setExtIp ip => exact h.of_table_eq rfl ht.1 rfl rfl
  | setMssClamp mss => exact h.of_table_eq rfl ht.1 rfl rfl
  | reset =>
    have hfree : ∀ i, ¬((r.step (t, .reset)).napt.table i).proto ≠ 0 := fun i hi => hi rfl
    exact ⟨fun i hi => absurd hi (hfree i), fun i hi => absurd hi (hfree i),
      fun i hi => absurd hi (hfree i), fun i j hi => absurd hi (hfree i)⟩

/-- The invariant holds throughout every run. -/
theorem Reachable.inv {r : NaptRun} (hr : r.Reachable) : r.Inv := by
  refine Reach.invariant ?_ (fun s a _ ha hs => hs.step ha) hr
  rintro s rfl
  have hfree : ∀ i, ¬((({} : NaptRun).napt.table i).proto ≠ 0) := fun i hi => hi rfl
  exact ⟨fun i hi => absurd hi (hfree i), fun i hi => absurd hi (hfree i),
    fun i hi => absurd hi (hfree i), fun i j hi => absurd hi (hfree i)⟩

/-! ### While an entry lives -/

/-- Calls that all come while the slot's entry is live. -/
def WhileLive (i : Fin naptMax) (r r' : NaptRun) : Prop :=
  Reach (· = r) (fun s a => s.admits a ∧ s.Live a.1 i) step r'

theorem WhileLive.reachable {i : Fin naptMax} {r r' : NaptRun} (h : WhileLive i r r')
    (hr : r.Reachable) : r'.Reachable := by
  induction h with
  | start hs =>
    obtain rfl := hs
    exact hr
  | step _ ha ih => exact ih.step ha.1

/-- A live entry keeps its key. -/
theorem key_step_of_live {r : NaptRun} {a : Nat × NaptOp} (ha : r.admits a) {i : Fin naptMax}
    (hlive : r.Live a.1 i) (hproto : ((r.step a).napt.table i).proto ≠ 0) :
    ((r.step a).napt.table i).key = (r.napt.table i).key := by
  obtain ⟨t, op⟩ := a
  cases op with
  | outbound pkt avail =>
    obtain ⟨v, j, e, hparse, hentry, heq⟩ | heq := stepOutbound_cases r t ha.2
    · rw [NaptRun.step, heq]
      by_cases hij : i = j
      · subst hij
        obtain ⟨-, -, rfl⟩ | ⟨hfree, -, -⟩ := outboundEntry_cases hentry
        · simp [Napt.setEntry]
        · exact absurd hlive hfree
      · simp [Napt.setEntry, Function.update_of_ne hij]
    · rw [NaptRun.step, heq]
  | inbound pkt avail =>
    obtain ⟨j, flags, -, heq⟩ | heq := stepInbound_cases r t pkt avail
    · rw [NaptRun.step, heq]
      by_cases hij : i = j
      · subst hij
        simp [Napt.setEntry]
      · simp [Napt.setEntry, Function.update_of_ne hij]
    · rw [NaptRun.step, heq]
  | setExtIp ip => rfl
  | setMssClamp mss => rfl
  | reset => exact absurd rfl hproto

theorem WhileLive.key_eq {i : Fin naptMax} {r r' : NaptRun} (h : WhileLive i r r')
    (hproto : (r'.napt.table i).proto ≠ 0) : (r'.napt.table i).key = (r.napt.table i).key := by
  induction h with
  | start hs =>
    obtain rfl := hs
    rfl
  | @step s a hs ha ih =>
    have hlive : entryLive (s.napt.table i) (clock32 a.1) := ha.2
    have hs0 : (s.napt.table i).proto ≠ 0 := by
      intro h0
      simp [entryLive, h0] at hlive
    rw [key_step_of_live ha.1 ha.2 hproto, ih hs0]

/-- A packet whose key is live leaves with the port of its slot. -/
theorem Inv.outbound_of_live {r : NaptRun} (h : r.Inv) {t : Nat} (ht : r.Ticks t)
    {i : Fin naptMax} (hlive : r.Live t i) {pkt : Bytes} {avail : Nat} {v : PktView}
    (havail : avail ≤ pkt.length) (hparse : parse pkt avail = some v)
    (hkey : outboundKey pkt v = (r.napt.table i).key) (hext : r.napt.gExt ≠ Ip4.any)
    (hecho : v.proto = 1 → byte pkt v.ihl = 8) :
    (naptOutbound r.napt pkt avail (clock32 t)).translated ∧
      be16 (naptOutbound r.napt pkt avail (clock32 t)).pkt (keyfield v true) = natPort i := by
  have htr : (naptOutbound r.napt pkt avail (clock32 t)).translated := by
    rw [naptOutbound_translated_iff]
    exact ⟨hext, v, hparse, hecho, outboundEntry_of_live hlive hkey.symm⟩
  refine ⟨htr, ?_⟩
  obtain ⟨v', j, e, hp, hparse', -, -, hentry, hres⟩ | hres :=
    naptOutbound_cases r.napt pkt avail (clock32 t)
  · obtain rfl : v = v' := Option.some.inj (hparse.symm.trans hparse')
    have hji : j = i := by
      obtain ⟨hj, hk, -⟩ | ⟨-, -, hnone⟩ := outboundEntry_cases hentry
      · exact h.live_unique ht hj hlive (hk.trans hkey)
      · exact absurd hkey.symm (hnone i hlive)
    rw [hres, ← hji]
    exact (be16_translate_field ((hp.keyfield_le true).trans havail)).trans (word_natPortBytes j)
  · rw [hres] at htr
    exact absurd htr (by simp)

/-- An inbound packet is translated to the key that owns the slot of its port. -/
theorem Inv.inbound_rewritten {r : NaptRun} (h : r.Inv) {t : Nat} (ht : r.Ticks t) {pkt : Bytes}
    {avail : Nat} {v : PktView} (havail : avail ≤ pkt.length) (hparse : parse pkt avail = some v)
    {i : Fin naptMax} (hport : be16 pkt (keyfield v false) = natPort i)
    (htr : (naptInbound r.napt pkt avail (clock32 t)).translated) :
    ∃ k, r.owner i = some k ∧ k.proto = v.proto ∧
      ipDst (naptInbound r.napt pkt avail (clock32 t)).pkt = k.ip ∧
      (byte (naptInbound r.napt pkt avail (clock32 t)).pkt (keyfield v false),
        byte (naptInbound r.napt pkt avail (clock32 t)).pkt (keyfield v false + 1)) = k.port := by
  obtain ⟨v', j, hp, hparse', -, -, hport', hlive, hproto, hres⟩ | hres :=
    naptInbound_cases r.napt pkt avail (clock32 t)
  · obtain rfl : v = v' := Option.some.inj (hparse.symm.trans hparse')
    obtain rfl : i = j := natPort_inj.mp (hport.symm.trans hport')
    have hfield : keyfield v false + 2 ≤ pkt.length := (hp.keyfield_le false).trans havail
    have hihl := hp.twenty_le
    have hbytes := byte_translate_field r.napt.gMss v 16 (r.napt.table i).innerIp
      (r.napt.table i).innerPort hfield
    refine ⟨(r.napt.table i).key, h.owned i ((h.live_iff ht i).mp hlive).1, hproto, ?_, ?_⟩
    · rw [hres]
      exact atOffset_translate (by omega) (le_keyfield v false) hfield
    · rw [hres]
      exact Prod.ext hbytes.1 hbytes.2
  · rw [hres] at htr
    exact absurd htr (by simp)

/-- **Mapping correctness.** At any time of any run: a key has at most one live slot and distinct
live keys have distinct ports; as long as an entry lives every packet of its key leaves with the
same port; and an inbound packet to the external address is translated exactly when its port is
that of a live slot of its protocol, and then to the key that was last given the port. -/
theorem napt_mapping_correct {r : NaptRun} (hr : r.Reachable) {t : Nat} (ht : r.Ticks t) :
    (∀ i j, r.Live t i → r.Live t j →
      ((r.napt.table i).key = (r.napt.table j).key → i = j) ∧
      ((r.napt.table i).key ≠ (r.napt.table j).key → natPort i ≠ natPort j)) ∧
    (∀ i r' t' pkt avail v, WhileLive i r r' → r'.admits (t', .outbound pkt avail) →
      r'.Live t' i → parse pkt avail = some v → outboundKey pkt v = (r.napt.table i).key →
      r'.napt.gExt ≠ Ip4.any → (v.proto = 1 → byte pkt v.ihl = 8) →
      (naptOutbound r'.napt pkt avail (clock32 t')).translated ∧
      be16 (naptOutbound r'.napt pkt avail (clock32 t')).pkt (keyfield v true) = natPort i) ∧
    (∀ pkt avail v, avail ≤ pkt.length → parse pkt avail = some v → ipDst pkt = r.napt.gExt →
      r.napt.gExt ≠ Ip4.any → (v.proto = 1 → byte pkt v.ihl = 0) →
      ((naptInbound r.napt pkt avail (clock32 t)).translated ↔
        ∃ i, be16 pkt (keyfield v false) = natPort i ∧ r.Live t i ∧
          (r.napt.table i).proto = v.proto) ∧
      ∀ i, be16 pkt (keyfield v false) = natPort i →
        (naptInbound r.napt pkt avail (clock32 t)).translated →
        ∃ k, r.owner i = some k ∧ k.proto = v.proto ∧
          ipDst (naptInbound r.napt pkt avail (clock32 t)).pkt = k.ip ∧
          (byte (naptInbound r.napt pkt avail (clock32 t)).pkt (keyfield v false),
            byte (naptInbound r.napt pkt avail (clock32 t)).pkt (keyfield v false + 1)) =
              k.port) := by
  have hinv : r.Inv := hr.inv
  refine ⟨fun i j hi hj => ⟨hinv.live_unique ht hi hj, fun hkey hport => ?_⟩, ?_, ?_⟩
  · rw [natPort_inj] at hport
    exact hkey (by rw [hport])
  · intro i r' t' pkt avail v hrun hadm hlive hparse hkey hext hecho
    have hproto : (r'.napt.table i).proto ≠ 0 :=
      (((hrun.reachable hr).inv.live_iff hadm.ticks i).mp hlive).1
    exact (hrun.reachable hr).inv.outbound_of_live hadm.ticks hlive hadm.2 hparse
      (hkey.trans (hrun.key_eq hproto).symm) hext hecho
  · intro pkt avail v havail hparse hdst hext hecho
    refine ⟨?_, fun i hport htr => hinv.inbound_rewritten ht havail hparse hport htr⟩
    rw [naptInbound_translated_iff]
    constructor
    · rintro ⟨v', i, hparse', -, -, hport, hlive, hproto⟩
      obtain rfl : v = v' := Option.some.inj (hparse.symm.trans hparse')
      exact ⟨i, hport, hlive, hproto⟩
    · rintro ⟨i, hport, hlive, hproto⟩
      exact ⟨v, i, hparse, hdst, hecho, hport, hlive, hproto⟩

/-- One client, whose first datagram takes slot zero. -/
def oneClient : NaptRun :=
  (({} : NaptRun).step (0, .setExtIp ⟨10, 0, 0, 1⟩)).step
    (5, .outbound (udpDatagram ⟨192, 168, 7, 2⟩ ⟨8, 8, 8, 8⟩ (0x12, 0x34) (0, 53)) 28)

theorem napt_mapping_correct_oneClient :
    ∃ k, oneClient.owner 0 = some k ∧ k.proto = 17 ∧
      ipDst (naptInbound oneClient.napt
        (udpDatagram ⟨8, 8, 8, 8⟩ ⟨10, 0, 0, 1⟩ (0, 53) (0xEA, 0x60)) 28 (clock32 10)).pkt = k.ip ∧
      (byte (naptInbound oneClient.napt
        (udpDatagram ⟨8, 8, 8, 8⟩ ⟨10, 0, 0, 1⟩ (0, 53) (0xEA, 0x60)) 28 (clock32 10)).pkt 22,
       byte (naptInbound oneClient.napt
        (udpDatagram ⟨8, 8, 8, 8⟩ ⟨10, 0, 0, 1⟩ (0, 53) (0xEA, 0x60)) 28 (clock32 10)).pkt 23) =
          k.port := by
  have h0 : ({} : NaptRun).Reachable := .start rfl
  have hext : (({} : NaptRun).step (0, .setExtIp ⟨10, 0, 0, 1⟩)).Reachable :=
    h0.step ⟨Nat.le_refl 0, fun i hi => absurd rfl hi⟩
  have hr : oneClient.Reachable :=
    hext.step ⟨⟨Nat.zero_le 5, fun i hi => absurd rfl hi⟩, by decide⟩
  have ht : oneClient.Ticks 10 := ⟨by decide +kernel, by decide +kernel⟩
  have hc := (napt_mapping_correct hr ht).2.2
    (udpDatagram ⟨8, 8, 8, 8⟩ ⟨10, 0, 0, 1⟩ (0, 53) (0xEA, 0x60)) 28 ⟨20, 17, 8⟩
    (by decide) (by decide) (by decide +kernel) (by decide +kernel) (by decide)
  exact hc.2 0 (by decide) (hc.1.mpr ⟨0, by decide, by decide +kernel⟩)

end NaptRun

end Molewire
