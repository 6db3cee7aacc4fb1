/-
# WireGuard: replayed packets

The replay check counts from 1 and keeps 32 bits of the distance, and where the
counters stay within 2^32 of each other it is the replay window of that rule. Over a
run it makes the counters delivered under a key distinct, but for the first: a packet
that takes a waiting key into use is checked against the key that is destroyed, so it
may come a second time.
-/

import Molewire.Library.ReplayWindow
import Molewire.WireguardTransport

namespace Molewire

open ByteBuffer KeyedRows ReplayWindow

/-! ### The check -/

/-- The window of a key pair. -/
def WireguardKeypair.window (k : WireguardKeypair) : Window 32 :=
  ⟨k.replayBitmap.toBitVec, k.replayCounter.toNat⟩

/-- The bit of a distance, and the bitmap moved by it. -/
private theorem shift_toBitVec {x diff : UInt32} {d : Nat} (h : diff.toNat = d) (hd : d < 32) :
    (x <<< diff).toBitVec = x.toBitVec <<< d := by
  rw [UInt32.toBitVec_shiftLeft, BitVec.shiftLeft_eq', BitVec.toNat_umod]
  congr 1
  show diff.toNat % 32 = d
  rw [h, Nat.mod_eq_of_lt hd]

/-- Of a counter that is near enough, the check is the window's. -/
theorem wireguardCheckReplay_eq {k : WireguardKeypair} {n : UInt64} (hn : n.toNat + 1 < 2 ^ 64)
    (below : k.replayBitmap = 0 ∨ n.toNat + 1 < k.replayCounter.toNat + 2 ^ 32)
    (above : k.replayCounter.toNat < n.toNat + 1 + 2 ^ 32) :
    (wireguardCheckReplay k n).2 = (k.window.accept n.toNat).isSome ∧
      (wireguardCheckReplay k n).1.window = (k.window.accept n.toNat).getD k.window := by
  have seq : (n + 1).toNat = n.toNat + 1 := by
    rw [UInt64.toNat_add]
    exact Nat.mod_eq_of_lt hn
  have positive : n + 1 ≠ 0 := by
    intro h
    have := congrArg UInt64.toNat h
    rw [seq] at this
    cases this
  unfold wireguardCheckReplay WireguardKeypair.window Window.accept
  dsimp only
  rw [if_pos positive]
  by_cases up : k.replayCounter < n + 1
  · -- a number above the window
    have top := UInt64.lt_iff_toNat_lt.mp up
    rw [seq] at top
    rw [if_pos up, if_pos (Nat.le_of_lt_succ top)]
    refine ⟨rfl, ?_⟩
    dsimp only [Option.getD_some]
    rw [seq]
    congr 1
    have distance : (n + 1 - k.replayCounter).toUInt32.toNat =
        (n.toNat + 1 - k.replayCounter.toNat) % 2 ^ 32 := by
      rw [UInt64.toNat_toUInt32, UInt64.toNat_sub_of_le _ _ (UInt64.le_of_lt up), seq]
    generalize (n + 1 - k.replayCounter).toUInt32 = diff at distance ⊢
    rcases below with empty | near
    · -- the window is empty, so it does not matter how far it moves
      have nothing (d : Nat) : (0 : UInt32).toBitVec <<< d ||| 1#32 = 1#32 := by
        rw [show (0 : UInt32).toBitVec = 0#32 from rfl, BitVec.zero_shiftLeft, BitVec.zero_or]
      rw [empty, nothing, ite_self]
      split
      · rw [show (0 : UInt32) <<< diff = 0 from UInt32.zero_shiftLeft]
        rfl
      · rfl
    · rw [Nat.mod_eq_of_lt (by omega)] at distance
      by_cases room : diff < 32
      · have room' : n.toNat + 1 - k.replayCounter.toNat < 32 := by
          rw [← distance]
          exact UInt32.lt_iff_toNat_lt.mp room
        rw [if_pos room, if_pos room', UInt32.toBitVec_or, shift_toBitVec distance room']
        rfl
      · have room' : ¬ n.toNat + 1 - k.replayCounter.toNat < 32 := by
          rw [← distance]
          exact fun h => room (UInt32.lt_iff_toNat_lt.mpr h)
        rw [if_neg room, if_neg room']
        rfl
  · have top : n.toNat + 1 ≤ k.replayCounter.toNat := by
      rw [← seq]
      exact UInt64.le_iff_toNat_le.mp (UInt64.not_lt.mp up)
    rw [if_neg up, if_neg (Nat.not_le.mpr top)]
    have distance : (k.replayCounter - (n + 1)).toUInt32.toNat =
        k.replayCounter.toNat - (n.toNat + 1) := by
      rw [UInt64.toNat_toUInt32, UInt64.toNat_sub_of_le _ _ (UInt64.not_lt.mp up), seq]
      exact Nat.mod_eq_of_lt (by omega)
    generalize (k.replayCounter - (n + 1)).toUInt32 = diff at distance ⊢
    by_cases room : diff < 32
    · have room' : k.replayCounter.toNat - (n.toNat + 1) < 32 := by
        rw [← distance]
        exact UInt32.lt_iff_toNat_lt.mp room
      have bit : ((1 : UInt32) <<< diff).toBitVec =
          1#32 <<< (k.replayCounter.toNat - (n.toNat + 1)) := shift_toBitVec distance room'
      have known : k.replayBitmap &&& (1 : UInt32) <<< diff ≠ 0 ↔
          k.replayBitmap.toBitVec.getLsbD (k.replayCounter.toNat - (n.toNat + 1)) = true := by
        rw [ne_eq, ← UInt32.toBitVec_inj, UInt32.toBitVec_and, bit, ← BitVec.twoPow_eq,
          BitVec.and_twoPow]
        split
        case isTrue h =>
          refine ⟨fun _ => h, fun _ zero => ?_⟩
          have := congrArg (BitVec.getLsbD · (k.replayCounter.toNat - (n.toNat + 1))) zero
          simp [room'] at this
        case isFalse h => exact ⟨fun none => absurd rfl none, fun h' => absurd h' h⟩
      rw [if_pos room, if_pos room']
      by_cases seen : k.replayBitmap &&& (1 : UInt32) <<< diff ≠ 0
      · rw [if_pos seen, if_pos (known.mp seen)]
        exact ⟨rfl, rfl⟩
      · rw [if_neg seen, if_neg fun h => seen (known.mpr h)]
        refine ⟨rfl, ?_⟩
        simp only [UInt32.toBitVec_or, bit, Option.getD_some]
    · have room' : ¬ k.replayCounter.toNat - (n.toNat + 1) < 32 := by
        rw [← distance]
        exact fun h => room (UInt32.lt_iff_toNat_lt.mpr h)
      rw [if_neg room, if_neg room']
      exact ⟨rfl, rfl⟩

/-- The last counter is refused. -/
private theorem wireguardCheckReplay_room {k : WireguardKeypair} {n : UInt64}
    (h : (wireguardCheckReplay k n).2 = true) : n.toNat + 1 < 2 ^ 64 := by
  have positive : n + 1 ≠ 0 := by
    intro zero
    rw [wireguardCheckReplay] at h
    dsimp only at h
    rw [if_neg fun h => h zero] at h
    cases h
  have limit := n.toNat_lt
  by_contra last
  apply positive
  rw [← UInt64.toNat_inj, UInt64.toNat_add, show n.toNat = 2 ^ 64 - 1 by omega]
  rfl

/-! ### One session -/

/-- The counter of a packet handed to the IP layer. -/
private def inputCounter : SessionEvent → Option Nat
  | .encrypt _ _ => none
  | .input n _ => some n.toNat

/-- The steps of a row under its receiving key alone, where `authentic` counters come in. -/
private def ReceivingStep (authentic : Bytes → UInt64 → Bytes → Prop) (key : Bytes)
    (s : SessionRow) (o : Option SessionEvent) (s' : SessionRow) : Prop :=
  ∃ sendingKey initiator, SessionStep authentic (sendingKey, key, initiator) s o s'

/-- No two counters are 2^32 or more apart. -/
def NearCounters (authentic : UInt64 → Prop) : Prop :=
  ∀ m n, authentic m → authentic n → m.toNat < n.toNat + 2 ^ 32

/-- What is known of a row that delivered the counters `ns`: while it waits, nothing happened; then
its window is the one after some authentic counters, and all that it delivered but the first are
among them. -/
private structure Delivered (authentic : UInt64 → Prop) (ns : List Nat) (s : SessionRow) :
    Prop where
  waiting : s.1 = .next → ns = [] ∧ s.2.replayBitmap = 0 ∧ s.2.replayCounter = 0
  active : s.1 ≠ .next → ∃ seen first rest, ReplayWindow.Tracks s.2.window seen ∧ seen.Nodup ∧
    (∀ m ∈ seen, ∃ n, authentic n ∧ n.toNat = m) ∧ ns = first ++ rest ∧ first.length ≤ 1 ∧
    rest.reverse.Sublist seen

private theorem tracks_of_clear {k : WireguardKeypair} (bitmap : k.replayBitmap = 0)
    (counter : k.replayCounter = 0) : ReplayWindow.Tracks k.window [] := by
  have empty : k.window = .empty 32 := by
    rw [WireguardKeypair.window, bitmap, counter]
    rfl
  rw [empty]
  exact .empty 32

/-- A row that has only just begun to be used. -/
private theorem Delivered.begun {authentic : UInt64 → Prop} {slot : KeypairSlot}
    {k : WireguardKeypair} {ns : List Nat} (bitmap : k.replayBitmap = 0)
    (counter : k.replayCounter = 0) (hslot : slot ≠ .next) (hns : ns.length ≤ 1) :
    Delivered authentic ns (slot, k) where
  waiting h := absurd h hslot
  active _ := ⟨[], ns, [], tracks_of_clear bitmap counter, .nil,
    (fun _ hm => absurd hm List.not_mem_nil), (List.append_nil ns).symm, hns, List.Sublist.slnil⟩

private theorem Delivered.start {authentic : UInt64 → Prop} {s : SessionRow}
    (h : FreshSession s) : Delivered authentic [] s := by
  by_cases waits : s.1 = .next
  · exact ⟨fun _ => ⟨rfl, h.bitmap, h.top⟩, fun active => absurd waits active⟩
  · exact .begun h.bitmap h.top waits (Nat.zero_le 1)

/-- Where an authentic counter is checked, it is near enough. -/
private theorem near_of_tracks {authentic : UInt64 → Prop} (hnear : NearCounters authentic)
    {k : WireguardKeypair} {seen : List Nat} (tracks : ReplayWindow.Tracks k.window seen)
    (known : ∀ m ∈ seen, ∃ n, authentic n ∧ n.toNat = m) {n : UInt64} (hn : authentic n) :
    (k.replayBitmap = 0 ∨ n.toNat + 1 < k.replayCounter.toNat + 2 ^ 32) ∧
      k.replayCounter.toNat < n.toNat + 1 + 2 ^ 32 := by
  cases top : k.replayCounter.toNat with
  | zero =>
    refine ⟨.inl ?_, by omega⟩
    rw [← UInt32.toBitVec_inj]
    apply BitVec.eq_of_getLsbD_eq
    intro i hi
    rw [show (0 : UInt32).toBitVec = 0#32 from rfl, BitVec.getLsbD_zero]
    apply Bool.eq_false_iff.mpr
    intro set
    obtain ⟨m, _, eq⟩ := (tracks.bits i hi).mp set
    rw [show k.window.top = 0 from top] at eq
    omega
  | succ t =>
    obtain ⟨m, hm, rfl⟩ := known t (tracks.greatest t top)
    have up := hnear n m hn hm
    have down := hnear m n hm hn
    exact ⟨.inr (by omega), by omega⟩

private theorem Delivered.step {authentic : Bytes → UInt64 → Bytes → Prop} {key : Bytes}
    (hnear : NearCounters fun n => ∃ pkt, authentic key n pkt) {ns : List Nat}
    {s s' : SessionRow} {o : Option SessionEvent}
    (h : Delivered (fun n => ∃ pkt, authentic key n pkt) ns s)
    (step : ReceivingStep authentic key s o s') :
    Delivered (fun n => ∃ pkt, authentic key n pkt) (ns ++ o.toList.filterMap inputCounter) s' := by
  obtain ⟨_, _, step⟩ := step
  cases step with
  | encrypt src tx =>
    rw [show (some (SessionEvent.encrypt _ src)).toList.filterMap inputCounter = [] from rfl,
      List.append_nil]
    exact ⟨h.waiting, h.active⟩
  | @retire slot k =>
    rw [show (none : Option SessionEvent).toList.filterMap inputCounter = [] from rfl,
      List.append_nil]
    by_cases waits : slot = .next
    · obtain ⟨rfl, bitmap, counter⟩ := h.waiting waits
      exact .begun bitmap counter (by decide) (Nat.zero_le 1)
    · exact ⟨fun h => absurd h (show KeypairSlot.prev ≠ .next by decide),
        fun _ => h.active waits⟩
  | @promote k n pkt rx _ o ho =>
    obtain ⟨rfl, bitmap, counter⟩ := h.waiting rfl
    rw [List.nil_append]
    apply Delivered.begun (k := { k with lastRx := rx }) bitmap counter
      (show KeypairSlot.curr ≠ .next by decide)
    obtain rfl | rfl := ho
    · exact Nat.zero_le 1
    · exact Nat.le_refl 1
  | touch rx =>
    rw [show (none : Option SessionEvent).toList.filterMap inputCounter = [] from rfl,
      List.append_nil]
    exact ⟨h.waiting, h.active⟩
  | @accept slot k n pkt hslot hn passes o ho =>
    have hn : ∃ pkt, authentic key n pkt := ⟨pkt, hn⟩
    obtain ⟨seen, first, rest, tracks, nodup, known, rfl, short, sublist⟩ := h.active hslot
    -- the check is the window's, so the counter is new
    obtain ⟨below, above⟩ := near_of_tracks hnear tracks known hn
    obtain ⟨answer, window⟩ := wireguardCheckReplay_eq (wireguardCheckReplay_room passes) below above
    obtain ⟨rule, next⟩ := tracks.accept n.toNat
    have fresh : Fresh 32 seen n.toNat := rule.mp (answer.symm.trans passes)
    rw [offer_of_fresh fresh, ← window] at next
    refine ⟨fun h => absurd h hslot, fun _ => ?_⟩
    have known' : ∀ m ∈ n.toNat :: seen, ∃ n, (∃ pkt, authentic key n pkt) ∧ n.toNat = m := by
      intro m hm
      rcases List.mem_cons.mp hm with rfl | before
      · exact ⟨n, hn, rfl⟩
      · exact known m before
    have nodup' : (n.toNat :: seen).Nodup := List.nodup_cons.mpr ⟨fresh.1, nodup⟩
    obtain rfl | rfl := ho
    · refine ⟨n.toNat :: seen, first, rest, next, nodup', known', ?_, short, sublist.cons _⟩
      exact List.append_nil _
    · refine ⟨n.toNat :: seen, first, rest ++ [n.toNat], next, nodup', known', ?_, short, ?_⟩
      · exact List.append_assoc ..
      · rw [List.reverse_append]
        exact sublist.cons_cons _

private theorem Delivered.of_path {authentic : Bytes → UInt64 → Bytes → Prop} {key : Bytes}
    (hnear : NearCounters fun n => ∃ pkt, authentic key n pkt) {s₀ s : SessionRow}
    {es : List SessionEvent} (fresh : FreshSession s₀)
    (path : Path (ReceivingStep authentic) key s₀ es s) :
    Delivered (fun n => ∃ pkt, authentic key n pkt) (es.filterMap inputCounter) s := by
  induction path with
  | refl => exact .start fresh
  | silent _ ht ih =>
    have next := ih.step hnear ht
    rw [show (none : Option SessionEvent).toList.filterMap inputCounter = [] from rfl,
      List.append_nil] at next
    exact next
  | did _ ht ih =>
    rw [List.filterMap_append]
    exact ih.step hnear ht

/-! ### Runs -/

/-- A session with this receiving key is started. -/
def Effect.startsReceiving (key : Bytes) : Effect → Bool
  | .session _ receivingKey _ => decide (receivingKey = key)
  | _ => false

/-- The counter of a packet handed to the IP layer under this key. -/
def Effect.inputCounter (key : Bytes) : Effect → Option Nat
  | .input key' n _ => if key' = key then some n.toNat else none
  | _ => none

/-- How many sessions were started with this receiving key. -/
def receivingSessions (key : Bytes) (effects : List Effect) : Nat :=
  effects.countP (Effect.startsReceiving key)

/-- The counters of the packets that were handed to the IP layer under a key, in order. -/
def inputCounters (key : Bytes) (effects : List Effect) : List Nat :=
  effects.filterMap (Effect.inputCounter key)

private theorem input_log (key : Bytes) {log : List (Entry SessionKeys SessionEvent)}
    {effects : List Effect} (h : log.map entryEffect = keyed effects) :
    opens key (log.map (Entry.rename fun keys => keys.2.1)) = receivingSessions key effects ∧
      (history key (log.map (Entry.rename fun keys => keys.2.1))).filterMap inputCounter =
        inputCounters key effects := by
  constructor
  · rw [receivingSessions, ← countP_log (fun _ _ _ => rfl) h, opens, List.countP_map]
    apply List.countP_congr
    intro entry _
    cases entry with
    | opened keys => exact Iff.rfl
    | did keys event => cases event <;> exact Iff.rfl
  · rw [inputCounters, ← filterMap_log (fun _ _ _ => rfl) h, history, List.filterMap_map,
      List.filterMap_filterMap]
    congr 1
    funext entry
    cases entry with
    | opened keys => rfl
    | did keys event =>
      by_cases this : keys.2.1 = key
      · cases event <;> simp [Entry.rename, entryEffect, inputCounter, Effect.inputCounter, this]
      · cases event <;> simp [Entry.rename, entryEffect, Effect.inputCounter, this]

/-- In every run, under a receiving key that was derived at most once, and with counters that stay
within 2^32 of each other, the counters delivered are pairwise different but for the first, which
may come once more. -/
theorem inputCounters_tail_nodup (privateKey secret : Bytes) (now : UInt32)
    (cs : List WireguardifCall) (key : Bytes)
    (once : receivingSessions key
      ((wireguardDeviceInit privateKey secret now).calls cs).2 ≤ 1)
    (hnear : NearCounters fun n => ∃ pkt, Arrived cs key n pkt) :
    (inputCounters key
      ((wireguardDeviceInit privateKey secret now).calls cs).2).tail.Nodup := by
  obtain ⟨log, run, seen⟩ := wireguardDeviceInit_goes privateKey secret now cs
  obtain ⟨opened, counters⟩ := input_log key seen
  have renamed : Leads FreshSession (ReceivingStep (Arrived cs)) 0
      (log.map (Entry.rename fun keys => keys.2.1)) _ :=
    run.rename (fun keys => keys.2.1) fun keys _ _ _ step => ⟨keys.1, keys.2.2, step⟩
  rw [← opened] at once
  rw [← counters]
  rcases renamed.history once with silent | ⟨s₀, s, fresh, path⟩
  · rw [silent]
    exact List.nodup_nil
  · have delivered := Delivered.of_path hnear fresh path
    by_cases waits : s.1 = .next
    · rw [(delivered.waiting waits).1]
      exact List.nodup_nil
    · obtain ⟨seen, first, rest, _, nodup, _, eq, short, sublist⟩ := delivered.active waits
      have distinct : rest.Nodup := List.nodup_reverse.mp (sublist.nodup nodup)
      rw [eq]
      match first, short with
      | [], _ => exact distinct.sublist (List.tail_sublist rest)
      | [_], _ => exact distinct

/-! ### The first packet -/

/-- While a row waits, nothing is checked against its window. -/
private theorem path_waiting {authentic : Bytes → UInt64 → Bytes → Prop} {keys : SessionKeys}
    {s₀ s : SessionRow} {es : List SessionEvent} (fresh : FreshSession s₀)
    (path : Path (SessionStep authentic) keys s₀ es s) (waits : s.1 = .next) :
    s.2.replayBitmap = 0 ∧ s.2.replayCounter = 0 := by
  induction path with
  | refl => exact ⟨fresh.bitmap, fresh.top⟩
  | silent _ ht ih =>
    cases ht with
    | retire => cases waits
    | promote => cases waits
    | touch => exact ih waits
    | accept hslot => exact absurd waits hslot
  | did _ ht ih =>
    cases ht with
    | encrypt => exact ih waits
    | promote => cases waits
    | accept hslot => exact absurd waits hslot

/-- In every run a key that waits has a clear window. -/
theorem nextKeypair_clear {privateKey secret : Bytes} {now : UInt32} {cs : List WireguardifCall}
    (valid : ((wireguardDeviceInit privateKey secret now).calls cs).1.peer.nextKeypair.valid =
      true) :
    ((wireguardDeviceInit privateKey secret now).calls cs).1.peer.nextKeypair.replayBitmap = 0 ∧
      ((wireguardDeviceInit privateKey secret now).calls cs).1.peer.nextKeypair.replayCounter =
        0 := by
  obtain ⟨log, run, -⟩ := wireguardDeviceInit_goes privateKey secret now cs
  generalize ((wireguardDeviceInit privateKey secret now).calls cs).1.peer = peer at valid run ⊢
  have row : (peer.nextKeypair.keys, (KeypairSlot.next, peer.nextKeypair)) ∈
      sessionRows peer.keypair := by
    have here : sessionRow .next (peer.keypair .next) =
        {(peer.nextKeypair.keys, (KeypairSlot.next, peer.nextKeypair))} := if_pos valid
    rw [sessionRows, here]
    simp
  obtain ⟨-, s₀, es, fresh, path⟩ := run.path_of_mem row
  exact path_waiting fresh path rfl

/-- A clear window accepts every counter but the last. -/
private theorem wireguardCheckReplay_clear {k : WireguardKeypair} {n : UInt64}
    (hn : n.toNat + 1 < 2 ^ 64) (bitmap : k.replayBitmap = 0) (counter : k.replayCounter = 0) :
    (wireguardCheckReplay k n).2 = true ∧
      ReplayWindow.Tracks (wireguardCheckReplay k n).1.window [n.toNat] := by
  have top : k.replayCounter.toNat < n.toNat + 1 + 2 ^ 32 := by
    rw [counter]
    exact Nat.lt_add_left _ (by decide)
  obtain ⟨answer, next⟩ := wireguardCheckReplay_eq hn (.inl bitmap) top
  obtain ⟨rule, tracks⟩ := (tracks_of_clear bitmap counter).accept n.toNat
  have fresh : Fresh 32 [] n.toNat :=
    ⟨List.not_mem_nil, fun m hm => absurd hm List.not_mem_nil⟩
  rw [offer_of_fresh fresh, ← next] at tracks
  exact ⟨answer.trans (rule.mpr fresh), tracks⟩

/-- The counter that was accepted is refused. -/
private theorem wireguardCheckReplay_known {k : WireguardKeypair} {n : UInt64}
    (hn : n.toNat + 1 < 2 ^ 64) (tracks : ReplayWindow.Tracks k.window [n.toNat]) :
    (wireguardCheckReplay k n).2 = false := by
  have above : n.toNat + 1 ≤ k.replayCounter.toNat :=
    tracks.below n.toNat (List.mem_singleton_self _)
  have top : k.replayCounter.toNat = n.toNat + 1 := by
    cases eq : k.replayCounter.toNat with
    | zero =>
      rw [eq] at above
      cases above
    | succ t => rw [List.mem_singleton.mp (tracks.greatest t eq)]
  obtain ⟨answer, _⟩ := wireguardCheckReplay_eq (k := k) hn (.inr (by omega)) (by omega)
  rw [answer, Bool.eq_false_iff, ne_eq, (tracks.accept n.toNat).1]
  exact fun h => h.1 (List.mem_singleton_self _)

@[simp] theorem wireguardCheckReplay_localIndex (k : WireguardKeypair) (n : UInt64) :
    (wireguardCheckReplay k n).1.localIndex = k.localIndex := by
  simp only [wireguardCheckReplay]
  split_ifs <;> rfl

theorem getPeerKeypairForIdx_curr {peer : WireguardPeer} {idx : UInt32}
    (valid : peer.currKeypair.valid = true) (index : peer.currKeypair.localIndex = idx) :
    peer.getPeerKeypairForIdx idx = some .curr := by
  rw [WireguardPeer.getPeerKeypairForIdx, if_pos (by rw [valid, index]; exact beq_self_eq_true idx)]

/-- A waiting key with the index is found if the key in use has another. -/
theorem getPeerKeypairForIdx_waiting {peer : WireguardPeer} {idx : UInt32}
    (other : peer.currKeypair.localIndex ≠ idx) (valid : peer.nextKeypair.valid = true)
    (index : peer.nextKeypair.localIndex = idx) :
    peer.getPeerKeypairForIdx idx = some .next := by
  have free : ¬ (peer.currKeypair.valid && peer.currKeypair.localIndex == idx) = true := by
    rw [beq_false_of_ne other, Bool.and_false]
    exact Bool.false_ne_true
  have found : (peer.nextKeypair.valid && peer.nextKeypair.localIndex == idx) = true := by
    rw [valid, index]
    exact beq_self_eq_true idx
  rw [WireguardPeer.getPeerKeypairForIdx, if_neg free, if_pos found]

/-- A waiting key that is found is valid and has the index. -/
theorem getPeerKeypairForIdx_next {peer : WireguardPeer} {idx : UInt32}
    (h : peer.getPeerKeypairForIdx idx = some .next) :
    peer.nextKeypair.valid = true ∧ peer.nextKeypair.localIndex = idx := by
  rw [WireguardPeer.getPeerKeypairForIdx] at h
  split at h
  case isTrue => cases h
  case isFalse =>
    split at h
    case isTrue next =>
      obtain ⟨valid, index⟩ := Bool.and_eq_true_iff.mp next
      exact ⟨valid, eq_of_beq index⟩
    case isFalse =>
      split at h
      case isTrue => cases h
      case isFalse => cases h

theorem wireguardifNetworkRx_transport {d : WireguardDevice} {data : Bytes} (addr : IpAddr)
    (port : UInt16) (env : NetworkEnv) (kind : wireguardGetMessageType data = .transportData) :
    wireguardifNetworkRx d data addr port env =
      if peerLookupByReceiver d (u8to32Little data 4) then
        wireguardifProcessDataMessage d data addr port env.data
      else (d, []) := by
  rw [wireguardifNetworkRx, kind]

theorem peerLookupByReceiver_curr {d : WireguardDevice} {idx : UInt32}
    (peer : d.peer.valid = true) (valid : d.peer.currKeypair.valid = true)
    (index : d.peer.currKeypair.localIndex = idx) : peerLookupByReceiver d idx = true := by
  rw [peerLookupByReceiver, peer, valid, index, beq_self_eq_true]
  rfl

theorem packetReceived_allowedSourceIps (peer : WireguardPeer) (slot : KeypairSlot)
    (addr : IpAddr) (port : UInt16) (env : DataEnv) :
    (peer.packetReceived slot addr port env).allowedSourceIps = peer.allowedSourceIps := by
  rw [WireguardPeer.packetReceived, WireguardPeer.keypairUpdate]
  cases slot <;> rfl

/-- Whether a packet may come from where it says is a matter of the allowed addresses. -/
theorem sourceOk_congr {peer peer' : WireguardPeer}
    (same : peer.allowedSourceIps = peer'.allowedSourceIps) (iphdr : Bytes) :
    peer.sourceOk iphdr = peer'.sourceOk iphdr := by
  rw [WireguardPeer.sourceOk, WireguardPeer.sourceOk, same]

/-- Where a packet may come from is not changed by one that is received. -/
theorem packetReceived_sourceOk (peer : WireguardPeer) (slot : KeypairSlot)
    (addr : IpAddr) (port : UInt16) (env : DataEnv) (iphdr : Bytes) :
    (peer.packetReceived slot addr port env).sourceOk iphdr = peer.sourceOk iphdr :=
  sourceOk_congr (packetReceived_allowedSourceIps peer slot addr port env) iphdr

/-- The device after a packet was handed on under its current key, or one that was waiting: the key
is the current one, and what came with the call. -/
structure Current (d d' : WireguardDevice) (k : WireguardKeypair) : Prop where
  curr : d'.peer.currKeypair = k
  valid : d'.peer.valid = d.peer.valid
  sources : d'.peer.allowedSourceIps = d.peer.allowedSourceIps

theorem current_of_next {d : WireguardDevice} {data pkt : Bytes} {env : DataEnv}
    (addr : IpAddr) (port : UInt16) (h : Opens d data env .next pkt) (hpkt : pkt ≠ []) :
    Current d (wireguardifProcessDataMessage d data addr port env).1
      { d.peer.nextKeypair with lastRx := env.rxNow } := by
  rw [wireguardifProcessDataMessage_of_opens h hpkt]
  exact ⟨rfl, rfl, packetReceived_allowedSourceIps d.peer .next addr port env⟩

theorem current_of_curr {d : WireguardDevice} {data pkt : Bytes} {env : DataEnv}
    (addr : IpAddr) (port : UInt16) (h : Opens d data env .curr pkt) (hpkt : pkt ≠ []) :
    Current d (wireguardifProcessDataMessage d data addr port env).1
      (wireguardCheckReplay { d.peer.currKeypair with lastRx := env.rxNow }
        (u8to64Little data 8)).1 := by
  rw [wireguardifProcessDataMessage_of_opens h hpkt]
  exact ⟨rfl, rfl, packetReceived_allowedSourceIps d.peer .curr addr port env⟩

/-- The packet that takes a waiting key into use is checked against the key that is destroyed: when
the same datagram comes again while the key may be used, its packet is handed to the IP layer
again. When it comes a third time, it is not. -/
theorem wireguardifNetworkRx_first_packet (d : WireguardDevice) (data : Bytes)
    (addr addr' addr'' : IpAddr) (port port' port'' : UInt16) (env env' env'' : NetworkEnv)
    (key : Bytes) (n : UInt64) (pkt : Bytes)
    (kind : wireguardGetMessageType data = .transportData)
    (waits : d.peer.getPeerKeypairForIdx (u8to32Little data 4) = some .next)
    (bitmap : d.peer.nextKeypair.replayBitmap = 0) (counter : d.peer.nextKeypair.replayCounter = 0)
    (first : (wireguardifNetworkRx d data addr port env).2 = [.input key n pkt])
    (receives : d.peer.nextKeypair.receives env'.data.expiredNow = true)
    (memory : env'.data.pbuf = true) (slack : env'.data.slack = env.data.slack) :
    (wireguardifNetworkRx (wireguardifNetworkRx d data addr port env).1 data addr' port' env').2 =
        [.input key n pkt] ∧
      (wireguardifNetworkRx
        (wireguardifNetworkRx (wireguardifNetworkRx d data addr port env).1 data addr' port'
          env').1 data addr'' port'' env'').2 = [] := by
  rw [wireguardifNetworkRx_transport addr port env kind] at first ⊢
  split at first
  case isFalse => cases first
  case isTrue known =>
    have peer : d.peer.valid = true := (Bool.and_eq_true_iff.mp known).1
    rw [if_pos known]
    obtain ⟨slot, opens, some, rfl, rfl, passes, length, source⟩ := opens_of_input first
    obtain rfl := Option.some.inj (opens.found.symm.trans waits)
    obtain ⟨valid, index⟩ := getPeerKeypairForIdx_next waits
    have room := wireguardCheckReplay_room passes
    have promoted := current_of_next addr port opens some
    generalize (wireguardifProcessDataMessage d data addr port env.data).1 = d₁ at promoted ⊢
    have valid₁ : d₁.peer.currKeypair.valid = true := by
      rw [promoted.curr]
      exact valid
    have index₁ : d₁.peer.currKeypair.localIndex = u8to32Little data 4 := by
      rw [promoted.curr]
      exact index
    have opens₁ : Opens d₁ data env'.data .curr pkt := by
      refine ⟨getPeerKeypairForIdx_curr valid₁ index₁, ?_, memory, ?_⟩
      · show d₁.peer.currKeypair.receives _ = true
        rw [promoted.curr]
        exact receives
      · show chacha20poly1305Decrypt _ _ _ d₁.peer.currKeypair.receivingKey = _
        rw [promoted.curr]
        exact opens.opened
    -- the second copy is checked against the clear window of the key
    obtain ⟨k, hk⟩ : ∃ k, k = { d₁.peer.currKeypair with lastRx := env'.data.rxNow } := ⟨_, rfl⟩
    have here : (d₁.peer.packetReceived .curr addr' port' env'.data).keypair .curr = k := by
      rw [WireguardPeer.packetReceived_keypair _ _ _ _ (by decide), Function.update_self, hk]
      rfl
    obtain ⟨again, tracks⟩ := wireguardCheckReplay_clear (k := k) room
      (by rw [hk, promoted.curr]; exact bitmap) (by rw [hk, promoted.curr]; exact counter)
    rw [wireguardifNetworkRx_transport addr' port' env' kind,
      if_pos (peerLookupByReceiver_curr (promoted.valid.trans peer) valid₁ index₁)]
    have second := current_of_curr addr' port' opens₁ some
    constructor
    · rw [wireguardifProcessDataMessage_of_opens opens₁ some, here, again]
      dsimp only
      rw [packetReceived_sourceOk] at length source ⊢
      rw [slack, sourceOk_congr promoted.sources, source, decide_eq_true length]
      show [Effect.input d₁.peer.currKeypair.receivingKey _ pkt] = _
      rw [promoted.curr]
      rfl
    · rw [← hk] at second
      generalize (wireguardifProcessDataMessage d₁ data addr' port' env'.data).1 = d₂ at second ⊢
      have valid₂ : d₂.peer.currKeypair.valid = true := by
        rw [second.curr, wireguardCheckReplay_valid, hk]
        exact valid₁
      have index₂ : d₂.peer.currKeypair.localIndex = u8to32Little data 4 := by
        rw [second.curr, wireguardCheckReplay_localIndex, hk]
        exact index₁
      rw [wireguardifNetworkRx_transport addr'' port'' env'' kind, if_pos (peerLookupByReceiver_curr
        ((second.valid.trans promoted.valid).trans peer) valid₂ index₂)]
      rcases wireguardifProcessDataMessage_effects d₂ data addr'' port'' env''.data with
        silent | ⟨key, n, m, delivered⟩
      · exact silent
      · obtain ⟨slot, opens₂, _, _, rfl, passes₂, _⟩ := opens_of_input delivered
        obtain rfl := Option.some.inj
          (opens₂.found.symm.trans (getPeerKeypairForIdx_curr valid₂ index₂))
        rw [WireguardPeer.packetReceived_keypair _ _ _ _ (by decide), Function.update_self,
          wireguardCheckReplay_known room] at passes₂
        · cases passes₂
        · show ReplayWindow.Tracks d₂.peer.currKeypair.window _
          rw [second.curr]
          exact tracks

/-- So in every run a packet that takes a waiting key into use comes through twice, where the second
copy finds the key in use, memory, and the same bytes behind it. -/
theorem wireguardifNetworkRx_first_packet_run {privateKey secret : Bytes} {now : UInt32}
    {cs : List WireguardifCall} {data : Bytes} {addr addr' addr'' : IpAddr}
    {port port' port'' : UInt16} {env env' env'' : NetworkEnv} {key : Bytes} {n : UInt64}
    {pkt : Bytes} (kind : wireguardGetMessageType data = .transportData) :
    let d := ((wireguardDeviceInit privateKey secret now).calls cs).1
    d.peer.getPeerKeypairForIdx (u8to32Little data 4) = some .next →
      (wireguardifNetworkRx d data addr port env).2 = [.input key n pkt] →
      d.peer.nextKeypair.receives env'.data.expiredNow = true →
      env'.data.pbuf = true → env'.data.slack = env.data.slack →
      (d.calls [.networkRx data addr port env, .networkRx data addr' port' env',
        .networkRx data addr'' port'' env'']).2 = [.input key n pkt, .input key n pkt] := by
  intro d waits first receives memory slack
  obtain ⟨bitmap, counter⟩ := nextKeypair_clear (getPeerKeypairForIdx_next waits).1
  obtain ⟨second, third⟩ := wireguardifNetworkRx_first_packet d data addr addr' addr'' port port'
    port'' env env' env'' key n pkt kind waits bitmap counter first receives memory slack
  simp only [WireguardDevice.calls, WireguardDevice.call, first, second, third]
  rfl

/-- A clock that shows 1 where the packet counts as received. -/
def innerEnv : NetworkEnv := { (default : NetworkEnv) with data := ⟨0, true, 1, 0, []⟩ }

/-- The waiting key is taken into use by a datagram that comes three times. -/
theorem wireguardifNetworkRx_first_packet_waiting :
    (wireguardifNetworkRx (wireguardifNetworkRx waitingDevice innerDatagram (.v4 Ip4.any) 51820
      innerEnv).1 innerDatagram (.v4 Ip4.any) 51820 innerEnv).2 = [.input zeroKey 0 innerPacket] := by
  have some : innerPacket ≠ [] := by decide
  have kind : wireguardGetMessageType innerDatagram = .transportData :=
    wireguardGetMessageType_transport 7 0 (by rw [length_chacha20poly1305Encrypt]; decide)
  have opens : Opens waitingDevice innerDatagram innerEnv.data .next innerPacket :=
    ⟨rfl, rfl, rfl, decrypt_encrypt innerPacket [] 0 zeroKey⟩
  have first : (wireguardifNetworkRx waitingDevice innerDatagram (.v4 Ip4.any) 51820 innerEnv).2 =
      [.input zeroKey 0 innerPacket] := by
    have known : peerLookupByReceiver waitingDevice (u8to32Little innerDatagram 4) = true := rfl
    rw [wireguardifNetworkRx_transport _ _ _ kind, if_pos known,
      wireguardifProcessDataMessage_of_opens opens some]
    rfl
  exact (wireguardifNetworkRx_first_packet waitingDevice innerDatagram (.v4 Ip4.any) (.v4 Ip4.any)
    (.v4 Ip4.any) 51820 51820 51820 innerEnv innerEnv innerEnv zeroKey 0 innerPacket kind rfl rfl
    rfl first rfl rfl rfl).1

end Molewire
