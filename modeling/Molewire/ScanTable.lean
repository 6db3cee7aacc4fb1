/-
# The strongest networks

The scan table as a table that keeps the strongest: the name is the key, the
signal the score, and a slot holds what one report said. The slots are reused
from scan to scan, so a name stands in front of the rest of an older one, and
the comparison has to stop at its zero.
-/

import Mathlib.Data.List.Nodup
import Molewire.Library.Strongest
import Molewire.Control
import Molewire.SavedNames

namespace Molewire

open ByteBuffer Strongest

/-! ### Reports -/

/-- The name a report carries. -/
def ScanReport.name (r : ScanReport) : CStr := r.ssid.take r.ssidLen

/-- A report of a network with a name, in a buffer that goes on with a zero behind it. -/
structure ScanReport.Named (r : ScanReport) : Prop where
  pos : 0 < r.ssidLen
  le : r.ssidLen ≤ 32
  noNul : ∀ b ∈ r.name, b ≠ 0
  padded : r.ssid[r.ssidLen]? = some 0
  bssid : r.bssid.length = 6

/-- A slot that says what a report said. -/
structure ScanEntry.Filled (e : ScanEntry) (r : ScanReport) : Prop where
  ssid : ∃ older, e.ssidBuf = r.name ++ 0 :: older
  rssi : e.rssi = r.rssi
  channel : e.channel = r.channel
  bssid : e.bssid = r.bssid
  auth : e.auth = r.authMode

theorem cstr_terminated {name rest : Bytes} (h : ∀ b ∈ name, b ≠ 0) :
    cstr (name ++ 0 :: rest) = name := by
  rw [cstr, List.takeWhile_append_of_pos (by simpa using h)]
  simp

namespace ScanReport.Named

variable {r : ScanReport} (h : r.Named)

include h

theorem length_name : r.name.length = r.ssidLen := by
  obtain ⟨hlt, -⟩ := List.getElem?_eq_some_iff.mp h.padded
  rw [ScanReport.name, List.length_take]
  omega

theorem name_lt : r.name.length < configSsidMax := by
  have hle := h.le
  rw [h.length_name, configSsidMax]
  omega

theorem ssid_eq : ∃ rest, r.ssid = r.name ++ 0 :: rest := by
  obtain ⟨hlt, hget⟩ := List.getElem?_eq_some_iff.mp h.padded
  refine ⟨r.ssid.drop (r.ssidLen + 1), ?_⟩
  rw [ScanReport.name, ← hget, List.getElem_cons_drop, List.take_append_drop]

theorem cstr_ssid : cstr r.ssid = r.name := by
  obtain ⟨rest, hrest⟩ := h.ssid_eq
  conv_lhs => rw [hrest]
  exact cstr_terminated h.noNul

/-- It is neither the marker nor a hidden network. -/
theorem not_skipped : ¬(r.ssidLen = 0 ∨ r.ssid[0]? = some 0) := by
  have hpos := h.pos
  rintro (h0 | h0)
  · omega
  · have hlen := h.length_name
    have hmem : (0 : UInt8) ∈ r.name := by
      rw [List.mem_iff_getElem?]
      refine ⟨0, ?_⟩
      rw [ScanReport.name, List.getElem?_take_of_lt hpos, h0]
    exact h.noNul 0 hmem rfl

/-- Whatever a slot held, filling it makes it say what the report says. -/
theorem filled (e : ScanEntry) : (Scan.fillEntry e r (min r.ssidLen 32)).Filled r := by
  have hmin : min r.ssidLen 32 = r.ssidLen := Nat.min_eq_left h.le
  rw [hmin]
  exact ⟨⟨_, rfl⟩, rfl, rfl, List.take_of_length_le (Nat.le_of_eq h.bssid), rfl⟩

end ScanReport.Named

theorem ScanEntry.Filled.ssid_eq {e : ScanEntry} {r : ScanReport} (h : e.Filled r)
    (hr : r.Named) : e.ssid = r.name := by
  obtain ⟨older, holder⟩ := h.ssid
  rw [ScanEntry.ssid, holder]
  exact cstr_terminated hr.noNul

/-- The comparison finds the slots of the same name and no others. -/
theorem ScanEntry.Filled.match_iff {e : ScanEntry} {r x : ScanReport} (h : e.Filled x)
    (hx : x.Named) (hr : r.Named) :
    (strncmpEq e.ssid (cstr r.ssid) configSsidMax ∧
      e.ssidBuf[min r.ssidLen 32]? = some 0) ↔ x.name = r.name := by
  rw [h.ssid_eq hx, hr.cstr_ssid, strncmpEq_iff hx.name_lt hr.name_lt]
  refine and_iff_left_of_imp fun hname => ?_
  obtain ⟨older, holder⟩ := h.ssid
  have hmin : min r.ssidLen 32 = x.name.length := by
    rw [Nat.min_eq_left hr.le, hname, hr.length_name]
  rw [holder, hmin, List.getElem?_append_right (Nat.le_refl _), Nat.sub_self]
  rfl

/-! ### The table -/

namespace Scan

/-- The reports behind the slots in use. -/
def Holds (s : Scan) (slots : Nat → ScanReport) : Prop :=
  ∀ i < s.resultCount, (slots i).Named ∧ (s.results i).Filled (slots i)

/-- The search for the weakest ends with one. -/
theorem foldl_weakest (f : Nat → Int) (l : List Nat) (w : Nat) :
    let m := l.foldl (fun w i => if f i < f w then i else w) w
    (m = w ∨ m ∈ l) ∧ f m ≤ f w ∧ ∀ i ∈ l, f m ≤ f i := by
  induction l generalizing w with
  | nil => exact ⟨.inl rfl, le_refl _, fun i hi => absurd hi List.not_mem_nil⟩
  | cons j l ih =>
    obtain ⟨hmem, hle, hall⟩ := ih (if f j < f w then j else w)
    dsimp only [List.foldl_cons] at *
    have hstep : f (if f j < f w then j else w) ≤ f w ∧
        f (if f j < f w then j else w) ≤ f j := by
      split_ifs with hlt
      · exact ⟨le_of_lt hlt, le_refl _⟩
      · exact ⟨le_refl _, not_lt.mp hlt⟩
    refine ⟨?_, le_trans hle hstep.1, fun i hi => ?_⟩
    · rcases hmem with heq | hmem
      · rw [heq]
        split_ifs
        · exact .inr List.mem_cons_self
        · exact .inl rfl
      · exact .inr (List.mem_cons_of_mem _ hmem)
    · rcases List.mem_cons.mp hi with rfl | hi
      · exact le_trans hle hstep.2
      · exact hall i hi

theorem weakest_spec {s : Scan} (h : 0 < s.resultCount) :
    s.weakest < s.resultCount ∧
      ∀ i < s.resultCount, (s.results s.weakest).rssi ≤ (s.results i).rssi := by
  obtain ⟨hmem, hzero, hall⟩ := foldl_weakest (fun i => (s.results i).rssi)
    ((List.range s.resultCount).drop 1) 0
  constructor
  · rcases hmem with heq | hmem
    · rw [weakest, heq]
      exact h
    · exact List.mem_range.mp (List.mem_of_mem_drop hmem)
  · intro i hi
    rcases Nat.eq_zero_or_pos i with rfl | hpos
    · exact hzero
    · refine hall i ?_
      rw [List.mem_drop_iff_getElem]
      refine ⟨i - 1, by rw [List.length_range]; omega, ?_⟩
      rw [List.getElem_range]
      omega

/-- The search for the name finds the slot that has it. -/
theorem Holds.findEntry_cases {s : Scan} {slots : Nat → ScanReport} (h : s.Holds slots)
    {r : ScanReport} (hr : r.Named) :
    (∃ i, s.findEntry r (min r.ssidLen 32) = some i ∧ i < s.resultCount ∧
        (slots i).name = r.name) ∨
      (s.findEntry r (min r.ssidLen 32) = none ∧
        ∀ i < s.resultCount, (slots i).name ≠ r.name) := by
  cases hfind : s.findEntry r (min r.ssidLen 32) with
  | some i =>
    left
    have hi : i < s.resultCount := List.mem_range.mp (List.mem_of_find?_eq_some hfind)
    have hmatch : decide (strncmpEq (s.results i).ssid (cstr r.ssid) configSsidMax ∧
        (s.results i).ssidBuf[min r.ssidLen 32]? = some 0) = true := by
      rw [findEntry] at hfind
      simpa only using List.find?_some hfind
    exact ⟨i, rfl, hi, ((h i hi).2.match_iff (h i hi).1 hr).mp (of_decide_eq_true hmatch)⟩
  | none =>
    right
    refine ⟨rfl, fun i hi hname => ?_⟩
    have hmatch := List.find?_eq_none.mp hfind i (List.mem_range.mpr hi)
    exact hmatch (decide_eq_true (((h i hi).2.match_iff (h i hi).1 hr).mpr hname))

/-- Filling a slot with a report, which that slot then holds. -/
theorem Holds.fill {s : Scan} {slots : Nat → ScanReport} (h : s.Holds slots) {r : ScanReport}
    (hr : r.Named) {i n : Nat} (hn : n ≤ s.resultCount + 1)
    (hi : n ≤ s.resultCount ∨ i = s.resultCount) :
    ∀ j < n, (Function.update slots i r j).Named ∧
      ((s.setEntry i (fillEntry (s.results i) r (min r.ssidLen 32))).results j).Filled
        (Function.update slots i r j) := by
  intro j hj
  rw [setEntry]
  dsimp only
  rcases eq_or_ne j i with rfl | hne
  · rw [Function.update_self, Function.update_self]
    exact ⟨hr, hr.filled _⟩
  · rw [Function.update_of_ne hne, Function.update_of_ne hne]
    exact h j (by omega)

/-- **A report is a step of the table.** -/
theorem Holds.step {s : Scan} {slots : Nat → ScanReport} (h : s.Holds slots) {r : ScanReport}
    (hr : r.Named) :
    ∃ slots', Step ScanReport.name ScanReport.rssi wifiScanMax r slots s.resultCount slots'
        (s.scanCb r).resultCount ∧ (s.scanCb r).Holds slots' := by
  have hscore : ∀ i < s.resultCount, (s.results i).rssi = (slots i).rssi := fun i hi =>
    (h i hi).2.rssi
  rw [scanCb]
  dsimp only
  rw [if_neg hr.not_skipped]
  rcases h.findEntry_cases hr with ⟨i, hfind, hi, hname⟩ | ⟨hfind, hnew⟩ <;> rw [hfind]
  · -- the name is there
    dsimp only
    by_cases hlt : (s.results i).rssi < r.rssi
    · rw [if_pos hlt]
      exact ⟨_, .stronger i hi hname (by rwa [← hscore i hi]),
        h.fill hr (Nat.le_succ _) (.inl (Nat.le_refl _))⟩
    · rw [if_neg hlt]
      exact ⟨_, .weaker i hi hname (by rw [← hscore i hi]; exact not_lt.mp hlt), h⟩
  · dsimp only
    by_cases hroom : s.resultCount < wifiScanMax
    · rw [if_pos hroom]
      exact ⟨_, .add hnew hroom, h.fill hr (Nat.le_refl _) (.inr rfl)⟩
    rw [if_neg hroom]
    have hfull : wifiScanMax ≤ s.resultCount := not_lt.mp hroom
    obtain ⟨hw, hmin⟩ := weakest_spec (s := s) (Nat.lt_of_lt_of_le (by decide) hfull)
    by_cases hlt : (s.results s.weakest).rssi < r.rssi
    · rw [if_pos hlt]
      refine ⟨_, .replace s.weakest hw hnew hfull (fun i hi => ?_) (by rwa [← hscore _ hw]),
        h.fill hr (Nat.le_succ _) (.inl (Nat.le_refl _))⟩
      rw [← hscore _ hw, ← hscore i hi]
      exact hmin i hi
    · rw [if_neg hlt]
      refine ⟨_, .reject hnew hfull fun i hi => ?_, h⟩
      rw [← hscore i hi]
      exact le_trans (not_lt.mp hlt) (hmin i hi)

/-- The table after some reports. -/
theorem Holds.run {s : Scan} {slots : Nat → ScanReport} {offered : List ScanReport}
    (h : s.Holds slots)
    (hk : Keeps ScanReport.name ScanReport.rssi wifiScanMax offered slots s.resultCount)
    {rs : List ScanReport} (hrs : ∀ r ∈ rs, r.Named) :
    ∃ slots', (rs.foldl scanCb s).Holds slots' ∧
      Keeps ScanReport.name ScanReport.rssi wifiScanMax (offered ++ rs) slots'
        (rs.foldl scanCb s).resultCount := by
  induction rs generalizing s slots offered with
  | nil => exact ⟨slots, h, by rwa [List.append_nil]⟩
  | cons r rs ih =>
    obtain ⟨slots', hstep, h'⟩ := h.step (hrs r List.mem_cons_self)
    obtain ⟨slots'', hrun⟩ := ih h' (hk.step hstep) fun x hx => hrs x (List.mem_cons_of_mem r hx)
    rw [List.append_assoc] at hrun
    exact ⟨slots'', hrun⟩

theorem mem_entries {s : Scan} {e : ScanEntry} :
    e ∈ s.entries ↔ ∃ i < s.resultCount, s.results i = e := by
  simp [entries]

end Scan

namespace Control

theorem scanPass_resultCount (c : Control) :
    c.scanPass.2.scan.resultCount = c.scan.resultCount := by
  rw [scanPass]
  split
  next heq =>
    obtain ⟨-, rfl⟩ := Prod.mk.inj heq
    rfl
  next heq =>
    obtain ⟨-, rfl⟩ := Prod.mk.inj heq
    rfl

/-- `wifi_scan_start` marks the table empty, unless a scan is running. -/
theorem wifiScanStart_resultCount {c : Control} (h : c.scan.scanning = false) :
    c.wifiScanStart.2.scan.resultCount = 0 := by
  rw [wifiScanStart, h, if_neg (by decide), scanPass_resultCount]
  split_ifs <;> rfl

end Control

/-- **The scan table keeps the strongest networks.** After any reports since a scan was started it
has at most 24 entries with different names. Each of them says what one report said, the strongest
of its name. A network that was reported is missing only while the table is full, and it was
nowhere reported stronger than any entry. -/
theorem scan_keeps_strongest {c : Control} (hidle : c.scan.scanning = false)
    {rs : List ScanReport} (hrs : ∀ r ∈ rs, r.Named) :
    let t := rs.foldl Scan.scanCb c.wifiScanStart.2.scan
    t.entries.length ≤ 24 ∧ (t.entries.map (·.ssid)).Nodup ∧
      (∀ e ∈ t.entries,
        (∃ r ∈ rs, r.name = e.ssid ∧ r.rssi = e.rssi ∧ r.channel = e.channel ∧
          r.bssid = e.bssid ∧ r.authMode = e.auth) ∧
        ∀ r ∈ rs, r.name = e.ssid → r.rssi ≤ e.rssi) ∧
      ∀ r ∈ rs, (∀ e ∈ t.entries, e.ssid ≠ r.name) →
        t.entries.length = 24 ∧ ∀ e ∈ t.entries, r.rssi ≤ e.rssi := by
  intro t
  have hcount := c.wifiScanStart_resultCount hidle
  obtain ⟨slots, hholds, hk⟩ : ∃ slots, t.Holds slots ∧
      Keeps ScanReport.name ScanReport.rssi wifiScanMax rs slots t.resultCount := by
    have hempty : c.wifiScanStart.2.scan.Holds fun _ => ⟨[], 0, 0, 0, [], 0⟩ := fun i hi => by
      rw [hcount] at hi
      exact absurd hi (Nat.not_lt_zero i)
    exact hempty.run (by rw [hcount]; exact .nil _ _) hrs
  have hssid : ∀ i < t.resultCount, (t.results i).ssid = (slots i).name := fun i hi =>
    (hholds i hi).2.ssid_eq (hholds i hi).1
  have hlength : t.entries.length = t.resultCount := by
    rw [Scan.entries, List.length_map, List.length_range]
  refine ⟨hlength ▸ hk.count_le, ?_, fun e he => ?_, fun r hr hout => ?_⟩
  · rw [Scan.entries, List.map_map]
    refine List.Nodup.map_on (fun i hi j hj hij => ?_) (List.nodup_range)
    rw [List.mem_range] at hi hj
    rw [Function.comp_apply, Function.comp_apply, hssid i hi, hssid j hj] at hij
    exact hk.distinct i hi j hj hij
  · obtain ⟨i, hi, rfl⟩ := Scan.mem_entries.mp he
    have hfilled := (hholds i hi).2
    refine ⟨⟨slots i, hk.mem i hi, (hssid i hi).symm, hfilled.rssi.symm, hfilled.channel.symm,
      hfilled.bssid.symm, hfilled.auth.symm⟩, fun r hr hname => ?_⟩
    rw [hfilled.rssi]
    exact hk.best i hi r hr (hname.trans (hssid i hi))
  · -- no entry has its name, so it was turned away or pushed out
    obtain ⟨hfull, hweaker⟩ := hk.missing r hr fun j hj hname =>
      hout _ (Scan.mem_entries.mpr ⟨j, hj, rfl⟩) ((hssid j hj).trans hname)
    refine ⟨hlength.trans (le_antisymm hk.count_le hfull), fun e he => ?_⟩
    obtain ⟨i, hi, rfl⟩ := Scan.mem_entries.mp he
    rw [(hholds i hi).2.rssi]
    exact hweaker i hi

/-- A network that is reported twice, stronger the second time, and another one in between. -/
theorem scan_keeps_strongest_twice :
    let report : UInt8 → Int → ScanReport := fun x rssi =>
      ⟨[x, 0, 0, 0], 1, rssi, 6, [2, 0, 0, 0, 0, 1], 4⟩
    let rs := [report 97 (-70), report 98 (-60), report 97 (-50)]
    let c : Control := { cfg := {}, flash := none }
    let t := rs.foldl Scan.scanCb c.wifiScanStart.2.scan
    (∃ e ∈ t.entries, e.ssid = [97] ∧ e.rssi = -50) ∧
      ∃ e ∈ t.entries, e.ssid = [98] ∧ e.rssi = -60 := by
  intro report rs c t
  have hname : ∀ x rssi, (report x rssi).name = [x] := fun x rssi => rfl
  have hnamed : ∀ x rssi, x ≠ 0 → (report x rssi).Named := fun x rssi hx =>
    ⟨Nat.one_pos, by simp [report], by simp [hname, hx], rfl, rfl⟩
  obtain ⟨-, hnodup, hbest, hmissing⟩ :=
    @scan_keeps_strongest c rfl rs (by simp [rs, hnamed])
  -- two names do not fill the table, so neither is missing
  have hnames : t.entries.map (·.ssid) ⊆ [[97], [98]] := by
    intro name hmem
    obtain ⟨e, he, rfl⟩ := List.mem_map.mp hmem
    obtain ⟨r, hr, hr', -⟩ := (hbest e he).1
    rw [← hr']
    simp only [rs, List.mem_cons, List.not_mem_nil, or_false] at hr
    rcases hr with rfl | rfl | rfl <;> simp [hname]
  have hfew : t.entries.length ≤ 2 := by
    have hle := (List.subperm_of_subset hnodup hnames).length_le
    rwa [List.length_map] at hle
  have hkept : ∀ r ∈ rs, ∃ e ∈ t.entries, e.ssid = r.name := by
    intro r hr
    by_contra! hout
    exact (hfew.trans_lt (by decide : 2 < 24)).ne (hmissing r hr hout).1
  -- an entry says what one report of its name said, and no less than the others
  have hreported : ∀ e ∈ t.entries, ∃ r ∈ rs, r.name = e.ssid ∧ r.rssi = e.rssi := fun e he => by
    obtain ⟨r, hr, hr', hrssi, -⟩ := (hbest e he).1
    exact ⟨r, hr, hr', hrssi⟩
  constructor
  · obtain ⟨e, he, hssid⟩ := hkept (report 97 (-50)) (by simp [rs])
    have hle := (hbest e he).2 (report 97 (-50)) (by simp [rs]) hssid.symm
    obtain ⟨r, hr, hr', hrssi⟩ := hreported e he
    refine ⟨e, he, hssid, ?_⟩
    simp only [rs, List.mem_cons, List.not_mem_nil, or_false] at hr
    rcases hr with rfl | rfl | rfl
    · rw [← hrssi] at hle
      exact absurd hle (by simp [report])
    · rw [hssid] at hr'
      exact absurd hr' (by simp [hname])
    · exact hrssi.symm
  · obtain ⟨e, he, hssid⟩ := hkept (report 98 (-60)) (by simp [rs])
    obtain ⟨r, hr, hr', hrssi⟩ := hreported e he
    refine ⟨e, he, hssid, ?_⟩
    simp only [rs, List.mem_cons, List.not_mem_nil, or_false] at hr
    rcases hr with rfl | rfl | rfl
    · rw [hssid] at hr'
      exact absurd hr' (by simp [hname])
    · exact hrssi.symm
    · rw [hssid] at hr'
      exact absurd hr' (by simp [hname])

end Molewire
