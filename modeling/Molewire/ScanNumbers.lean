/-
# Numbers of a printed list

The scan submenu joins a network by the number it had in a printed list. The
number is looked up in the table of results, which the radio goes on filling:
nothing ties the two together but that the table is left alone in between.

A run remembers of each number whether a report has given it away, to a network
other than the listed one, since the list was printed. A join goes where the
list says exactly when that has not happened and the table still has the number.
A report that comes in after the scan was stopped is such a report like any
other, although it is meant to be ignored.
-/

import Molewire.ConfigEdits
import Molewire.ScanOwnership
import Molewire.ScanTable

namespace Molewire

open ByteBuffer Transition

/-! ### Printed lists -/

/-- The numbered list in an answer. The live scan prints its networks without numbers. -/
def Reply.list? : Reply → Option (List ScanEntry)
  | .networks shown => some shown
  | _ => none

/-- The numbered lists among what was printed. -/
def lists (out : List Reply) : List (List ScanEntry) := out.filterMap Reply.list?

@[simp] theorem lists_append (a b : List Reply) : lists (a ++ b) = lists a ++ lists b :=
  List.filterMap_append

theorem lists_drop_nil {l : List Reply} (h : lists l = []) (k : Nat) : lists (l.drop k) = [] := by
  rw [lists, List.filterMap_eq_nil_iff] at h ⊢
  exact fun r hr => h r (List.mem_of_mem_drop hr)

namespace Control

/-- The names on the list that was printed last, in the order of their numbers. -/
def listed (c : Control) : List CStr := ((lists c.out).getLast?.getD []).map (·.ssid)

/-- A list was printed since so much was out. -/
def PrintedSince (c : Control) (k : Nat) : Prop := lists (c.out.drop k) ≠ []

instance (c : Control) (k : Nat) : Decidable (c.PrintedSince k) :=
  inferInstanceAs (Decidable (_ ≠ []))

/-- The line is `join` in the scan submenu, with the number in front of entry `i` of a list. -/
def entersJoin (c : Control) (line : CStr) (i : Nat) : Bool :=
  c.proto.mode == .scan && isWord (splitLine (trimLine line)).1 "JOIN" &&
    (splitLine (trimLine line)).2.any fun args => parseIndex args (i + 1) == some i

/-- The line joins the network that the list has at `i`, and none if the list does not go so far. -/
structure JoinsListed (board : Board) (c : Control) (line : CStr) (i : Nat) : Prop where
  name : c.joinName line = c.listed[i]?
  selects : ∀ ssid, c.listed[i]? = some ssid → JoinEdit c.cfg ssid (c.handleLine board line).cfg

end Control

/-! ### Reports and numbers -/

/-- The marker of a complete scan, or a hidden network. -/
def ScanReport.Nameless (r : ScanReport) : Prop := r.ssidLen = 0 ∨ r.ssid[0]? = some 0

instance (r : ScanReport) : Decidable r.Nameless := inferInstanceAs (Decidable (_ ∨ _))

/-- The name under which a report enters the table. -/
def ScanReport.heard (r : ScanReport) : CStr := cstr (r.ssid.take (min r.ssidLen 32))

theorem cstr_append_zero (a b : Bytes) : cstr (a ++ 0 :: b) = cstr a := by
  rw [cstr, cstr, List.takeWhile_append]
  split_ifs with h
  · rw [List.takeWhile_cons_of_neg (by simp), List.append_nil]
    exact ((List.takeWhile_sublist _).eq_of_length h).symm
  · rfl

/-- A name ends where its buffer has a zero, or before. -/
theorem length_cstr_le {buf : Bytes} {k : Nat} (h : buf[k]? = some 0) : (cstr buf).length ≤ k := by
  by_contra hlong
  have hlt : k < (cstr buf).length := Nat.lt_of_not_le hlong
  have hsame : (cstr buf)[k] = 0 := by
    have hpre : cstr buf <+: buf := List.takeWhile_prefix _
    rw [List.getElem?_eq_getElem (hlt.trans_le hpre.length_le), ← hpre.getElem hlt] at h
    exact Option.some.inj h
  -- but the zero is not part of the name
  simpa [hsame] using List.mem_takeWhile_imp (List.getElem_mem hlt)

namespace Scan

/-- The number a report takes for a network that is not in the table: the next one, or in a full
table that of the weakest. -/
def takesNumber (s : Scan) (r : ScanReport) : Option Nat :=
  if r.Nameless ∨ (s.findEntry r (min r.ssidLen 32)).isSome then none
  else if s.resultCount < wifiScanMax then some s.resultCount
  else if (s.results s.weakest).rssi < r.rssi then some s.weakest
  else none

/-- A report that brings nothing: without a name, or of a network that was heard as well before, or
no stronger than any in a full table. -/
def PassesOver (s : Scan) (r : ScanReport) : Prop :=
  r.Nameless ∨
    match s.findEntry r (min r.ssidLen 32) with
    | some i => r.rssi ≤ (s.results i).rssi
    | none => wifiScanMax ≤ s.resultCount ∧ r.rssi ≤ (s.results s.weakest).rssi

instance (s : Scan) (r : ScanReport) : Decidable (s.PassesOver r) :=
  match h : s.findEntry r (min r.ssidLen 32) with
  | some i => decidable_of_iff (r.Nameless ∨ r.rssi ≤ (s.results i).rssi) (by simp [PassesOver, h])
  | none =>
    decidable_of_iff
      (r.Nameless ∨ wifiScanMax ≤ s.resultCount ∧ r.rssi ≤ (s.results s.weakest).rssi)
      (by simp [PassesOver, h])

/-- The name with a number. -/
def nameAt (s : Scan) (i : Nat) : Option CStr := (s.get i).map (·.ssid)

theorem fillEntry_heard (e : ScanEntry) (r : ScanReport) :
    (fillEntry e r (min r.ssidLen 32)).ssid = r.heard :=
  cstr_append_zero _ _

/-- A network that is heard again stays under its name. -/
theorem heard_of_findEntry {s : Scan} {r : ScanReport} {i : Nat}
    (h : s.findEntry r (min r.ssidLen 32) = some i) :
    i < s.resultCount ∧ r.heard = (s.results i).ssid := by
  have hlt := List.mem_range.mp (List.mem_of_find?_eq_some h)
  obtain ⟨hsame, hzero⟩ := of_decide_eq_true (by simpa only [findEntry] using List.find?_some h :
    decide (strncmpEq (s.results i).ssid (cstr r.ssid) configSsidMax ∧
      (s.results i).ssidBuf[min r.ssidLen 32]? = some 0) = true)
  have hlen : (s.results i).ssid.length ≤ min r.ssidLen 32 := length_cstr_le hzero
  have hfits : (s.results i).ssid.length < configSsidMax := by
    rw [configSsidMax]
    omega
  refine ⟨hlt, ?_⟩
  -- the reported name is compared up to 32 characters, which is as much as is taken
  have hname := storedName_of_strncmpEq hfits hsame
  calc r.heard = (cstr r.ssid).take (min r.ssidLen 32) := List.take_takeWhile.symm
    _ = (storedName (cstr r.ssid)).take (min r.ssidLen 32) := by
      rw [storedName, List.take_take, configSsidMax, min_eq_left (min_le_right _ _)]
    _ = (s.results i).ssid := by rw [← hname, List.take_of_length_le hlen]

/-- What a report does to the table, and the number it takes. -/
inductive ReportCase (s : Scan) (r : ScanReport) : Option Nat → Scan → Prop
  | nameless (hname : r.Nameless) : ReportCase s r none s
  | weaker {k : Nat} (hname : ¬r.Nameless) (hfind : s.findEntry r (min r.ssidLen 32) = some k)
      (hle : r.rssi ≤ (s.results k).rssi) : ReportCase s r none s
  | stronger {k : Nat} (hname : ¬r.Nameless) (hfind : s.findEntry r (min r.ssidLen 32) = some k)
      (hlt : (s.results k).rssi < r.rssi) :
      ReportCase s r none (s.setEntry k (fillEntry (s.results k) r (min r.ssidLen 32)))
  | added (hname : ¬r.Nameless) (hfind : s.findEntry r (min r.ssidLen 32) = none)
      (hroom : s.resultCount < wifiScanMax) :
      ReportCase s r (some s.resultCount)
        { s.setEntry s.resultCount
            (fillEntry (s.results s.resultCount) r (min r.ssidLen 32)) with
          resultCount := s.resultCount + 1 }
  | replaced (hname : ¬r.Nameless) (hfind : s.findEntry r (min r.ssidLen 32) = none)
      (hfull : wifiScanMax ≤ s.resultCount) (hlt : (s.results s.weakest).rssi < r.rssi) :
      ReportCase s r (some s.weakest)
        (s.setEntry s.weakest (fillEntry (s.results s.weakest) r (min r.ssidLen 32)))
  | rejected (hname : ¬r.Nameless) (hfind : s.findEntry r (min r.ssidLen 32) = none)
      (hfull : wifiScanMax ≤ s.resultCount) (hle : r.rssi ≤ (s.results s.weakest).rssi) :
      ReportCase s r none s

theorem scanCb_case (s : Scan) (r : ScanReport) :
    ReportCase s r (s.takesNumber r) (s.scanCb r) := by
  by_cases hname : r.Nameless
  · have hskip : s.scanCb r = s := if_pos hname
    rw [hskip, takesNumber, if_pos (Or.inl hname)]
    exact .nameless hname
  have hread : ¬(r.ssidLen = 0 ∨ r.ssid[0]? = some 0) := hname
  unfold scanCb takesNumber
  dsimp only
  rw [if_neg hread]
  cases hfind : s.findEntry r (min r.ssidLen 32) with
  | some k =>
    rw [if_pos (Or.inr Option.isSome_some)]
    dsimp only
    split_ifs with hlt
    · exact .stronger hname hfind hlt
    · exact .weaker hname hfind (not_lt.mp hlt)
  | none =>
    rw [if_neg (by simp [hname])]
    dsimp only
    split_ifs with hroom hlt
    · exact .added hname hfind hroom
    · exact .replaced hname hfind (not_lt.mp hroom) hlt
    · exact .rejected hname hfind (not_lt.mp hroom) (not_lt.mp hlt)

theorem nameAt_of_lt {s : Scan} {i : Nat} (h : i < s.resultCount) :
    s.nameAt i = some (s.results i).ssid := by
  rw [nameAt, get, if_pos h]
  rfl

theorem nameAt_of_le {s : Scan} {i : Nat} (h : s.resultCount ≤ i) : s.nameAt i = none := by
  rw [nameAt, get, if_neg (Nat.not_lt.mpr h)]
  rfl

theorem nameAt_eq_some_iff {s : Scan} {i : Nat} {name : CStr} :
    s.nameAt i = some name ↔ i < s.resultCount ∧ (s.results i).ssid = name := by
  by_cases h : i < s.resultCount
  · simp [nameAt_of_lt h, h]
  · simp [nameAt_of_le (Nat.not_lt.mp h), h]

/-- Filling an entry of the table, or the next one, names it and no other. -/
theorem nameAt_fill {s t : Scan} {r : ScanReport} {k : Nat}
    (hresults : t.results = Function.update s.results k
      (fillEntry (s.results k) r (min r.ssidLen 32)))
    (hcount : ∀ i, i < t.resultCount ↔ i < s.resultCount ∨ i = k) (i : Nat) :
    t.nameAt i = if some k = some i then some r.heard else s.nameAt i := by
  by_cases hi : i = k
  · subst hi
    rw [if_pos rfl, nameAt_of_lt ((hcount i).mpr (.inr rfl)), hresults, Function.update_self,
      fillEntry_heard]
  · have hiff : i < t.resultCount ↔ i < s.resultCount := (hcount i).trans (or_iff_left hi)
    rw [if_neg (by simpa using Ne.symm hi), nameAt, nameAt, get, get, hresults,
      Function.update_of_ne hi]
    simp only [hiff]

theorem nameAt_setEntry {s : Scan} {r : ScanReport} {k : Nat} (hk : k < s.resultCount) (i : Nat) :
    (s.setEntry k (fillEntry (s.results k) r (min r.ssidLen 32))).nameAt i =
      if some k = some i then some r.heard else s.nameAt i := by
  refine nameAt_fill rfl (fun j => ?_) i
  exact ⟨Or.inl, fun h => h.elim id fun h => h ▸ hk⟩

/-- A report gives at most one number away, to the network it names. -/
theorem scanCb_nameAt (s : Scan) (r : ScanReport) (i : Nat) :
    (s.scanCb r).nameAt i = if s.takesNumber r = some i then some r.heard else s.nameAt i := by
  have hcase := scanCb_case s r
  generalize s.takesNumber r = taken, s.scanCb r = t at hcase ⊢
  cases hcase with
  | nameless | weaker | rejected => rfl
  | @stronger k _ hfind =>
    -- the entry is filled anew, with the name it had
    obtain ⟨hk, hheard⟩ := heard_of_findEntry hfind
    rw [nameAt_setEntry hk, hheard, if_neg (Option.some_ne_none i).symm]
    split_ifs with hi
    · cases hi
      exact (nameAt_of_lt hk).symm
    · rfl
  | added => exact nameAt_fill (s := s) rfl (fun i => Nat.lt_succ_iff_lt_or_eq) i
  | replaced _ _ hfull =>
    exact nameAt_setEntry (weakest_spec (Nat.lt_of_lt_of_le (by decide) hfull)).1 i

theorem setEntry_ne_self {s : Scan} {k : Nat} {r : ScanReport}
    (h : (s.results k).rssi < r.rssi) :
    s.setEntry k (fillEntry (s.results k) r (min r.ssidLen 32)) ≠ s := by
  intro hsame
  have hrssi := congrArg (fun t : Scan => (t.results k).rssi) hsame
  rw [setEntry] at hrssi
  dsimp only at hrssi
  rw [Function.update_self] at hrssi
  exact h.ne hrssi.symm

/-- A report leaves the table as it was exactly when it brings nothing. -/
theorem scanCb_eq_self_iff (s : Scan) (r : ScanReport) : s.scanCb r = s ↔ s.PassesOver r := by
  have hcase := scanCb_case s r
  unfold PassesOver
  generalize s.takesNumber r = taken, s.scanCb r = t at hcase ⊢
  cases hcase with
  | nameless hname => exact iff_of_true rfl (.inl hname)
  | weaker _ hfind hle =>
    rw [hfind]
    exact iff_of_true rfl (.inr hle)
  | stronger hname hfind hlt =>
    rw [hfind]
    exact iff_of_false (setEntry_ne_self hlt) (not_or.mpr ⟨hname, not_le.mpr hlt⟩)
  | added hname hfind hroom =>
    rw [hfind]
    refine iff_of_false ?_ (not_or.mpr ⟨hname, fun h => (not_lt.mpr h.1) hroom⟩)
    intro hsame
    exact absurd (congrArg resultCount hsame) (Nat.succ_ne_self _)
  | replaced hname hfind _ hlt =>
    rw [hfind]
    exact iff_of_false (setEntry_ne_self hlt) (not_or.mpr ⟨hname, fun h => (not_lt.mpr h.2) hlt⟩)
  | rejected _ hfind hfull hle =>
    rw [hfind]
    exact iff_of_true rfl (.inr ⟨hfull, hle⟩)

end Scan

/-! ### Runs -/

/-- The control plane with what an observer of its lists remembers: for each number, how much was
out when a report gave it to a network that the last list does not have there. -/
structure ListRun where
  ctl : Control
  strayed : Nat → Option Nat := fun _ => none

namespace ListRun

/-- What is remembered after a report: the number it takes has strayed from the list, unless the
list has that network there. -/
def strayedBy (run : ListRun) (r : ScanReport) : Nat → Option Nat :=
  match run.ctl.scan.takesNumber r with
  | none => run.strayed
  | some i =>
    Function.update run.strayed i
      (if run.ctl.listed[i]? = some r.heard then none else some run.ctl.out.length)

/-- One event. Nothing is remembered of one that a restart swallows. -/
def step (board : Board) (run : ListRun) (e : ControlEvent) : ListRun where
  ctl := run.ctl.step board e
  strayed :=
    match e with
    | .report r => if run.ctl.halted then run.strayed else run.strayedBy r
    | _ => run.strayed

/-- The runs from power-up, in any order of events. -/
def Reached (board : Board) (run : ListRun) : Prop :=
  Reach (fun run => ∃ flash env, run = { ctl := Control.boot board flash env })
    (fun _ _ => True) (step board) run

end ListRun

namespace Control

/-- The number at `i` means what it says on the list: if the list goes so far the table still does,
and if the table does, no report has given the number away since the list was printed. -/
structure NumberKept (c : Control) (i : Nat) (strayed : Option Nat) : Prop where
  inTable : i < c.listed.length → i < c.scan.resultCount
  kept : i < c.scan.resultCount → ∀ k ∈ strayed, c.PrintedSince k

instance (c : Control) (i : Nat) (strayed : Option Nat) : Decidable (c.NumberKept i strayed) :=
  decidable_of_iff ((i < c.listed.length → i < c.scan.resultCount) ∧
    (i < c.scan.resultCount → ∀ k ∈ strayed, c.PrintedSince k))
    ⟨fun h => ⟨h.1, h.2⟩, fun h => ⟨h.1, h.2⟩⟩

/-! ### What leaves the numbers alone -/

/-- No list was printed, and the table is as it was or was emptied. -/
def ListKept (c d : Control) : Prop :=
  (∃ l, d.out = c.out ++ l ∧ lists l = []) ∧ TableKept c.scan d.scan

theorem ListKept.of_quiet {c d : Control} (hout : d.out = c.out) (ht : TableKept c.scan d.scan) :
    ListKept c d :=
  ⟨⟨[], by rw [hout, List.append_nil], rfl⟩, ht⟩

theorem ListKept.of_frame {c d : Control} (hout : d.out = c.out) (hscan : d.scan = c.scan) :
    ListKept c d :=
  .of_quiet hout (hscan ▸ .refl _)

theorem ListKept.refl (c : Control) : ListKept c c := .of_frame rfl rfl

theorem ListKept.trans {c d e : Control} (h : ListKept c d) (h' : ListKept d e) :
    ListKept c e := by
  obtain ⟨⟨l, hout, hl⟩, ht⟩ := h
  obtain ⟨⟨l', hout', hl'⟩, ht'⟩ := h'
  exact ⟨⟨l ++ l', by rw [hout', hout, List.append_assoc], by rw [lists_append, hl, hl']; rfl⟩,
    ht.trans ht'⟩

theorem ListKept.reply {c d : Control} (h : ListKept c d) {r : Reply} (hr : r.list? = none) :
    ListKept c (d.reply r) :=
  h.trans ⟨⟨[r], rfl, by rw [lists, List.filterMap_cons_none hr]; rfl⟩, .refl _⟩

theorem ListKept.say {c d : Control} (h : ListKept c d) (s : String) : ListKept c (d.say s) :=
  h.reply rfl

theorem ListKept.dump {c d : Control} (h : ListKept c d) : ListKept c d.dump := h.reply rfl

theorem ManagerAside.listKept {c d : Control} (h : ManagerAside c d) : ListKept c d :=
  .of_quiet h.2.1 h.2.2

theorem ListKept.wifiConnApply {c d : Control} (h : ListKept c d) :
    ListKept c d.wifiConnApply := by
  obtain ⟨_, _, _, _, happly⟩ := wifiConnApply_managerOnly d
  exact h.trans (.of_frame (by rw [happly]) (by rw [happly]))

/-! ### Lines -/

theorem joinProfile_listKept (c : Control) (p : Nat) (isOpen : Bool) :
    ListKept c (c.joinProfile p isOpen) := by
  have hactive : ListKept c { c with cfg.active := p } := .of_frame rfl rfl
  unfold joinProfile
  dsimp only
  split_ifs
  · exact (hactive.say _).wifiConnApply
  · exact (hactive.say _).wifiConnApply
  · exact hactive.say _

theorem joinSsid_listKept (c : Control) (ssid : CStr) (openHint : Option Bool) :
    ListKept c (c.joinSsid ssid openHint) := by
  unfold joinSsid
  dsimp only
  split
  case h_1 => exact joinProfile_listKept c _ _
  case h_2 =>
    split
    · exact (ListKept.refl c).say _
    · exact ListKept.trans (.of_frame rfl rfl) (joinProfile_listKept _ _ _)

theorem SetCase.listKept {c : Control} {args : CStr} {r : SetResult × Control}
    (h : SetCase c args r) : ListKept c r.2 := by
  cases h with
  | err s => exact (ListKept.refl c).say s
  | ssid =>
    unfold setSsid
    split_ifs
    · exact .of_frame rfl rfl
    · split
      · exact (ListKept.refl c).say _
      · exact .of_frame rfl rfl
  | pass =>
    unfold setPass
    split_ifs
    · exact (ListKept.refl c).say _
    · exact .of_frame rfl rfl
  | country => exact .of_frame rfl rfl
  | debug => exact .of_frame rfl rfl
  | wg => exact .of_frame rfl rfl
  | ap => exact .of_frame rfl rfl

theorem applySet_listKept {c : Control} {r : SetResult × Control} (h : ListKept c r.2) :
    ListKept c (applySet r) := by
  obtain ⟨k, d⟩ := r
  cases k with
  | err => exact h
  | wifi => exact (h.say _).wifiConnApply.dump
  | other => exact (h.say _).dump
  | wg => exact ((h.say _).trans (.of_frame rfl rfl)).dump
  | ap => exact ((h.say _).trans (.of_frame rfl rfl)).dump

theorem mainUse_listKept (c : Control) (args : CStr) : ListKept c (c.mainUse args) := by
  unfold mainUse
  split
  case h_1 => exact (ListKept.refl c).say _
  case h_2 i _ =>
    have hselected : ListKept c { c with cfg.active := i } := .of_frame rfl rfl
    exact (hselected.say _).wifiConnApply.dump

theorem mainDel_listKept (c : Control) (args : CStr) : ListKept c (c.mainDel args) := by
  unfold mainDel
  split
  case h_1 => exact (ListKept.refl c).say _
  case h_2 i _ =>
    have hdeleted : ListKept c { c with cfg := configDelProfile c.cfg i } := .of_frame rfl rfl
    exact (hdeleted.say _).wifiConnApply.dump

theorem mainPcap_listKept (c : Control) (args : CStr) : ListKept c (c.mainPcap args) := by
  have hcall (k : Call) : ListKept c (c.call k) := .of_frame rfl rfl
  unfold mainPcap
  split_ifs
  · exact (hcall _).say _
  · exact (hcall _).say _
  · exact (hcall _).say _
  · exact (ListKept.refl c).say _

theorem mainGenkey_listKept (board : Board) (c : Control) (args : Option CStr) :
    ListKept c (c.mainGenkey board args) := by
  have hdrawn : ListKept c { c with env.random := c.env.random.tail } := .of_frame rfl rfl
  unfold mainGenkey wgKeypairGenerate
  dsimp only
  split_ifs
  · exact (ListKept.refl c).say _
  · cases board.publicKey (clampKey (wireguardRandomBytes (c.env.random.headD []) 32)) with
    | none => exact hdrawn.say _
    | some pub =>
      -- what is printed of a new key, its text among it
      refine ⟨⟨[.text "[*] keypair generated on-device; the private key never leaves it\n",
        .text "    public key: ", .key (base64Encode pub),
        .text "\n    give this to the WireGuard admin, then `save`\n", .dump], ?_, rfl⟩, .refl _⟩
      simp only [Option.map_some, say, reply, applyWg, call, dump, List.append_assoc,
        List.cons_append, List.nil_append]

theorem mainPubkey_listKept (board : Board) (c : Control) :
    ListKept c (c.mainPubkey board) := by
  unfold mainPubkey
  split
  case h_1 => exact ((ListKept.refl c).reply rfl).say _
  case h_2 => exact (ListKept.refl c).say _

theorem mainSave_listKept (c : Control) : ListKept c c.mainSave := by
  unfold mainSave configSave
  dsimp only
  by_cases h : c.env.flashes.head? = some true
  · simp only [h, if_true]
    have hsaved : ListKept c ({ c with env.flashes := c.env.flashes.tail, flash := some c.cfg } :
        Control).noteSaved := .of_frame rfl rfl
    exact (hsaved.say _).dump
  · simp only [h, if_false]
    have hkept : ListKept c { c with env.flashes := c.env.flashes.tail } := .of_frame rfl rfl
    exact (hkept.say _).dump

theorem mainRestore_listKept (board : Board) (c : Control) :
    ListKept c (c.mainRestore board) := by
  have hloaded : ListKept c (c.configLoad board).noteSaved := .of_frame rfl rfl
  exact ((hloaded.say _).wifiConnApply.trans (.of_frame rfl rfl)).dump

theorem restart_listKept (c : Control) (toBootloader : Bool) :
    ListKept c (c.restart toBootloader) :=
  ((ListKept.refl c).say _).trans (.of_frame rfl rfl)

theorem startScan_listKept (c : Control) : ListKept c c.startScan := by
  have hstart := (wifiScanStart_aside c).listKept
  by_cases hs : c.scanStarts
  · rw [startScan_of_starts hs]
    have hmode : ListKept c { c.wifiScanStart.2 with
      proto := { mode := .scan, scanRounds := scanPasses } } := hstart.trans (.of_frame rfl rfl)
    exact hmode.say _
  · rw [startScan_of_refused (Bool.not_eq_true _ ▸ hs)]
    exact hstart.say _

theorem handleMain_listKept (board : Board) (c : Control) (cmd : CStr) (args : Option CStr) :
    ListKept c (c.handleMain board cmd args) := by
  have hcase := handleMain_case board c cmd args
  generalize c.handleMain board cmd args = d at hcase ⊢
  cases hcase with
  | set => exact applySet_listKept (cmdSet_case board c _).listKept
  | list => exact (ListKept.refl c).reply rfl
  | join => exact (joinSsid_listKept c _ _).dump
  | use a => exact mainUse_listKept c a
  | del a => exact mainDel_listKept c a
  | pcap a => exact mainPcap_listKept c a
  | genkey => exact mainGenkey_listKept board c args
  | pubkey => exact mainPubkey_listKept board c
  | restart toBootloader => exact restart_listKept c toBootloader
  | scan => exact startScan_listKept c
  | save => exact mainSave_listKept c
  | restore => exact mainRestore_listKept board c
  | unknown s => exact (ListKept.refl c).say s

theorem scanLive_listKept (c : Control) : ListKept c c.scanLive := by
  have hstart : ListKept c c.wifiLeave.wifiScanStart.2 :=
    ListKept.trans (.of_frame rfl rfl) (wifiScanStart_aside c.wifiLeave).listKept
  unfold scanLive
  split
  case h_1 heq =>
    rw [heq] at hstart
    exact (hstart.trans (.of_frame rfl rfl)).say _
  case h_2 heq =>
    rw [heq] at hstart
    exact hstart.say _

theorem scanJoin_listKept (c : Control) (args : CStr) : ListKept c (c.scanJoin args) := by
  have hmain : ListKept c { c with proto.mode := .main } := .of_frame rfl rfl
  unfold scanJoin
  split
  case h_1 => exact (ListKept.refl c).say _
  case h_2 i _ => exact (hmain.trans (joinSsid_listKept _ _ _)).dump

theorem handleScan_listKept (c : Control) (cmd : CStr) (args : Option CStr) :
    ListKept c (c.handleScan cmd args) := by
  have hmain : ListKept c { c with proto.mode := .main } := .of_frame rfl rfl
  have hcase := handleScan_case c cmd args
  generalize c.handleScan cmd args = d at hcase ⊢
  cases hcase with
  | back => exact hmain.dump
  | scan => exact startScan_listKept c
  | live => exact scanLive_listKept c
  | join => exact scanJoin_listKept c _
  | unknown s => exact (ListKept.refl c).say s

/-- Of the lines only an empty one prints a list. -/
theorem handleLine_listKept (board : Board) (c : Control) (line : CStr) :
    c.handleLine board line = c.listScan ∨ ListKept c (c.handleLine board line) := by
  have hcase := handleLine_case board c line
  generalize c.handleLine board line = d at hcase ⊢
  cases hcase with
  | listScan => exact .inl rfl
  | dump => exact .inr (.dump (.refl c))
  | scan => exact .inr (handleScan_listKept c _ _)
  | main => exact .inr (handleMain_listKept board c _ _)

/-! ### Numbers and lists -/

/-- Each number in the table belongs to the network that the last list has there, unless it has
strayed since the list was printed. -/
structure Numbered (strayed : Nat → Option Nat) (c : Control) : Prop where
  out_le : ∀ i, ∀ k ∈ strayed i, k ≤ c.out.length
  number : ∀ i name, c.scan.nameAt i = some name →
    ((∀ k ∈ strayed i, c.PrintedSince k) ↔ c.listed[i]? = some name)

section Invariant

variable {board : Board} {strayed : Nat → Option Nat} {c d : Control}

theorem Numbered.kept (h : Numbered strayed c) (hd : ListKept c d) : Numbered strayed d := by
  obtain ⟨⟨l, hout, hl⟩, hresults, hcount⟩ := hd
  have hlisted : d.listed = c.listed := by
    rw [listed, hout, lists_append, hl, List.append_nil, listed]
  have hsince (k : Nat) : d.PrintedSince k ↔ c.PrintedSince k := by
    rw [PrintedSince, hout, List.drop_append, lists_append, lists_drop_nil hl, List.append_nil,
      PrintedSince]
  constructor
  · intro i k hk
    rw [hout, List.length_append]
    exact (h.out_le i k hk).trans (Nat.le_add_right _ _)
  · intro i name hname
    obtain ⟨hlt, hssid⟩ := Scan.nameAt_eq_some_iff.mp hname
    -- what is still in the table was in it before
    have hold : i < c.scan.resultCount :=
      hcount.elim (fun hc => hc ▸ hlt) fun hc => absurd hlt (hc ▸ Nat.not_lt_zero i)
    simp only [hsince, hlisted]
    exact h.number i name (Scan.nameAt_eq_some_iff.mpr ⟨hold, hresults ▸ hssid⟩)

/-- Printing the list ties every number to it. -/
theorem Numbered.listScan (h : Numbered strayed c) : Numbered strayed c.listScan := by
  constructor
  · intro i k hk
    rw [Control.listScan, reply, List.length_append]
    exact (h.out_le i k hk).trans (Nat.le_add_right _ _)
  · intro i name hname
    obtain ⟨hlt, hssid⟩ : i < c.scan.resultCount ∧ (c.scan.results i).ssid = name :=
      Scan.nameAt_eq_some_iff.mp hname
    apply iff_of_true
    · intro k hk
      rw [PrintedSince, Control.listScan, reply, List.drop_append_of_le_length (h.out_le i k hk),
        lists_append]
      exact List.append_ne_nil_of_right_ne_nil _ (List.cons_ne_nil _ _)
    · -- the list that was printed is the table
      have hlast : (lists (c.out ++ [.networks c.scan.entries])).getLast? =
          some c.scan.entries := by
        rw [lists_append]
        exact List.getLast?_concat
      have hentry : c.scan.entries[i]? = some (c.scan.results i) := by
        rw [Scan.entries, List.getElem?_map, List.getElem?_range hlt]
        rfl
      rw [listed, Control.listScan, reply, hlast, Option.getD_some, List.getElem?_map, hentry]
      exact congrArg some hssid

theorem Numbered.handleLine (h : Numbered strayed c) (line : CStr) :
    Numbered strayed (c.handleLine board line) := by
  rcases handleLine_listKept board c line with hlist | hkept
  · exact hlist ▸ h.listScan
  · exact h.kept hkept

/-! ### Console ticks -/

theorem consoleEdge_listKept (c : Control) (connected : Bool) :
    ListKept c (c.consoleEdge connected) := by
  have hreset : ListKept c c.protoReset := by
    unfold protoReset Scan.stop
    dsimp only
    split_ifs <;> exact .of_quiet rfl ⟨rfl, .inl rfl⟩
  unfold consoleEdge
  dsimp only
  split_ifs
  · exact (hreset.dump.say _).trans (.of_frame rfl rfl)
  · exact hreset.trans (.of_frame rfl rfl)
  · exact .refl c

theorem pollLive_listKept (c : Control) : ListKept c c.pollLive := by
  have hpoll := (wifiScanPoll_aside c).listKept
  have hstart (d : Control) := (wifiScanStart_aside d).listKept
  unfold pollLive
  dsimp only
  split_ifs
  · exact hpoll.reply rfl
  · exact (hpoll.reply rfl).trans (hstart _)
  · exact hpoll
  · exact hpoll.trans (hstart _)

theorem Numbered.pollRounds (h : Numbered strayed c) : Numbered strayed c.pollRounds := by
  have hround (left : Nat) : Numbered strayed { c.wifiScanPoll.2 with proto.scanRounds := left } :=
    h.kept ((wifiScanPoll_aside c).listKept.trans (.of_frame rfl rfl))
  have hagain (d : Control) (hd : Numbered strayed d) : Numbered strayed d.wifiScanAgain.2 :=
    hd.kept (wifiScanAgain_aside d).listKept
  have hdot (d : Control) (p : Prop) [Decidable p] (hd : Numbered strayed d) :
      Numbered strayed (if p then d.say "." else d) := by
    split_ifs
    · exact hd.kept ((ListKept.refl d).say _)
    · exact hd
  unfold Control.pollRounds
  refine iteInduction (fun _ => iteInduction (fun _ => ?_) fun _ => ?_) fun _ =>
    iteInduction (fun _ => ?_) fun _ => ?_
  · exact hdot _ _ (hround _)
  · exact hagain _ (hdot _ _ (hround _))
  · -- the last pass: the list is printed, and the prompt
    refine Numbered.kept (Numbered.listScan (Numbered.kept ?_ ((ListKept.refl _).say "\n")))
      ((ListKept.refl _).say _)
    exact hdot _ _ (hround _)
  · exact hdot _ _ (hround _)

theorem Numbered.consolePoll (h : Numbered strayed c) (connected : Bool) :
    Numbered strayed (c.consolePoll connected) := by
  have hedge := h.kept (consoleEdge_listKept c connected)
  unfold Control.consolePoll protoPoll
  dsimp only
  split_ifs
  · exact hedge.kept (pollLive_listKept _)
  · exact hedge
  · exact hedge.pollRounds
  · exact hedge

/-- Stopping the live scan prints the list. -/
theorem Numbered.contscanStop (h : Numbered strayed c) : Numbered strayed c.contscanStop := by
  have hstop : ListKept c { c with
      scan := c.scan.stop, proto := { mode := .scan, scanRounds := 0 } } :=
    .of_quiet rfl ⟨rfl, .inl rfl⟩
  exact (h.kept (hstop.say _)).listScan

theorem Numbered.bytes (h : Numbered strayed c) (rx : Bytes) :
    Numbered strayed (rx.foldl (consoleByte board) c) ∧
      ∀ x ∈ typedLines board c rx, Numbered strayed x.1 := by
  apply consoleBytes_keeps _ _ _ h
  · intro c buf hc
    exact hc.kept (.of_frame rfl rfl)
  · intro c s hc
    exact hc.kept ((ListKept.refl c).say s)
  · intro x _ hx
    exact hx.handleLine x.2

theorem Numbered.consoleRead (h : Numbered strayed c) (rx : Bytes) :
    Numbered strayed (c.consoleRead board rx) := by
  unfold Control.consoleRead
  dsimp only
  split_ifs
  · exact h
  · exact h.contscanStop.kept (((ListKept.refl _).say _).trans (.of_frame rfl rfl))
  · exact (h.bytes rx).1

/-! ### Events -/

theorem Numbered.report {run : ListRun} (h : Numbered run.strayed run.ctl) (r : ScanReport) :
    Numbered (run.strayedBy r) { run.ctl with scan := run.ctl.scan.scanCb r } := by
  have hname := Scan.scanCb_nameAt run.ctl.scan r
  unfold ListRun.strayedBy
  cases htakes : run.ctl.scan.takesNumber r with
  | none =>
    simp only [htakes, reduceCtorEq, if_false] at hname
    exact ⟨h.out_le, fun i name hi => h.number i name ((hname i).symm.trans hi)⟩
  | some j =>
    dsimp only
    constructor
    · intro i k hk
      rcases eq_or_ne i j with rfl | hne
      · rw [Function.update_self] at hk
        split_ifs at hk
        · cases hk
        · exact (Option.some.inj hk).ge
      · rw [Function.update_of_ne hne] at hk
        exact h.out_le i k hk
    · intro i name hi
      rw [hname, htakes] at hi
      rcases eq_or_ne i j with rfl | hne
      · -- the network that is given the number is the listed one, or not
        rw [if_pos rfl] at hi
        obtain rfl := Option.some.inj hi
        rw [Function.update_self]
        split_ifs with hback
        · exact iff_of_true nofun hback
        · apply iff_of_false _ hback
          intro hprinted
          exact hprinted _ rfl (by rw [List.drop_length]; rfl)
      · rw [if_neg (by simpa using hne.symm)] at hi
        rw [Function.update_of_ne hne]
        exact h.number i name hi

/-- One event, and the states in which its lines are handled. -/
theorem Numbered.event {run : ListRun} (h : Numbered run.strayed run.ctl) (e : ControlEvent) :
    Numbered (run.step board e).strayed (run.step board e).ctl ∧
      ∀ x ∈ handled board run.ctl e, Numbered run.strayed x.1 := by
  have hnone : ∀ x ∈ ([] : List (Control × CStr)), Numbered run.strayed x.1 := by simp
  have henv (env : Env) : Numbered run.strayed { run.ctl with env := env } :=
    h.kept (.of_frame rfl rfl)
  unfold ListRun.step Control.step handled
  dsimp only
  by_cases hhalt : run.ctl.halted
  · rw [if_pos hhalt, if_pos hhalt]
    refine ⟨?_, hnone⟩
    cases e with
    | report =>
      dsimp only
      rw [if_pos hhalt]
      exact h
    | _ => exact h
  · rw [if_neg hhalt, if_neg hhalt]
    cases e with
    | console env connected rx =>
      have hpolled := (henv env).consolePoll connected
      refine ⟨hpolled.consoleRead rx, ?_⟩
      dsimp only
      split_ifs
      · exact hnone
      · exact (hpolled.bytes rx).2
    | portal env body =>
      refine ⟨(henv env).handleLine _, ?_⟩
      intro x hx
      exact List.mem_singleton.mp hx ▸ henv env
    | portalScan => exact ⟨h.kept (.of_frame rfl rfl), hnone⟩
    | manager env => exact ⟨(henv env).kept (wifiConnTask_aside _).listKept, hnone⟩
    | report r =>
      refine ⟨?_, hnone⟩
      dsimp only
      rw [if_neg hhalt]
      exact h.report r

end Invariant

theorem numbered_boot (board : Board) (flash : Option Config) (env : Env) :
    Numbered (fun _ => none) (boot board flash env) := by
  obtain ⟨-, hout, htable⟩ := wifiConnInit_aside
    (({ cfg := {}, flash := flash, env := env : Control }).configLoad board)
  have hempty : (boot board flash env).scan.resultCount = 0 := htable.count.elim id id
  exact ⟨nofun, fun i name hname =>
    absurd (Scan.nameAt_eq_some_iff.mp hname).1 (hempty ▸ Nat.not_lt_zero i)⟩

theorem numbered_reached {board : Board} {run : ListRun} (h : run.Reached board) :
    Numbered run.strayed run.ctl := by
  refine Reach.invariant (I := fun run : ListRun => Numbered run.strayed run.ctl) ?_
    (fun run e _ _ hrun => (hrun.event e).1) h
  rintro _ ⟨flash, env, rfl⟩
  exact numbered_boot board flash env

/-! ### Joining by number -/

theorem parseIndex_number {args : CStr} {i : Nat} (h : parseIndex args (i + 1) = some i)
    (count : Nat) : parseIndex args count = if i < count then some i else none := by
  unfold parseIndex at h ⊢
  dsimp only at h ⊢
  split_ifs at h with hbad
  simp only [not_or, Int.not_lt, Option.some.injEq] at hbad h
  obtain ⟨hread, hend, hpos, hle⟩ := hbad
  -- the number is that of entry `i`, counted from one
  have hv : (strtol args).1 = i + 1 := by omega
  by_cases hlt : i < count
  · rw [if_pos hlt, if_neg, hv]
    · rfl
    · simp only [not_or, Int.not_lt]
      exact ⟨hread, hend, hpos, by omega⟩
  · rw [if_neg hlt, if_pos (.inr (.inr (.inr (by omega))))]

/-- A join in the submenu is for the network that has the number now. -/
theorem joinName_of_entersJoin {c : Control} {line : CStr} {i : Nat} (h : c.entersJoin line i) :
    c.joinName line = c.scan.nameAt i := by
  obtain ⟨⟨hmode, hword⟩, hargs⟩ := by
    simpa only [entersJoin, Bool.and_eq_true, beq_iff_eq, Option.any_eq_true] using h
  obtain ⟨args, hargs, hnumber⟩ := hargs
  unfold joinName
  dsimp only
  rw [if_neg (not_not.mpr hword), if_pos hmode, hargs, Option.bind_some,
    parseIndex_number hnumber, Scan.nameAt, Scan.get]
  split_ifs <;> rfl

theorem joinsListed_iff {board : Board} {c : Control} {line : CStr} {i : Nat}
    (h : c.entersJoin line i) : c.JoinsListed board line i ↔ c.scan.nameAt i = c.listed[i]? := by
  have hname := joinName_of_entersJoin h
  constructor
  · intro hjoins
    exact hname.symm.trans hjoins.name
  · intro hsame
    have hjoins := hname.trans hsame
    exact ⟨hjoins, fun ssid hssid => handleLine_join board (hjoins.trans hssid)⟩

/-- **`join <n>` and the list.** In every run, a join in the scan submenu selects the network that
the last list shows under its number exactly when the number was kept: it is still in the table, and
no report has given it to another network since. And a report that comes in while no scan is on is
without effect exactly when it brings nothing. -/
theorem join_as_listed {board : Board} {run : ListRun} (h : run.Reached board) :
    (∀ e, ∀ x ∈ handled board run.ctl e, ∀ i, x.1.entersJoin x.2 i →
      (x.1.JoinsListed board x.2 i ↔ x.1.NumberKept i (run.strayed i))) ∧
    ∀ r, run.ctl.halted = false → run.ctl.scan.scanning = false →
      ((run.step board (.report r)).ctl.scan = run.ctl.scan ↔ run.ctl.scan.PassesOver r) := by
  constructor
  · intro e x hx i hjoin
    have hnumbered : Numbered run.strayed x.1 := ((numbered_reached h).event e).2 x hx
    rw [joinsListed_iff hjoin]
    rcases Nat.lt_or_ge i x.1.scan.resultCount with hin | hout
    · -- a number of the table names the listed network unless it has strayed
      have hname := Scan.nameAt_of_lt hin
      rw [hname, eq_comm, ← hnumbered.number i _ hname]
      exact ⟨fun hkept => ⟨fun _ => hin, fun _ => hkept⟩, fun hkept => hkept.kept hin⟩
    · -- and one that is not in the table must not be on the list
      rw [Scan.nameAt_of_le hout, eq_comm, List.getElem?_eq_none_iff]
      constructor
      · intro hle
        exact ⟨fun hlt => absurd hlt (Nat.not_lt.mpr hle),
          fun hin => absurd hin (Nat.not_lt.mpr hout)⟩
      · intro hkept
        exact Nat.not_lt.mp fun hlt => absurd (hkept.inTable hlt) (Nat.not_lt.mpr hout)
  · intro r hrun _
    have hstep : (run.step board (.report r)).ctl.scan = run.ctl.scan.scanCb r := by
      rw [ListRun.step, Control.step, if_neg (by rw [hrun]; decide)]
    rw [hstep]
    exact Scan.scanCb_eq_self_iff _ r

/-! ### A late report -/

/-- A network of one letter. -/
def beacon (name : UInt8) (rssi : Int) : ScanReport where
  ssid := name :: List.replicate 32 0
  ssidLen := 1
  rssi := rssi
  channel := 6
  bssid := [2, 0, 0, 0, 0, name]
  authMode := 0

/-- A live scan that hears some networks, until a key stops it and the list is printed. -/
def liveStopped (heard : List ScanReport) : ListRun :=
  List.foldl (ListRun.step plainBoard) { ctl := boot plainBoard none {} }
    (.console { scans := [true] } true (ascii "scan\rlive\r") :: heard.map .report ++
      [.console { scanActive := true } true [32]])

theorem liveStopped_reached (heard : List ScanReport) :
    (liveStopped heard).Reached plainBoard :=
  Reach.foldl (.start ⟨none, {}, rfl⟩) (AdmitsAll.of_forall (fun _ _ => trivial) _ _)

/-- Two networks were heard, and the second one of the list is joined. A weaker report of the first
is without effect. -/
theorem join_as_listed_second :
    let run := liveStopped [beacon 65 (-60), beacon 66 (-70)]
    (∀ x ∈ handled plainBoard run.ctl (.console {} true (ascii "join 2\r")),
      x.1.JoinsListed plainBoard x.2 1) ∧
      (run.step plainBoard (.report (beacon 65 (-80)))).ctl.scan = run.ctl.scan := by
  intro run
  obtain ⟨hjoins, hlate⟩ := join_as_listed (liveStopped_reached [beacon 65 (-60), beacon 66 (-70)])
  have hline : ∀ x ∈ handled plainBoard run.ctl (.console {} true (ascii "join 2\r")),
      x.1.entersJoin x.2 1 ∧ x.1.NumberKept 1 (run.strayed 1) := by decide +kernel
  refine ⟨fun x hx => (hjoins _ x hx 1 (hline x hx).1).mpr (hline x hx).2, ?_⟩
  exact (hlate _ (by decide +kernel) (by decide +kernel)).mpr (by decide +kernel)

/-- The list of a live scan that filled the table. -/
def fullList : ListRun := liveStopped ((List.range 24).map fun k => beacon (65 + k.toUInt8) (-80))

/-- A strong network that is heard after the scan was stopped. -/
def lateReport : ScanReport := beacon 122 (-40)

/-- The late report takes the place of the first network, and `join 1` joins the late one. -/
theorem join_not_as_listed :
    (fullList.step plainBoard (.report lateReport)).Reached plainBoard ∧
      (∃ x ∈ handled plainBoard (fullList.step plainBoard (.report lateReport)).ctl
          (.console {} true (ascii "join 1\r")),
        x.1.entersJoin x.2 0 ∧ x.1.listed[0]? = some [65] ∧ x.1.joinName x.2 = some [122] ∧
          ¬x.1.JoinsListed plainBoard x.2 0) ∧
      ¬∀ (run : ListRun) (r : ScanReport), run.Reached plainBoard → run.ctl.halted = false →
        run.ctl.scan.scanning = false →
          (run.step plainBoard (.report r)).ctl.scan = run.ctl.scan := by
  have hfull : fullList.Reached plainBoard := liveStopped_reached _
  refine ⟨hfull.step trivial, ?_, ?_⟩
  · have hlines : ∃ x ∈ handled plainBoard (fullList.step plainBoard (.report lateReport)).ctl
          (.console {} true (ascii "join 1\r")),
        x.1.entersJoin x.2 0 ∧ x.1.listed[0]? = some [65] ∧ x.1.joinName x.2 = some [122] := by
      decide +kernel
    obtain ⟨x, hx, hjoin, hlisted, hname⟩ := hlines
    refine ⟨x, hx, hjoin, hlisted, hname, ?_⟩
    intro hjoins
    have hsame := hjoins.name
    rw [hlisted, hname] at hsame
    exact absurd hsame (by decide)
  · intro hignored
    have hkept := hignored fullList lateReport hfull (by decide +kernel) (by decide +kernel)
    exact absurd (congrArg (·.nameAt 0) hkept) (by decide +kernel)

end Control

end Molewire
