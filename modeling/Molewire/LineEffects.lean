/-
# What a line can do

Every command of the main menu falls into one of three kinds: it edits the
configuration and answers, it edits and has the station re-associated, or it
starts a scan. The kinds are told apart here once, so that what is said about
the lines of two clients need not look into the commands again.
-/

import Molewire.SerialConsole
import Molewire.SetCommands

namespace Molewire

open ByteBuffer

namespace Control

/-! ### Kinds of change -/

/-- `d` is `c` but for the configuration, the unsaved mark and what was printed. -/
def EditOnly (c d : Control) : Prop :=
  ∃ cfg creds out, d = { c with cfg := cfg, conn.credsUnsaved := creds, out := out }

/-- `d` is `c` but for what an edit changes and the calls made outside the manager and the menus. -/
def MenuOnly (c d : Control) : Prop :=
  ∃ cfg creds out env flash calls halted,
    d = { c with
      cfg := cfg, conn.credsUnsaved := creds, out := out, env := env, flash := flash
      calls := calls, halted := halted }

/-- `d` is `c` but for the manager and its calls to the radio. -/
def ManagerOnly (c d : Control) : Prop :=
  ∃ conn hist env calls,
    d = { c with conn := conn, hist := hist, env := env, calls := c.calls ++ calls }

theorem EditOnly.refl (c : Control) : EditOnly c c := ⟨_, _, _, rfl⟩

theorem EditOnly.trans {c d e : Control} (h : EditOnly c d) (h' : EditOnly d e) : EditOnly c e := by
  obtain ⟨_, _, _, rfl⟩ := h
  obtain ⟨_, _, _, rfl⟩ := h'
  exact ⟨_, _, _, rfl⟩

theorem EditOnly.menuOnly {c d : Control} (h : EditOnly c d) : MenuOnly c d := by
  obtain ⟨_, _, _, rfl⟩ := h
  exact ⟨_, _, _, _, _, _, _, rfl⟩

theorem EditOnly.reply {c d : Control} (h : EditOnly c d) (r : Reply) : EditOnly c (d.reply r) :=
  h.trans ⟨_, _, _, rfl⟩

theorem ManagerOnly.trans {c d e : Control} (h : ManagerOnly c d) (h' : ManagerOnly d e) :
    ManagerOnly c e := by
  obtain ⟨_, _, _, calls, rfl⟩ := h
  obtain ⟨_, _, _, calls', rfl⟩ := h'
  -- calls are only ever appended
  exact ⟨_, _, _, calls ++ calls', by rw [← List.append_assoc]⟩

/-! ### Scans -/

/-- `d` is `c` but for the scan and the calls it made. -/
def ScanOnly (c d : Control) : Prop :=
  ∃ scan env calls, d = { c with scan := scan, env := env, calls := c.calls ++ calls } ∧
    Call.apply ∉ calls

/-- Whether a scan asked for now would be running: one is, or the radio takes one. -/
def scanStarts (c : Control) : Bool := c.scan.scanning || c.env.scans.head? == some true

theorem ScanOnly.refl (c : Control) : ScanOnly c c :=
  ⟨_, _, [], by rw [List.append_nil], List.not_mem_nil⟩

theorem ScanOnly.trans {c d e : Control} (h : ScanOnly c d) (h' : ScanOnly d e) :
    ScanOnly c e := by
  obtain ⟨_, _, calls, rfl, hc⟩ := h
  obtain ⟨_, _, calls', rfl, hc'⟩ := h'
  exact ⟨_, _, calls ++ calls', by rw [← List.append_assoc], by simp [hc, hc']⟩

theorem scanPass_scanOnly (c : Control) : ScanOnly c c.scanPass.2 := by
  unfold scanPass cyw43WifiScan
  split
  · next heq =>
    obtain ⟨-, rfl⟩ := Prod.mk.inj heq
    exact ⟨_, _, [.wifiScan], rfl, by simp⟩
  · next heq =>
    obtain ⟨-, rfl⟩ := Prod.mk.inj heq
    exact ⟨_, _, [.wifiScan], rfl, by simp⟩

theorem wifiScanStart_scanOnly (c : Control) : ScanOnly c c.wifiScanStart.2 := by
  have hreset : ScanOnly c { c with scan.resultCount := 0 } :=
    ⟨_, _, [], by rw [List.append_nil], List.not_mem_nil⟩
  have hleave : ScanOnly c { c with scan.resultCount := 0 }.wifiLeave :=
    ⟨_, _, [.wifiLeave], rfl, by simp⟩
  unfold wifiScanStart
  dsimp only
  split_ifs
  · exact .refl c
  · exact hreset.trans (scanPass_scanOnly _)
  · exact hleave.trans (scanPass_scanOnly _)

theorem wifiScanAgain_scanOnly (c : Control) : ScanOnly c c.wifiScanAgain.2 := by
  unfold wifiScanAgain
  split_ifs
  · exact .refl c
  · exact scanPass_scanOnly c

/-- The table of results holds what it held, or was marked empty. -/
structure TableKept (s t : Scan) : Prop where
  results : t.results = s.results
  count : t.resultCount = s.resultCount ∨ t.resultCount = 0

theorem TableKept.refl (s : Scan) : TableKept s s := ⟨rfl, .inl rfl⟩

theorem TableKept.trans {s t u : Scan} (h : TableKept s t) (h' : TableKept t u) :
    TableKept s u :=
  ⟨h'.results.trans h.results, h'.count.elim (fun hc => hc ▸ h.count) .inr⟩

theorem scanPass_table (c : Control) : TableKept c.scan c.scanPass.2.scan := by
  unfold scanPass
  split
  · next heq =>
    obtain ⟨-, rfl⟩ := Prod.mk.inj heq
    exact ⟨rfl, .inl rfl⟩
  · next heq =>
    obtain ⟨-, rfl⟩ := Prod.mk.inj heq
    exact ⟨rfl, .inl rfl⟩

theorem wifiScanStart_table (c : Control) : TableKept c.scan c.wifiScanStart.2.scan := by
  have hreset : TableKept c.scan { c with scan.resultCount := 0 }.scan := ⟨rfl, .inr rfl⟩
  have hleave : TableKept c.scan { c with scan.resultCount := 0 }.wifiLeave.scan :=
    ⟨rfl, .inr rfl⟩
  unfold wifiScanStart
  dsimp only
  split_ifs
  · exact .refl c.scan
  · exact hreset.trans (scanPass_table _)
  · exact hleave.trans (scanPass_table _)

theorem wifiScanAgain_table (c : Control) : TableKept c.scan c.wifiScanAgain.2.scan := by
  unfold wifiScanAgain
  split_ifs
  · exact .refl c.scan
  · exact scanPass_table c

theorem scanPass_fst (c : Control) : c.scanPass.1 = (c.env.scans.head? == some true) := by
  unfold scanPass cyw43WifiScan
  split
  · next heq => simpa using (Prod.mk.inj heq).1.symm
  · next heq => simpa using (Prod.mk.inj heq).1.symm

theorem wifiScanStart_fst (c : Control) : c.wifiScanStart.1 = c.scanStarts := by
  unfold wifiScanStart scanStarts
  dsimp only
  split_ifs with h
  · simp [h]
  · simp [h, scanPass_fst]
  · simp [h, scanPass_fst]

/-- What `config_proto_poll` leaves alone. -/
theorem protoPoll_frame (c : Control) :
    c.protoPoll.conn = c.conn ∧ c.protoPoll.hist = c.hist ∧ c.protoPoll.cfg = c.cfg ∧
      c.protoPoll.console = c.console := by
  have hscan : ∀ {d e : Control}, ScanOnly d e → d.conn = c.conn → d.hist = c.hist →
      d.cfg = c.cfg → d.console = c.console →
      e.conn = c.conn ∧ e.hist = c.hist ∧ e.cfg = c.cfg ∧ e.console = c.console := by
    rintro d e ⟨_, _, _, rfl, -⟩ hconn hhist hcfg hconsole
    exact ⟨hconn, hhist, hcfg, hconsole⟩
  unfold protoPoll pollLive pollRounds
  dsimp only
  split_ifs <;> first
    | exact ⟨rfl, rfl, rfl, rfl⟩
    | exact hscan (wifiScanStart_scanOnly _) rfl rfl rfl rfl
    | exact hscan (wifiScanAgain_scanOnly _) rfl rfl rfl rfl

/-- `start_scan` when the scan starts. -/
theorem startScan_of_starts {c : Control} (h : c.scanStarts) :
    c.startScan = { c.wifiScanStart.2 with
      proto := { mode := .scan, scanRounds := scanPasses } }.say "[*] scanning" := by
  have hpair : c.wifiScanStart = (true, c.wifiScanStart.2) := Prod.ext (by
    rw [wifiScanStart_fst, h]) rfl
  rw [startScan, hpair]

/-- `start_scan` when it does not. -/
theorem startScan_of_refused {c : Control} (h : c.scanStarts = false) :
    c.startScan = c.wifiScanStart.2.say "[!] scan failed to start\n" := by
  have hpair : c.wifiScanStart = (false, c.wifiScanStart.2) := Prod.ext (by
    rw [wifiScanStart_fst, h]) rfl
  rw [startScan, hpair]

/-! ### Re-association -/

theorem tryLoop_managerOnly (c : Control) (l : List Nat) : ManagerOnly c (c.tryLoop l) := by
  induction l generalizing c with
  | nil => exact ⟨_, _, _, [], by simp only [List.append_nil]; rfl⟩
  | cons i rest ih =>
    by_cases h : c.env.connects.head? = some true
    · rw [tryLoop_accepted h]
      exact ⟨_, _, _, _, rfl⟩
    · rw [tryLoop_refused h]
      exact ManagerOnly.trans ⟨_, _, _, _, rfl⟩ (ih _)

theorem pinActive_managerOnly (c : Control) : ManagerOnly c c.pinActive := by
  refine ManagerOnly.trans (d := { c with conn.order := [c.cfg.active], conn.orderIx := 0 }) ?_
    (tryLoop_managerOnly _ _)
  exact ⟨_, _, _, [], by simp only [List.append_nil]; rfl⟩

/-- A re-association touches the manager alone and leaves its trace among the calls. -/
theorem wifiConnApply_managerOnly (c : Control) :
    ∃ conn hist env calls, c.wifiConnApply =
      { c with conn := conn, hist := hist, env := env, calls := c.calls ++ .apply :: calls } := by
  unfold wifiConnApply
  dsimp only
  split_ifs
  · obtain ⟨conn, hist, env, calls, h⟩ := pinActive_managerOnly
      { ({ c.call .apply with conn.prof := fun _ => {} }.snapshotRssi) with
        conn.backoffMs := backoffMinMs }.wifiLeave
    refine ⟨conn, hist, env, .wifiLeave :: calls, ?_⟩
    rw [h]
    simp [snapshotRssi]
  · exact ⟨_, _, _, [.wifiLeave], by
      simp only [snapshotRssi, call, wifiLeave, List.append_assoc]
      rfl⟩

theorem wifiConnApply_cfg (c : Control) : c.wifiConnApply.cfg = c.cfg := by
  obtain ⟨_, _, _, _, h⟩ := wifiConnApply_managerOnly c
  rw [h]

theorem wifiConnApply_frame (c : Control) :
    c.wifiConnApply.proto = c.proto ∧ c.wifiConnApply.console = c.console := by
  obtain ⟨_, _, _, _, h⟩ := wifiConnApply_managerOnly c
  rw [h]
  exact ⟨rfl, rfl⟩

theorem wifiConnApply_calls (c : Control) :
    ∃ calls, c.wifiConnApply.calls = c.calls ++ .apply :: calls := by
  obtain ⟨_, _, _, calls, h⟩ := wifiConnApply_managerOnly c
  exact ⟨calls, by rw [h]⟩

/-! ### SET -/

/-- What a handler of `set` does: an edit, which leaves the saved profiles alone unless it says
that the station has to re-associate. -/
def SetSpec (c : Control) (r : SetResult × Control) : Prop :=
  EditOnly c r.2 ∧ (r.1 = .wifi ∨ r.2.cfg.profiles = c.cfg.profiles)

theorem setErr_spec (c : Control) (s : String) : SetSpec c (c.setErr s) :=
  ⟨(EditOnly.refl c).reply _, .inr rfl⟩

theorem setSsid_spec (c : Control) (val : CStr) : SetSpec c (c.setSsid val) := by
  unfold setSsid
  split_ifs
  · exact ⟨⟨_, _, _, rfl⟩, .inl rfl⟩
  · split
    · exact setErr_spec c _
    · exact ⟨⟨_, _, _, rfl⟩, .inl rfl⟩

theorem setPass_spec (c : Control) (val : CStr) : SetSpec c (c.setPass val) := by
  unfold setPass
  split_ifs
  · exact setErr_spec c _
  · exact ⟨⟨_, _, _, rfl⟩, .inl rfl⟩

theorem SetCase.spec {c : Control} {args : CStr} {r : SetResult × Control}
    (h : SetCase c args r) : SetSpec c r := by
  cases h with
  | err s => exact setErr_spec c s
  | ssid => exact setSsid_spec c _
  | pass val => exact setPass_spec c val
  | country val => exact ⟨⟨_, _, _, rfl⟩, .inl rfl⟩
  | debug on => exact ⟨⟨_, _, _, rfl⟩, .inr rfl⟩
  | wg => exact ⟨⟨_, _, _, rfl⟩, .inr rfl⟩
  | ap => exact ⟨⟨_, _, _, rfl⟩, .inr rfl⟩

theorem cmdSet_spec (board : Board) (c : Control) (args : CStr) :
    SetSpec c (c.cmdSet board args) := (cmdSet_case board c args).spec

/-! ### The main menu -/

/-- The lasting effect of a command other than a scan: an edit that keeps every saved place and
has nothing re-associated, or an edit followed by a re-association. -/
inductive MainEffect (c : Control) : Control → Prop
  | kept {d : Control} (only : MenuOnly c d) (count : c.profileCount ≤ d.profileCount)
      (calls : ∃ l, d.calls = c.calls ++ l ∧ Call.apply ∉ l) : MainEffect c d
  | applied {e d : Control} (only : EditOnly c e)
      (after : ∃ calls out, d = { e.wifiConnApply with
        calls := e.wifiConnApply.calls ++ calls, out := out }) : MainEffect c d

theorem MainEffect.of_edit {c d : Control} (h : EditOnly c d)
    (count : c.profileCount ≤ d.profileCount) : MainEffect c d := by
  refine .kept h.menuOnly count ⟨[], ?_, List.not_mem_nil⟩
  obtain ⟨_, _, _, rfl⟩ := h
  simp

theorem MainEffect.say (c : Control) (s : String) : MainEffect c (c.say s) :=
  .of_edit ((EditOnly.refl c).reply _) le_rfl

/-- An answer printed at the end changes nothing. -/
theorem MainEffect.reply {c d : Control} (h : MainEffect c d) (r : Reply) :
    MainEffect c (d.reply r) := by
  cases h with
  | kept only count calls =>
    refine .kept ?_ count calls
    obtain ⟨_, _, _, _, _, _, _, rfl⟩ := only
    exact ⟨_, _, _, _, _, _, _, rfl⟩
  | applied only after =>
    obtain ⟨calls, _, rfl⟩ := after
    exact .applied only ⟨calls, _, rfl⟩

theorem MainEffect.of_apply {c e : Control} (h : EditOnly c e) : MainEffect c e.wifiConnApply :=
  .applied h ⟨[], _, by rw [List.append_nil]⟩

theorem joinProfile_effect {c d : Control} (h : EditOnly c d)
    (count : c.profileCount ≤ d.profileCount) (p : Nat) (isOpen : Bool) :
    MainEffect c (d.joinProfile p isOpen) := by
  have hactive : EditOnly c { d with cfg.active := p } := h.trans ⟨_, _, _, rfl⟩
  unfold joinProfile
  dsimp only
  split_ifs
  · exact .of_apply (hactive.reply _)
  · exact .of_apply (hactive.reply _)
  · exact .of_edit (hactive.reply _) count

theorem joinSsid_effect (c : Control) (ssid : CStr) (openHint : Option Bool) :
    MainEffect c (c.joinSsid ssid openHint) := by
  unfold joinSsid
  dsimp only
  split
  · exact joinProfile_effect (EditOnly.refl c) le_rfl _ _
  · split
    · exact .say c _
    · next p cfg hadd =>
      -- adding may evict a profile, but never leaves fewer than there were
      have hedit : EditOnly c { c with cfg := cfg }.markCredsUnsaved := ⟨_, _, _, rfl⟩
      exact joinProfile_effect hedit (configAddProfile_length hadd) _ _

/-- A call to another subsystem after an edit that kept the saved profiles. -/
theorem MainEffect.of_call {c d : Control} (h : EditOnly c d)
    (count : c.profileCount ≤ d.profileCount) {k : Call} (hk : Call.apply ≠ k) :
    MainEffect c (d.call k) := by
  obtain ⟨_, _, _, rfl⟩ := h
  exact .kept ⟨_, _, _, _, _, _, _, rfl⟩ count ⟨[k], rfl, by simpa using hk⟩

theorem applySet_effect {c : Control} {r : SetResult × Control} (h : SetSpec c r) :
    MainEffect c (applySet r) := by
  obtain ⟨k, d⟩ := r
  obtain ⟨hedit, hprof⟩ := h
  -- a `set` that touched the profiles always answers with the Wi-Fi part
  have hkeep : k ≠ .wifi → c.profileCount ≤ d.profileCount := by
    intro hne
    rw [profileCount, profileCount, hprof.resolve_left hne]
  cases k with
  | err => exact .of_edit hedit (hkeep (by decide))
  | wifi => exact (MainEffect.of_apply (hedit.reply _)).reply _
  | other => exact (MainEffect.of_edit (hedit.reply _) (hkeep (by decide))).reply _
  | wg => exact (MainEffect.of_call (hedit.reply _) (hkeep (by decide)) (by simp)).reply _
  | ap => exact (MainEffect.of_call (hedit.reply _) (hkeep (by decide)) (by simp)).reply _

theorem mainUse_effect (c : Control) (args : CStr) : MainEffect c (c.mainUse args) := by
  unfold mainUse
  split
  · exact .say c _
  · next i _ =>
    have hedit : EditOnly c { c with cfg.active := i } := ⟨_, _, _, rfl⟩
    exact (MainEffect.of_apply (hedit.reply _)).reply _

theorem mainDel_effect (c : Control) (args : CStr) : MainEffect c (c.mainDel args) := by
  unfold mainDel
  split
  · exact .say c _
  · next i _ =>
    have hedit : EditOnly c { c with cfg := configDelProfile c.cfg i } := ⟨_, _, _, rfl⟩
    exact (MainEffect.of_apply (hedit.reply _)).reply _

theorem mainPcap_effect (c : Control) (args : CStr) : MainEffect c (c.mainPcap args) := by
  unfold mainPcap
  split_ifs
  · exact (MainEffect.of_call (EditOnly.refl c) le_rfl (by simp)).reply _
  · exact (MainEffect.of_call (EditOnly.refl c) le_rfl (by simp)).reply _
  · exact (MainEffect.of_call (EditOnly.refl c) le_rfl (by simp)).reply _
  · exact .say c _

theorem mainGenkey_effect (board : Board) (c : Control) (args : Option CStr) :
    MainEffect c (c.mainGenkey board args) := by
  unfold mainGenkey wgKeypairGenerate
  dsimp only
  split_ifs
  · exact .say c _
  · cases board.publicKey (clampKey (wireguardRandomBytes (c.env.random.headD []) 32)) with
    | none =>
      exact .kept ⟨_, _, _, _, _, _, _, rfl⟩ le_rfl ⟨[], by simp, List.not_mem_nil⟩
    | some pub =>
      exact .kept ⟨_, _, _, _, _, _, _, rfl⟩ le_rfl ⟨[_], rfl, by simp⟩

theorem mainPubkey_effect (board : Board) (c : Control) : MainEffect c (c.mainPubkey board) := by
  unfold mainPubkey
  split
  · exact .of_edit (((EditOnly.refl c).reply _).reply _) le_rfl
  · exact .say c _

theorem restart_effect (c : Control) (toBootloader : Bool) :
    MainEffect c (c.restart toBootloader) := by
  refine .kept ⟨_, _, _, _, _, _, _, rfl⟩ le_rfl ⟨[_], rfl, ?_⟩
  cases toBootloader <;> simp

theorem mainSave_effect (c : Control) : MainEffect c c.mainSave := by
  unfold mainSave configSave
  dsimp only
  by_cases h : c.env.flashes.head? = some true
  · simp only [h, if_true]
    exact .kept ⟨_, _, _, _, _, _, _, rfl⟩ le_rfl ⟨[], by simp [noteSaved], List.not_mem_nil⟩
  · simp only [h, if_false]
    exact .kept ⟨_, _, _, _, _, _, _, rfl⟩ le_rfl ⟨[], by simp, List.not_mem_nil⟩

theorem mainRestore_effect (board : Board) (c : Control) : MainEffect c (c.mainRestore board) := by
  have hedit : EditOnly c (c.configLoad board).noteSaved := ⟨_, _, _, rfl⟩
  exact .applied (hedit.reply _) ⟨[_], _, rfl⟩

/-- The commands of the main menu. -/
inductive MainCase (board : Board) (c : Control) (cmd : CStr) (args : Option CStr) : Control → Prop
  | set {a : CStr} (hargs : args = some a) (word : isWord cmd "SET") :
      MainCase board c cmd args (applySet (c.cmdSet board a))
  | list : MainCase board c cmd args (c.reply .profiles)
  | join {ssid : CStr} (hargs : args = some ssid) (word : isWord cmd "JOIN") :
      MainCase board c cmd args (c.joinSsid ssid none).dump
  | use (a : CStr) : MainCase board c cmd args (c.mainUse a)
  | del (a : CStr) (hargs : args = some a) (word : isWord cmd "DEL") :
      MainCase board c cmd args (c.mainDel a)
  | pcap (a : CStr) : MainCase board c cmd args (c.mainPcap a)
  | genkey : MainCase board c cmd args (c.mainGenkey board args)
  | pubkey : MainCase board c cmd args (c.mainPubkey board)
  | restart (toBootloader : Bool) : MainCase board c cmd args (c.restart toBootloader)
  | scan (word : isWord cmd "SCAN") : MainCase board c cmd args c.startScan
  | save : MainCase board c cmd args c.mainSave
  | restore (word : isWord cmd "RESTORE") : MainCase board c cmd args (c.mainRestore board)
  | unknown (s : String) : MainCase board c cmd args (c.say s)

theorem getD_of_isSome {cmd : Bool} {args : Option CStr} (h : cmd && args.isSome) :
    args = some (args.getD []) ∧ cmd := by
  -- in the source the argument is read only after this test
  cases args with
  | none => simp at h
  | some a => exact ⟨rfl, by simpa using h⟩

theorem handleMain_case (board : Board) (c : Control) (cmd : CStr) (args : Option CStr) :
    MainCase board c cmd args (c.handleMain board cmd args) := by
  unfold handleMain
  refine iteInduction (fun h => ?_) fun _ => ?_
  · exact .set (getD_of_isSome h).1 (getD_of_isSome h).2
  refine iteInduction (fun _ => .list) fun _ => ?_
  refine iteInduction (fun h => ?_) fun _ => ?_
  · exact .join (getD_of_isSome h).1 (getD_of_isSome h).2
  refine iteInduction (fun _ => .use _) fun _ => ?_
  refine iteInduction (fun h => ?_) fun _ => ?_
  · exact .del _ (getD_of_isSome h).1 (getD_of_isSome h).2
  refine iteInduction (fun _ => .pcap _) fun _ => ?_
  refine iteInduction (fun _ => .genkey) fun _ => ?_
  refine iteInduction (fun _ => .pubkey) fun _ => ?_
  -- `bootsel` and `reboot` share a branch
  refine iteInduction (fun _ => .restart _) fun _ => ?_
  refine iteInduction (fun h => .scan h) fun _ => ?_
  refine iteInduction (fun _ => .save) fun _ => ?_
  refine iteInduction (fun h => .restore h) fun _ => ?_
  exact .unknown _

/-- What a line of the scan submenu is handled by. -/
inductive ScanCase (c : Control) (cmd : CStr) (args : Option CStr) : Control → Prop
  | back : ScanCase c cmd args { c with proto.mode := .main }.dump
  | scan : ScanCase c cmd args c.startScan
  | live : ScanCase c cmd args c.scanLive
  | join {a : CStr} (hargs : args = some a) (word : isWord cmd "JOIN") :
      ScanCase c cmd args (c.scanJoin a)
  | unknown (s : String) : ScanCase c cmd args (c.say s)

theorem handleScan_case (c : Control) (cmd : CStr) (args : Option CStr) :
    ScanCase c cmd args (c.handleScan cmd args) := by
  unfold handleScan
  refine iteInduction (fun _ => .back) fun _ => ?_
  refine iteInduction (fun _ => .scan) fun _ => ?_
  refine iteInduction (fun _ => .live) fun _ => ?_
  refine iteInduction (fun h => ?_) fun _ => ?_
  · exact .join (getD_of_isSome h).1 (getD_of_isSome h).2
  exact .unknown _

/-- An empty line redraws its menu, any other is a command of it. -/
inductive LineCase (board : Board) (c : Control) (line : CStr) : Control → Prop
  | listScan : LineCase board c line c.listScan
  | dump : LineCase board c line c.dump
  | scan (hmode : c.proto.mode = .scan) :
      LineCase board c line
        (c.handleScan (splitLine (trimLine line)).1 (splitLine (trimLine line)).2)
  | main (hmode : c.proto.mode ≠ .scan) :
      LineCase board c line
        (c.handleMain board (splitLine (trimLine line)).1 (splitLine (trimLine line)).2)

theorem handleLine_case (board : Board) (c : Control) (line : CStr) :
    LineCase board c line (c.handleLine board line) := by
  unfold handleLine
  dsimp only
  split_ifs with hempty hmode hmode
  · exact .listScan
  · exact .dump
  · exact .scan hmode
  · exact .main hmode

/-- Every command of the main menu but `scan`. -/
theorem handleMain_effect (board : Board) (c : Control) (cmd : CStr) (args : Option CStr)
    (hscan : ¬isWord cmd "SCAN") : MainEffect c (c.handleMain board cmd args) := by
  have hcase := handleMain_case board c cmd args
  generalize c.handleMain board cmd args = d at hcase ⊢
  cases hcase with
  | set => exact applySet_effect (cmdSet_spec board c _)
  | list => exact .of_edit ((EditOnly.refl c).reply _) le_rfl
  | join => exact (joinSsid_effect c _ _).reply _
  | use a => exact mainUse_effect c a
  | del a => exact mainDel_effect c a
  | pcap a => exact mainPcap_effect c a
  | genkey => exact mainGenkey_effect board c args
  | pubkey => exact mainPubkey_effect board c
  | restart toBootloader => exact restart_effect c toBootloader
  | scan word => exact absurd word hscan
  | save => exact mainSave_effect c
  | restore => exact mainRestore_effect board c
  | unknown s => exact .say c s

/-- A command that is one word is no other. -/
theorem isWord_of_ne {cmd : CStr} {v w : String} (h : isWord cmd v)
    (hne : (ascii v).map tolower ≠ (ascii w).map tolower) : isWord cmd w = false := by
  simp only [isWord, strcasecmpEq, beq_iff_eq] at h
  simpa [isWord, strcasecmpEq, h] using hne

theorem isWord_of_forall_ne {cmd : CStr} {v : String} (l : List String) (h : isWord cmd v)
    (hne : ∀ w ∈ l, (ascii v).map tolower ≠ (ascii w).map tolower) :
    ∀ w ∈ l, isWord cmd w = false :=
  fun w hw => isWord_of_ne h (hne w hw)

/-- The word `scan` in the main menu, whatever follows it. -/
theorem handleMain_scan (board : Board) (c : Control) (cmd : CStr) (args : Option CStr)
    (hscan : isWord cmd "SCAN") : c.handleMain board cmd args = c.startScan := by
  have hother := isWord_of_forall_ne ["SET", "LIST", "JOIN", "USE", "DEL", "PCAP", "GENKEY",
    "PUBKEY", "BOOTSEL", "REBOOT"] hscan (by decide +kernel)
  simp only [List.forall_mem_cons] at hother
  simp [handleMain, hother, hscan]

/-! ### What no command touches -/

theorem ScanOnly.frame {c d : Control} (h : ScanOnly c d) :
    d.proto = c.proto ∧ d.console = c.console := by
  obtain ⟨_, _, _, rfl, -⟩ := h
  exact ⟨rfl, rfl⟩

theorem MainEffect.frame {c d : Control} (h : MainEffect c d) :
    d.proto = c.proto ∧ d.console = c.console := by
  cases h with
  | kept only count calls =>
    obtain ⟨_, _, _, _, _, _, _, rfl⟩ := only
    exact ⟨rfl, rfl⟩
  | @applied e _ only after =>
    obtain ⟨_, _, rfl⟩ := after
    obtain ⟨hproto, hconsole⟩ := wifiConnApply_frame e
    have hedit : e.proto = c.proto ∧ e.console = c.console := by
      obtain ⟨_, _, _, rfl⟩ := only
      exact ⟨rfl, rfl⟩
    exact ⟨hproto.trans hedit.1, hconsole.trans hedit.2⟩

theorem startScan_console (c : Control) : c.startScan.console = c.console := by
  by_cases hs : c.scanStarts
  · rw [startScan_of_starts hs]
    exact (wifiScanStart_scanOnly c).frame.2
  · rw [startScan_of_refused (Bool.not_eq_true _ ▸ hs)]
    exact (wifiScanStart_scanOnly c).frame.2

theorem handleScan_console (c : Control) (cmd : CStr) (args : Option CStr) :
    (c.handleScan cmd args).console = c.console := by
  have hlive : c.scanLive.console = c.console := by
    have hframe := (wifiScanStart_scanOnly c.wifiLeave).frame.2
    unfold scanLive
    split
    · next heq =>
      rw [heq] at hframe
      exact hframe
    · next heq =>
      rw [heq] at hframe
      exact hframe
  have hjoin : ∀ args, (c.scanJoin args).console = c.console := by
    intro args
    unfold scanJoin
    split
    · rfl
    · exact (joinSsid_effect { c with proto.mode := .main } _ _).frame.2
  have hcase := handleScan_case c cmd args
  generalize c.handleScan cmd args = d at hcase ⊢
  cases hcase with
  | back => rfl
  | scan => exact startScan_console c
  | live => exact hlive
  | join => exact hjoin _
  | unknown s => rfl

/-- The interpreter leaves the serial console alone. -/
theorem handleLine_console (board : Board) (c : Control) (line : CStr) :
    (c.handleLine board line).console = c.console := by
  have hcase := handleLine_case board c line
  generalize c.handleLine board line = d at hcase ⊢
  cases hcase with
  | listScan => rfl
  | dump => rfl
  | scan => exact handleScan_console c _ _
  | main =>
    -- `scan` is the one command that is no edit
    by_cases hscan : isWord (splitLine (trimLine line)).1 "SCAN"
    · rw [handleMain_scan board c _ _ hscan]
      exact startScan_console c
    · exact (handleMain_effect board c _ _ hscan).frame.2

/-- The line is the word `scan` and a scan would run. -/
def startsScan (c : Control) (line : CStr) : Bool :=
  isWord (splitLine (trimLine line)).1 "SCAN" && c.scanStarts

/-- Outside the scan submenu only a scan that starts changes the menu. -/
theorem handleLine_proto {board : Board} {c : Control} {line : CStr} (hmode : c.proto.mode ≠ .scan)
    (hstart : ¬c.startsScan line) : (c.handleLine board line).proto = c.proto := by
  unfold handleLine
  dsimp only
  rw [if_neg hmode, if_neg hmode]
  split_ifs
  · rfl
  · by_cases hscan : isWord (splitLine (trimLine line)).1 "SCAN"
    · have hrefused : c.scanStarts = false := by simpa [startsScan, hscan] using hstart
      rw [handleMain_scan board c _ _ hscan, startScan_of_refused hrefused]
      exact (wifiScanStart_scanOnly c).frame.1
    · exact (handleMain_effect board c _ _ hscan).frame.1

end Control

end Molewire
