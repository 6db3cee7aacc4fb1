/-
# What a line does to the configuration

Every command that a client can send is one of a few edits of the record, said
here once. An invariant of the configuration then needs one case per edit, and
holds in every run when the joins of the manager keep it too.
-/

import Mathlib.Data.List.TakeDrop
import Molewire.ManagerConfig
import Molewire.ProfileEdits

namespace Molewire

open ByteBuffer

namespace Control

/-! ### Names in a line -/

/-- The network a line asks to rename the active profile to. -/
def setSsidArg (c : Control) (line : CStr) : Option CStr :=
  let cmd := (splitLine (trimLine line)).1
  let args := (splitLine (trimLine line)).2
  if c.proto.mode ≠ .scan ∧ isWord cmd "SET" then
    (args.bind fun a => strchrCut a 32).bind fun kv =>
      if isWord kv.1 "ssid" then some kv.2 else none
  else none

/-- The network a line asks to join, by name in the main menu and by its number in the scan
submenu. -/
def joinName (c : Control) (line : CStr) : Option CStr :=
  let cmd := (splitLine (trimLine line)).1
  let args := (splitLine (trimLine line)).2
  if ¬isWord cmd "JOIN" then none
  else if c.proto.mode = .scan then
    (args.bind fun a => parseIndex a c.scan.resultCount).map fun i => (c.scan.results i).ssid
  else args

end Control

theorem parseIndex_lt {s : CStr} {count i : Nat} (h : parseIndex s count = some i) :
    i < count := by
  unfold parseIndex at h
  dsimp only at h
  -- the user counts from one, the table from zero
  split_ifs at h with hbad
  simp only [not_or, Int.not_lt, Option.some.injEq] at hbad h
  omega

/-! ### Edits -/

/-- Selecting the profile of a name, or a new one if the name is not found. -/
inductive JoinEdit (cfg : Config) (ssid : CStr) : Config → Prop
  | found {p : Nat} (h : configFindProfile cfg ssid = some p) :
      JoinEdit cfg ssid { cfg with active := p }
  | added {p : Nat} {cfg' : Config} (unsaved : configFindProfile cfg ssid = none)
      (h : configAddProfile cfg ssid = some (p, cfg')) : JoinEdit cfg ssid { cfg' with active := p }

namespace Control

/-- What a line can make of the configuration. -/
inductive ConfigEdit (board : Board) (c : Control) (line : CStr) : Config → Prop
  | kept : ConfigEdit board c line c.cfg
  | rename {val : CStr} (ask : c.setSsidArg line = some val) :
      ConfigEdit board c line { c.cfg with
        profiles := c.cfg.profiles.modify c.cfg.active fun p =>
          { p with ssid := val.take (configSsidMax - 1) } }
  | create {val : CStr} {p : Nat} {cfg : Config} (ask : c.setSsidArg line = some val)
      (inactive : c.profileCount ≤ c.cfg.active)
      (h : configAddProfile c.cfg val = some (p, cfg)) :
      ConfigEdit board c line { cfg with active := p }
  | password (val : CStr) :
      ConfigEdit board c line { c.cfg with
        profiles := c.cfg.profiles.modify c.cfg.active fun p =>
          { p with password := val.take (configPassMax - 1) } }
  | country (v : UInt32) : ConfigEdit board c line { c.cfg with country := v }
  | debug (on : Bool) : ConfigEdit board c line { c.cfg with debugEnabled := on }
  | wg {w : WgConfig} (h : WgEdit c.cfg.wg w) : ConfigEdit board c line { c.cfg with wg := w }
  | ap {a : ApConfig} (h : ApEdit c.cfg.ap a) : ConfigEdit board c line { c.cfg with ap := a }
  | join {name : CStr} {cfg : Config} (ask : c.joinName line = some name)
      (h : JoinEdit c.cfg name cfg) : ConfigEdit board c line cfg
  | select {i : Nat} (hi : i < c.profileCount) :
      ConfigEdit board c line { c.cfg with active := i }
  | delete (i : Nat) : ConfigEdit board c line (configDelProfile c.cfg i)
  | load : ConfigEdit board c line (c.flash.getD (configDefaults board))

/-- An edit, with what a save may have written and no scan result changed. -/
structure EditedBy (board : Board) (c : Control) (line : CStr) (d : Control) : Prop where
  cfg : ConfigEdit board c line d.cfg
  flash : d.flash = c.flash ∨ d.flash = some d.cfg
  results : d.scan.results = c.scan.results

section Commands

variable {board : Board} {c d e : Control} {line : CStr}

theorem KeepsConfig.editedBy (h : KeepsConfig c d) : EditedBy board c line d :=
  ⟨h.1 ▸ .kept, .inl h.2.1, h.2.2⟩

theorem EditedBy.keeps (h : EditedBy board c line d) (h' : KeepsConfig d e) :
    EditedBy board c line e := by
  refine ⟨h'.1 ▸ h.cfg, ?_, h'.2.2.trans h.results⟩
  rw [h'.1, h'.2.1]
  exact h.flash

theorem EditedBy.reply (h : EditedBy board c line d) (r : Reply) :
    EditedBy board c line (d.reply r) := h.keeps ⟨rfl, rfl, rfl⟩

theorem wifiConnApply_keepsConfig (c : Control) : KeepsConfig c c.wifiConnApply := by
  obtain ⟨_, _, _, _, h⟩ := wifiConnApply_managerOnly c
  rw [h]
  exact ⟨rfl, rfl, rfl⟩

theorem EditedBy.wifiConnApply (h : EditedBy board c line d) :
    EditedBy board c line d.wifiConnApply := h.keeps (wifiConnApply_keepsConfig d)

/-! ### Joining -/

theorem joinProfile_config (c : Control) (p : Nat) (isOpen : Bool) :
    KeepsConfig { c with cfg.active := p } (c.joinProfile p isOpen) := by
  unfold joinProfile
  dsimp only
  split_ifs
  · exact KeepsConfig.trans ⟨rfl, rfl, rfl⟩ (wifiConnApply_keepsConfig _)
  · exact KeepsConfig.trans ⟨rfl, rfl, rfl⟩ (wifiConnApply_keepsConfig _)
  · exact ⟨rfl, rfl, rfl⟩

/-- A join by name changes nothing else; a full list always has a profile to give up. -/
theorem joinSsid_config (c : Control) (ssid : CStr) (openHint : Option Bool) :
    JoinEdit c.cfg ssid (c.joinSsid ssid openHint).cfg ∧
      (c.joinSsid ssid openHint).flash = c.flash ∧
        (c.joinSsid ssid openHint).scan.results = c.scan.results := by
  -- the branch where no profile can be added is dead
  obtain ⟨p', cfg', hsome⟩ := configAddProfile_isSome c.cfg ssid
  unfold joinSsid
  dsimp only
  split
  case h_1 p hfind =>
    obtain ⟨hcfg, hflash, hresults⟩ := joinProfile_config c p (openHint.getD (c.scanOpen ssid))
    exact ⟨hcfg ▸ .found hfind, hflash, hresults⟩
  case h_2 hnone =>
    rw [hsome]
    obtain ⟨hcfg, hflash, hresults⟩ := joinProfile_config
      { c with cfg := cfg' }.markCredsUnsaved p' (openHint.getD (c.scanOpen ssid))
    exact ⟨hcfg ▸ .added hnone hsome, hflash, hresults⟩

/-! ### SET -/

theorem setSsid_edit {val : CStr} (ask : c.setSsidArg line = some val) :
    EditedBy board c line (c.setSsid val).2 := by
  unfold setSsid
  split_ifs with hactive
  · exact ⟨.rename ask, .inl rfl, rfl⟩
  · split
    case h_1 => exact KeepsConfig.editedBy ⟨rfl, rfl, rfl⟩
    case h_2 i cfg hadd => exact ⟨.create ask (Nat.le_of_not_lt hactive) hadd, .inl rfl, rfl⟩

theorem setPass_edit (val : CStr) : EditedBy board c line (c.setPass val).2 := by
  unfold setPass
  split_ifs
  · exact KeepsConfig.editedBy ⟨rfl, rfl, rfl⟩
  · exact ⟨.password val, .inl rfl, rfl⟩

theorem SetCase.edit {args : CStr} {r : SetResult × Control} (hr : SetCase c args r)
    (hmode : c.proto.mode ≠ .scan) (hword : isWord (splitLine (trimLine line)).1 "SET")
    (hargs : (splitLine (trimLine line)).2 = some args) : EditedBy board c line r.2 := by
  cases hr with
  | err s => exact KeepsConfig.editedBy ⟨rfl, rfl, rfl⟩
  | @ssid key val cut word =>
    apply setSsid_edit
    simp only [setSsidArg, hargs, hword, Option.bind_some, cut, word]
    simp [hmode]
  | pass val => exact setPass_edit val
  | country val => exact ⟨.country (parseCountry val), .inl rfl, rfl⟩
  | debug on => exact ⟨.debug on, .inl rfl, rfl⟩
  | wg h => exact ⟨.wg h, .inl rfl, rfl⟩
  | ap h => exact ⟨.ap h, .inl rfl, rfl⟩

theorem EditedBy.applySet (h : EditedBy board c line d) (k : SetResult) :
    EditedBy board c line (applySet (k, d)) := by
  cases k with
  | err => exact h
  | wifi => exact (h.reply _).wifiConnApply.reply _
  | other => exact (h.reply _).reply _
  | wg => exact h.keeps ⟨rfl, rfl, rfl⟩
  | ap => exact h.keeps ⟨rfl, rfl, rfl⟩

/-! ### The main menu -/

theorem mainUse_edit (args : CStr) : EditedBy board c line (c.mainUse args) := by
  unfold mainUse
  split
  case h_1 => exact KeepsConfig.editedBy ⟨rfl, rfl, rfl⟩
  case h_2 i hi =>
    have hselect : EditedBy board c line { c with cfg.active := i } :=
      ⟨.select (parseIndex_lt hi), .inl rfl, rfl⟩
    exact (hselect.reply _).wifiConnApply.reply _

theorem mainDel_edit (args : CStr) : EditedBy board c line (c.mainDel args) := by
  unfold mainDel
  split
  case h_1 => exact KeepsConfig.editedBy ⟨rfl, rfl, rfl⟩
  case h_2 i _ =>
    have hdel : EditedBy board c line { c with cfg := configDelProfile c.cfg i } :=
      ⟨.delete i, .inl rfl, rfl⟩
    exact (hdel.reply _).wifiConnApply.reply _

theorem mainPcap_keepsConfig (c : Control) (args : CStr) : KeepsConfig c (c.mainPcap args) := by
  unfold mainPcap
  split_ifs <;> exact ⟨rfl, rfl, rfl⟩

theorem clampKey_length (r : Bytes) : (clampKey r).length = r.length := by
  rw [clampKey, List.length_modify, List.length_modify]

theorem wireguardRandomBytes_length (draw : Bytes) (size : Nat) :
    (wireguardRandomBytes draw size).length = size := List.takeD_length size draw 0

/-- A generated key is the text of 32 bytes. -/
theorem mainGenkey_edit (args : Option CStr) : EditedBy board c line (c.mainGenkey board args) := by
  unfold mainGenkey wgKeypairGenerate
  dsimp only
  split_ifs
  · exact KeepsConfig.editedBy ⟨rfl, rfl, rfl⟩
  · -- the private key is 32 clamped bytes whatever the random source gave
    have hpriv : (clampKey (wireguardRandomBytes (c.env.random.headD []) 32)).length = 32 := by
      rw [clampKey_length, wireguardRandomBytes_length]
    have hkey := validWgKey_encode hpriv
    -- only the length of the key matters from here on
    generalize clampKey (wireguardRandomBytes (c.env.random.headD []) 32) = priv at hkey ⊢
    cases board.publicKey priv with
    | none => exact KeepsConfig.editedBy ⟨rfl, rfl, rfl⟩
    | some pub =>
      have hstored : StoredKey (base64Encode priv) :=
        .inr ⟨hkey, Nat.lt_of_le_of_lt (validWgKey_length hkey) (by decide)⟩
      exact ⟨.wg (.key hstored), .inl rfl, rfl⟩

theorem mainPubkey_keepsConfig (board : Board) (c : Control) :
    KeepsConfig c (c.mainPubkey board) := by
  unfold mainPubkey
  split <;> exact ⟨rfl, rfl, rfl⟩

theorem startScan_keepsConfig (c : Control) : KeepsConfig c c.startScan := by
  have hstart := (wifiScanStart_keepsCreds c).config
  by_cases hs : c.scanStarts
  · rw [startScan_of_starts hs]
    exact hstart
  · rw [startScan_of_refused (Bool.not_eq_true _ ▸ hs)]
    exact hstart

/-- What is in flash from now on is the configuration. -/
theorem mainSave_edit : EditedBy board c line c.mainSave := by
  unfold mainSave configSave
  dsimp only
  -- a save that fails leaves the record in flash as it was
  by_cases hok : c.env.flashes.head? = some true
  · simp only [hok, if_true]
    exact ⟨.kept, .inr rfl, rfl⟩
  · simp only [hok, if_false]
    exact KeepsConfig.editedBy ⟨rfl, rfl, rfl⟩

theorem mainRestore_edit : EditedBy board c line (c.mainRestore board) := by
  -- an empty flash restores the defaults of the board
  have hload : EditedBy board c line (c.configLoad board).noteSaved := ⟨.load, .inl rfl, rfl⟩
  exact (hload.reply _).wifiConnApply.keeps ⟨rfl, rfl, rfl⟩

theorem handleMain_edit (board : Board) (hmode : c.proto.mode ≠ .scan) :
    EditedBy board c line
      (c.handleMain board (splitLine (trimLine line)).1 (splitLine (trimLine line)).2) := by
  have hcase := handleMain_case board c (splitLine (trimLine line)).1
    (splitLine (trimLine line)).2
  generalize c.handleMain board _ _ = d at hcase ⊢
  -- one case per command; those that only print keep the record
  cases hcase with
  | set hargs word => exact ((cmdSet_case board c _).edit hmode word hargs).applySet _
  | list => exact KeepsConfig.editedBy ⟨rfl, rfl, rfl⟩
  | @join ssid hargs word =>
    obtain ⟨hcfg, hflash, hresults⟩ := joinSsid_config c ssid none
    refine EditedBy.reply ⟨.join ?_ hcfg, .inl hflash, hresults⟩ _
    simp [joinName, hargs, word, hmode]
  | use a => exact mainUse_edit a
  | del a => exact mainDel_edit a
  | pcap a => exact (mainPcap_keepsConfig c a).editedBy
  | genkey => exact mainGenkey_edit _
  | pubkey => exact (mainPubkey_keepsConfig board c).editedBy
  | restart => exact KeepsConfig.editedBy ⟨rfl, rfl, rfl⟩
  | scan => exact (startScan_keepsConfig c).editedBy
  | save => exact mainSave_edit
  | restore => exact mainRestore_edit
  | unknown s => exact KeepsConfig.editedBy ⟨rfl, rfl, rfl⟩

/-! ### The scan submenu -/

theorem scanLive_keepsConfig (c : Control) : KeepsConfig c c.scanLive := by
  have hstart : KeepsConfig c c.wifiLeave.wifiScanStart.2 :=
    KeepsConfig.trans ⟨rfl, rfl, rfl⟩ (wifiScanStart_keepsCreds c.wifiLeave).config
  unfold scanLive
  split
  case h_1 heq =>
    rw [heq] at hstart
    exact hstart
  case h_2 heq =>
    rw [heq] at hstart
    exact hstart

theorem scanJoin_edit {args : CStr} (hmode : c.proto.mode = .scan)
    (hword : isWord (splitLine (trimLine line)).1 "JOIN")
    (hargs : (splitLine (trimLine line)).2 = some args) :
    EditedBy board c line (c.scanJoin args) := by
  unfold scanJoin
  split
  case h_1 => exact KeepsConfig.editedBy ⟨rfl, rfl, rfl⟩
  case h_2 i hi =>
    obtain ⟨hcfg, hflash, hresults⟩ := joinSsid_config { c with proto.mode := .main }
      (c.scan.results i).ssid (some ((c.scan.results i).auth = 0))
    -- the name asked for is the one the table holds at that number
    have hname : c.joinName line = some (c.scan.results i).ssid := by
      simp [joinName, hargs, hword, hmode, hi]
    exact ⟨.join hname hcfg, .inl hflash, hresults⟩

theorem handleScan_edit (hmode : c.proto.mode = .scan) :
    EditedBy board c line
      (c.handleScan (splitLine (trimLine line)).1 (splitLine (trimLine line)).2) := by
  have hcase := handleScan_case c (splitLine (trimLine line)).1 (splitLine (trimLine line)).2
  generalize c.handleScan _ _ = d at hcase ⊢
  cases hcase with
  | back => exact KeepsConfig.editedBy ⟨rfl, rfl, rfl⟩
  | scan => exact (startScan_keepsConfig c).editedBy
  | live => exact (scanLive_keepsConfig c).editedBy
  | join hargs word => exact scanJoin_edit hmode word hargs
  | unknown s => exact KeepsConfig.editedBy ⟨rfl, rfl, rfl⟩

/-- Every line is one of the edits. -/
theorem handleLine_edit (board : Board) (c : Control) (line : CStr) :
    EditedBy board c line (c.handleLine board line) := by
  have hcase := handleLine_case board c line
  generalize c.handleLine board line = d at hcase ⊢
  cases hcase with
  | listScan => exact KeepsConfig.editedBy ⟨rfl, rfl, rfl⟩
  | dump => exact KeepsConfig.editedBy ⟨rfl, rfl, rfl⟩
  | scan hmode => exact handleScan_edit hmode
  | main hmode => exact handleMain_edit board hmode

/-! ### Lines that join -/

theorem handleMain_join (board : Board) (c : Control) {cmd : CStr} (ssid : CStr)
    (hjoin : isWord cmd "JOIN") :
    c.handleMain board cmd (some ssid) = (c.joinSsid ssid none).dump := by
  have hother := isWord_of_forall_ne ["SET", "LIST"] hjoin (by decide +kernel)
  simp only [List.forall_mem_cons] at hother
  simp [handleMain, hother, hjoin]

theorem handleScan_join (c : Control) {cmd : CStr} (args : CStr) (hjoin : isWord cmd "JOIN") :
    c.handleScan cmd (some args) = c.scanJoin args := by
  have hother := isWord_of_forall_ne ["BACK", "SCAN", "LIVE"] hjoin (by decide +kernel)
  simp only [List.forall_mem_cons] at hother
  simp [handleScan, hother, hjoin]

theorem trimLine_ne_nil_of_word {word : String} (hword : isWord (splitLine (trimLine line)).1 word)
    (hne : ascii word ≠ []) : trimLine line ≠ [] := by
  -- an empty line has an empty word, which matches no command
  intro hempty
  rw [hempty] at hword
  exact hne (by simpa [splitLine, strchrCut, isWord, strcasecmpEq] using hword)

/-- A line that asks to join a network joins it. -/
theorem handleLine_join (board : Board) {name : CStr} (ask : c.joinName line = some name) :
    JoinEdit c.cfg name (c.handleLine board line).cfg := by
  unfold joinName at ask
  dsimp only at ask
  -- the submenu names a network by its number, the main menu by its name
  split_ifs at ask with hword hmode
  · obtain ⟨i, hi, rfl⟩ := Option.map_eq_some_iff.mp ask
    obtain ⟨args, hargs, hindex⟩ := Option.bind_eq_some_iff.mp hi
    unfold handleLine
    dsimp only
    rw [if_neg (trimLine_ne_nil_of_word hword (by decide)), if_pos hmode, hargs,
      handleScan_join c args hword, scanJoin, hindex]
    exact (joinSsid_config { c with proto.mode := .main } _ _).1
  · unfold handleLine
    dsimp only
    rw [if_neg (trimLine_ne_nil_of_word hword (by decide)), if_neg hmode, ask,
      handleMain_join board c name hword]
    exact (joinSsid_config c _ _).1

end Commands

end Control

end Molewire
