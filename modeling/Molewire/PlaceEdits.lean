/-
# Which places a line edits

The manager knows the saved profiles by their places in the list. A line can
bring other networks into some of them. A new profile goes behind the others, or
takes the last place of a full list; the active one is edited where it stands; a
deletion moves those behind it down, and a restore replaces them all. The places,
and what comes to stand in them, are read off the line and the state that it
meets.
-/

import Molewire.ConfigEdits

namespace Molewire

open ByteBuffer

namespace Control

/-- The profile saved in place `i`. -/
def savedAt (c : Control) (i : Nat) : Option WifiProfile := c.cfg.profiles.entries[i]?

theorem savedAt_of_lt {c : Control} {i : Nat} (h : i < c.profileCount) :
    c.savedAt i = some (c.profile i) := by
  rw [savedAt, profile, List.getD_eq_getElem?_getD, List.getElem?_eq_getElem h, Option.getD_some]

theorem savedAt_of_le {c : Control} {i : Nat} (h : c.profileCount ≤ i) : c.savedAt i = none :=
  List.getElem?_eq_none h

end Control

/-! ### Edits of the places -/

/-- What a line does to the saved profiles: a network is added, and joined at once or only staged;
the active profile becomes another; one is deleted; or the record in flash is loaded. -/
inductive PlaceEdit
  | add (ssid : CStr) (applied : Bool)
  | edit (p : WifiProfile)
  | delete (k : Nat)
  | load (cfg : Config)
  deriving DecidableEq, Repr

namespace PlaceEdit

/-- Whether the station is re-associated after the edit. -/
def applied : PlaceEdit → Bool
  | .add _ applied => applied
  | _ => true

/-- The profile that the edit brings to place `i`, if any. -/
def brings (c : Control) : PlaceEdit → Nat → Option WifiProfile
  | .add ssid _, i =>
    if c.profileCount < configProfileMax then
      if i = c.profileCount then some (newProfile ssid) else none
    -- a full list gives up its last profile, or the one before it when the last is active
    else if i = configProfileMax - 1 then some (newProfile ssid)
    else if i = configProfileMax - 2 ∧ c.cfg.active = configProfileMax - 1 then
      some (c.profile (configProfileMax - 1))
    else none
  | .edit p, i => if i = c.cfg.active then some p else none
  | .delete k, i => if k ≤ i ∧ i + 1 < c.profileCount then some (c.profile (i + 1)) else none
  | .load cfg, i => cfg.profiles.entries[i]?

/-- Whether the edit leaves a saved profile active. -/
def Joins (c : Control) : PlaceEdit → Prop
  | .add _ _ => True
  | .edit _ => c.cfg.active < c.profileCount
  | .delete _ => 1 < c.profileCount ∧ c.cfg.active < c.profileCount
  | .load cfg => cfg.active < cfg.profiles.entries.length

/-- The configuration is one that the edit can leave. -/
structure Made (c : Control) (e : PlaceEdit) (cfg : Config) : Prop where
  places : ∀ i, cfg.profiles.entries[i]? = none ∨ cfg.profiles.entries[i]? = c.savedAt i ∨
    cfg.profiles.entries[i]? = e.brings c i
  joins : e.Joins c → cfg.active < cfg.profiles.entries.length

variable {c : Control}

theorem made_edit (h : c.cfg.active < c.profileCount) (f : WifiProfile → WifiProfile) :
    (PlaceEdit.edit (f (c.profile c.cfg.active))).Made c
      { c.cfg with profiles := c.cfg.profiles.modify c.cfg.active f } := by
  refine ⟨fun i => ?_, fun _ => ?_⟩
  · have hplace : (c.cfg.profiles.modify c.cfg.active f).entries[i]? =
        (fun p => if c.cfg.active = i then f p else p) <$> c.savedAt i :=
      List.getElem?_modify f c.cfg.active c.cfg.profiles.entries i
    dsimp only
    rw [hplace]
    rcases eq_or_ne i c.cfg.active with rfl | hne
    · right; right
      simp [brings, Control.savedAt_of_lt h]
    · right; left
      simp [hne.symm]
  · exact (List.length_modify f c.cfg.profiles.entries c.cfg.active).symm ▸ h

theorem made_delete (k : Nat) : (PlaceEdit.delete k).Made c (configDelProfile c.cfg k) := by
  rcases Nat.lt_or_ge k c.profileCount with hk | hk
  · have hlen := List.length_eraseIdx_of_lt hk
    refine ⟨fun i => ?_, fun hjoins => ?_⟩
    · rw [configDelProfile_entries, List.getElem?_eraseIdx]
      split_ifs with hi
      · exact .inr (.inl rfl)
      · -- the one behind it has moved down
        rcases Nat.lt_or_ge (i + 1) c.profileCount with hlt | hle
        · right; right
          rw [brings, if_pos ⟨not_lt.mp hi, hlt⟩]
          exact Control.savedAt_of_lt hlt
        · exact .inl (Control.savedAt_of_le hle)
    · obtain ⟨hcount, hactive⟩ := hjoins
      rw [configDelProfile_active hk, configDelProfile_entries, hlen]
      have hmax := c.cfg.profiles.le_max
      unfold Control.profileCount at hk hcount hactive
      simp only [configProfileMax, configActiveNone] at hmax ⊢
      grind
  · rw [configDelProfile_of_le hk]
    exact ⟨fun i => .inr (.inl rfl), fun hjoins => hjoins.2⟩

theorem made_load (cfg : Config) : (PlaceEdit.load cfg).Made c cfg :=
  ⟨fun _ => .inr (.inr rfl), id⟩

/-- One profile is put behind those that stay, and made active. -/
theorem made_append {e : PlaceEdit} {cfg : Config} {kept : List WifiProfile} {p : WifiProfile}
    (hentries : cfg.profiles.entries = kept ++ [p]) (hactive : cfg.active = kept.length)
    (hkept : ∀ i < kept.length, kept[i]? = c.savedAt i ∨ kept[i]? = e.brings c i)
    (hnew : e.brings c kept.length = some p) : e.Made c cfg := by
  refine ⟨fun i => ?_, fun _ => ?_⟩
  · rw [hentries]
    rcases lt_trichotomy i kept.length with hi | rfl | hi
    · rw [List.getElem?_append_left hi]
      exact .inr (hkept i hi)
    · rw [hnew]
      exact .inr (.inr List.getElem?_concat_length)
    · left
      refine List.getElem?_eq_none ?_
      rw [List.length_append, List.length_singleton]
      exact hi
  · rw [hentries, hactive, List.length_append, List.length_singleton]
    exact Nat.lt_succ_self _

/-- The full list has given up its last profile, or the one before it: the others stand where they
stood, but for the last one then. -/
theorem eraseIdx_addVictim {v : Nat} (hv : addVictim c.cfg = some v)
    (hfull : configProfileMax ≤ c.profileCount) (ssid : CStr) (applied : Bool) {i : Nat}
    (hi : i < configProfileMax - 1) :
    (c.cfg.profiles.entries.eraseIdx v)[i]? = c.savedAt i ∨
      (c.cfg.profiles.entries.eraseIdx v)[i]? = (PlaceEdit.add ssid applied).brings c i := by
  have hlen : c.profileCount = configProfileMax := le_antisymm c.cfg.profiles.le_max hfull
  obtain ⟨-, -, hlast⟩ := addVictim_spec hv hfull
  rw [List.getElem?_eraseIdx]
  split_ifs with hiv
  · exact .inl rfl
  · -- only the last profile is behind the one given up, and only if it is active
    have hsucc : i + 1 < c.profileCount := hlen.symm ▸ Nat.add_lt_of_lt_sub hi
    have hactive : c.cfg.active = i + 1 :=
      hlast (i + 1) (Nat.lt_succ_of_le (not_lt.mp hiv)) hsucc
    have hactive' : c.cfg.active = configProfileMax - 1 :=
      hlast _ (by simp only [configProfileMax] at hi ⊢; omega)
        (lt_of_lt_of_eq (by decide) hlen.symm)
    have hi6 : i + 1 = configProfileMax - 1 := hactive.symm.trans hactive'
    right
    rw [brings, if_neg (not_lt.mpr hfull), if_neg hi.ne,
      if_pos ⟨Nat.succ_injective hi6, hactive'⟩, hi6]
    exact Control.savedAt_of_lt (hi6 ▸ hsucc)

theorem made_add {ssid : CStr} {p : Nat} {cfg : Config}
    (h : configAddProfile c.cfg ssid = some (p, cfg)) (applied : Bool) :
    (PlaceEdit.add ssid applied).Made c { cfg with active := p } := by
  rcases Nat.lt_or_ge c.profileCount configProfileMax with hroom | hfull
  · obtain ⟨cfg', hadd, hentries, -⟩ := configAddProfile_room ssid hroom
    obtain ⟨rfl, rfl⟩ := Prod.mk.inj (Option.some.inj (h.symm.trans hadd))
    refine made_append hentries rfl (fun i _ => .inl rfl) ?_
    rw [brings, if_pos hroom]
    exact if_pos rfl
  · obtain ⟨v, hv⟩ := addVictim_of_full hfull
    obtain ⟨hvlt, -, -⟩ := addVictim_spec hv hfull
    obtain ⟨hadd, hroom⟩ := configAddProfile_full ssid hfull hv
    obtain ⟨cfg', hadd', hentries, -⟩ := configAddProfile_room ssid hroom
    obtain ⟨rfl, rfl⟩ := Prod.mk.inj (Option.some.inj (h.symm.trans (hadd.trans hadd')))
    have hlen : c.profileCount = configProfileMax := le_antisymm c.cfg.profiles.le_max hfull
    have hrest : (c.cfg.profiles.entries.eraseIdx v).length = configProfileMax - 1 :=
      (List.length_eraseIdx_of_lt hvlt).trans (congrArg (· - 1) hlen)
    rw [configDelProfile_entries] at hentries ⊢
    refine made_append hentries rfl (fun i hi => ?_) ?_
    · exact eraseIdx_addVictim hv hfull ssid applied (hrest ▸ hi)
    · rw [brings, if_neg (not_lt.mpr hfull), if_pos hrest]

end PlaceEdit

namespace Control

/-! ### Reading a line -/

/-- A network that is joined by name and not saved is added. -/
def joinPlaceEdit (c : Control) (ssid : CStr) (isOpen : Bool) : Option PlaceEdit :=
  if configFindProfile c.cfg ssid = none then some (.add ssid isOpen) else none

/-- `set ssid` and `set pass` edit the active profile; without one the first adds it. -/
def setPlaceEdit (c : Control) (key val : CStr) : Option PlaceEdit :=
  if c.cfg.active < c.profileCount then
    let p := c.profile c.cfg.active
    if isWord key "ssid" then some (.edit { p with ssid := val.take (configSsidMax - 1) })
    else if isWord key "pass" then some (.edit { p with password := val.take (configPassMax - 1) })
    else none
  else if isWord key "ssid" then some (.add val true)
  else none

/-- The edit of the places that a line asks for. -/
def placeEdit (board : Board) (c : Control) (line : CStr) : Option PlaceEdit :=
  let cmd := (splitLine (trimLine line)).1
  let args := (splitLine (trimLine line)).2
  if c.proto.mode = .scan then
    if isWord cmd "JOIN" then
      (args.bind fun a => parseIndex a c.scan.resultCount).bind fun i =>
        c.joinPlaceEdit (c.scan.results i).ssid ((c.scan.results i).auth = 0)
    else none
  else if isWord cmd "SET" then
    (args.bind fun a => strchrCut a 32).bind fun kv => c.setPlaceEdit kv.1 kv.2
  else if isWord cmd "JOIN" then args.bind fun a => c.joinPlaceEdit a (c.scanOpen a)
  else if isWord cmd "DEL" then
    args.bind fun a => ((parseIndex a c.profileCount).or (configFindProfile c.cfg a)).map .delete
  else if isWord cmd "RESTORE" then some (.load (c.flash.getD (configDefaults board)))
  else none

/-! ### What a line leaves -/

/-- The command had the station re-associated. -/
def Reassociates (c d : Control) : Prop := Call.apply ∈ d.calls.drop c.calls.length

instance (c d : Control) : Decidable (Reassociates c d) :=
  inferInstanceAs (Decidable (_ ∈ _))

/-- The places are as they were, or as the edit asked for leaves them. -/
inductive PlacesAfter (c : Control) (ask : Option PlaceEdit) (d : Control) : Prop
  | kept (h : d.cfg.profiles = c.cfg.profiles)
  | edited {e : PlaceEdit} (asked : ask = some e) (made : e.Made c d.cfg)
      (applied : e.applied → Reassociates c d)

variable {c d e : Control} {ask : Option PlaceEdit}

theorem PlacesAfter.reply (h : PlacesAfter c ask d) (r : Reply) : PlacesAfter c ask (d.reply r) := by
  cases h with
  | kept h => exact .kept h
  | edited asked made applied => exact .edited asked made applied

theorem Reassociates.call (h : Reassociates c d) (k : Call) : Reassociates c (d.call k) := by
  change _ ∈ (d.calls ++ [k]).drop _
  rw [List.drop_append]
  exact List.mem_append_left _ h

theorem PlacesAfter.call (h : PlacesAfter c ask d) (k : Call) : PlacesAfter c ask (d.call k) := by
  cases h with
  | kept h => exact .kept h
  | edited asked made applied => exact .edited asked made fun h => (applied h).call k

theorem reassociates_wifiConnApply (h : e.calls = c.calls) : Reassociates c e.wifiConnApply := by
  obtain ⟨l, hl⟩ := wifiConnApply_calls e
  simp [Reassociates, hl, h]

/-- An edit that is followed by a re-association. -/
theorem PlacesAfter.wifiConnApply {x : PlaceEdit} (asked : ask = some x) (made : x.Made c e.cfg)
    (calls : e.calls = c.calls) : PlacesAfter c ask e.wifiConnApply :=
  .edited asked (wifiConnApply_cfg e ▸ made) fun _ => reassociates_wifiConnApply calls

/-- A `set` of the Wi-Fi part is. -/
theorem PlacesAfter.applySet {x : PlaceEdit} (asked : ask = some x) (made : x.Made c e.cfg)
    (calls : e.calls = c.calls) : PlacesAfter c ask (applySet (.wifi, e)) :=
  (PlacesAfter.wifiConnApply (e := e.say "[*] applying -- re-associating\n") asked made
    calls).reply _

theorem joinSsid_places (c : Control) (ssid : CStr) (openHint : Option Bool) :
    PlacesAfter c (c.joinPlaceEdit ssid (openHint.getD (c.scanOpen ssid)))
      (c.joinSsid ssid openHint) := by
  unfold joinSsid
  dsimp only
  split
  case h_1 p _ =>
    have hcfg := (joinProfile_config c p (openHint.getD (c.scanOpen ssid))).1
    exact .kept (congrArg Config.profiles hcfg :)
  case h_2 hnone =>
    split
    case h_1 => exact .kept rfl
    case h_2 p cfg hadd =>
      have hasked : c.joinPlaceEdit ssid (openHint.getD (c.scanOpen ssid)) =
          some (.add ssid (openHint.getD (c.scanOpen ssid))) := if_pos hnone
      have hmade := PlaceEdit.made_add hadd (openHint.getD (c.scanOpen ssid))
      unfold joinProfile
      dsimp only
      split_ifs with hpass hopen
      · exact .wifiConnApply hasked hmade rfl
      · exact .wifiConnApply hasked hmade rfl
      · exact .edited hasked hmade fun happlied => absurd happlied hopen

theorem SetCase.places {args key val : CStr} {r : SetResult × Control} (h : SetCase c args r)
    (cut : strchrCut args 32 = some (key, val)) :
    PlacesAfter c (c.setPlaceEdit key val) (applySet r) := by
  cases h with
  | err s => exact .kept rfl
  | ssid cut' word =>
    obtain ⟨rfl, rfl⟩ := Prod.mk.inj (Option.some.inj (cut.symm.trans cut'))
    unfold setSsid
    split_ifs with hactive
    · refine .applySet ?_ (PlaceEdit.made_edit hactive _) rfl
      rw [setPlaceEdit, if_pos hactive]
      exact if_pos word
    · split
      case h_1 => exact .kept rfl
      case h_2 i cfg hadd =>
        refine .applySet ?_ (PlaceEdit.made_add hadd true) rfl
        rw [setPlaceEdit, if_neg hactive]
        exact if_pos word
  | pass _ cut' word =>
    obtain ⟨rfl, rfl⟩ := Prod.mk.inj (Option.some.inj (cut.symm.trans cut'))
    unfold setPass
    split_ifs with hactive
    · exact .kept rfl
    · have hlt := Nat.lt_of_not_le hactive
      refine .applySet ?_ (PlaceEdit.made_edit hlt _) rfl
      have hssid : ¬isWord key "ssid" := Bool.eq_false_iff.mp (isWord_of_ne word (by decide))
      rw [setPlaceEdit, if_pos hlt]
      dsimp only
      rw [if_neg hssid, if_pos word]
  | country val' =>
    have hcfg := wifiConnApply_cfg ((c.setCountry val').2.say "[*] applying -- re-associating\n")
    exact .kept (congrArg Config.profiles hcfg :)
  | debug on => exact .kept rfl
  | wg h => exact .kept rfl
  | ap h => exact .kept rfl

theorem mainDel_places (c : Control) (args : CStr) :
    PlacesAfter c
      (((parseIndex args c.profileCount).or (configFindProfile c.cfg args)).map .delete)
      (c.mainDel args) := by
  unfold mainDel
  split
  case h_1 => exact .kept rfl
  case h_2 i hi =>
    have hafter := PlacesAfter.wifiConnApply (c := c)
      (e := { c with cfg := configDelProfile c.cfg i }.say "[*] deleted (save to persist)\n")
      (congrArg (Option.map PlaceEdit.delete) hi) (PlaceEdit.made_delete i) rfl
    exact hafter.reply _

theorem mainRestore_places (board : Board) (c : Control) :
    PlacesAfter c (some (.load (c.flash.getD (configDefaults board)))) (c.mainRestore board) := by
  have hafter := PlacesAfter.wifiConnApply (c := c)
    (e := (c.configLoad board).noteSaved.say "[*] restored saved settings\n") rfl
    (PlaceEdit.made_load (c.flash.getD (configDefaults board))) rfl
  exact (hafter.call _).reply _

theorem mainUse_places (c : Control) (args : CStr) : PlacesAfter c ask (c.mainUse args) := by
  unfold mainUse
  split
  case h_1 => exact .kept rfl
  case h_2 i _ =>
    have hcfg := wifiConnApply_cfg
      ({ c with cfg.active := i }.say "[*] applying -- re-associating\n")
    exact .kept (congrArg Config.profiles hcfg :)

theorem mainGenkey_places (board : Board) (c : Control) (args : Option CStr) :
    PlacesAfter c ask (c.mainGenkey board args) := by
  unfold mainGenkey wgKeypairGenerate
  dsimp only
  split_ifs
  · exact .kept rfl
  · cases board.publicKey (clampKey (wireguardRandomBytes (c.env.random.headD []) 32)) <;>
      exact .kept rfl

theorem mainSave_places (c : Control) : PlacesAfter c ask c.mainSave := by
  unfold mainSave configSave
  dsimp only
  by_cases hok : c.env.flashes.head? = some true
  · simp only [hok, if_true]
    exact .kept rfl
  · simp only [hok, if_false]
    exact .kept rfl

theorem handleMain_places (board : Board) {c : Control} (line : CStr)
    (hmode : c.proto.mode ≠ .scan) :
    PlacesAfter c (c.placeEdit board line)
      (c.handleMain board (splitLine (trimLine line)).1 (splitLine (trimLine line)).2) := by
  have hcase := handleMain_case board c (splitLine (trimLine line)).1 (splitLine (trimLine line)).2
  unfold placeEdit
  dsimp only
  rw [if_neg hmode]
  generalize (splitLine (trimLine line)).1 = cmd at hcase ⊢
  generalize (splitLine (trimLine line)).2 = args at hcase ⊢
  generalize c.handleMain board cmd args = d at hcase ⊢
  cases hcase with
  | @set a hargs word =>
    rw [if_pos word, hargs, Option.bind_some]
    cases hcut : strchrCut a 32 with
    | none =>
      refine .kept ?_
      unfold cmdSet
      rw [hcut]
      rfl
    | some kv => exact (cmdSet_case board c a).places hcut
  | list => exact .kept rfl
  | @join ssid hargs word =>
    have hother := isWord_of_forall_ne ["SET"] word (by decide)
    simp only [List.forall_mem_cons] at hother
    rw [hargs, if_neg (by simp [hother]), if_pos word, Option.bind_some]
    exact (joinSsid_places c ssid none).reply _
  | use a => exact mainUse_places c a
  | del a hargs word =>
    have hother := isWord_of_forall_ne ["SET", "JOIN"] word (by decide)
    simp only [List.forall_mem_cons] at hother
    rw [hargs, if_neg (by simp [hother]), if_neg (by simp [hother]), if_pos word, Option.bind_some]
    exact mainDel_places c a
  | pcap a => exact .kept (congrArg Config.profiles (mainPcap_keepsConfig c a).1)
  | genkey => exact mainGenkey_places board c args
  | pubkey => exact .kept (congrArg Config.profiles (mainPubkey_keepsConfig board c).1)
  | restart => exact .kept rfl
  | scan => exact .kept (congrArg Config.profiles (startScan_keepsConfig c).1)
  | save => exact mainSave_places c
  | restore word =>
    have hother := isWord_of_forall_ne ["SET", "JOIN", "DEL"] word (by decide)
    simp only [List.forall_mem_cons] at hother
    rw [if_neg (by simp [hother]), if_neg (by simp [hother]), if_neg (by simp [hother]),
      if_pos word]
    exact mainRestore_places board c
  | unknown s => exact .kept rfl

theorem handleScan_places (board : Board) {c : Control} (line : CStr)
    (hmode : c.proto.mode = .scan) :
    PlacesAfter c (c.placeEdit board line)
      (c.handleScan (splitLine (trimLine line)).1 (splitLine (trimLine line)).2) := by
  have hcase := handleScan_case c (splitLine (trimLine line)).1 (splitLine (trimLine line)).2
  unfold placeEdit
  dsimp only
  rw [if_pos hmode]
  generalize (splitLine (trimLine line)).1 = cmd at hcase ⊢
  generalize (splitLine (trimLine line)).2 = args at hcase ⊢
  generalize c.handleScan cmd args = d at hcase ⊢
  cases hcase with
  | back => exact .kept rfl
  | scan => exact .kept (congrArg Config.profiles (startScan_keepsConfig c).1)
  | live => exact .kept (congrArg Config.profiles (scanLive_keepsConfig c).1)
  | @join a hargs word =>
    rw [if_pos word, hargs, Option.bind_some]
    unfold scanJoin
    split
    case h_1 => exact .kept rfl
    case h_2 i hi =>
      rw [hi, Option.bind_some]
      -- leaving the menu changes nothing of the places
      have hjoin := joinSsid_places { c with proto.mode := .main } (c.scan.results i).ssid
        (some ((c.scan.results i).auth = 0))
      refine PlacesAfter.reply ?_ _
      cases hjoin with
      | kept h => exact .kept h
      | edited asked made applied => exact .edited asked ⟨made.places, made.joins⟩ applied
  | unknown s => exact .kept rfl

/-- **The places after a line.** They are as they were, or the edit that was read off the line has
been made in them. -/
theorem handleLine_places (board : Board) (c : Control) (line : CStr) :
    PlacesAfter c (c.placeEdit board line) (c.handleLine board line) := by
  have hcase := handleLine_case board c line
  generalize c.handleLine board line = d at hcase ⊢
  cases hcase with
  | listScan => exact .kept rfl
  | dump => exact .kept rfl
  | scan hmode => exact handleScan_places board line hmode
  | main hmode => exact handleMain_places board line hmode

end Control

end Molewire
