/-
# The configuration record

`config.c`: the saved Wi-Fi profiles in most-recently-used order, the tunnel
and the quarantine access point. A text field is the bytes before its
terminating zero; an address of `0.0.0.0` is unset. The list of profiles
carries its bound, so every edit has to account for a full list.
-/

import Mathlib.Data.List.Basic
import Molewire.Ipv4

namespace Molewire

open ByteBuffer

/-- A C string: the bytes before the terminating zero. -/
abbrev CStr := Bytes

/-- The bytes of a literal. -/
def ascii (s : String) : CStr := s.toList.map fun c => c.toNat.toUInt8

/-- `CONFIG_PROFILE_MAX`. -/
def configProfileMax : Nat := 8

/-- `CONFIG_SSID_MAX`, the terminating zero included. -/
def configSsidMax : Nat := 33

/-- `CONFIG_PASS_MAX`, the terminating zero included. -/
def configPassMax : Nat := 64

/-- `CONFIG_ACTIVE_NONE`: no profile is selected. -/
def configActiveNone : Nat := 0xFF

/-- `WIREGUARDIF_MTU`. -/
def wireguardifMtu : UInt16 := 1420

/-! ### Records -/

/-- A subnet pushed to the host as a route, `wg_route_t`. -/
structure WgRoute where
  net : Ip4
  plen : UInt8
  deriving DecidableEq, Repr

/-- `wg_config_t`. The length of `routes` is the route count. -/
structure WgConfig where
  privateKey : CStr := []
  peerPublic : CStr := []
  psk : CStr := []
  endpoint : CStr := []
  endpointPort : UInt16 := 0
  keepalive : UInt16 := 0
  hostMtu : UInt16 := 0
  exitEnabled : Bool := false
  exitLan : Bool := false
  addr : Ip4 := Ip4.any
  hostAddr : Ip4 := Ip4.any
  dns : Ip4 := Ip4.any
  plen : UInt8 := 0
  routes : List WgRoute := []
  deriving DecidableEq, Repr

/-- `ap_config_t`. -/
structure ApConfig where
  addr : Ip4 := Ip4.any
  clientAddr : Ip4 := Ip4.any
  plen : UInt8 := 0
  enabled : Bool := false
  ssid : CStr := []
  password : CStr := []
  deriving DecidableEq, Repr

/-- One saved network, `wifi_profile_t`. -/
structure WifiProfile where
  ssid : CStr
  password : CStr
  deriving DecidableEq, Repr

/-- The saved networks, most recently used first, never more than the record has room for. -/
structure ProfileList where
  entries : List WifiProfile
  le_max : entries.length ≤ configProfileMax
  deriving DecidableEq, Repr

def ProfileList.empty : ProfileList := ⟨[], Nat.zero_le _⟩

/-- Entry `i` edited in place. -/
def ProfileList.modify (l : ProfileList) (i : Nat) (f : WifiProfile → WifiProfile) : ProfileList :=
  ⟨l.entries.modify i f, (List.length_modify f l.entries i).trans_le l.le_max⟩

@[simp] theorem ProfileList.entries_modify (l : ProfileList) (i : Nat)
    (f : WifiProfile → WifiProfile) : (l.modify i f).entries = l.entries.modify i f := rfl

/-- `config_t`. The length of the list is the profile count. -/
structure Config where
  profiles : ProfileList := .empty
  active : Nat := configActiveNone
  debugEnabled : Bool := false
  country : UInt32 := 0
  wg : WgConfig := {}
  ap : ApConfig := {}
  deriving DecidableEq, Repr

/-! ### Validity -/

/-- `config_wg_complete`. -/
def configWgComplete (cfg : Config) : Bool :=
  let w := cfg.wg
  w.privateKey != [] && w.peerPublic != [] && w.endpoint != [] && w.endpointPort != 0 &&
    w.addr != Ip4.any && w.hostAddr != Ip4.any && 8 ≤ w.plen && w.plen ≤ 30

/-- `config_ap_complete`. An open access point is refused. -/
def configApComplete (cfg : Config) : Bool :=
  let a := cfg.ap
  let pw := a.password.length
  -- WPA2 takes passphrases of 8 to 63 characters
  if a.ssid = [] ∨ pw < 8 ∨ 63 < pw then false
  else if a.addr = Ip4.any ∨ a.clientAddr = Ip4.any ∨ a.addr = a.clientAddr ∨ a.plen < 8 ∨
      30 < a.plen then false
  else a.addr.netEq a.clientAddr (Ip4.prefixMask a.plen.toNat)

/-! ### Profiles -/

/-- `strncmp(a, b, n) == 0`. -/
def strncmpEq (a b : CStr) (n : Nat) : Bool := (a ++ [0]).take n == (b ++ [0]).take n

/-- `active_profile`. -/
def activeProfile (cfg : Config) : Option WifiProfile := cfg.profiles.entries[cfg.active]?

def configActiveSsid (cfg : Config) : CStr := (activeProfile cfg).elim [] (·.ssid)

def configActivePass (cfg : Config) : CStr := (activeProfile cfg).elim [] (·.password)

/-- `config_find_profile`. -/
def configFindProfile (cfg : Config) (ssid : CStr) : Option Nat :=
  cfg.profiles.entries.findIdx? fun p => strncmpEq p.ssid ssid configSsidMax

/-- `config_del_profile`: later entries move down and `active` stays on its profile. -/
def configDelProfile (cfg : Config) (i : Nat) : Config :=
  let rest : ProfileList :=
    ⟨cfg.profiles.entries.eraseIdx i, (List.length_eraseIdx_le _ _).trans cfg.profiles.le_max⟩
  if cfg.profiles.entries.length ≤ i then cfg
  else
    { cfg with
      profiles := rest
      active :=
        -- the count is the one after the deletion
        if cfg.active = i ∨ rest.entries.length = 0 then
          if rest.entries.length = 0 then configActiveNone else 0
        else if cfg.active ≠ configActiveNone ∧ i < cfg.active then cfg.active - 1
        else cfg.active }

theorem configDelProfile_entries (cfg : Config) (i : Nat) :
    (configDelProfile cfg i).profiles.entries = cfg.profiles.entries.eraseIdx i := by
  unfold configDelProfile
  dsimp only
  by_cases hi : cfg.profiles.entries.length ≤ i
  · rw [if_pos hi, List.eraseIdx_of_length_le hi]
  · rw [if_neg hi]

/-- The entry a full list gives up: the last, unless it is the active one. -/
def addVictim (cfg : Config) : Option Nat :=
  let last := cfg.profiles.entries.length - 1
  if cfg.active = last then if last = 0 then none else some (last - 1) else some last

/-- `config_add_profile`: the new entry's index, with the list it was appended to. -/
def configAddProfile (cfg : Config) (ssid : CStr) : Option (Nat × Config) :=
  let entry : WifiProfile := ⟨ssid.take (configSsidMax - 1), []⟩
  let cfg? : Option Config :=
    if configProfileMax ≤ cfg.profiles.entries.length then
      (addVictim cfg).map (configDelProfile cfg)
    else some cfg
  -- the room is checked again, whether or not something was given up
  cfg?.bind fun cfg =>
    if h : cfg.profiles.entries.length < configProfileMax then
      some (cfg.profiles.entries.length,
        { cfg with profiles := ⟨cfg.profiles.entries ++ [entry], by
          rw [List.length_append, List.length_singleton]
          exact h⟩ })
    else none

/-- A new profile goes behind the saved ones, of which a full list first gives one up. -/
theorem configAddProfile_entries {cfg cfg' : Config} {ssid : CStr} {p : Nat}
    (h : configAddProfile cfg ssid = some (p, cfg')) :
    ∃ kept, cfg'.profiles.entries = kept ++ [⟨ssid.take (configSsidMax - 1), []⟩] ∧
      p = kept.length ∧ (kept = cfg.profiles.entries ∨
        ∃ v, addVictim cfg = some v ∧ kept = cfg.profiles.entries.eraseIdx v) := by
  unfold configAddProfile at h
  obtain ⟨base, hbase, h⟩ := Option.bind_eq_some_iff.mp h
  simp only [Option.dite_none_right_eq_some, Option.some.injEq, Prod.mk.injEq] at h
  obtain ⟨-, rfl, rfl⟩ := h
  refine ⟨_, rfl, rfl, ?_⟩
  split_ifs at hbase
  · obtain ⟨v, hv, rfl⟩ := Option.map_eq_some_iff.mp hbase
    exact .inr ⟨v, hv, configDelProfile_entries cfg v⟩
  · cases hbase
    exact .inl rfl

/-- So the list never gets shorter. -/
theorem configAddProfile_length {cfg cfg' : Config} {ssid : CStr} {p : Nat}
    (h : configAddProfile cfg ssid = some (p, cfg')) :
    cfg.profiles.entries.length ≤ cfg'.profiles.entries.length := by
  obtain ⟨kept, hentries, -, rfl | ⟨v, -, rfl⟩⟩ := configAddProfile_entries h
  · simp [hentries]
  · rw [hentries, List.length_append, List.length_singleton, List.length_eraseIdx]
    split_ifs <;> omega

/-- `config_touch_profile`: move an entry to the front, `active` staying on its profile. -/
def configTouchProfile (cfg : Config) (i : Nat) : Option Config :=
  match h : cfg.profiles.entries[i]? with
  | none => none
  | some moved =>
    if i = 0 then some cfg
    else
      some { cfg with
        profiles := ⟨moved :: cfg.profiles.entries.eraseIdx i, by
          have hi : i < cfg.profiles.entries.length := (List.getElem?_eq_some_iff.mp h).1
          have hle := cfg.profiles.le_max
          have hlen := List.length_eraseIdx_of_lt hi
          simp only [List.length_cons]
          omega⟩
        active :=
          if cfg.active = i then 0
          else if cfg.active ≠ configActiveNone ∧ cfg.active < i then cfg.active + 1
          else cfg.active }

end Molewire
