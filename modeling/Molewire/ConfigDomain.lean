/-
# The domain of the configuration

What the DHCP encoder, the mask shifts and the tunnel take for granted of the
record they are given. The defaults are in the domain, and every command, every
join and every reload from flash keeps a configuration inside it.
-/

import Molewire.ConfigInvariant

namespace Molewire

open ByteBuffer MarkedList Transition

/-! ### The domain -/

/-- The tunnel's part. A text field is shorter than its array, so its terminating zero fits. -/
structure WgDomain (w : WgConfig) : Prop where
  privateKey : StoredKey w.privateKey
  peerPublic : StoredKey w.peerPublic
  psk : StoredKey w.psk
  endpoint : w.endpoint.length < configEndpointMax
  port : w.endpoint ≠ [] → w.endpointPort ≠ 0
  keepalive : w.keepalive ≤ 65000
  mtu : w.hostMtu = 0 ∨ 576 ≤ w.hostMtu ∧ w.hostMtu ≤ 1420
  addr : w.addr = Ip4.any ∨ 8 ≤ w.plen ∧ w.plen ≤ 30
  routeCount : w.routes.length ≤ configRoutesMax
  routePlen : ∀ r ∈ w.routes, 1 ≤ r.plen ∧ r.plen ≤ 32

/-- The access point's part. -/
structure ApDomain (a : ApConfig) : Prop where
  ssid : a.ssid.length < configSsidMax
  password : a.password = [] ∨ 8 ≤ a.password.length ∧ a.password.length ≤ 63
  addr : a.addr = Ip4.any ∨ 8 ≤ a.plen ∧ a.plen ≤ 30

/-- The texts of a saved network fit their fields. -/
def ProfileFits (p : WifiProfile) : Prop :=
  p.ssid.length < configSsidMax ∧ p.password.length < configPassMax

/-- The whole record. That there are at most `CONFIG_PROFILE_MAX` profiles is a field of the list
itself. -/
structure Domain (cfg : Config) : Prop where
  profiles : ∀ p ∈ cfg.profiles.entries, ProfileFits p
  active : cfg.active < cfg.profiles.entries.length ∨
    cfg.active = configActiveNone ∧ cfg.profiles.entries = []
  wg : WgDomain cfg.wg
  ap : ApDomain cfg.ap

/-! ### Edits -/

theorem WgEdit.domain {w w' : WgConfig} (h : WgEdit w w') (hw : WgDomain w) : WgDomain w' := by
  cases h with
  | key h => exact { hw with privateKey := h }
  | peer h => exact { hw with peerPublic := h }
  | psk h => exact { hw with psk := h }
  | endpoint hhost hport => exact { hw with endpoint := hhost, port := fun _ => hport }
  | addr h => exact { hw with addr := .inr h }
  | hostip a => exact { hw with }
  | dns a => exact { hw with }
  | routes hcount hplen => exact { hw with routeCount := hcount, routePlen := hplen }
  | keepalive h => exact { hw with keepalive := h }
  | mtu h => exact { hw with mtu := h }
  | exit on => exact { hw with }
  | exitlan on => exact { hw with }

theorem ApEdit.domain {a a' : ApConfig} (h : ApEdit a a') (ha : ApDomain a) : ApDomain a' := by
  cases h with
  | ssid h => exact { ha with ssid := h }
  | password h => exact { ha with password := .inr h }
  | addr h => exact { ha with addr := .inr h }
  | client ip => exact { ha with }
  | enabled on => exact { ha with }

theorem newProfile_fits (ssid : CStr) : ProfileFits (newProfile ssid) :=
  ⟨length_take_lt ssid (by decide), Nat.succ_pos _⟩

theorem configFindProfile_lt {cfg : Config} {ssid : CStr} {p : Nat}
    (h : configFindProfile cfg ssid = some p) : p < cfg.profiles.entries.length :=
  (List.findIdx?_eq_some_iff_getElem.mp h).1

theorem configDelProfile_parts (cfg : Config) (i : Nat) :
    (configDelProfile cfg i).wg = cfg.wg ∧ (configDelProfile cfg i).ap = cfg.ap := by
  unfold configDelProfile
  dsimp only
  split_ifs <;> exact ⟨rfl, rfl⟩

theorem configAddProfile_parts {cfg cfg' : Config} {ssid : CStr} {p : Nat}
    (h : configAddProfile cfg ssid = some (p, cfg')) : cfg'.wg = cfg.wg ∧ cfg'.ap = cfg.ap := by
  unfold configAddProfile at h
  obtain ⟨base, hbase, h⟩ := Option.bind_eq_some_iff.mp h
  simp only [Option.dite_none_right_eq_some, Option.some.injEq, Prod.mk.injEq] at h
  obtain ⟨-, -, rfl⟩ := h
  split_ifs at hbase
  · -- the list was full and the victim made room
    obtain ⟨v, -, rfl⟩ := Option.map_eq_some_iff.mp hbase
    exact configDelProfile_parts cfg v
  · cases hbase
    exact ⟨rfl, rfl⟩

theorem configTouchProfile_parts (cfg : Config) (i : Nat) :
    ((configTouchProfile cfg i).getD cfg).wg = cfg.wg ∧
      ((configTouchProfile cfg i).getD cfg).ap = cfg.ap := by
  unfold configTouchProfile
  split
  · exact ⟨rfl, rfl⟩
  · split_ifs <;> exact ⟨rfl, rfl⟩

theorem Domain.del {cfg : Config} (h : Domain cfg) (i : Nat) : Domain (configDelProfile cfg i) := by
  obtain ⟨hwg, hap⟩ := configDelProfile_parts cfg i
  refine ⟨?_, ?_, hwg ▸ h.wg, hap ▸ h.ap⟩
  · intro p hp
    rw [configDelProfile_entries] at hp
    exact h.profiles p (List.mem_of_mem_eraseIdx hp)
  · have hmax := cfg.profiles.le_max
    rcases Nat.lt_or_ge i cfg.profiles.entries.length with hi | hi
    · have hlen := List.length_eraseIdx_of_lt hi
      have hactive : cfg.active < cfg.profiles.entries.length := by
        apply h.active.resolve_right
        rintro ⟨-, hnil⟩
        rw [hnil] at hi
        exact absurd hi (Nat.not_lt_zero i)
      -- the marker follows its profile, and moves to the first one if its own is gone
      rw [configDelProfile_entries, configDelProfile_active hi, ← List.length_eq_zero_iff]
      simp only [configProfileMax, configActiveNone] at hmax ⊢
      grind
    · rw [configDelProfile_of_le hi]
      exact h.active

/-- A profile that was added is selected, whatever was selected before. -/
theorem Domain.add {cfg cfg' : Config} {ssid : CStr} {p : Nat} (h : Domain cfg)
    (hadd : configAddProfile cfg ssid = some (p, cfg')) : Domain { cfg' with active := p } := by
  obtain ⟨hwg, hap⟩ := configAddProfile_parts hadd
  obtain ⟨kept, hentries, rfl, hkept⟩ := configAddProfile_entries hadd
  have hsubset : ∀ q ∈ kept, q ∈ cfg.profiles.entries := by
    intro q hq
    rcases hkept with rfl | ⟨v, -, rfl⟩
    · exact hq
    · exact List.mem_of_mem_eraseIdx hq
  refine ⟨?_, .inl ?_, hwg ▸ h.wg, hap ▸ h.ap⟩
  · intro q hq
    rcases List.mem_append.mp (hentries ▸ hq) with hold | hnew
    · exact h.profiles q (hsubset q hold)
    · rw [List.mem_singleton.mp hnew]
      exact newProfile_fits ssid
  · change kept.length < cfg'.profiles.entries.length
    rw [hentries, List.length_append]
    exact Nat.lt_succ_self _

theorem Domain.joined {cfg : Config} (h : Domain cfg) {t : Nat}
    (ht : t < cfg.profiles.entries.length) : Domain (Control.joinedConfig cfg t) := by
  have hi : t < ({ cfg with active := t } : Config).profiles.entries.length := ht
  obtain ⟨hwg, hap⟩ := configTouchProfile_parts { cfg with active := t } t
  have hentries := configTouchProfile_moveToFront hi
  have hactive := configTouchProfile_frontShift hi
  refine ⟨?_, .inl ?_, hwg ▸ h.wg, hap ▸ h.ap⟩
  · intro p hp
    rw [Control.joinedConfig, hentries] at hp
    exact h.profiles p (mem_moveToFront hp)
  · rw [Control.joinedConfig, hentries, hactive, length_moveToFront hi, frontShift, if_pos rfl]
    exact Nat.zero_lt_of_lt ht

/-- An edit of one entry that keeps its texts inside their fields. -/
theorem Domain.modify {cfg : Config} (h : Domain cfg) (i : Nat) {f : WifiProfile → WifiProfile}
    (hf : ∀ p, ProfileFits p → ProfileFits (f p)) :
    Domain { cfg with profiles := cfg.profiles.modify i f } := by
  refine ⟨?_, ?_, h.wg, h.ap⟩
  · intro p hp
    obtain ⟨j, hj⟩ := List.mem_iff_getElem?.mp hp
    rw [ProfileList.entries_modify, List.getElem?_modify, Option.map_eq_map,
      Option.map_eq_some_iff] at hj
    obtain ⟨q, hq, rfl⟩ := hj
    have hfits := h.profiles q (List.mem_of_getElem? hq)
    split_ifs
    · exact hf q hfits
    · exact hfits
  · have hlen : (cfg.profiles.entries.modify i f).length = cfg.profiles.entries.length :=
      List.length_modify _ _ _
    refine h.active.imp (fun hlt => ?_) (fun hnone => ⟨hnone.1, ?_⟩)
    · exact hlt.trans_eq hlen.symm
    · exact List.length_eq_zero_iff.mp (hlen.trans (List.length_eq_zero_iff.mpr hnone.2))

theorem WgDomain.unset : WgDomain {} where
  privateKey := .inl rfl
  peerPublic := .inl rfl
  psk := .inl rfl
  endpoint := by decide
  port := nofun
  keepalive := by decide
  mtu := .inl rfl
  addr := .inl rfl
  routeCount := by decide
  routePlen := nofun

theorem ApDomain.unset : ApDomain {} where
  ssid := by decide
  password := .inl rfl
  addr := .inl rfl

/-- The defaults are in the domain, whatever was compiled in. -/
theorem configDefaults_domain (board : Board) : Domain (Control.configDefaults board) := by
  unfold Control.configDefaults
  dsimp only
  -- no network was compiled in, or one
  split_ifs
  · exact ⟨List.forall_mem_nil _, .inr ⟨rfl, rfl⟩, .unset, .unset⟩
  · refine ⟨?_, .inl Nat.one_pos, .unset, .unset⟩
    intro p hp
    rw [List.mem_singleton.mp hp]
    exact ⟨length_take_lt _ (by decide), length_take_lt _ (by decide)⟩

/-! ### Commands -/

theorem renamed_fits (val : CStr) {p : WifiProfile} (h : ProfileFits p) :
    ProfileFits { p with ssid := val.take (configSsidMax - 1) } :=
  ⟨length_take_lt val (by decide), h.2⟩

theorem password_fits (val : CStr) {p : WifiProfile} (h : ProfileFits p) :
    ProfileFits { p with password := val.take (configPassMax - 1) } :=
  ⟨h.1, length_take_lt val (by decide)⟩

theorem Domain.select {cfg : Config} (h : Domain cfg) {i : Nat}
    (hi : i < cfg.profiles.entries.length) : Domain { cfg with active := i } :=
  ⟨h.profiles, .inl hi, h.wg, h.ap⟩

theorem JoinEdit.domain {cfg cfg' : Config} {ssid : CStr} (hedit : JoinEdit cfg ssid cfg')
    (h : Domain cfg) : Domain cfg' := by
  cases hedit with
  | found hfind => exact h.select (configFindProfile_lt hfind)
  | added _ hadd => exact h.add hadd

namespace Control

theorem ConfigEdit.domain {board : Board} {c : Control} {line : CStr} {cfg : Config}
    (hedit : ConfigEdit board c line cfg) (h : Holds Domain c) : Domain cfg := by
  cases hedit with
  | kept => exact h.cfg
  | rename => exact h.cfg.modify c.cfg.active fun _ => renamed_fits _
  | create ask inactive hadd => exact h.cfg.add hadd
  | password val => exact h.cfg.modify c.cfg.active fun _ => password_fits val
  | country => exact ⟨h.cfg.profiles, h.cfg.active, h.cfg.wg, h.cfg.ap⟩
  | debug => exact ⟨h.cfg.profiles, h.cfg.active, h.cfg.wg, h.cfg.ap⟩
  | wg hw => exact ⟨h.cfg.profiles, h.cfg.active, hw.domain h.cfg.wg, h.cfg.ap⟩
  | ap ha => exact ⟨h.cfg.profiles, h.cfg.active, h.cfg.wg, ha.domain h.cfg.ap⟩
  | join _ hjoin => exact hjoin.domain h.cfg
  | select hi => exact h.cfg.select hi
  | delete i => exact h.cfg.del i
  | load =>
    -- what was saved had the domain when it was written
    cases hflash : c.flash with
    | none => exact configDefaults_domain board
    | some f => exact h.flash f hflash

/-- Every line keeps the domain, with no condition on what it says. -/
theorem domain_invariant (board : Board) :
    ConfigInvariant board Domain fun _ _ => True where
  defaults := configDefaults_domain board
  edit h _ hedit := hedit.domain h
  joined h ht := h.joined ht

/-! ### Keys -/

/-- A key is cleared or stored as it was typed, which is never longer than its field. -/
theorem setWgKey_whole {store : WgConfig → CStr → WgConfig} {allowOff : Bool} {c : Control}
    {val : CStr} (h : (setWgKey store allowOff c val).1 = .wg) :
    (setWgKey store allowOff c val).2.cfg.wg = store c.cfg.wg [] ∨
      validWgKey val ∧ (setWgKey store allowOff c val).2.cfg.wg = store c.cfg.wg val := by
  unfold setWgKey at h ⊢
  split_ifs at h ⊢ with hoff hinvalid
  · exact .inl rfl
  · cases h
  · have hvalid : validWgKey val := by simpa using hinvalid
    -- a valid key has at most 44 characters, so the copy into the field cuts nothing off
    have hfits : val.length ≤ configWgkeyMax - 1 :=
      (validWgKey_length hvalid).trans (by decide)
    rw [List.take_of_length_le hfits]
    exact .inr ⟨hvalid, rfl⟩

/-- In every run from such a start, under any input of the console and the portal and any joins,
the configuration stays in the domain, and a key that is stored is the one that was typed. -/
theorem domain_kept {board : Board} {c : Control}
    (h : Reach (StartsFrom board Domain) (fun _ _ => True) (step board) c) :
    Domain c.cfg ∧ ∀ store allowOff val, (setWgKey store allowOff c val).1 = .wg →
      (setWgKey store allowOff c val).2.cfg.wg = store c.cfg.wg [] ∨
        validWgKey val ∧ (setWgKey store allowOff c val).2.cfg.wg = store c.cfg.wg val := by
  have hadmitted : Reach (StartsFrom board Domain) (LinesAdmitted board fun _ _ => True)
      (step board) c := h.mono (fun _ hs => hs) fun _ _ _ _ _ => trivial
  exact ⟨((domain_invariant board).reached hadmitted).cfg, fun _ _ _ hset => setWgKey_whole hset⟩

/-- From the defaults, after a network was joined by name and a keepalive was set. -/
theorem domain_kept_two_lines :
    Domain (step plainBoard (step plainBoard (boot plainBoard none {})
      (.portal {} (ascii "join home"))) (.portal {} (ascii "set keepalive 25"))).cfg := by
  have hstart : StartsFrom plainBoard Domain (boot plainBoard none {}) := ⟨none, {}, nofun, rfl⟩
  exact (domain_kept (((Reach.start hstart).step trivial).step trivial)).1

end Control

end Molewire
