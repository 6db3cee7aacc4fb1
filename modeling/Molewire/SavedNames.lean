/-
# The names of the saved networks

Lookup, the annotations of a scan and deletion by name take a name to stand for
one profile. Nothing checks a new name against the saved ones but a join, and
that compares the text as it was typed with what the profiles could store of
theirs.
-/

import Mathlib.Data.List.Nodup
import Molewire.ConfigInvariant

namespace Molewire

open ByteBuffer MarkedList Transition

/-! ### Stored names -/

/-- The names under which networks are saved. -/
def savedNames (cfg : Config) : List CStr := cfg.profiles.entries.map (·.ssid)

/-- What a profile stores of a name. -/
def storedName (name : CStr) : CStr := name.take (configSsidMax - 1)

theorem storedName_of_lt {name : CStr} (h : name.length < configSsidMax) :
    storedName name = name := List.take_of_length_le (Nat.le_pred_of_lt h)

theorem length_storedName (name : CStr) : (storedName name).length < configSsidMax :=
  length_take_lt name (by decide)

/-- Two texts that fit the field compare equal only if they are. -/
theorem strncmpEq_iff {s t : CStr} (hs : s.length < configSsidMax)
    (ht : t.length < configSsidMax) : strncmpEq s t configSsidMax ↔ s = t := by
  -- both terminating zeros are inside the bytes that are compared
  have hwhole {u : CStr} (hu : u.length < configSsidMax) :
      (u ++ [0]).take configSsidMax = u ++ [0] := by
    apply List.take_of_length_le
    rw [List.length_append]
    exact hu
  rw [strncmpEq, hwhole hs, hwhole ht, beq_iff_eq]
  exact List.append_left_inj [0]

/-- A saved name that a text is found under is the text as a profile stores it. -/
theorem storedName_of_strncmpEq {s name : CStr} (hs : s.length < configSsidMax)
    (h : strncmpEq s name configSsidMax) : s = storedName name := by
  rcases Nat.lt_or_ge name.length configSsidMax with hname | hlong
  · rw [storedName_of_lt hname]
    exact (strncmpEq_iff hs hname).mp h
  · rw [strncmpEq, beq_iff_eq, List.take_of_length_le (by rw [List.length_append]; exact hs),
      List.take_append_of_le_length hlong] at h
    -- the terminating zero of `s` stands where the text goes on
    have hcut := congrArg List.dropLast h
    rw [List.dropLast_concat, List.dropLast_eq_take, List.length_take_of_le hlong,
      List.take_take] at hcut
    exact hcut

/-- Every saved name is stored with its terminating zero. -/
def NamesFit (cfg : Config) : Prop := ∀ s ∈ savedNames cfg, s.length < configSsidMax

instance (cfg : Config) : Decidable (NamesFit cfg) :=
  inferInstanceAs (Decidable (∀ s ∈ savedNames cfg, _))

/-- The saved names are distinct besides. -/
structure NamesDistinct (cfg : Config) : Prop where
  nodup : (savedNames cfg).Nodup
  fits : NamesFit cfg

/-- A name that fits is found if it is saved. -/
theorem configFindProfile_none {cfg : Config} {name : CStr} (hname : name.length < configSsidMax)
    (hnone : configFindProfile cfg name = none) : name ∉ savedNames cfg := by
  intro hmem
  obtain ⟨p, hp, rfl⟩ := List.mem_map.mp hmem
  have hmiss := List.findIdx?_eq_none_iff.mp hnone p hp
  have hsame := (strncmpEq_iff hname hname).mpr rfl
  exact absurd hsame (by rw [hmiss]; exact Bool.false_ne_true)

/-! ### Edits of the names -/

/-- Overwriting an entry keeps a list distinct unless another entry is the same. -/
theorem nodup_set {α : Type*} {l : List α} {i : Nat} {v : α} (h : l.Nodup)
    (hv : v ∉ l.eraseIdx i) : (l.set i v).Nodup := by
  by_cases hmem : v ∈ l
  · obtain ⟨j, hj⟩ := List.mem_iff_getElem?.mp hmem
    -- the value stands in the list already, and then only at the overwritten place
    obtain rfl : j = i := by
      by_contra hne
      exact hv (List.mem_eraseIdx_iff_getElem?.mpr ⟨j, hne, hj⟩)
    obtain ⟨hlt, hget⟩ := List.getElem?_eq_some_iff.mp hj
    rw [← hget, List.set_getElem_self]
    exact h
  · exact h.set hmem

theorem savedNames_rename (cfg : Config) (val : CStr) :
    savedNames { cfg with profiles := cfg.profiles.modify cfg.active fun p =>
        { p with ssid := val.take (configSsidMax - 1) } } =
      (savedNames cfg).set cfg.active (storedName val) := by
  apply List.ext_getElem?
  intro j
  simp only [savedNames, ProfileList.entries_modify, List.getElem?_map, List.getElem?_modify,
    List.getElem?_set, List.length_map]
  -- without an active profile neither side writes
  by_cases hj : cfg.active = j
  · subst hj
    cases hget : cfg.profiles.entries[cfg.active]? with
    | none => simpa using hget
    | some p =>
      have hlt := (List.getElem?_eq_some_iff.mp hget).1
      simp [hlt, storedName]
  · simp [hj]

theorem savedNames_password (cfg : Config) (val : CStr) :
    savedNames { cfg with profiles := cfg.profiles.modify cfg.active fun p =>
      { p with password := val.take (configPassMax - 1) } } = savedNames cfg := by
  apply List.ext_getElem?
  intro j
  simp only [savedNames, ProfileList.entries_modify, List.getElem?_map, List.getElem?_modify]
  cases cfg.profiles.entries[j]? with
  | none => rfl
  | some p =>
    simp only [Option.map_eq_map, Option.map_some]
    split_ifs <;> rfl

/-- A full list gives up a name for the new one. -/
theorem savedNames_add {cfg cfg' : Config} {name : CStr} {p : Nat}
    (hadd : configAddProfile cfg name = some (p, cfg')) :
    ∃ kept, kept.Sublist (savedNames cfg) ∧ savedNames cfg' = kept ++ [storedName name] := by
  obtain ⟨kept, hentries, -, hkept⟩ := configAddProfile_entries hadd
  refine ⟨kept.map (·.ssid), ?_, ?_⟩
  · -- either the list had room or its victim was deleted first
    rcases hkept with rfl | ⟨v, -, rfl⟩
    · exact .refl _
    · exact (List.eraseIdx_sublist _ v).map _
  · rw [savedNames, hentries, List.map_append]
    rfl

theorem savedNames_joined {cfg : Config} {t : Nat} (ht : t < cfg.profiles.entries.length) :
    (savedNames (Control.joinedConfig cfg t)).Perm (savedNames cfg) := by
  have hi : t < ({ cfg with active := t } : Config).profiles.entries.length := ht
  rw [savedNames, Control.joinedConfig, configTouchProfile_moveToFront hi]
  exact (moveToFront_perm t _).map _

theorem configDefaults_names (board : Board) : NamesDistinct (Control.configDefaults board) := by
  unfold Control.configDefaults
  dsimp only
  split_ifs
  · exact ⟨List.nodup_nil, List.forall_mem_nil _⟩
  · refine ⟨List.nodup_singleton _, ?_⟩
    intro s hs
    rw [List.mem_singleton.mp hs]
    exact length_storedName _

namespace Control

/-- What a line can make of the saved names. -/
inductive NamesEdit (board : Board) (c : Control) (line : CStr) (cfg : Config) : Prop
  | fewer (h : (savedNames cfg).Sublist (savedNames c.cfg))
  | rename {val : CStr} (ask : c.setSsidArg line = some val)
      (h : savedNames cfg = (savedNames c.cfg).set c.cfg.active (storedName val))
  | append {name : CStr} {kept : List CStr} (hkept : kept.Sublist (savedNames c.cfg))
      (h : savedNames cfg = kept ++ [storedName name])
      (ask : c.setSsidArg line = some name ∧ c.profileCount ≤ c.cfg.active ∨
        c.joinName line = some name ∧ configFindProfile c.cfg name = none)
  | load (h : cfg = c.flash.getD (configDefaults board))

theorem ConfigEdit.names {board : Board} {c : Control} {line : CStr} {cfg : Config}
    (h : ConfigEdit board c line cfg) : NamesEdit board c line cfg := by
  cases h with
  | kept => exact .fewer (.refl _)
  | rename ask => exact .rename ask (savedNames_rename c.cfg _)
  | create ask inactive hadd =>
    obtain ⟨kept, hkept, hnames⟩ := savedNames_add hadd
    exact .append hkept hnames (.inl ⟨ask, inactive⟩)
  | password val => exact .fewer (savedNames_password c.cfg val ▸ .refl _)
  | country => exact .fewer (.refl _)
  | debug => exact .fewer (.refl _)
  | wg => exact .fewer (.refl _)
  | ap => exact .fewer (.refl _)
  | join ask hjoin =>
    cases hjoin with
    | found => exact .fewer (.refl _)
    | added unsaved hadd =>
      obtain ⟨kept, hkept, hnames⟩ := savedNames_add hadd
      exact .append hkept hnames (.inr ⟨ask, unsaved⟩)
  | select => exact .fewer (.refl _)
  | delete i =>
    apply NamesEdit.fewer
    rw [savedNames, configDelProfile_entries]
    exact (List.eraseIdx_sublist _ i).map _
  | load => exact .load rfl

/-- No line and no join writes a name past its field. -/
theorem namesFit_invariant (board : Board) : ConfigInvariant board NamesFit fun _ _ => True where
  defaults := (configDefaults_names board).fits
  edit := by
    intro c line cfg h _ hedit s hs
    cases hedit.names with
    | fewer hsub => exact h.cfg s (hsub.subset hs)
    | rename ask hnames =>
      rcases List.mem_or_eq_of_mem_set (hnames ▸ hs) with hold | rfl
      · exact h.cfg s hold
      · exact length_storedName _
    | append hkept hnames =>
      rcases List.mem_append.mp (hnames ▸ hs) with hold | hlast
      · exact h.cfg s (hkept.subset hold)
      · exact List.mem_singleton.mp hlast ▸ length_storedName _
    | load hload =>
      cases hflash : c.flash with
      | none =>
        rw [hload, hflash] at hs
        exact (configDefaults_names board).fits s hs
      | some f =>
        rw [hload, hflash] at hs
        exact h.flash f hflash s hs
  joined := by
    intro cfg t h ht s hs
    exact h s ((savedNames_joined ht).mem_iff.mp hs)

/-! ### Lines -/

/-- A line that gives no profile a name that another one has: it does not rename the active one to
such a name, and does not join a network whose name is saved only after it was cut to fit. -/
structure NameFree (c : Control) (line : CStr) : Prop where
  rename : ∀ val ∈ c.setSsidArg line,
    storedName val ∉ (savedNames c.cfg).eraseIdx c.cfg.active
  join : c.proto.mode ≠ .scan → ∀ name ∈ c.joinName line,
    name.length < configSsidMax ∨ storedName name ∉ savedNames c.cfg

instance (c : Control) (line : CStr) : Decidable (NameFree c line) :=
  decidable_of_iff (_ ∧ _) ⟨fun h => ⟨h.1, h.2⟩, fun h => ⟨h.rename, h.join⟩⟩

/-- In the submenu a network is joined by its number, under a name of the scan table. -/
theorem joinName_of_scan {c : Control} {line name : CStr} (hmode : c.proto.mode = .scan)
    (h : c.joinName line = some name) : ∃ i, name = (c.scan.results i).ssid := by
  unfold joinName at h
  dsimp only at h
  split_ifs at h
  obtain ⟨i, -, rfl⟩ := Option.map_eq_some_iff.mp h
  exact ⟨i, rfl⟩

/-- So the condition on joins says nothing about those by number. -/
theorem NameFree.name {c : Control} {line name : CStr} (hfree : NameFree c line)
    (h : ∀ i, (c.scan.results i).ssid.length < configSsidMax)
    (ask : c.joinName line = some name) :
    name.length < configSsidMax ∨ storedName name ∉ savedNames c.cfg := by
  -- a name from the scan table always fits
  by_cases hmode : c.proto.mode = .scan
  · obtain ⟨i, rfl⟩ := joinName_of_scan hmode ask
    exact .inl (h i)
  · exact hfree.join hmode name ask

/-- A name that is not found is not saved in its stored form either. -/
theorem NameFree.not_saved {c : Control} {line name : CStr} (hfree : NameFree c line)
    (h : Holds NamesDistinct c) (ask : c.joinName line = some name)
    (hnone : configFindProfile c.cfg name = none) : storedName name ∉ savedNames c.cfg := by
  rcases hfree.name h.names ask with hfits | hnew
  · rw [storedName_of_lt hfits]
    exact configFindProfile_none hfits hnone
  · exact hnew

/-- Such a line keeps the names distinct. -/
theorem NameFree.nodup {board : Board} {c : Control} {line : CStr} {cfg : Config}
    (hfree : NameFree c line) (h : Holds NamesDistinct c) (hedit : ConfigEdit board c line cfg) :
    (savedNames cfg).Nodup := by
  cases hedit.names with
  | fewer hsub => exact hsub.nodup h.cfg.nodup
  | @rename val ask hnames =>
    rw [hnames]
    exact nodup_set h.cfg.nodup (hfree.rename val ask)
  | @append name kept hkept hnames ask =>
    -- both ways to a new profile have ruled out that its name is saved
    have hnew : storedName name ∉ savedNames c.cfg := by
      rcases ask with ⟨ask, inactive⟩ | ⟨ask, unsaved⟩
      · -- without an active profile the others are all of them
        have hothers := hfree.rename name ask
        rwa [List.eraseIdx_of_length_le (by rwa [savedNames, List.length_map])] at hothers
      · exact hfree.not_saved h ask unsaved
    rw [hnames]
    apply List.Nodup.append (hkept.nodup h.cfg.nodup) (List.nodup_singleton _)
    rw [List.disjoint_singleton]
    exact fun hmem => hnew (hkept.subset hmem)
  | load hload =>
    rw [hload]
    cases hflash : c.flash with
    | none => exact (configDefaults_names board).nodup
    | some f => exact (h.flash f hflash).nodup

theorem names_invariant (board : Board) : ConfigInvariant board NamesDistinct NameFree where
  defaults := configDefaults_names board
  edit h hfree hedit :=
    ⟨hfree.nodup h hedit, (namesFit_invariant board).edit (h.imp fun _ => (·.fits)) trivial hedit⟩
  joined h ht :=
    ⟨(savedNames_joined ht).nodup_iff.mpr h.nodup, (namesFit_invariant board).joined h.fits ht⟩

/-! ### Joins -/

/-- After a join the name is saved, and if it was before, no profile has changed. -/
theorem NameFree.join_saved (board : Board) {c : Control} {line name : CStr}
    (hfree : NameFree c line) (h : Holds NamesDistinct c) (ask : c.joinName line = some name) :
    storedName name ∈ savedNames (c.handleLine board line).cfg ∧
      (storedName name ∈ savedNames c.cfg →
        (c.handleLine board line).cfg.profiles = c.cfg.profiles) := by
  have hjoin := handleLine_join board ask
  generalize (c.handleLine board line).cfg = cfg at hjoin ⊢
  cases hjoin with
  | @found p hfind =>
    refine ⟨?_, fun _ => rfl⟩
    obtain ⟨hlt, hsame, -⟩ := List.findIdx?_eq_some_iff_getElem.mp hfind
    have hmem : c.cfg.profiles.entries[p].ssid ∈ savedNames c.cfg :=
      List.mem_map_of_mem (List.getElem_mem hlt)
    have hfits := h.cfg.fits _ hmem
    exact storedName_of_strncmpEq hfits hsame ▸ hmem
  | added unsaved hadd =>
    obtain ⟨kept, -, hnames⟩ := savedNames_add hadd
    have hsaved : storedName name ∈ kept ++ [storedName name] :=
      List.mem_append_right _ (List.mem_singleton.mpr rfl)
    exact ⟨hnames ▸ hsaved, fun hmem => absurd hmem (hfree.not_saved h ask unsaved)⟩

/-! ### Runs -/

/-- In every run without such a renaming and such a join the saved names stay distinct, and
joining a network that is saved leaves the list as it is. -/
theorem saved_names_distinct {board : Board} {c : Control}
    (h : Reach (StartsFrom board NamesDistinct) (LinesAdmitted board NameFree) (step board) c) :
    (savedNames c.cfg).Nodup ∧
      ∀ e, LinesAdmitted board NameFree c e → ∀ x ∈ handled board c e,
        ∀ name, x.1.joinName x.2 = some name →
          storedName name ∈ savedNames (x.1.handleLine board x.2).cfg ∧
            (storedName name ∈ savedNames x.1.cfg →
              (x.1.handleLine board x.2).cfg.profiles = x.1.cfg.profiles) := by
  have hholds := (names_invariant board).reached h
  refine ⟨hholds.cfg.nodup, ?_⟩
  intro e hlines x hx name ask
  have hhandled := ((names_invariant board).event hlines hholds).2 x hx
  exact (hlines x hx).join_saved board hhandled ask

/-! ### Names that clash -/

/-- The state after lines sent by the portal. -/
def afterLines (flash : Option Config) (lines : List String) : Control :=
  (lines.map fun l => ControlEvent.portal {} (ascii l)).foldl (step plainBoard)
    (boot plainBoard flash {})

/-- Two networks of a short name, the first joined once more. -/
theorem saved_names_distinct_two :
    (savedNames (afterLines none ["join a", "join b", "join a"]).cfg).Nodup := by
  have hstart : StartsFrom plainBoard NamesDistinct (boot plainBoard none {}) :=
    ⟨none, {}, nofun, rfl⟩
  exact (saved_names_distinct (Reach.foldl (.start hstart) (by decide +kernel))).1

/-- Networks `a` to `g`. -/
def sevenNetworks : Config :=
  { profiles := ⟨(ascii "abcdefg").map fun c => ⟨[c], [c, c]⟩, by decide⟩, active := 0 }

/-- A name one byte too long for its field. -/
def longName : String := "abcdefghijklmnopqrstuvwxyz0123456"

/-- The active profile is given the name of another; and a name that was cut is not found when it
is joined again, which costs a full list the network `g`. -/
theorem saved_names_clash :
    ¬(savedNames (afterLines none ["join a", "join b", "set ssid a"]).cfg).Nodup ∧
      NamesDistinct sevenNetworks ∧
        ascii "g" ∈ savedNames (afterLines (some sevenNetworks) ["join " ++ longName]).cfg ∧
          ascii "g" ∉ savedNames (afterLines (some sevenNetworks)
            ["join " ++ longName, "join " ++ longName]).cfg := by
  refine ⟨by decide +kernel, ⟨by decide +kernel, by decide +kernel⟩, by decide +kernel,
    by decide +kernel⟩

end Control

end Molewire
