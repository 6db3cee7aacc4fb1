/-
# Invariants of the configuration

A property of the record that the defaults have, and that every edit a line asks
for and every join of the manager keep, holds in every run: of the
configuration, of what is in flash, and of the configuration each line finds
when it is handled.
-/

import Molewire.ConfigEdits

namespace Molewire

open ByteBuffer Transition

/-! ### Names in the scan table -/

theorem length_cstr_append (a b : Bytes) : (cstr (a ++ 0 :: b)).length ≤ a.length := by
  unfold cstr
  rw [List.takeWhile_append]
  split_ifs
  · simp
  · exact (List.takeWhile_sublist _).length_le

/-- A result that is filled in holds a name with room for the terminating zero. -/
theorem fillEntry_ssid (e : ScanEntry) (r : ScanReport) :
    (Scan.fillEntry e r (min r.ssidLen 32)).ssid.length < configSsidMax := by
  have hcut : (r.ssid.take (min r.ssidLen 32)).length ≤ 32 :=
    (List.length_take_le _ _).trans (min_le_right _ _)
  exact Nat.lt_succ_of_le ((length_cstr_append _ _).trans hcut)

/-- So every report keeps the names in the table short. -/
theorem scanCb_ssid {s : Scan} (h : ∀ i, (s.results i).ssid.length < configSsidMax)
    (r : ScanReport) (i : Nat) : ((s.scanCb r).results i).ssid.length < configSsidMax := by
  have hset (j : Nat) : ((s.setEntry j (Scan.fillEntry (s.results j) r
      (min r.ssidLen 32))).results i).ssid.length < configSsidMax := by
    unfold Scan.setEntry
    dsimp only
    by_cases hij : i = j
    · subst hij
      rw [Function.update_self]
      exact fillEntry_ssid _ r
    · rw [Function.update_of_ne hij]
      exact h i
  unfold Scan.scanCb
  dsimp only
  -- a known network is refreshed in its own entry, an unknown one takes a new or
  -- the weakest
  cases s.findEntry r (min r.ssidLen 32) with
  | some j =>
    dsimp only
    split_ifs
    · exact h i
    · exact hset j
    · exact h i
  | none =>
    dsimp only
    split_ifs
    · exact h i
    · exact hset s.resultCount
    · exact hset s.weakest
    · exact h i

namespace Control

/-! ### The invariant -/

/-- A property of the configuration and of the record in flash, beside a scan table in which every
name fits a profile. -/
structure Holds (P : Config → Prop) (c : Control) : Prop where
  cfg : P c.cfg
  flash : ∀ f, c.flash = some f → P f
  names : ∀ i, (c.scan.results i).ssid.length < configSsidMax

/-- The firmware starts with a stored record that has the property, or with none. -/
def StartsFrom (board : Board) (P : Config → Prop) (c : Control) : Prop :=
  ∃ flash env, (∀ f, flash = some f → P f) ∧ c = boot board flash env

/-- Every line that an event has the interpreter handle is admitted where it is handled. -/
def LinesAdmitted (board : Board) (admits : Control → CStr → Prop) (c : Control)
    (e : ControlEvent) : Prop := ∀ x ∈ handled board c e, admits x.1 x.2

instance (board : Board) (admits : Control → CStr → Prop) [∀ c line, Decidable (admits c line)]
    (c : Control) (e : ControlEvent) : Decidable (LinesAdmitted board admits c e) :=
  inferInstanceAs (Decidable (∀ x ∈ handled board c e, admits x.1 x.2))

/-- What keeps a property throughout the runs whose lines are admitted. -/
structure ConfigInvariant (board : Board) (P : Config → Prop)
    (admits : Control → CStr → Prop) : Prop where
  defaults : P (configDefaults board)
  edit : ∀ {c line cfg}, Holds P c → admits c line → ConfigEdit board c line cfg → P cfg
  joined : ∀ {cfg t}, P cfg → t < cfg.profiles.entries.length → P (joinedConfig cfg t)

section Runs

variable {board : Board} {P : Config → Prop} {admits : Control → CStr → Prop} {c d : Control}

theorem Holds.imp {Q : Config → Prop} (h : Holds P c) (himp : ∀ cfg, P cfg → Q cfg) : Holds Q c :=
  ⟨himp _ h.cfg, fun f hf => himp f (h.flash f hf), h.names⟩

theorem Holds.keeps (h : Holds P c) (hd : KeepsConfig c d) : Holds P d := by
  refine ⟨hd.1 ▸ h.cfg, ?_, ?_⟩
  · rw [hd.2.1]
    exact h.flash
  · rw [hd.2.2]
    exact h.names

theorem Holds.editedBy {line : CStr} (h : Holds P c) (hd : EditedBy board c line d)
    (hcfg : P d.cfg) : Holds P d := by
  refine ⟨hcfg, ?_, ?_⟩
  · intro f hf
    -- what a save wrote is the configuration after the edit
    rcases hd.flash with hkept | hsaved
    · exact h.flash f (hkept ▸ hf)
    · exact Option.some.inj (hsaved.symm.trans hf) ▸ hcfg
  · rw [hd.results]
    exact h.names

theorem ConfigInvariant.joins (hI : ConfigInvariant board P admits) (h : Holds P c)
    (hd : JoinsProfile c d) : Holds P d := by
  obtain ⟨t, ht, hcfg, hflash, hresults⟩ := hd
  have hP : P d.cfg := hcfg ▸ hI.joined h.cfg ht
  refine ⟨hP, ?_, ?_⟩
  · intro f hf
    rcases hflash with hkept | hsaved
    · exact h.flash f (hkept ▸ hf)
    · exact Option.some.inj (hsaved.symm.trans hf) ▸ hP
  · rw [hresults]
    exact h.names

/-- What an admitted line does. -/
theorem ConfigInvariant.handleLine (hI : ConfigInvariant board P admits) {line : CStr}
    (hline : admits c line) (h : Holds P c) : Holds P (c.handleLine board line) := by
  have hedit := handleLine_edit board c line
  exact h.editedBy hedit (hI.edit h hline hedit.cfg)

theorem consolePoll_keepsConfig (c : Control) (connected : Bool) :
    KeepsConfig c (c.consolePoll connected) := by
  have hedge : KeepsConfig c (c.consoleEdge connected) := by
    unfold consoleEdge protoReset Scan.stop
    dsimp only
    split_ifs <;> exact ⟨rfl, rfl, rfl⟩
  unfold consolePoll
  dsimp only
  split_ifs
  · exact hedge.trans (protoPoll_keepsCreds _).config
  · exact hedge

theorem consoleRead_keepsConfig (hmode : c.proto.mode = .contscan) (rx : Bytes) :
    KeepsConfig c (c.consoleRead board rx) := by
  unfold consoleRead
  rw [if_pos hmode]
  split_ifs <;> exact ⟨rfl, rfl, rfl⟩

theorem ConfigInvariant.typed (hI : ConfigInvariant board P admits) {rx : Bytes}
    (hlines : ∀ x ∈ typedLines board c rx, admits x.1 x.2) (h : Holds P c) :
    Holds P (rx.foldl (consoleByte board) c) ∧ ∀ x ∈ typedLines board c rx, Holds P x.1 := by
  apply consoleBytes_invariant (I := Holds P) _ _ h
  · intro c buf out hc
    exact hc.keeps ⟨rfl, rfl, rfl⟩
  · intro x hx hc
    exact hI.handleLine (hlines x hx) hc

/-- One event, and the states in which its lines are handled. -/
theorem ConfigInvariant.event (hI : ConfigInvariant board P admits) {e : ControlEvent}
    (hlines : LinesAdmitted board admits c e) (h : Holds P c) :
    Holds P (step board c e) ∧ ∀ x ∈ handled board c e, Holds P x.1 := by
  have hnone : ∀ x ∈ ([] : List (Control × CStr)), Holds P x.1 := by simp
  have henv (env : Env) : Holds P { c with env := env } := h.keeps ⟨rfl, rfl, rfl⟩
  unfold LinesAdmitted handled at hlines
  unfold Control.step handled
  by_cases hhalt : c.halted
  · rw [if_pos hhalt, if_pos hhalt]
    exact ⟨h, hnone⟩
  · rw [if_neg hhalt] at hlines
    rw [if_neg hhalt, if_neg hhalt]
    -- only the console and the portal hand lines to the interpreter
    cases e with
    | console env connected rx =>
      have hpolled := (henv env).keeps (consolePoll_keepsConfig _ connected)
      dsimp only [serialConsoleTask] at hlines ⊢
      -- while the live scan is on the screen, what is typed is no line
      by_cases hmode : ({ c with env := env }.consolePoll connected).proto.mode = .contscan
      · rw [if_pos hmode]
        exact ⟨hpolled.keeps (consoleRead_keepsConfig hmode rx), hnone⟩
      · rw [if_neg hmode] at hlines
        rw [if_neg hmode, consoleRead, if_neg hmode]
        exact hI.typed hlines hpolled
    | portal env body =>
      refine ⟨hI.handleLine (hlines _ (List.mem_singleton.mpr rfl)) (henv env), ?_⟩
      intro x hx
      exact List.mem_singleton.mp hx ▸ henv env
    | portalScan => exact ⟨h.keeps ⟨rfl, rfl, rfl⟩, hnone⟩
    | manager env =>
      exact ⟨(wifiConnTask_config _).elim (henv env).keeps (hI.joins (henv env)), hnone⟩
    | report r => exact ⟨⟨h.cfg, h.flash, scanCb_ssid h.names r⟩, hnone⟩

theorem wifiConnInit_keepsConfig (c : Control) : KeepsConfig c c.wifiConnInit := by
  unfold wifiConnInit
  dsimp only
  split_ifs
  · exact KeepsConfig.trans ⟨rfl, rfl, rfl⟩ (pinActive_keepsCreds _).config
  · exact ⟨rfl, rfl, rfl⟩
  · exact ⟨rfl, rfl, rfl⟩

theorem ConfigInvariant.boot (hI : ConfigInvariant board P admits)
    (h : StartsFrom board P c) : Holds P c := by
  obtain ⟨flash, env, hflash, rfl⟩ := h
  -- the manager only reads what the load took from flash
  have hloaded : Holds P
      ({ cfg := {}, flash := flash, env := env : Control }.configLoad board) := by
    refine ⟨?_, hflash, ?_⟩
    · change P (flash.getD (configDefaults board))
      cases flash with
      | none => exact hI.defaults
      | some f => exact hflash f rfl
    · -- the table starts out zeroed
      intro i
      exact (by decide : ({} : ScanEntry).ssid.length < configSsidMax)
  exact hloaded.keeps (wifiConnInit_keepsConfig _)

/-- The run rule. -/
theorem ConfigInvariant.reached (hI : ConfigInvariant board P admits)
    (h : Reach (StartsFrom board P) (LinesAdmitted board admits) (Control.step board) c) :
    Holds P c := by
  apply Reach.invariant _ _ h
  · intro c hc
    exact hI.boot hc
  · intro c e _ hlines hc
    exact (hI.event hlines hc).1

end Runs

end Control

end Molewire
