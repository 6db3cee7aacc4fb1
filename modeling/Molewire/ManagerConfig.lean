/-
# The manager and the configuration

A tick of the connection manager leaves the configuration and the record in
flash as they are, except when a join comes up: then the joined profile becomes
the active one and goes to the front, and newly proven credentials are saved.
-/

import Molewire.LineEffects

namespace Molewire

namespace Control

/-- Neither the configuration nor the record in flash changed, nor did a scan result. -/
def KeepsConfig (c d : Control) : Prop :=
  d.cfg = c.cfg ∧ d.flash = c.flash ∧ d.scan.results = c.scan.results

/-- The configuration after profile `t` was joined. -/
def joinedConfig (cfg : Config) (t : Nat) : Config :=
  (configTouchProfile { cfg with active := t } t).getD { cfg with active := t }

/-- A saved profile was joined, and perhaps the result saved. -/
def JoinsProfile (c d : Control) : Prop :=
  ∃ t, t < c.profileCount ∧ d.cfg = joinedConfig c.cfg t ∧
    (d.flash = c.flash ∨ d.flash = some d.cfg) ∧ d.scan.results = c.scan.results

theorem KeepsConfig.refl (c : Control) : KeepsConfig c c := ⟨rfl, rfl, rfl⟩

theorem KeepsConfig.trans {c d e : Control} (h : KeepsConfig c d) (h' : KeepsConfig d e) :
    KeepsConfig c e := ⟨h'.1.trans h.1, h'.2.1.trans h.2.1, h'.2.2.trans h.2.2⟩

/-- Besides, nothing was credited, and neither the flash nor the unsaved mark was touched. -/
def KeepsCreds (c d : Control) : Prop :=
  d.conn.credsUnsaved = c.conn.credsUnsaved ∧ d.env.flashes = c.env.flashes ∧
    d.hist.credits = c.hist.credits ∧ KeepsConfig c d

theorem KeepsCreds.config {c d : Control} (h : KeepsCreds c d) : KeepsConfig c d := h.2.2.2

theorem KeepsCreds.refl (c : Control) : KeepsCreds c c := ⟨rfl, rfl, rfl, .refl c⟩

theorem KeepsCreds.trans {c d e : Control} (h : KeepsCreds c d) (h' : KeepsCreds d e) :
    KeepsCreds c e :=
  ⟨h'.1.trans h.1, h'.2.1.trans h.2.1, h'.2.2.1.trans h.2.2.1, h.config.trans h'.config⟩

/-- The same, for a step that is spelled out before one that is not. -/
theorem KeepsCreds.after {c d e : Control} (h' : KeepsCreds d e) (h : KeepsCreds c d) :
    KeepsCreds c e := h.trans h'

theorem KeepsConfig.joins {c d e : Control} (h : KeepsConfig c d) (h' : JoinsProfile d e) :
    JoinsProfile c e := by
  obtain ⟨t, ht, hcfg, hflash, hresults⟩ := h'
  refine ⟨t, ?_, h.1 ▸ hcfg, h.2.1 ▸ hflash, hresults.trans h.2.2⟩
  rwa [profileCount, ← h.1]

/-! ### Starting a scan -/

theorem scanPass_keepsCreds (c : Control) : KeepsCreds c c.scanPass.2 := by
  unfold scanPass cyw43WifiScan
  split
  · next heq =>
    obtain ⟨-, rfl⟩ := Prod.mk.inj heq
    exact ⟨rfl, rfl, rfl, rfl, rfl, rfl⟩
  · next heq =>
    obtain ⟨-, rfl⟩ := Prod.mk.inj heq
    exact ⟨rfl, rfl, rfl, rfl, rfl, rfl⟩

/-- A new scan marks the table empty and leaves what is in it. -/
theorem wifiScanStart_keepsCreds (c : Control) : KeepsCreds c c.wifiScanStart.2 := by
  -- the old results stay in the table; only their number is cleared
  have hreset : KeepsCreds c { c with scan.resultCount := 0 } := ⟨rfl, rfl, rfl, rfl, rfl, rfl⟩
  unfold wifiScanStart
  dsimp only
  split_ifs
  · exact .refl c
  · exact hreset.trans (scanPass_keepsCreds _)
  · exact hreset.trans ((scanPass_keepsCreds _).after ⟨rfl, rfl, rfl, rfl, rfl, rfl⟩)

theorem wifiScanPoll_keepsCreds (c : Control) : KeepsCreds c c.wifiScanPoll.2 := by
  refine ⟨rfl, rfl, rfl, rfl, rfl, ?_⟩
  unfold wifiScanPoll Scan.poll
  dsimp only
  split_ifs <;> rfl

theorem wifiScanAgain_keepsCreds (c : Control) : KeepsCreds c c.wifiScanAgain.2 := by
  unfold wifiScanAgain
  split_ifs
  · exact .refl c
  · exact scanPass_keepsCreds c

/-! ### Attempts -/

theorem tryLoop_keepsCreds (c : Control) (l : List Nat) : KeepsCreds c (c.tryLoop l) := by
  induction l generalizing c with
  | nil => exact ⟨rfl, rfl, rfl, rfl, rfl, rfl⟩
  | cons i rest ih =>
    by_cases h : c.env.connects.head? = some true
    · rw [tryLoop_accepted h]
      exact ⟨rfl, rfl, rfl, rfl, rfl, rfl⟩
    · rw [tryLoop_refused h]
      exact (ih _).after ⟨rfl, rfl, rfl, rfl, rfl, rfl⟩

theorem tryFrom_keepsCreds (c : Control) : KeepsCreds c c.tryFrom := tryLoop_keepsCreds c _

theorem pinActive_keepsCreds (c : Control) : KeepsCreds c c.pinActive :=
  (tryFrom_keepsCreds _).after ⟨rfl, rfl, rfl, rfl, rfl, rfl⟩

theorem buildAndTry_keepsCreds (c : Control) : KeepsCreds c c.buildAndTry :=
  (tryFrom_keepsCreds _).after ⟨rfl, rfl, rfl, rfl, rfl, rfl⟩

theorem startCycle_keepsCreds (c : Control) : KeepsCreds c c.startCycle := by
  unfold startCycle
  dsimp only
  split_ifs
  · exact ⟨rfl, rfl, rfl, rfl, rfl, rfl⟩
  · exact (buildAndTry_keepsCreds _).after ⟨rfl, rfl, rfl, rfl, rfl, rfl⟩
  · have hstart := wifiScanStart_keepsCreds { c with conn.state := .stScan }
    split
    case h_1 heq =>
      rw [heq] at hstart
      exact hstart
    case h_2 heq =>
      rw [heq] at hstart
      exact hstart

theorem linkLost_keepsCreds (c : Control) : KeepsCreds c c.linkLost := by
  unfold linkLost
  dsimp only
  split_ifs
  · exact (pinActive_keepsCreds _).after ⟨rfl, rfl, rfl, rfl, rfl, rfl⟩
  · exact (startCycle_keepsCreds _).after ⟨rfl, rfl, rfl, rfl, rfl, rfl⟩

theorem nextCandidate_keepsCreds (c : Control) : KeepsCreds c c.nextCandidate :=
  (tryFrom_keepsCreds _).after ⟨rfl, rfl, rfl, rfl, rfl, rfl⟩

theorem attempting_keepsCreds (c : Control) : KeepsCreds c c.attempting := by
  -- each of the four failed outcomes only changes the status before moving on
  have hnext {d : Control} (h : KeepsCreds c d) : KeepsCreds c d.nextCandidate :=
    h.trans (nextCandidate_keepsCreds d)
  unfold attempting
  split
  · exact hnext ⟨rfl, rfl, rfl, rfl, rfl, rfl⟩
  · exact hnext ⟨rfl, rfl, rfl, rfl, rfl, rfl⟩
  · exact hnext ⟨rfl, rfl, rfl, rfl, rfl, rfl⟩
  · split_ifs
    · exact hnext ⟨rfl, rfl, rfl, rfl, rfl, rfl⟩
    · exact .refl c

/-! ### Scans -/

theorem scanDone_keepsCreds (c : Control) : KeepsCreds c c.scanDone := by
  unfold scanDone
  dsimp only
  split_ifs
  · exact (buildAndTry_keepsCreds _).after ⟨rfl, rfl, rfl, rfl, rfl, rfl⟩
  · exact ⟨rfl, rfl, rfl, rfl, rfl, rfl⟩

theorem nextPass_keepsCreds (c : Control) : KeepsCreds c c.nextPass := by
  unfold nextPass
  dsimp only
  split_ifs
  · exact (scanDone_keepsCreds _).after ⟨rfl, rfl, rfl, rfl, rfl, rfl⟩
  · have hagain := wifiScanAgain_keepsCreds c
    split
    case h_1 heq =>
      rw [heq] at hagain
      exact hagain
    case h_2 heq =>
      rw [heq] at hagain
      exact KeepsCreds.trans hagain (scanDone_keepsCreds _)

theorem driveScan_keepsCreds (c : Control) : KeepsCreds c c.driveScan := by
  unfold driveScan
  dsimp only
  split_ifs
  · exact wifiScanPoll_keepsCreds c
  · exact (wifiScanPoll_keepsCreds c).trans (nextPass_keepsCreds _)
  · have hstart := wifiScanStart_keepsCreds { c with conn.scanRequested := false }
    split
    case h_1 heq =>
      rw [heq] at hstart
      exact hstart
    case h_2 heq =>
      rw [heq] at hstart
      exact hstart
  · exact .refl c

theorem protoPoll_keepsCreds (c : Control) : KeepsCreds c c.protoPoll := by
  have hpolled {d : Control} (h : KeepsCreds c.wifiScanPoll.2 d) : KeepsCreds c d :=
    (wifiScanPoll_keepsCreds c).trans h
  unfold protoPoll pollLive pollRounds
  dsimp only
  -- at most one scan call follows the poll, whichever view is on the screen
  split_ifs <;> first
    | exact .refl c
    | exact hpolled ⟨rfl, rfl, rfl, rfl, rfl, rfl⟩
    | exact hpolled ((wifiScanStart_keepsCreds _).after ⟨rfl, rfl, rfl, rfl, rfl, rfl⟩)
    | exact hpolled ((wifiScanAgain_keepsCreds _).after ⟨rfl, rfl, rfl, rfl, rfl, rfl⟩)

/-! ### Joins -/

theorem autoSave_config (c : Control) :
    c.autoSave.cfg = c.cfg ∧ (c.autoSave.flash = c.flash ∨ c.autoSave.flash = some c.cfg) ∧
      c.autoSave.scan = c.scan := by
  unfold autoSave configSave
  dsimp only
  split_ifs
  · exact ⟨rfl, .inr rfl, rfl⟩
  · exact ⟨rfl, .inl rfl, rfl⟩
  · exact ⟨rfl, .inl rfl, rfl⟩

theorem configTouchProfile_zero (cfg : Config) : (configTouchProfile cfg 0).getD cfg = cfg := by
  unfold configTouchProfile
  split <;> rfl

/-- A join that is no longer saved is not credited; any other moves its profile to the front. -/
theorem joined_config (c : Control) : KeepsConfig c c.joined ∨ JoinsProfile c c.joined := by
  unfold joined
  dsimp only
  split_ifs with hgone hmoved
  · -- the profile was deleted while the radio was joining it
    exact .inl ⟨rfl, rfl, rfl⟩
  · obtain ⟨hcfg, hflash, hscan⟩ :=
      autoSave_config (({ c.clearConnected with cfg.active := c.conn.trying }.moveJoined
        c.conn.trying).markConnected)
    refine .inr ⟨c.conn.trying, Nat.lt_of_not_le hgone, hcfg, ?_, congrArg _ hscan⟩
    rw [hcfg]
    exact hflash
  · obtain ⟨hcfg, hflash, hscan⟩ :=
      autoSave_config ({ c.clearConnected with cfg.active := c.conn.trying }.markConnected)
    -- the first profile is already in front, and touching it changes nothing
    have hzero : c.conn.trying = 0 := Nat.eq_zero_of_not_pos hmoved
    refine .inr ⟨c.conn.trying, Nat.lt_of_not_le hgone, ?_, ?_, congrArg _ hscan⟩
    · rw [hcfg, hzero, joinedConfig, configTouchProfile_zero]
      rfl
    · rw [hcfg]
      exact hflash

theorem runState_config (c : Control) (link : Bool) :
    KeepsConfig c (c.runState link) ∨ JoinsProfile c (c.runState link) := by
  unfold runState
  split
  · split_ifs
    · exact .inl (.refl c)
    · exact .inl (linkLost_keepsCreds c).config
  · split_ifs
    · exact joined_config c
    · exact .inl (attempting_keepsCreds c).config
  · split_ifs
    · exact joined_config c
    · exact .inl (.refl c)
  · split_ifs
    · exact joined_config c
    · exact .inl (startCycle_keepsCreds c).config
    · exact .inl (.refl c)
  · split_ifs
    · exact .inl (startCycle_keepsCreds c).config
    · exact .inl (.refl c)

/-- What a tick of the manager does to the configuration. -/
theorem wifiConnTask_config (c : Control) :
    KeepsConfig c c.wifiConnTask ∨ JoinsProfile c c.wifiConnTask := by
  unfold wifiConnTask managerTick
  dsimp only
  split_ifs
  · exact .inl (.refl c)
  · exact .inl ⟨rfl, rfl, rfl⟩
  · -- the decay of the bad-password mark comes first and is no change of the record
    generalize hdecayed : Control.decayBadpass _ = d
    have hd : KeepsConfig c d := by
      rw [← hdecayed]
      exact ⟨rfl, rfl, rfl⟩
    have hdriven := hd.trans (driveScan_keepsCreds d).config
    exact (runState_config d.driveScan d.linkUp).imp hdriven.trans hdriven.joins

end Control

end Molewire
