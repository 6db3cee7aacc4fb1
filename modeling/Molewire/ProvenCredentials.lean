/-
# Credentials in flash

One flag says that some saved network may not be in flash. A join that comes up
while it is set writes the record and takes the flag back, whether or not the
write succeeded and whose credentials were missing. So what a join proved is
kept as long as those writes succeed, the joined network is the one that was
missing, and there is a record for the flag to speak of.
-/

import Molewire.ConfigEdits
import Molewire.JoinAttribution

namespace Molewire

open ByteBuffer Transition

/-! ### Stored profiles -/

/-- The record in flash has the SSID and the password of the profile. -/
def Stored (flash : Option Config) (p : WifiProfile) : Prop :=
  ∃ f, flash = some f ∧ p ∈ f.profiles.entries

instance (flash : Option Config) (p : WifiProfile) : Decidable (Stored flash p) :=
  match flash with
  | none => .isFalse (by simp [Stored])
  | some f => decidable_of_iff (p ∈ f.profiles.entries) (by simp [Stored])

theorem mem_configDelProfile {cfg : Config} {i : Nat} {p : WifiProfile}
    (h : p ∈ (configDelProfile cfg i).profiles.entries) : p ∈ cfg.profiles.entries := by
  unfold configDelProfile at h
  dsimp only at h
  split_ifs at h <;> first | exact h | exact List.mem_of_mem_eraseIdx h

namespace Control

variable {board : Board} {c d : Control}

/-! ### What the flag says -/

/-- While the flag is clear, a record in flash has every saved profile. -/
def Backed (c : Control) : Prop :=
  c.conn.credsUnsaved = false → c.flash.isSome →
    ∀ p ∈ c.cfg.profiles.entries, Stored c.flash p

/-- Nothing was saved, and nothing added. -/
theorem Backed.of_subset (h : c.Backed) (hmark : d.conn.credsUnsaved = c.conn.credsUnsaved)
    (hflash : d.flash = c.flash)
    (hsub : ∀ p ∈ d.cfg.profiles.entries, p ∈ c.cfg.profiles.entries) : d.Backed := by
  unfold Backed
  rw [hmark, hflash]
  exact fun hclear hsome p hp => h hclear hsome p (hsub p hp)

theorem Backed.congr (h : c.Backed) (hconn : d.conn = c.conn) (hflash : d.flash = c.flash)
    (hcfg : d.cfg.profiles = c.cfg.profiles) : d.Backed :=
  h.of_subset (by rw [hconn]) hflash fun _ hp => hcfg ▸ hp

theorem Backed.keeps (h : c.Backed) (hd : KeepsCreds c d) : d.Backed :=
  h.of_subset hd.1 hd.config.2.1 fun _ hp => hd.config.1 ▸ hp

theorem Backed.reply (h : c.Backed) (r : Reply) : (c.reply r).Backed := h.congr rfl rfl rfl

theorem Backed.call (h : c.Backed) (k : Call) : (c.call k).Backed := h.congr rfl rfl rfl

/-- An edit that sets the flag. -/
theorem backed_of_marked (h : d.conn.credsUnsaved = true) : d.Backed :=
  fun hclear => absurd (h.symm.trans hclear) (by decide)

/-- A write that succeeded. -/
theorem backed_of_saved (h : d.flash = some d.cfg) : d.Backed :=
  fun _ _ _ hp => ⟨d.cfg, h, hp⟩

/-- The record was loaded. -/
theorem backed_of_loaded (board : Board) (h : d.cfg = d.flash.getD (configDefaults board)) :
    d.Backed := by
  intro _ hsome p hp
  obtain ⟨f, hf⟩ := Option.isSome_iff_exists.mp hsome
  rw [h, hf] at hp
  exact ⟨f, hf, hp⟩

theorem wifiConnApply_keepsCreds (c : Control) : KeepsCreds c c.wifiConnApply := by
  unfold wifiConnApply
  dsimp only
  split_ifs
  · exact (pinActive_keepsCreds _).after ⟨rfl, rfl, rfl, rfl, rfl, rfl⟩
  · exact ⟨rfl, rfl, rfl, rfl, rfl, rfl⟩

theorem Backed.wifiConnApply (h : c.Backed) : c.wifiConnApply.Backed :=
  h.keeps (wifiConnApply_keepsCreds c)

/-! ### Lines -/

theorem joinProfile_backed (h : c.Backed) (p : Nat) (isOpen : Bool) :
    (c.joinProfile p isOpen).Backed := by
  have hactive : Backed { c with cfg.active := p } := h.congr rfl rfl rfl
  unfold joinProfile
  dsimp only
  split_ifs
  · exact Backed.wifiConnApply (hactive.congr rfl rfl rfl)
  · exact Backed.wifiConnApply (hactive.congr rfl rfl rfl)
  · exact hactive.congr rfl rfl rfl

/-- A new network is marked before it is joined or staged. -/
theorem joinSsid_backed (h : c.Backed) (ssid : CStr) (openHint : Option Bool) :
    (c.joinSsid ssid openHint).Backed := by
  unfold joinSsid
  dsimp only
  split
  · exact joinProfile_backed h _ _
  · split
    · exact h.congr rfl rfl rfl
    · exact joinProfile_backed (backed_of_marked rfl) _ _

theorem SetCase.backed {args : CStr} {r : SetResult × Control} (hr : SetCase c args r)
    (h : c.Backed) : r.2.Backed := by
  cases hr with
  | err s => exact h.congr rfl rfl rfl
  | ssid =>
    unfold setSsid
    split_ifs
    · exact backed_of_marked rfl
    · split
      · exact h.congr rfl rfl rfl
      · exact backed_of_marked rfl
  | pass val =>
    unfold setPass
    split_ifs
    · exact h.congr rfl rfl rfl
    · exact backed_of_marked rfl
  | country val => exact h.congr rfl rfl rfl
  | debug on => exact h.congr rfl rfl rfl
  | wg => exact h.congr rfl rfl rfl
  | ap => exact h.congr rfl rfl rfl

theorem applySet_backed {r : SetResult × Control} (h : r.2.Backed) : (applySet r).Backed := by
  obtain ⟨k, d⟩ := r
  cases k with
  | err => exact h
  | wifi => exact (h.reply _).wifiConnApply.reply _
  | other => exact h.congr rfl rfl rfl
  | wg => exact h.congr rfl rfl rfl
  | ap => exact h.congr rfl rfl rfl

theorem mainUse_backed (h : c.Backed) (args : CStr) : (c.mainUse args).Backed := by
  unfold mainUse
  split
  · exact h.congr rfl rfl rfl
  · next i _ =>
    have hselect : Backed { c with cfg.active := i } := h.congr rfl rfl rfl
    exact (hselect.reply _).wifiConnApply.reply _

theorem mainDel_backed (h : c.Backed) (args : CStr) : (c.mainDel args).Backed := by
  unfold mainDel
  split
  · exact h.congr rfl rfl rfl
  · next i _ =>
    have hdel : Backed { c with cfg := configDelProfile c.cfg i } :=
      h.of_subset rfl rfl fun p hp => mem_configDelProfile hp
    exact (hdel.reply _).wifiConnApply.reply _

theorem mainPcap_backed (h : c.Backed) (args : CStr) : (c.mainPcap args).Backed := by
  unfold mainPcap
  split_ifs <;> exact h.congr rfl rfl rfl

theorem mainGenkey_backed (h : c.Backed) (args : Option CStr) :
    (c.mainGenkey board args).Backed := by
  unfold mainGenkey wgKeypairGenerate
  dsimp only
  split_ifs
  · exact h.congr rfl rfl rfl
  · cases board.publicKey (clampKey (wireguardRandomBytes (c.env.random.headD []) 32)) with
    | none => exact h.congr rfl rfl rfl
    | some pub => exact h.congr rfl rfl rfl

theorem mainPubkey_backed (h : c.Backed) : (c.mainPubkey board).Backed := by
  unfold mainPubkey
  split <;> exact h.congr rfl rfl rfl

theorem startScan_backed (h : c.Backed) : c.startScan.Backed := by
  have hstart := h.keeps (wifiScanStart_keepsCreds c)
  by_cases hs : c.scanStarts
  · rw [startScan_of_starts hs]
    exact hstart.congr rfl rfl rfl
  · rw [startScan_of_refused (Bool.not_eq_true _ ▸ hs)]
    exact hstart.congr rfl rfl rfl

theorem mainSave_backed (h : c.Backed) : c.mainSave.Backed := by
  unfold mainSave configSave
  dsimp only
  -- a save that fails leaves the flag as it was
  by_cases hok : c.env.flashes.head? = some true
  · simp only [hok, if_true]
    exact backed_of_saved rfl
  · simp only [hok, if_false]
    exact h.congr rfl rfl rfl

theorem mainRestore_backed (board : Board) (c : Control) : (c.mainRestore board).Backed := by
  have hload : Backed (c.configLoad board).noteSaved := backed_of_loaded board rfl
  exact ((hload.reply _).wifiConnApply.call _).reply _

theorem handleMain_backed (h : c.Backed) (cmd : CStr) (args : Option CStr) :
    (c.handleMain board cmd args).Backed := by
  have hcase := handleMain_case board c cmd args
  generalize c.handleMain board cmd args = d at hcase ⊢
  cases hcase with
  | set => exact applySet_backed ((cmdSet_case board c _).backed h)
  | list => exact h.congr rfl rfl rfl
  | join => exact (joinSsid_backed h _ _).congr rfl rfl rfl
  | use a => exact mainUse_backed h a
  | del a => exact mainDel_backed h a
  | pcap a => exact mainPcap_backed h a
  | genkey => exact mainGenkey_backed h args
  | pubkey => exact mainPubkey_backed h
  | restart toBootloader => exact h.congr rfl rfl rfl
  | scan => exact startScan_backed h
  | save => exact mainSave_backed h
  | restore => exact mainRestore_backed board c
  | unknown s => exact h.congr rfl rfl rfl

theorem handleScan_backed (h : c.Backed) (cmd : CStr) (args : Option CStr) :
    (c.handleScan cmd args).Backed := by
  have hcase := handleScan_case c cmd args
  generalize c.handleScan cmd args = d at hcase ⊢
  cases hcase with
  | back => exact h.congr rfl rfl rfl
  | scan => exact startScan_backed h
  | live =>
    have hstart := Backed.keeps (h.congr rfl rfl rfl) (wifiScanStart_keepsCreds c.wifiLeave)
    unfold scanLive
    split
    · next heq =>
      rw [heq] at hstart
      exact hstart.congr rfl rfl rfl
    · next heq =>
      rw [heq] at hstart
      exact hstart.congr rfl rfl rfl
  | join =>
    unfold scanJoin
    split
    · exact h.congr rfl rfl rfl
    · have hmain : Backed { c with proto.mode := .main } := h.congr rfl rfl rfl
      exact (joinSsid_backed hmain _ _).congr rfl rfl rfl
  | unknown s => exact h.congr rfl rfl rfl

theorem handleLine_backed (h : c.Backed) (line : CStr) : (c.handleLine board line).Backed := by
  have hcase := handleLine_case board c line
  generalize c.handleLine board line = d at hcase ⊢
  cases hcase with
  | listScan => exact h.congr rfl rfl rfl
  | dump => exact h.congr rfl rfl rfl
  | scan => exact handleScan_backed h _ _
  | main => exact handleMain_backed h _ _

/-! ### A join is credited -/

/-- The state in which a tick looks at the link: an open scan has been driven. -/
def scanDriven (c : Control) : Control :=
  { c with conn.lastTick := c.env.now }.decayBadpass.driveScan

/-- The tick credits a join to the profile that is being tried. -/
structure CreditsJoin (c : Control) : Prop where
  due : ¬c.env.now - c.conn.lastTick < 100 ∧ ¬c.ownsScan
  link : c.linkUp
  waiting : c.scanDriven.conn.state ≠ .stUp ∧ c.scanDriven.conn.state ≠ .stIdle
  saved : c.scanDriven.conn.trying < c.profileCount

/-- Where the tick hands the credentials to flash, they get there and were not there yet; and where
it takes them to be there, there is a record. -/
def JoinPersists (c : Control) : Prop :=
  c.CreditsJoin →
    if c.conn.credsUnsaved then
      c.env.flashes.head? = some true ∧
        ¬Stored c.flash (c.profile c.scanDriven.conn.trying)
    else c.flash.isSome

theorem scanDriven_keepsCreds (c : Control) : KeepsCreds c c.scanDriven :=
  (driveScan_keepsCreds _).after ⟨rfl, rfl, rfl, rfl, rfl, rfl⟩

/-- A tick that credits no join. -/
theorem runState_keepsCreds {link : Bool}
    (h : ¬(link ∧ c.conn.state ≠ .stUp ∧ c.conn.state ≠ .stIdle ∧
      c.conn.trying < c.profileCount)) : KeepsCreds c (c.runState link) := by
  have hjoined (hlink : link) (hup : c.conn.state ≠ .stUp) (hidle : c.conn.state ≠ .stIdle) :
      KeepsCreds c c.joined := by
    have hgone : c.profileCount ≤ c.conn.trying := by
      by_contra hlt
      exact h ⟨hlink, hup, hidle, Nat.lt_of_not_le hlt⟩
    rw [joined]
    dsimp only
    rw [if_pos hgone]
    exact ⟨rfl, rfl, rfl, rfl, rfl, rfl⟩
  unfold runState
  split
  · split_ifs
    · exact .refl c
    · exact linkLost_keepsCreds c
  · next hs =>
    split_ifs with hlink
    · exact hjoined hlink (by simp [hs]) (by simp [hs])
    · exact attempting_keepsCreds c
  · next hs =>
    split_ifs with hlink
    · exact hjoined hlink (by simp [hs]) (by simp [hs])
    · exact .refl c
  · next hs =>
    split_ifs with hlink
    · exact hjoined hlink (by simp [hs]) (by simp [hs])
    · exact startCycle_keepsCreds c
    · exact .refl c
  · split_ifs
    · exact startCycle_keepsCreds c
    · exact .refl c

/-- What a tick does for the credentials: nothing, or a join. -/
theorem wifiConnTask_creds (c : Control) :
    (¬c.CreditsJoin ∧ KeepsCreds c c.wifiConnTask) ∨
      (c.CreditsJoin ∧ c.wifiConnTask = c.scanDriven.joined) := by
  by_cases hjoin : c.CreditsJoin
  · right
    refine ⟨hjoin, ?_⟩
    obtain ⟨⟨hrate, howns⟩, hlink, ⟨hup, hidle⟩, -⟩ := hjoin
    have htick : c.wifiConnTask = c.scanDriven.runState c.linkUp := by
      rw [wifiConnTask, if_neg hrate]
      exact if_neg howns
    rw [htick, hlink, runState]
    split
    · next hs => exact absurd hs hup
    · rw [if_pos rfl]
    · rw [if_pos rfl]
    · rw [if_pos rfl]
    · next hs => exact absurd hs hidle
  · left
    refine ⟨hjoin, ?_⟩
    unfold wifiConnTask managerTick
    dsimp only
    split_ifs with hrate howns
    · exact .refl c
    · exact ⟨rfl, rfl, rfl, rfl, rfl, rfl⟩
    · have hdriven := scanDriven_keepsCreds c
      refine hdriven.trans (runState_keepsCreds ?_)
      rintro ⟨hlink, hup, hidle, hlt⟩
      rw [profileCount, hdriven.config.1] at hlt
      exact hjoin ⟨⟨hrate, howns⟩, hlink, ⟨hup, hidle⟩, hlt⟩

/-! ### What is kept -/

/-- The tick, if there was one, had the flash write the record. -/
def Wrote (env : Env) (c d : Control) : Prop :=
  ¬c.halted ∧ env.flashes.head? = some true ∧ d.env.flashes = env.flashes.tail

theorem not_wrote {env : Env} (h : d.env.flashes = env.flashes) : ¬Wrote env c d := by
  rintro ⟨-, hhead, htail⟩
  have hlen := congrArg List.length (h.symm.trans htail)
  cases hf : env.flashes with
  | nil => simp [hf] at hhead
  | cons ok rest => simp [hf] at hlen

/-- The profile that a tick credits a join to is in flash after it, or the flag is set; and the tick
writes the record only for a credited profile that was not in it. -/
structure CreditsPersist (env : Env) (c d : Control) : Prop where
  kept : ∀ cr, d.hist.credits = c.hist.credits ++ [cr] →
    Stored d.flash cr.profile ∨ d.conn.credsUnsaved
  writes : Wrote env c d → ∃ cr, d.hist.credits = c.hist.credits ++ [cr] ∧ ¬Stored c.flash cr.profile

/-- No credit and no write. -/
theorem KeepsCreds.persists {env : Env} (h : KeepsCreds { c with env := env } d) :
    CreditsPersist env c d := by
  obtain ⟨-, hflashes, hcredits, -⟩ := h
  refine ⟨fun cr hcr => ?_, fun hwrote => absurd hwrote (not_wrote hflashes)⟩
  have hlen := congrArg List.length (hcr.symm.trans hcredits)
  simp at hlen

/-- The end of `joined`: the flag decides whether the record is written. -/
theorem joined_autoSave (hlt : c.conn.trying < c.profileCount) :
    ∃ e : Control, c.joined = e.autoSave ∧ e.conn.credsUnsaved = c.conn.credsUnsaved ∧
      e.flash = c.flash ∧ e.env.flashes = c.env.flashes := by
  unfold joined
  dsimp only
  rw [if_neg (Nat.not_le_of_lt hlt)]
  refine ⟨_, rfl, ?_⟩
  split_ifs <;> exact ⟨rfl, rfl, rfl⟩

/-- The flag is clear: the flash is left alone. -/
theorem joined_of_clear (hlt : c.conn.trying < c.profileCount)
    (hclear : c.conn.credsUnsaved = false) :
    c.joined.flash = c.flash ∧ c.joined.env.flashes = c.env.flashes ∧
      c.joined.conn.credsUnsaved = c.conn.credsUnsaved := by
  obtain ⟨e, heq, hmark, hflash, hflashes⟩ := joined_autoSave hlt
  have hnot : e.autoSave = e := if_neg (by rw [hmark, hclear]; decide)
  rw [heq, hnot]
  exact ⟨hflash, hflashes, hmark⟩

/-- The flag is set and the write succeeds. -/
theorem joined_of_marked (hlt : c.conn.trying < c.profileCount)
    (hset : c.conn.credsUnsaved = true) (hok : c.env.flashes.head? = some true) :
    c.joined.flash = some c.joined.cfg := by
  obtain ⟨e, heq, hmark, -, hflashes⟩ := joined_autoSave hlt
  have hsave : e.autoSave = { e.configSave.2 with conn.credsUnsaved := false } :=
    if_pos (hmark.trans hset)
  rw [heq, hsave, configSave, hflashes, if_pos hok]

theorem mem_joined {p : WifiProfile} (h : p ∈ c.joined.cfg.profiles.entries) :
    p ∈ c.cfg.profiles.entries := by
  rcases joined_config c with hkeep | ⟨t, ht, hcfg, -⟩
  · rwa [hkeep.1] at h
  · have hi : c.cfg.profiles.entries[t]? = some c.cfg.profiles.entries[t] :=
      List.getElem?_eq_getElem ht
    have hentries := @configTouchProfile_entries { c.cfg with active := t } _ _ hi
    rw [hcfg, joinedConfig, hentries] at h
    rcases List.mem_cons.mp h with rfl | h
    · exact List.getElem_mem ht
    · exact List.mem_of_mem_eraseIdx h

/-- A tick that meets the condition. -/
theorem wifiConnTask_persists {env : Env} (h : c.Backed)
    (hpersists : Control.JoinPersists { c with env := env }) :
    CreditsPersist env c { c with env := env }.wifiConnTask ∧
      { c with env := env }.wifiConnTask.Backed := by
  have henv : Backed { c with env := env } := h.congr rfl rfl rfl
  rcases wifiConnTask_creds { c with env := env } with ⟨-, hkeeps⟩ | ⟨hjoin, heq⟩
  · exact ⟨hkeeps.persists, henv.keeps hkeeps⟩
  · have hcond := hpersists hjoin
    have hdriven := scanDriven_keepsCreds { c with env := env }
    have hbacked := henv.keeps hdriven
    obtain ⟨hmark, hflashes, hcredits, hcfg, hflash, -⟩ := hdriven
    have hlt := hjoin.saved
    rw [heq]
    generalize Control.scanDriven { c with env := env } = d at *
    have hcount : d.conn.trying < d.profileCount := by rwa [profileCount, hcfg]
    have hprofile : d.profile d.conn.trying = c.profile d.conn.trying := by
      rw [profile, profile, hcfg]
    obtain ⟨-, hfront, -, hcredit⟩ := joined_credit hcount
    rw [hcredits] at hcredit
    -- the one credit of the tick
    have honly {cr : Credit} (hcr : d.joined.hist.credits = c.hist.credits ++ [cr]) :
        cr.profile = c.profile d.conn.trying := by
      have hlast := List.append_cancel_left (hcr.symm.trans hcredit)
      rw [(List.cons.inj hlast).1, hprofile]
    have hmem : c.profile d.conn.trying ∈ d.joined.cfg.profiles.entries := by
      rw [← hprofile]
      exact List.mem_of_getElem? hfront
    split_ifs at hcond with hset
    · obtain ⟨hok, hmissing⟩ := hcond
      have hsaved := joined_of_marked hcount (hmark.trans hset) (by rw [hflashes]; exact hok)
      refine ⟨⟨fun cr hcr => .inl ?_, fun _ => ⟨_, hcredit, ?_⟩⟩, backed_of_saved hsaved⟩
      · rw [honly hcr]
        exact ⟨_, hsaved, hmem⟩
      · rw [hprofile]
        exact hmissing
    · have hclear : d.conn.credsUnsaved = false := by
        rw [hmark]
        exact Bool.eq_false_iff.mpr hset
      obtain ⟨hkept, hleft, hflag⟩ := joined_of_clear hcount hclear
      refine ⟨⟨fun cr hcr => .inl ?_,
        fun hwrote => absurd hwrote (not_wrote (hleft.trans hflashes))⟩,
          hbacked.of_subset hflag hkept fun p hp => mem_joined hp⟩
      rw [honly hcr, hkept]
      exact hbacked hclear (by rw [hflash]; exact hcond) _ (mem_joined hmem)

/-! ### Runs -/

/-- The ticks of a run that meet the condition; nothing else is asked of it. -/
def JoinsPersist (c : Control) : ControlEvent → Prop
  | .manager env => JoinPersists { c with env := env }
  | _ => True

theorem consolePoll_backed (h : c.Backed) (connected : Bool) :
    (c.consolePoll connected).Backed := by
  have hedge : (c.consoleEdge connected).Backed := by
    unfold consoleEdge
    dsimp only
    split_ifs
    · exact h.congr rfl rfl rfl
    · exact h.congr rfl rfl rfl
    · exact h
  unfold consolePoll
  dsimp only
  split_ifs
  · exact hedge.keeps (protoPoll_keepsCreds _)
  · exact hedge

theorem step_backed {e : ControlEvent} (h : c.Backed) (he : JoinsPersist c e) :
    (c.step board e).Backed := by
  unfold step
  by_cases hhalt : c.halted
  · rw [if_pos hhalt]
    exact h
  · rw [if_neg hhalt]
    cases e with
    | console env connected rx =>
      have hpolled := consolePoll_backed (c := { c with env := env }) (h.congr rfl rfl rfl)
        connected
      dsimp only [serialConsoleTask]
      unfold consoleRead
      split_ifs
      · exact hpolled
      · exact hpolled.congr rfl rfl rfl
      · exact foldl_consoleByte (fun c _ _ hc => hc.congr rfl rfl rfl)
          (fun x _ hx => handleLine_backed hx x.2) hpolled
    | portal env body =>
      have henv : Backed { c with env := env } := h.congr rfl rfl rfl
      exact handleLine_backed henv _
    | portalScan => exact h.of_subset rfl rfl fun _ hp => hp
    | manager env => exact (wifiConnTask_persists h he).2
    | report r => exact h.congr rfl rfl rfl

theorem boot_backed (board : Board) (flash : Option Config) (env : Env) :
    (boot board flash env).Backed := by
  have hload : Backed (({ cfg := {}, flash := flash, env := env : Control }).configLoad board) :=
    backed_of_loaded board rfl
  unfold boot wifiConnInit
  dsimp only
  split_ifs
  · exact hload.keeps ((pinActive_keepsCreds _).after ⟨rfl, rfl, rfl, rfl, rfl, rfl⟩)
  · exact hload.of_subset rfl rfl fun _ hp => hp
  · exact hload.of_subset rfl rfl fun _ hp => hp

/-- **Proven credentials.** In a run whose ticks meet the condition, what every tick credits is in
flash or still marked, and it writes the record only for credentials that were missing. -/
theorem proven_credentials (h : ReachedBy board JoinsPersist c) {env : Env}
    (he : JoinsPersist c (.manager env)) :
    CreditsPersist env c (c.step board (.manager env)) := by
  have hbacked : c.Backed := by
    apply Reach.invariant _ _ h
    · rintro c ⟨flash, env, rfl⟩
      exact boot_backed board flash env
    · intro c e _ he hc
      exact step_backed hc he
  unfold step
  by_cases hhalt : c.halted
  · rw [if_pos hhalt]
    refine ⟨fun cr hcr => ?_, fun hwrote => absurd hhalt hwrote.1⟩
    have hlen := congrArg List.length hcr
    simp at hlen
  · rw [if_neg hhalt]
    exact (wifiConnTask_persists hbacked he).1

/-- A network is staged, and its password lets the radio join it. -/
def firstNetwork : Control :=
  ((boot plainBoard none {}).step plainBoard (.portal {} (ascii "join home"))).step plainBoard
    (.portal { connects := [true] } (ascii "set pass a good one"))

theorem firstNetwork_reached (admits : Control → ControlEvent → Prop)
    (h : ∀ c env body, admits c (.portal env body)) :
    ReachedBy plainBoard admits firstNetwork :=
  .step (.step (.start ⟨_, _, rfl⟩) (h _ _ _)) (h _ _ _)

/-- The join comes up and the flash refuses the write: the flag is taken back all the same. -/
theorem proven_credentials_lost :
    ¬∀ (board : Board) (c : Control) (env : Env), ReachedBy board (fun _ _ => True) c →
      CreditsPersist env c (c.step board (.manager env)) := by
  intro hclaim
  have hrun := firstNetwork_reached (fun _ _ => True) fun _ _ _ => trivial
  have hkept := (hclaim _ _ { now := 100, link := true, flashes := [false] } hrun).kept
    ⟨⟨ascii "home", ascii "a good one"⟩, some ⟨ascii "home", ascii "a good one"⟩⟩
    (by decide +kernel)
  exact absurd hkept (by decide +kernel)

/-- With a flash that takes it the credentials are kept. -/
theorem proven_credentials_home :
    CreditsPersist { now := 100, link := true, flashes := [true] } firstNetwork
      (firstNetwork.step plainBoard
        (.manager { now := 100, link := true, flashes := [true] })) := by
  refine proven_credentials (firstNetwork_reached _ fun _ _ _ => trivial) fun _ => ?_
  have hset : firstNetwork.conn.credsUnsaved = true := by decide +kernel
  rw [if_pos hset]
  exact ⟨rfl, by decide +kernel⟩

end Control

end Molewire
