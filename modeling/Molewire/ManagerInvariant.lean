/-
# The manager is never stuck

The five states of the connection manager share the scan and the candidates
with the console, and lines edit the saved profiles between two ticks. Still
a manager that waits for a scan has a pass pending, one that waits for a join
points into its candidates and into the saved profiles, and one that is idle
leaves that state as soon as there is a network to join.
-/

import Molewire.JoinAttribution
import Molewire.ManagerConfig

namespace Molewire

open ByteBuffer Transition

/-! ### Statuses -/

/-- At most one profile is marked connected. -/
def OneConnected (prof : Nat → ProfState) : Prop :=
  ∀ i j, (prof i).status = .connected → (prof j).status = .connected → i = j

/-- No profile is. -/
def NoneConnected (prof : Nat → ProfState) : Prop := ∀ i, (prof i).status ≠ .connected

theorem NoneConnected.one {prof : Nat → ProfState} (h : NoneConnected prof) : OneConnected prof :=
  fun i _ hi => absurd hi (h i)

/-- Marks that are only taken away leave at most one. -/
theorem OneConnected.of_imp {prof prof' : Nat → ProfState} (h : OneConnected prof)
    (hs : ∀ i, (prof' i).status = .connected → (prof i).status = .connected) :
    OneConnected prof' :=
  fun i j hi hj => h i j (hs i hi) (hs j hj)

namespace Control

variable {c d : Control}

/-! ### The invariant -/

/-- What holds within a tick as well. -/
structure Steady (c : Control) : Prop where
  length : c.conn.order.length ≤ configProfileMax
  one : OneConnected c.conn.prof
  backoffMin : backoffMinMs ≤ c.conn.backoffMs
  backoffMax : c.conn.backoffMs ≤ backoffMaxMs

/-- What holds between calls. The candidates behind the one in flight are saved profiles too. -/
structure Sound (c : Control) : Prop extends Steady c where
  scan : c.conn.state = .stScan → 0 < c.conn.scanPassesLeft
  attempt : c.conn.state = .stTry → c.conn.order[c.conn.orderIx]? = some c.conn.trying
  candidates : c.conn.state = .stTry → ∀ i ∈ c.conn.order.drop c.conn.orderIx, i < c.profileCount

theorem Sound.trying_lt (h : c.Sound) (hs : c.conn.state = .stTry) :
    c.conn.trying < c.profileCount := by
  have hhead : (c.conn.order.drop c.conn.orderIx)[0]? = some c.conn.trying := by
    rw [List.getElem?_drop, Nat.add_zero]
    exact h.attempt hs
  exact h.candidates hs _ (List.mem_of_getElem? hhead)

/-- In the other states nothing but a pending pass is asked for. -/
theorem Steady.sound (h : c.Steady) (htry : c.conn.state ≠ .stTry)
    (hscan : c.conn.state = .stScan → 0 < c.conn.scanPassesLeft) : c.Sound :=
  ⟨h, hscan, fun hs => absurd hs htry, fun hs => absurd hs htry⟩

/-- A change that keeps the candidates and the backoff, and at most takes a mark away. -/
theorem Steady.of_imp (h : c.Steady) (horder : d.conn.order = c.conn.order)
    (hbackoff : d.conn.backoffMs = c.conn.backoffMs)
    (hs : ∀ i, (d.conn.prof i).status = .connected → (c.conn.prof i).status = .connected) :
    d.Steady :=
  ⟨horder ▸ h.length, h.one.of_imp hs, hbackoff ▸ h.backoffMin, hbackoff ▸ h.backoffMax⟩

theorem Steady.congr (h : c.Steady) (hd : d.conn = c.conn) : d.Steady :=
  h.of_imp (by rw [hd]) (by rw [hd]) fun i hi => by rwa [← hd]

/-- A change outside the manager that leaves at least as many profiles. -/
theorem Sound.grow (h : c.Sound) (creds : Bool)
    (hd : d.conn = { c.conn with credsUnsaved := creds })
    (hcount : c.profileCount ≤ d.profileCount) : d.Sound := by
  refine ⟨?_, ?_, ?_, ?_⟩
  · exact h.toSteady.of_imp (by rw [hd]) (by rw [hd]) fun i hi => by rwa [hd] at hi
  · rw [hd]
    exact h.scan
  · rw [hd]
    exact h.attempt
  · rw [hd]
    exact fun hs i hi => (h.candidates hs i hi).trans_le hcount

theorem Sound.congr (h : c.Sound) (hd : d.conn = c.conn) (hcfg : d.cfg = c.cfg) : d.Sound :=
  h.grow c.conn.credsUnsaved hd (by rw [profileCount, profileCount, hcfg])

theorem Steady.clearStatus (h : c.Steady) (p : Nat → Bool) : (c.clearStatus p).Steady := by
  refine h.of_imp rfl rfl fun i hi => ?_
  simp only [Control.clearStatus] at hi
  split_ifs at hi
  exact hi

theorem Steady.snapshotRssi (h : c.Steady) : c.snapshotRssi.Steady :=
  h.of_imp rfl rfl fun i hi => (scanRssi_status c _ i).symm.trans hi

/-- A status other than connected. -/
theorem Steady.setStatus (h : c.Steady) (i : Nat) (status : ProfStatus)
    (hs : status ≠ .connected) : (c.setStatus i status).Steady := by
  refine h.of_imp rfl rfl fun j hj => ?_
  by_cases hij : j = i
  · subst hij
    exact absurd (by simpa [Control.setStatus] using hj) hs
  · simpa [Control.setStatus, hij] using hj

/-! ### Trying candidates -/

/-- Doubling within the bounds does not overflow. -/
theorem backoff_doubled {b : UInt32} (hmin : backoffMinMs ≤ b) (hmax : b ≤ backoffMaxMs) :
    backoffMinMs ≤ min (b * 2) backoffMaxMs ∧ min (b * 2) backoffMaxMs ≤ backoffMaxMs := by
  have hlow : 8000 ≤ b.toNat := UInt32.le_iff_toNat_le.mp hmin
  have hhigh : b.toNat ≤ 60000 := UInt32.le_iff_toNat_le.mp hmax
  have hdouble : (b * 2).toNat = b.toNat * 2 % 4294967296 := UInt32.toNat_mul b 2
  have hmin2 : backoffMinMs ≤ b * 2 := by
    apply UInt32.le_iff_toNat_le.mpr
    have hconst : backoffMinMs.toNat = 8000 := rfl
    omega
  have hcut : min (b * 2) backoffMaxMs = if b * 2 ≤ backoffMaxMs then b * 2 else backoffMaxMs :=
    rfl
  rw [hcut]
  split_ifs with hle
  · exact ⟨hmin2, hle⟩
  · exact ⟨by decide, by decide⟩

theorem backoff_reset : backoffMinMs ≤ backoffMinMs ∧ backoffMinMs ≤ backoffMaxMs := by decide

theorem Steady.enterWait (h : c.Steady) : c.enterWait.Sound := by
  obtain ⟨hmin, hmax⟩ := backoff_doubled h.backoffMin h.backoffMax
  exact Steady.sound ⟨h.length, h.one, hmin, hmax⟩ (by simp [Control.enterWait])
    (by simp [Control.enterWait])

theorem tryLoop_sound {l : List Nat} (h : c.Steady)
    (hdrop : c.conn.order.drop c.conn.orderIx = l) (hlt : ∀ i ∈ l, i < c.profileCount) :
    (c.tryLoop l).Sound := by
  induction l generalizing c with
  | nil => exact h.enterWait
  | cons i rest ih =>
    by_cases ha : c.env.connects.head? = some true
    · rw [tryLoop_accepted ha]
      refine ⟨⟨h.length, h.one, h.backoffMin, h.backoffMax⟩, nofun, fun _ => ?_, fun _ => ?_⟩
      · -- the candidate in flight is the first of those left
        have hhead := congrArg List.head? hdrop
        rwa [List.head?_drop] at hhead
      · rw [hdrop]
        exact hlt
    · rw [tryLoop_refused ha]
      refine ih ⟨h.length, h.one, h.backoffMin, h.backoffMax⟩ ?_ fun j hj =>
        hlt j (List.mem_cons_of_mem _ hj)
      have htail : c.conn.order.drop (c.conn.orderIx + 1) = rest := by
        rw [← List.drop_drop, hdrop, List.drop_one, List.tail_cons]
      exact htail

theorem pinActive_sound (h : c.Steady) (ha : c.cfg.active < c.profileCount) :
    c.pinActive.Sound := by
  refine tryLoop_sound ⟨?_, h.one, h.backoffMin, h.backoffMax⟩ rfl fun i hi => ?_
  · simp [configProfileMax]
  · rw [List.drop_zero, List.mem_singleton] at hi
    exact hi ▸ ha

theorem buildAndTry_sound (h : c.Steady) : c.buildAndTry.Sound :=
  tryLoop_sound ⟨length_wifiPickOrder _ _ _ _, h.one, h.backoffMin, h.backoffMax⟩ rfl
    fun _ hi => wifiPickOrder_lt hi

theorem Steady.scanOnly (h : c.Steady) (hd : ScanOnly c d) : d.Steady := by
  obtain ⟨_, _, _, rfl, -⟩ := hd
  exact h.congr rfl

theorem Sound.scanOnly (h : c.Sound) (hd : ScanOnly c d) : d.Sound := by
  obtain ⟨_, _, _, rfl, -⟩ := hd
  exact h.congr rfl rfl

theorem startCycle_sound (h : c.Steady) : c.startCycle.Sound := by
  have hscan : Steady { c with conn.state := .stScan } := h.of_imp rfl rfl fun _ hi => hi
  unfold startCycle
  dsimp only
  split_ifs
  · exact Steady.sound (h.of_imp rfl rfl fun _ hi => hi) (by simp) (by simp)
  · exact buildAndTry_sound hscan.snapshotRssi
  · have hstart := hscan.scanOnly (wifiScanStart_scanOnly { c with conn.state := .stScan })
    split
    · next d heq =>
      -- the scan that starts, or is under way, has all its passes before it
      rw [heq] at hstart
      have hd := wifiScanStart_scanOnly { c with conn.state := .stScan }
      rw [heq] at hd
      obtain ⟨_, _, _, rfl, -⟩ := hd
      exact Steady.sound (hstart.of_imp rfl rfl fun _ hi => hi) (by simp)
        (fun _ => by simp [mgrScanPasses])
    · next d heq =>
      rw [heq] at hstart
      exact hstart.enterWait

/-! ### A join comes up -/

theorem NoneConnected.moveFront {prof : Nat → ProfState} (h : NoneConnected prof) (t : Nat) :
    NoneConnected (moveFront prof t) := by
  intro i
  unfold Molewire.moveFront
  split_ifs <;> exact h _

theorem clearConnected_none (c : Control) : NoneConnected c.clearConnected.conn.prof := by
  intro i hi
  simp only [clearConnected, clearStatus] at hi
  split_ifs at hi with hc
  exact hc (by simpa using hi)

theorem autoSave_conn (c : Control) :
    ∃ creds, c.autoSave.conn = { c.conn with credsUnsaved := creds } := by
  unfold autoSave configSave
  dsimp only
  split_ifs <;> exact ⟨_, rfl⟩

/-- The profile that is marked is the only one. -/
theorem markConnected_sound (h : c.conn.order.length ≤ configProfileMax)
    (hnone : NoneConnected c.conn.prof) : c.markConnected.autoSave.Sound := by
  have hone : OneConnected c.markConnected.conn.prof := by
    have hmark (i : Nat) (hi : (c.markConnected.conn.prof i).status = .connected) :
        i = c.conn.trying := by
      by_contra hne
      simp only [markConnected, setStatus, Function.update_of_ne hne] at hi
      exact hnone i hi
    exact fun i j hi hj => (hmark i hi).trans (hmark j hj).symm
  have hsteady : Steady c.markConnected := ⟨h, hone, backoff_reset.1, backoff_reset.2⟩
  obtain ⟨creds, hconn⟩ := autoSave_conn c.markConnected
  refine Sound.grow (hsteady.sound ?_ ?_) _ hconn ?_
  · simp [markConnected]
  · simp [markConnected]
  · rw [profileCount, profileCount, (autoSave_config _).1]

theorem joined_sound (h : c.Steady) : c.joined.Sound := by
  have hnone := clearConnected_none c
  unfold joined
  dsimp only
  split_ifs
  · -- the list was edited while the radio was joining
    exact Steady.sound (h.of_imp rfl rfl fun _ hi => hi) (by simp) (by simp)
  · exact markConnected_sound h.length (NoneConnected.moveFront hnone _)
  · exact markConnected_sound h.length hnone

/-! ### Entry points -/

theorem noneConnected_snapshot (c : Control) :
    NoneConnected { c with conn.prof := fun _ => {} }.snapshotRssi.conn.prof := by
  intro i hi
  have huntried :=
    (scanRssi_status { c with conn.prof := fun _ => {} } (fun _ => {}) i).symm.trans hi
  cases huntried

theorem wifiConnApply_sound (h : c.Steady) : c.wifiConnApply.Sound := by
  have hreset : Steady { { c.call .apply with conn.prof := fun _ => {} }.snapshotRssi with
      conn.backoffMs := backoffMinMs }.wifiLeave :=
    ⟨h.length, (noneConnected_snapshot (c.call .apply)).one, backoff_reset.1, backoff_reset.2⟩
  unfold wifiConnApply
  dsimp only
  split_ifs with hactive
  · exact pinActive_sound hreset hactive
  · exact Steady.sound (hreset.of_imp rfl rfl fun _ hi => hi) (by simp) (by simp)

theorem wifiConnInit_sound (h : c.Steady) : c.wifiConnInit.Sound := by
  have hreset : Steady { c with conn.prof := fun _ => {} }.snapshotRssi :=
    ⟨h.length, (noneConnected_snapshot c).one, h.backoffMin, h.backoffMax⟩
  unfold wifiConnInit
  dsimp only
  split_ifs with hactive
  · exact pinActive_sound hreset hactive
  · exact Steady.sound (hreset.of_imp rfl rfl fun _ hi => hi) (by simp) (by simp)
  · exact Steady.sound (hreset.of_imp rfl rfl fun _ hi => hi) (by simp) (by simp)

/-! ### The task -/

theorem scanDone_sound (h : c.Steady) (hc : c.conn.state ≠ .stScan → c.Sound) :
    c.scanDone.Sound := by
  have hdone : Steady { c.snapshotRssi with
      conn.scanDoneAt := c.env.now, conn.scanEver := true } :=
    h.snapshotRssi.of_imp rfl rfl fun _ hi => hi
  unfold scanDone
  dsimp only
  split_ifs with hstate
  · exact buildAndTry_sound hdone
  · have hsound := hc hstate
    exact ⟨hdone, hsound.scan, hsound.attempt, hsound.candidates⟩

/-- A pass that was the last, in any state but the one that waits for it. -/
theorem Sound.lastPass (h : c.Sound) :
    Control.Sound { c with conn.scanPassesLeft := 0 }.scanDone := by
  refine scanDone_sound (h.toSteady.of_imp rfl rfl fun _ hi => hi) fun hstate => ?_
  exact ⟨h.toSteady.of_imp rfl rfl fun _ hi => hi, fun hs => absurd hs hstate, h.attempt,
    h.candidates⟩

theorem nextPass_sound (h : c.Sound) : c.nextPass.Sound := by
  have hagain := h.scanOnly (wifiScanAgain_scanOnly c)
  unfold nextPass
  dsimp only
  split_ifs with hleft
  · exact h.lastPass
  · split
    · next heq =>
      rw [heq] at hagain
      exact ⟨hagain.toSteady.of_imp rfl rfl fun _ hi => hi, fun _ => Nat.pos_of_ne_zero hleft,
        hagain.attempt, hagain.candidates⟩
    · next heq =>
      rw [heq] at hagain
      exact hagain.lastPass

theorem driveScan_sound (h : c.Sound) : c.driveScan.Sound := by
  unfold driveScan
  dsimp only
  split_ifs with hleft hpoll hreq
  · exact h.congr rfl rfl
  · exact nextPass_sound (h.congr rfl rfl)
  · have hasked : Sound { c with conn.scanRequested := false } :=
      ⟨h.toSteady.of_imp rfl rfl fun _ hi => hi, h.scan, h.attempt, h.candidates⟩
    have hstart := wifiScanStart_scanOnly { c with conn.scanRequested := false }
    split
    · next heq =>
      -- the requested scan has all its passes, whoever waits for it
      rw [heq] at hstart
      obtain ⟨_, _, _, rfl, -⟩ := hstart
      refine Steady.sound (hasked.toSteady.of_imp rfl rfl fun _ hi => hi) ?_
        (fun _ => by simp [mgrScanPasses])
      dsimp only
      split_ifs
      · simp
      · exact hreq.2
    · next heq =>
      rw [heq] at hstart
      exact hasked.scanOnly hstart
  · exact h

theorem linkLost_sound (h : c.Steady) : c.linkLost.Sound := by
  have hclear := h.clearStatus fun i => (c.conn.prof i).status = .connected
  unfold linkLost
  dsimp only
  split_ifs with hfast
  · exact pinActive_sound (hclear.of_imp rfl rfl fun _ hi => hi) hfast.2
  · exact startCycle_sound hclear

/-- The attempt in flight is over. -/
theorem nextCandidate_sound (h : c.Steady)
    (hlt : ∀ i ∈ c.conn.order.drop c.conn.orderIx, i < c.profileCount) :
    c.nextCandidate.Sound := by
  refine tryLoop_sound (h.of_imp rfl rfl fun _ hi => hi) rfl fun i hi => hlt i ?_
  have hdrop : i ∈ c.conn.order.drop (c.conn.orderIx + 1) := hi
  rw [← List.drop_drop] at hdrop
  exact List.mem_of_mem_drop hdrop

theorem attempting_sound (h : c.Sound) (hs : c.conn.state = .stTry) : c.attempting.Sound := by
  have hcand := h.candidates hs
  have hnojoin := nextCandidate_sound
    (h.toSteady.setStatus c.conn.trying .nojoin (by decide)) hcand
  unfold attempting
  split
  · exact nextCandidate_sound ((h.toSteady.setStatus c.conn.trying .badpass
      (by decide)).of_imp rfl rfl fun _ hi => hi) hcand
  · exact hnojoin
  · exact hnojoin
  · split_ifs
    · exact hnojoin
    · exact h

theorem runState_sound (h : c.Sound) (link : Bool) : (c.runState link).Sound := by
  unfold runState
  split
  · split_ifs
    · exact h
    · exact linkLost_sound h.toSteady
  · next hs =>
    split_ifs
    · exact joined_sound h.toSteady
    · exact attempting_sound h hs
  · split_ifs
    · exact joined_sound h.toSteady
    · exact h
  · split_ifs
    · exact joined_sound h.toSteady
    · exact startCycle_sound h.toSteady
    · exact h
  · split_ifs
    · exact startCycle_sound h.toSteady
    · exact h

theorem wifiConnTask_sound (h : c.Sound) : c.wifiConnTask.Sound := by
  unfold wifiConnTask managerTick
  dsimp only
  have hticked : Steady { c with conn.lastTick := c.env.now } :=
    h.toSteady.of_imp rfl rfl fun _ hi => hi
  have hdecayed : ∀ p : Nat → Bool,
      Sound ({ c with conn.lastTick := c.env.now }.clearStatus p) := fun p =>
    ⟨hticked.clearStatus p, h.scan, h.attempt, h.candidates⟩
  split_ifs
  · exact h
  · exact hdecayed _
  · exact runState_sound (driveScan_sound (hdecayed _)) _

/-! ### Lines and events -/

/-- A line either leaves the manager alone, with no fewer profiles, or starts it over. -/
theorem handleLine_sound (board : Board) (h : c.Sound) (line : CStr) :
    (c.handleLine board line).Sound := by
  rcases handleLine_outcome board c line with ⟨⟨⟨creds, hconn⟩, -⟩, hcount, -⟩ |
    ⟨e, ⟨⟨creds, hconn⟩, -⟩, -, hcfg, hconn', -, -⟩
  · exact h.grow _ hconn hcount
  · have he : e.Steady := h.toSteady.of_imp (by rw [hconn]) (by rw [hconn]) fun i hi => by
      rwa [hconn] at hi
    exact (wifiConnApply_sound he).congr hconn' (by rw [hcfg, wifiConnApply_cfg])

theorem consolePoll_sound (h : c.Sound) (connected : Bool) : (c.consolePoll connected).Sound := by
  have hedge : (c.consoleEdge connected).Sound := by
    unfold consoleEdge
    dsimp only
    split_ifs
    · exact h.congr rfl rfl
    · exact h.congr rfl rfl
    · exact h
  obtain ⟨hconn, -, hcfg, -⟩ := protoPoll_frame (c.consoleEdge connected)
  unfold consolePoll
  dsimp only
  split_ifs
  · exact hedge.congr hconn hcfg
  · exact hedge

/-- One event, and the states in which its lines are handled. -/
theorem event_sound (board : Board) (h : c.Sound) (e : ControlEvent) :
    (c.step board e).Sound ∧ ∀ x ∈ handled board c e, x.1.Sound := by
  have hnone : ∀ x ∈ ([] : List (Control × CStr)), x.1.Sound := by simp
  unfold step handled
  by_cases hhalt : c.halted
  · rw [if_pos hhalt, if_pos hhalt]
    exact ⟨h, hnone⟩
  · rw [if_neg hhalt, if_neg hhalt]
    cases e with
    | console env connected rx =>
      have hpolled := consolePoll_sound (c := { c with env := env }) (h.congr rfl rfl) connected
      dsimp only [serialConsoleTask]
      -- while the live scan is on the screen, what is typed is no line
      by_cases hlive : ({ c with env := env }.consolePoll connected).proto.mode = .contscan
      · rw [if_pos hlive, consoleRead, if_pos hlive]
        refine ⟨?_, hnone⟩
        split_ifs
        · exact hpolled
        · exact hpolled.congr rfl rfl
      · rw [if_neg hlive, consoleRead, if_neg hlive]
        exact consoleBytes_invariant (fun _ _ _ hc => hc.congr rfl rfl)
          (fun x _ hx => handleLine_sound board hx x.2) hpolled
    | portal env body =>
      have henv : Sound { c with env := env } := h.congr rfl rfl
      exact ⟨handleLine_sound board henv _, fun x hx => List.mem_singleton.mp hx ▸ henv⟩
    | portalScan =>
      exact ⟨⟨h.toSteady.of_imp rfl rfl fun _ hi => hi, h.scan, h.attempt, h.candidates⟩, hnone⟩
    | manager env => exact ⟨wifiConnTask_sound (h.congr rfl rfl), hnone⟩
    | report r => exact ⟨h.congr rfl rfl, hnone⟩

theorem boot_sound (board : Board) (flash : Option Config) (env : Env) :
    (boot board flash env).Sound := by
  refine wifiConnInit_sound ⟨by simp [configLoad], ?_, backoff_reset.1, backoff_reset.2⟩
  exact NoneConnected.one fun i => by simp [configLoad]

/-- In every run the invariant holds. -/
theorem reached_sound {board : Board} {admits : Control → ControlEvent → Prop}
    (h : ReachedBy board admits c) : c.Sound := by
  apply Reach.invariant _ _ h
  · rintro c ⟨flash, env, rfl⟩
    exact boot_sound board flash env
  · intro c e _ _ hc
    exact (event_sound board hc e).1

/-! ### Never stuck -/

/-- A cycle that has a network to try leaves the idle state. -/
theorem startCycle_not_idle (hcount : 0 < c.profileCount) : c.startCycle.conn.state ≠ .stIdle := by
  have hloop : ∀ (l : List Nat) (d : Control), (d.tryLoop l).conn.state ≠ .stIdle := by
    intro l
    induction l with
    | nil => simp [tryLoop, enterWait]
    | cons i rest ih =>
      intro d
      by_cases ha : d.env.connects.head? = some true
      · simp [tryLoop_accepted ha]
      · rw [tryLoop_refused ha]
        exact ih _
  unfold startCycle
  dsimp only
  rw [if_neg (Nat.ne_of_gt hcount)]
  split_ifs
  · exact hloop _ _
  · have hstart := wifiScanStart_scanOnly { c with conn.state := .stScan }
    split
    · next heq =>
      rw [heq] at hstart
      obtain ⟨_, _, _, rfl, -⟩ := hstart
      simp
    · next heq => simp [enterWait]

/-- A tick that the rate limit lets through and that finds the radio free. -/
def Unsuppressed (c : Control) (env : Env) : Prop :=
  ¬c.halted ∧ ¬env.now - c.conn.lastTick < 100 ∧ ¬c.ownsScan

/-- The manager is where its state says, and leaves the idle state for a saved network. -/
structure NotStuck (board : Board) (c : Control) : Prop where
  scan : c.conn.state = .stScan → 0 < c.conn.scanPassesLeft
  order : c.conn.order.length ≤ 8
  attempt : c.conn.state = .stTry → c.conn.orderIx < c.conn.order.length ∧
    c.conn.order[c.conn.orderIx]? = some c.conn.trying ∧ c.conn.trying < c.profileCount
  idle : c.conn.state = .stIdle → 0 < c.profileCount → ∀ env, c.Unsuppressed env →
    (c.step board (.manager env)).conn.state ≠ .stIdle
  one : ∀ i j, (c.conn.prof i).status = .connected → (c.conn.prof j).status = .connected → i = j
  backoff : 8000 ≤ c.conn.backoffMs ∧ c.conn.backoffMs ≤ 60000

theorem scanDone_idle (h : c.conn.state = .stIdle) : c.scanDone.conn.state = .stIdle := by
  have hne : ¬c.conn.state = .stScan := by rw [h]; decide
  have hdone : c.scanDone = { c.snapshotRssi with
      conn.scanDoneAt := c.env.now, conn.scanEver := true } := if_neg hne
  rw [hdone]
  exact h

/-- A scan that is driven does not end the idle state. -/
theorem driveScan_idle (h : c.conn.state = .stIdle) : c.driveScan.conn.state = .stIdle := by
  have hnext {d : Control} (hd : d.conn.state = .stIdle) : d.nextPass.conn.state = .stIdle := by
    have hagain := wifiScanAgain_scanOnly d
    unfold nextPass
    dsimp only
    split_ifs
    · exact scanDone_idle hd
    · split
      · next heq =>
        rw [heq] at hagain
        obtain ⟨_, _, _, rfl, -⟩ := hagain
        exact hd
      · next heq =>
        rw [heq] at hagain
        obtain ⟨_, _, _, rfl, -⟩ := hagain
        exact scanDone_idle hd
  have hstart := wifiScanStart_scanOnly { c with conn.scanRequested := false }
  unfold driveScan
  dsimp only
  split_ifs
  · exact h
  · exact hnext h
  · split
    · next heq =>
      rw [heq] at hstart
      obtain ⟨_, _, _, rfl, -⟩ := hstart
      simp [h]
    · next heq =>
      rw [heq] at hstart
      obtain ⟨_, _, _, rfl, -⟩ := hstart
      exact h
  · exact h

/-- A tick that is not suppressed starts a cycle from the idle state. -/
theorem managerTick_not_idle (hs : c.conn.state = .stIdle) (hcount : 0 < c.profileCount)
    (howns : ¬c.ownsScan) : c.managerTick.conn.state ≠ .stIdle := by
  have htick : c.managerTick =
      ({ c with conn.lastTick := c.env.now }.decayBadpass.driveScan).runState
        { c with conn.lastTick := c.env.now }.decayBadpass.linkUp := if_neg howns
  generalize hdecayed : Control.decayBadpass _ = d at htick
  have hd : d.conn.state = .stIdle ∧ d.cfg = c.cfg := by
    rw [← hdecayed]
    exact ⟨hs, rfl⟩
  have hdriven := driveScan_idle hd.1
  have hcfg := (driveScan_keepsCreds d).config.1.trans hd.2
  have hcount : 0 < d.driveScan.profileCount := by rwa [profileCount, hcfg]
  rw [htick, runState, hdriven]
  dsimp only
  rw [if_pos hcount]
  exact startCycle_not_idle hcount

theorem Sound.notStuck (board : Board) (h : c.Sound) : NotStuck board c where
  scan := h.scan
  order := h.length
  attempt hs := by
    have hattempt := h.attempt hs
    obtain ⟨hlt, -⟩ := List.getElem?_eq_some_iff.mp hattempt
    exact ⟨hlt, hattempt, h.trying_lt hs⟩
  idle hs hcount env hfree := by
    obtain ⟨hhalt, hrate, howns⟩ := hfree
    rw [step, if_neg hhalt]
    have htick := managerTick_not_idle (c := { c with env := env }) hs hcount howns
    rwa [wifiConnTask, if_neg hrate]
  one := h.one
  backoff := ⟨h.backoffMin, h.backoffMax⟩

/-- **The manager is never stuck.** In every run, between any two calls and before each line of an
event, whatever the radio does. -/
theorem manager_not_stuck {board : Board} (h : ReachedBy board (fun _ _ => True) c) :
    NotStuck board c ∧ ∀ e, ∀ x ∈ handled board c e, NotStuck board x.1 := by
  have hsound := reached_sound h
  exact ⟨hsound.notStuck board, fun e x hx => ((event_sound board hsound e).2 x hx).notStuck board⟩

/-- The manager after the last of eight networks was refused and the list was edited. -/
theorem manager_not_stuck_full :
    NotStuck plainBoard ((boot plainBoard (some fullConfig) { connects := [false] }).step plainBoard
      (.portal { connects := [true] } (ascii "del 3"))) ∧
    ∀ e, ∀ x ∈ handled plainBoard ((boot plainBoard (some fullConfig)
      { connects := [false] }).step plainBoard (.portal { connects := [true] } (ascii "del 3"))) e,
        NotStuck plainBoard x.1 :=
  manager_not_stuck (.step (.start ⟨_, _, rfl⟩) trivial)

end Control

end Molewire
