/-
# Who holds the radio

The manager stands aside while the console owns the scan. Ownership is given
up when a terminal attaches or drops, and no later: as long as no line handled
without a terminal starts a scan, a console without one owns nothing, and a
lost uplink is taken up again. A `scan` from the portal with no terminal
attached keeps the manager out until one is.
-/

import Molewire.LineEffects

namespace Molewire

open ByteBuffer Transition

namespace Control

/-! ### What the manager leaves alone -/

/-- The manager touches neither the menus nor the console. -/
def AsideKept (c d : Control) : Prop := d.proto = c.proto ∧ d.console = c.console

/-- It prints nothing either, and leaves the scan table as it is or has it emptied. -/
def ManagerAside (c d : Control) : Prop :=
  AsideKept c d ∧ d.out = c.out ∧ TableKept c.scan d.scan

theorem ManagerAside.trans {c d e : Control} (h : ManagerAside c d) (h' : ManagerAside d e) :
    ManagerAside c e :=
  ⟨⟨h'.1.1.trans h.1.1, h'.1.2.trans h.1.2⟩, h'.2.1.trans h.2.1, h.2.2.trans h'.2.2⟩

theorem ManagerOnly.aside {c d : Control} (h : ManagerOnly c d) : ManagerAside c d := by
  obtain ⟨_, _, _, _, rfl⟩ := h
  exact ⟨⟨rfl, rfl⟩, rfl, .refl _⟩

theorem ScanOnly.aside {c d : Control} (h : ScanOnly c d) (ht : TableKept c.scan d.scan) :
    ManagerAside c d := by
  obtain ⟨_, _, _, rfl, -⟩ := h
  exact ⟨⟨rfl, rfl⟩, rfl, ht⟩

theorem wifiScanStart_aside (c : Control) : ManagerAside c c.wifiScanStart.2 :=
  (wifiScanStart_scanOnly c).aside (wifiScanStart_table c)

theorem wifiScanAgain_aside (c : Control) : ManagerAside c c.wifiScanAgain.2 :=
  (wifiScanAgain_scanOnly c).aside (wifiScanAgain_table c)

theorem tryLoop_aside (c : Control) (l : List Nat) : ManagerAside c (c.tryLoop l) :=
  (tryLoop_managerOnly c l).aside

theorem startCycle_aside (c : Control) : ManagerAside c c.startCycle := by
  have hscan := wifiScanStart_aside { c with conn.state := .stScan }
  unfold startCycle
  dsimp only
  split_ifs
  · exact ⟨⟨rfl, rfl⟩, rfl, .refl _⟩
  · exact tryLoop_aside _ _
  · split
    · next heq =>
      rw [heq] at hscan
      exact hscan
    · next heq =>
      rw [heq] at hscan
      exact hscan

theorem joined_aside (c : Control) : ManagerAside c c.joined := by
  unfold joined autoSave configSave
  dsimp only
  split_ifs <;> exact ⟨⟨rfl, rfl⟩, rfl, .refl _⟩

theorem scanDone_aside (c : Control) : ManagerAside c c.scanDone := by
  unfold scanDone
  dsimp only
  split_ifs
  · exact tryLoop_aside _ _
  · exact ⟨⟨rfl, rfl⟩, rfl, .refl _⟩

theorem nextPass_aside (c : Control) : ManagerAside c c.nextPass := by
  have hagain := wifiScanAgain_aside c
  unfold nextPass
  dsimp only
  split_ifs
  · exact scanDone_aside _
  · split
    · next heq =>
      rw [heq] at hagain
      exact hagain
    · next heq =>
      rw [heq] at hagain
      exact ManagerAside.trans hagain (scanDone_aside _)

/-- A poll only notes that the pass is over. -/
theorem wifiScanPoll_aside (c : Control) : ManagerAside c c.wifiScanPoll.2 := by
  unfold wifiScanPoll Scan.poll
  split_ifs <;> exact ⟨⟨rfl, rfl⟩, rfl, rfl, .inl rfl⟩

theorem driveScan_aside (c : Control) : ManagerAside c c.driveScan := by
  have hscan := wifiScanStart_aside { c with conn.scanRequested := false }
  have hpoll := wifiScanPoll_aside c
  unfold driveScan
  dsimp only
  split_ifs
  · exact hpoll
  · exact ManagerAside.trans hpoll (nextPass_aside _)
  · split
    · next heq =>
      rw [heq] at hscan
      exact hscan
    · next heq =>
      rw [heq] at hscan
      exact hscan
  · exact ⟨⟨rfl, rfl⟩, rfl, .refl _⟩

theorem attempting_aside (c : Control) : ManagerAside c c.attempting := by
  unfold attempting
  split
  · exact tryLoop_aside _ _
  · exact tryLoop_aside _ _
  · exact tryLoop_aside _ _
  · split_ifs
    · exact tryLoop_aside _ _
    · exact ⟨⟨rfl, rfl⟩, rfl, .refl _⟩

theorem linkLost_aside (c : Control) : ManagerAside c c.linkLost := by
  unfold linkLost
  dsimp only
  split_ifs
  · exact tryLoop_aside _ _
  · exact startCycle_aside _

theorem runState_aside (c : Control) (link : Bool) : ManagerAside c (c.runState link) := by
  unfold runState
  -- each branch either stays or goes through one of the four procedures
  split <;> split_ifs <;> first
    | exact ⟨⟨rfl, rfl⟩, rfl, .refl _⟩
    | exact linkLost_aside c
    | exact joined_aside c
    | exact attempting_aside c
    | exact startCycle_aside c

theorem wifiConnTask_aside (c : Control) : ManagerAside c c.wifiConnTask := by
  unfold wifiConnTask managerTick
  dsimp only
  split_ifs
  · exact ⟨⟨rfl, rfl⟩, rfl, .refl _⟩
  · exact ⟨⟨rfl, rfl⟩, rfl, .refl _⟩
  · exact ManagerAside.trans (d := { c with conn.lastTick := c.env.now }.decayBadpass.driveScan)
      (driveScan_aside _) (runState_aside _ _)

theorem wifiConnInit_aside (c : Control) : ManagerAside c c.wifiConnInit := by
  unfold wifiConnInit
  dsimp only
  split_ifs
  · exact tryLoop_aside _ _
  · exact ⟨⟨rfl, rfl⟩, rfl, .refl _⟩
  · exact ⟨⟨rfl, rfl⟩, rfl, .refl _⟩

/-! ### Ownership without a terminal -/

/-- Without a terminal the console is in the main menu with no scan pending. -/
def ReleasedDetached (c : Control) : Prop :=
  c.console.wasConnected = false → c.proto = { mode := .main, scanRounds := 0 }

/-- No line that an event has handled without a terminal starts a scan. -/
def NoDetachedScan (board : Board) (c : Control) (e : ControlEvent) : Prop :=
  ∀ x ∈ handled board c e, x.1.console.wasConnected = false → ¬x.1.startsScan x.2

instance (board : Board) (c : Control) (e : ControlEvent) : Decidable (NoDetachedScan board c e) :=
  inferInstanceAs (Decidable (∀ x ∈ handled board c e, _ → _))

theorem ReleasedDetached.handleLine {board : Board} {c : Control} {line : CStr}
    (h : ReleasedDetached c) (hline : c.console.wasConnected = false → ¬c.startsScan line) :
    ReleasedDetached (c.handleLine board line) := by
  intro hdetached
  rw [handleLine_console] at hdetached
  have hmain := h hdetached
  rw [handleLine_proto (by rw [hmain]; decide) (hline hdetached)]
  exact hmain

theorem ReleasedDetached.congr {c d : Control} (h : ReleasedDetached c)
    (hp : d.proto = c.proto) (hc : d.console.wasConnected = c.console.wasConnected) :
    ReleasedDetached d := by
  rw [ReleasedDetached, hp, hc]
  exact h

theorem consoleEdge_wasConnected (c : Control) (connected : Bool) :
    (c.consoleEdge connected).console.wasConnected = connected := by
  unfold consoleEdge
  dsimp only
  split_ifs with h h'
  · exact h.1.symm
  · simpa using h'.1
  · cases connected <;> simp_all

/-- A tick releases what a dropped terminal held. -/
theorem consoleEdge_released {c : Control} (h : ReleasedDetached c) (connected : Bool) :
    ReleasedDetached (c.consoleEdge connected) := by
  intro hdetached
  rw [consoleEdge_wasConnected] at hdetached
  subst hdetached
  unfold consoleEdge
  dsimp only
  -- a terminal that has just dropped is released here, one that was gone before already was
  by_cases hwas : c.console.wasConnected
  · simp [hwas, protoReset]
  · simpa [hwas] using h (by simpa using hwas)

theorem consolePoll_wasConnected (c : Control) (connected : Bool) :
    (c.consolePoll connected).console.wasConnected = connected := by
  have hedge := consoleEdge_wasConnected c connected
  unfold consolePoll
  dsimp only
  split_ifs
  · rw [(protoPoll_frame _).2.2.2]
    exact hedge
  · exact hedge

theorem consolePoll_released {c : Control} (h : ReleasedDetached c) (connected : Bool) :
    ReleasedDetached (c.consolePoll connected) := by
  cases connected with
  | false => simpa [consolePoll] using consoleEdge_released h false
  | true =>
    intro hdetached
    rw [consolePoll_wasConnected] at hdetached
    cases hdetached

/-- Typing does not attach or drop a terminal. -/
theorem consoleRead_wasConnected (board : Board) (c : Control) (rx : Bytes) :
    (c.consoleRead board rx).console.wasConnected = c.console.wasConnected := by
  unfold consoleRead
  split_ifs
  · rfl
  · rfl
  · refine foldl_consoleByte
      (I := fun d => d.console.wasConnected = c.console.wasConnected) (fun _ _ _ h => h) ?_ rfl
    intro x _ hx
    rw [handleLine_console]
    exact hx

theorem step_released {board : Board} {c : Control} {e : ControlEvent} (h : ReleasedDetached c)
    (he : NoDetachedScan board c e) : ReleasedDetached (c.step board e) := by
  unfold NoDetachedScan handled at he
  unfold step
  by_cases hhalt : c.halted
  · rw [if_pos hhalt]
    exact h
  · rw [if_neg hhalt] at he ⊢
    cases e with
    | console env connected rx =>
      have hpoll := consolePoll_released (c := { c with env := env }) h connected
      dsimp only at he ⊢
      unfold serialConsoleTask
      by_cases hlive : ({ c with env := env }.consolePoll connected).proto.mode = .contscan
      · -- the live scan is not on without a terminal
        intro hdetached
        rw [consoleRead_wasConnected] at hdetached
        rw [hpoll hdetached] at hlive
        cases hlive
      · rw [if_neg hlive] at he
        rw [consoleRead, if_neg hlive]
        refine foldl_consoleByte (fun c _ _ hc => hc.congr rfl rfl) ?_ hpoll
        exact fun x hx hc => hc.handleLine (he x hx)
    | portal env body =>
      have hstart : ReleasedDetached { c with env := env } := h
      exact hstart.handleLine (he _ (List.mem_singleton.mpr rfl))
    | portalScan => exact h
    | manager env =>
      obtain ⟨hproto, hconsole⟩ := (wifiConnTask_aside { c with env := env }).1
      exact h.congr hproto (by rw [hconsole])
    | report r => exact h

theorem reached_released {board : Board} {c : Control}
    (h : ReachedBy board (NoDetachedScan board) c) : ReleasedDetached c := by
  refine Reach.invariant ?_ (fun s e _ he hs => step_released hs he) h
  rintro s ⟨flash, env, rfl⟩ -
  -- the start of the manager does not touch the menus
  obtain ⟨hmenus, -⟩ := wifiConnInit_aside
    (({ cfg := {}, flash := flash, env := env : Control }).configLoad board)
  rw [boot, hmenus.1]
  rfl

/-! ### The manager is not held up -/

/-- A candidate is tried or the manager waits for the next cycle. -/
theorem tryLoop_state (c : Control) (l : List Nat) :
    (c.tryLoop l).conn.state = .stTry ∨ (c.tryLoop l).conn.state = .stWait := by
  induction l generalizing c with
  | nil => exact .inr rfl
  | cons i rest ih =>
    by_cases ha : c.env.connects.head? = some true
    · rw [tryLoop_accepted ha]
      exact .inl rfl
    · rw [tryLoop_refused ha]
      exact ih _

/-- The manager is back at finding a network: trying one, scanning, or waiting to. -/
def Rejoining (c : Control) : Prop :=
  c.conn.state = .stTry ∨ c.conn.state = .stScan ∨ c.conn.state = .stWait

theorem startCycle_rejoining {c : Control} (h : 0 < c.profileCount) : Rejoining c.startCycle := by
  have hscan := wifiScanStart_scanOnly { c with conn.state := .stScan }
  unfold startCycle
  dsimp only
  rw [if_neg h.ne']
  split_ifs
  · exact (tryLoop_state _ _).imp_right .inr
  · split
    · next heq =>
      rw [heq] at hscan
      obtain ⟨_, _, _, rfl, -⟩ := hscan
      exact .inr (.inl rfl)
    · exact .inr (.inr rfl)

theorem linkLost_rejoining {c : Control} (h : 0 < c.profileCount) : Rejoining c.linkLost := by
  unfold linkLost
  dsimp only
  split_ifs
  · exact (tryLoop_state _ _).imp_right .inr
  · exact startCycle_rejoining h

theorem nextPass_up {c : Control} (h : c.conn.state = .stUp) :
    c.nextPass.conn.state = .stUp ∧ c.nextPass.cfg = c.cfg := by
  -- the results are taken, but only a scanning manager acts on them
  have hdone : ∀ d : Control, d.conn.state = .stUp → d.scanDone.conn.state = .stUp ∧
      d.scanDone.cfg = d.cfg := by
    intro d hd
    have hne : ¬d.snapshotRssi.conn.state = .stScan := by simp [snapshotRssi, hd]
    unfold scanDone
    dsimp only
    rw [if_neg hne]
    exact ⟨hd, rfl⟩
  have hagain := wifiScanAgain_scanOnly c
  unfold nextPass
  dsimp only
  split_ifs
  · exact hdone _ h
  · split
    · next heq =>
      rw [heq] at hagain
      obtain ⟨_, _, _, rfl, -⟩ := hagain
      exact ⟨h, rfl⟩
    · next heq =>
      rw [heq] at hagain
      obtain ⟨_, _, _, rfl, -⟩ := hagain
      exact hdone _ h

/-- Driving a scan does not end an association. -/
theorem driveScan_up {c : Control} (h : c.conn.state = .stUp) :
    c.driveScan.conn.state = .stUp ∧ c.driveScan.cfg = c.cfg := by
  have hscan := wifiScanStart_scanOnly { c with conn.scanRequested := false }
  unfold driveScan
  dsimp only
  split_ifs
  · exact ⟨h, rfl⟩
  · exact nextPass_up h
  · split
    · next heq =>
      rw [heq] at hscan
      obtain ⟨_, _, _, rfl, -⟩ := hscan
      simp [h]
    · next heq =>
      rw [heq] at hscan
      obtain ⟨_, _, _, rfl, -⟩ := hscan
      exact ⟨h, rfl⟩
  · exact ⟨h, rfl⟩

/-- With nothing owned, the next due tick after the uplink was lost sets out to rejoin. -/
theorem wifiConnTask_rejoins {c : Control} (howns : c.ownsScan = false)
    (hdue : 100 ≤ c.env.now - c.conn.lastTick) (hlink : c.env.link = false)
    (hup : c.conn.state = .stUp) (hsaved : 0 < c.profileCount) : Rejoining c.wifiConnTask := by
  obtain ⟨hstate, hcfg⟩ := driveScan_up
    (c := { c with conn.lastTick := c.env.now }.decayBadpass) hup
  -- the link is judged before the scan is driven
  have hdown : { c with conn.lastTick := c.env.now }.decayBadpass.linkUp = false := by
    simp [linkUp, decayBadpass, clearStatus, hlink]
  have hfree : { c with conn.lastTick := c.env.now }.decayBadpass.ownsScan = false := howns
  unfold wifiConnTask managerTick
  dsimp only
  rw [if_neg (by simpa using hdue), hfree, hdown, if_neg (by decide), runState, hstate]
  refine linkLost_rejoining ?_
  rw [profileCount, hcfg]
  exact hsaved

/-- **The console holds the radio only with a terminal attached.** In a run in which no line
handled without a terminal starts a scan, after every tick of the console that finds none the
console owns no scan, and the next due tick of the manager with the uplink lost sets out to
rejoin. -/
theorem scan_ownership {board : Board} {c : Control} {env : Env} {rx : Bytes}
    (h : ReachedBy board (NoDetachedScan board) c) (hrun : c.halted = false)
    (he : NoDetachedScan board c (.console env false rx)) :
    (c.step board (.console env false rx)).ownsScan = false ∧
    ∀ env' : Env, 100 ≤ env'.now - (c.step board (.console env false rx)).conn.lastTick →
      env'.link = false → (c.step board (.console env false rx)).conn.state = .stUp →
      0 < (c.step board (.console env false rx)).profileCount →
      Rejoining ({ c.step board (.console env false rx) with env := env' }.wifiConnTask) := by
  have hdetached : (c.step board (.console env false rx)).console.wasConnected = false := by
    rw [step, hrun, if_neg (by decide)]
    exact (consoleRead_wasConnected board _ rx).trans (consolePoll_wasConnected _ false)
  have hfree : (c.step board (.console env false rx)).ownsScan = false := by
    rw [ownsScan, step_released (reached_released h) he hdetached]
    rfl
  exact ⟨hfree, fun env' hdue hlink hup hsaved => wifiConnTask_rejoins hfree hdue hlink hup hsaved⟩

/-- The portal sends `scan` while no terminal is attached. -/
theorem scan_ownership_fails :
    ¬∀ (board : Board) (c : Control) (env : Env) (rx : Bytes),
      ReachedBy board (fun _ _ => True) c → c.halted = false →
        (c.step board (.console env false rx)).ownsScan = false := by
  intro hclaim
  have hrun : ReachedBy plainBoard (fun _ _ => True)
      ((boot plainBoard none {}).step plainBoard (.portal { scans := [true] } (ascii "scan"))) :=
    .step (.start ⟨_, _, rfl⟩) trivial
  exact absurd (hclaim plainBoard _ {} [] hrun (by decide +kernel)) (by decide +kernel)

/-- The terminal asked for the scan, and drops. -/
theorem scan_ownership_dropped :
    (((boot plainBoard none {}).step plainBoard
      (.console { scans := [true] } true (ascii "scan\r"))).step plainBoard
        (.console {} false [])).ownsScan = false :=
  (scan_ownership (.step (.start ⟨none, {}, rfl⟩) (by decide +kernel)) (by decide +kernel)
    (by decide +kernel)).1

end Control

end Molewire
