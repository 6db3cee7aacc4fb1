/-
# The Wi-Fi connection manager

`wifi_conn.c`: the state machine that keeps the station associated. It holds
plain indices into the saved profiles, for the candidates of a cycle, for the
attempt in flight and for the runtime state kept beside the list, across calls
in which the list may be edited.
-/

import Mathlib.Logic.Function.Basic
import Molewire.Control

namespace Molewire

open ByteBuffer

/-! ### Parallel arrays -/

/-- Entry `t` moved to the front, those before it one place down. -/
def moveFront {α : Type*} (f : Nat → α) (t : Nat) : Nat → α :=
  fun i => if i = 0 then f t else if i ≤ t then f (i - 1) else f i

/-- Moving the entry of a list to its front is moving it in the array of its entries. -/
theorem getElem?_move_front {α : Type*} {l : List α} {t : Nat} {x : α} (h : l[t]? = some x) :
    (fun i : Nat => (x :: l.eraseIdx t)[i]?) = moveFront (fun i : Nat => l[i]?) t := by
  funext i
  rcases i with - | i
  · simp [moveFront, h]
  · simp only [moveFront, List.getElem?_cons_succ, List.getElem?_eraseIdx, Nat.succ_ne_zero,
      if_false, Nat.add_sub_cancel]
    by_cases hi : i < t
    · rw [if_pos hi, if_pos (by omega)]
    · rw [if_neg hi, if_neg (by omega)]

/-! ### Constants -/

/-- `JOIN_TIMEOUT_MS`. -/
def joinTimeoutMs : UInt32 := 12000

/-- `FAST_RETRIES`. -/
def fastRetries : Nat := 2

/-- `MGR_SCAN_PASSES`. -/
def mgrScanPasses : Nat := 2

/-- `SCAN_FRESH_MS`. -/
def scanFreshMs : UInt32 := 15000

/-- `BACKOFF_MAX_MS`. -/
def backoffMaxMs : UInt32 := 60000

/-- `BADPASS_RETRY_MS`. -/
def badpassRetryMs : UInt32 := 600000

namespace Control

/-! ### Runtime state of the profiles -/

/-- A result of the scan counts for the profile of its name. -/
def noteRssi (cfg : Config) (prof : Nat → ProfState) (e : ScanEntry) : Nat → ProfState :=
  match configFindProfile cfg e.ssid with
  | some p => Function.update prof p { prof p with rssi := e.rssi }
  | none => prof

/-- The latest scan mapped onto the profiles. -/
def scanRssi (c : Control) (prof : Nat → ProfState) : Nat → ProfState :=
  c.scan.entries.foldl (noteRssi c.cfg) fun i => { prof i with rssi := wifiRssiUnseen }

/-- `snapshot_rssi`. -/
def snapshotRssi (c : Control) : Control := { c with conn.prof := c.scanRssi c.conn.prof }

/-- A status for profile `i`, observed in the attempt with the credentials last handed over. -/
def setStatus (c : Control) (i : Nat) (status : ProfStatus) : Control :=
  { c with
    conn.prof := Function.update c.conn.prof i { c.conn.prof i with status := status }
    hist.statusFor := Function.update c.hist.statusFor i c.hist.handed }

/-- The status goes back to untried wherever a condition holds. -/
def clearStatus (c : Control) (p : Nat → Bool) : Control :=
  { c with
    conn.prof := fun i => if p i then { c.conn.prof i with status := .untried } else c.conn.prof i }

/-- No profile is marked connected. -/
def clearConnected (c : Control) : Control :=
  c.clearStatus fun i => (c.conn.prof i).status = .connected

/-- Marks of a bad password decay. -/
def decayBadpass (c : Control) : Control :=
  c.clearStatus fun i =>
    i < c.profileCount ∧ (c.conn.prof i).status = .badpass ∧
      badpassRetryMs ≤ c.env.now - c.conn.badpassAt i

/-! ### Trying candidates -/

/-- `enter_wait`. -/
def enterWait (c : Control) : Control :=
  { c with
    conn.state := .stWait
    conn.waitUntil := c.env.now + c.conn.backoffMs
    conn.backoffMs := min (c.conn.backoffMs * 2) backoffMaxMs }

/-- The loop of `try_from` over the candidates that are left. -/
def tryLoop (c : Control) : List Nat → Control
  | [] => c.enterWait
  | i :: rest =>
    match c.wifiLeave.connectAsync (c.profile i) with
    | (true, c) =>
      { c with conn.trying := i, conn.attemptAt := c.env.now, conn.state := .stTry }
    | (false, c) => { c with conn.orderIx := c.conn.orderIx + 1 }.tryLoop rest

/-- The first candidate when the radio takes it. -/
theorem tryLoop_accepted {c : Control} {i : Nat} {rest : List Nat}
    (h : c.env.connects.head? = some true) :
    c.tryLoop (i :: rest) =
      { c with
        env.connects := c.env.connects.tail
        hist.handed := some (c.profile i)
        calls := c.calls ++ [.wifiLeave, .wifiConnect (c.profile i)]
        conn.trying := i
        conn.attemptAt := c.env.now
        conn.state := .stTry } := by
  simp [tryLoop, connectAsync, h]

/-- The first candidate when the radio refuses it. -/
theorem tryLoop_refused {c : Control} {i : Nat} {rest : List Nat}
    (h : ¬c.env.connects.head? = some true) :
    c.tryLoop (i :: rest) =
      { c with
        env.connects := c.env.connects.tail
        calls := c.calls ++ [Call.wifiLeave, Call.wifiConnect (c.profile i)]
        conn.orderIx := c.conn.orderIx + 1 }.tryLoop rest := by
  simp [tryLoop, connectAsync, h]

/-- `try_from`. -/
def tryFrom (c : Control) : Control := c.tryLoop (c.conn.order.drop c.conn.orderIx)

/-- Exactly the active profile is the candidate. -/
def pinActive (c : Control) : Control :=
  { c with conn.order := [c.cfg.active], conn.orderIx := 0 }.tryFrom

/-- `build_and_try`. -/
def buildAndTry (c : Control) : Control :=
  { c with
    conn.order := wifiPickOrder c.conn.prof c.profileCount c.cfg.active c.conn.rrUnseen
    conn.rrUnseen := c.conn.rrUnseen + 1
    conn.orderIx := 0 }.tryFrom

/-- `start_cycle`. -/
def startCycle (c : Control) : Control :=
  if c.profileCount = 0 then { c with conn.state := .stIdle }
  else
    let c := { c with conn.state := .stScan }
    -- a scan of the last seconds need not be repeated
    if c.conn.scanEver ∧ c.env.now - c.conn.scanDoneAt < scanFreshMs then
      c.snapshotRssi.buildAndTry
    else
      match c.wifiScanStart with
      | (true, c) => { c with conn.scanPassesLeft := mgrScanPasses }
      | (false, c) => c.enterWait

/-! ### A join came up -/

/-- The joined profile goes to the front of the list, the runtime state with it. -/
def moveJoined (c : Control) (t : Nat) : Control :=
  { c with
    cfg := (configTouchProfile c.cfg t).getD c.cfg
    conn.prof := moveFront c.conn.prof t
    conn.badpassAt := moveFront c.conn.badpassAt t
    conn.trying := 0
    hist.statusFor := moveFront c.hist.statusFor t
    hist.badpassFor := moveFront c.hist.badpassFor t }

/-- The profile at `trying` is the connected one. -/
def markConnected (c : Control) : Control :=
  let credit : Credit := ⟨c.profile c.conn.trying, c.hist.handed⟩
  { c.setStatus c.conn.trying .connected with
    conn.state := .stUp
    conn.fastTries := fastRetries
    conn.backoffMs := backoffMinMs
    hist.credits := c.hist.credits ++ [credit] }

/-- Newly proven credentials are saved. -/
def autoSave (c : Control) : Control :=
  if c.conn.credsUnsaved then { c.configSave.2 with conn.credsUnsaved := false } else c

/-- `joined`. -/
def joined (c : Control) : Control :=
  let t := c.conn.trying
  -- the list was edited while the radio was joining
  if c.profileCount ≤ t then { c with conn.state := .stUp, conn.fastTries := fastRetries }
  else
    let c := { c.clearConnected with cfg.active := t }
    -- the active profile follows the connection
    (if 0 < t then c.moveJoined t else c).markConnected.autoSave

/-! ### Entry points -/

/-- `wifi_conn_init`. -/
def wifiConnInit (c : Control) : Control :=
  let c := { c with conn.prof := fun _ => {} }.snapshotRssi
  if c.cfg.active < c.profileCount then c.pinActive
  else if 0 < c.profileCount then { c with conn.state := .stWait, conn.waitUntil := 0 }
  else { c with conn.state := .stIdle }

/-- `wifi_conn_apply`: the statuses are reset and the active profile, if there is one, is tried
now. -/
def wifiConnApply (c : Control) : Control :=
  let c := { c.call .apply with conn.prof := fun _ => {} }.snapshotRssi
  let c := { c with conn.backoffMs := backoffMinMs }.wifiLeave
  if c.cfg.active < c.profileCount then c.pinActive
  else { c with conn.state := .stWait, conn.waitUntil := c.env.now }

/-- `wifi_conn_mark_creds_unsaved`. -/
def markCredsUnsaved (c : Control) : Control := { c with conn.credsUnsaved := true }

/-- `wifi_conn_note_saved`. -/
def noteSaved (c : Control) : Control := { c with conn.credsUnsaved := false }

/-- `wifi_conn_request_scan`. -/
def wifiConnRequestScan (c : Control) : Control := { c with conn.scanRequested := true }

/-! ### The task -/

/-- All passes of a manager scan are in. -/
def scanDone (c : Control) : Control :=
  let c := { c.snapshotRssi with conn.scanDoneAt := c.env.now, conn.scanEver := true }
  -- a scan the portal asked for leaves the state machine alone
  if c.conn.state = .stScan then c.buildAndTry else c

/-- The next pass of a manager scan when the last is over. -/
def nextPass (c : Control) : Control :=
  let left := c.conn.scanPassesLeft - 1
  if left = 0 then { c with conn.scanPassesLeft := 0 }.scanDone
  else
    match c.wifiScanAgain with
    | (true, c) => { c with conn.scanPassesLeft := left }
    -- the radio refuses another pass: what was collected must do
    | (false, c) => { c with conn.scanPassesLeft := 0 }.scanDone

/-- The part of `wifi_conn_task` that drives a manager scan or starts a requested one. -/
def driveScan (c : Control) : Control :=
  if 0 < c.conn.scanPassesLeft then
    let c := c.wifiScanPoll.2
    -- a scan that the console stopped counts as done
    if c.scan.scanning then c else c.nextPass
  else if c.conn.scanRequested ∧ c.conn.state ≠ .stTry then
    let c := { c with conn.scanRequested := false }
    match c.wifiScanStart with
    | (true, c) =>
      { c with
        conn.scanPassesLeft := mgrScanPasses
        -- fresh results let a waiting manager join at once
        conn.state := if c.conn.state = .stWait then .stScan else c.conn.state }
    | (false, c) => c
  else c

/-- `ST_UP` without a link: rejoin directly a few times, then go through a cycle. -/
def linkLost (c : Control) : Control :=
  let c := c.clearConnected
  -- the access point may only have rebooted
  if 0 < c.conn.fastTries ∧ c.cfg.active < c.profileCount then
    { c with conn.fastTries := c.conn.fastTries - 1 }.pinActive
  else c.startCycle

/-- The attempt in flight is over; the next candidate is tried. -/
def nextCandidate (c : Control) : Control :=
  { c with conn.orderIx := c.conn.orderIx + 1 }.tryFrom

/-- The attempt in flight was rejected: its profile is marked, and the mark dated. -/
def markRejected (c : Control) : Control :=
  { c.setStatus c.conn.trying .badpass with
    conn.badpassAt := Function.update c.conn.badpassAt c.conn.trying c.env.now
    hist.badpassFor := Function.update c.hist.badpassFor c.conn.trying c.hist.handed }

/-- `ST_TRY` without a link. -/
def attempting (c : Control) : Control :=
  match c.env.linkStatus with
  | .badauth => c.markRejected.nextCandidate
  | .fail | .nonet => (c.setStatus c.conn.trying .nojoin).nextCandidate
  | _ =>
    if joinTimeoutMs ≤ c.env.now - c.conn.attemptAt then
      (c.setStatus c.conn.trying .nojoin).nextCandidate
    else c

/-- The state switch of `wifi_conn_task`. -/
def runState (c : Control) (link : Bool) : Control :=
  match c.conn.state with
  | .stUp => if link then c else c.linkLost
  | .stTry => if link then c.joined else c.attempting
  | .stScan => if link then c.joined else c
  | .stWait =>
    if link then c.joined
    else if (c.env.now - c.conn.waitUntil).toInt32 ≥ 0 then c.startCycle else c
  | .stIdle => if 0 < c.profileCount then c.startCycle else c

/-- `wifi_conn_task` past its rate limit. -/
def managerTick (c : Control) : Control :=
  let c := { c with conn.lastTick := c.env.now }.decayBadpass
  -- the console owns the radio while its scan view is open
  if c.ownsScan then c else c.driveScan.runState c.linkUp

/-- `wifi_conn_task`. -/
def wifiConnTask (c : Control) : Control :=
  if c.env.now - c.conn.lastTick < 100 then c else c.managerTick

end Control

end Molewire
