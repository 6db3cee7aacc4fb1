/-
# The control plane's state

The statics of `wifi_scan.c`, `wifi_conn.c`, `config_proto.c` and
`serial_console.c` in one record, with the configuration they share, the record
in flash and what the hardware answers in the course of an event. A history is
kept beside them: which credentials the radio last took, for which profile each
runtime status was recorded, and whom every successful join was credited to.
-/

import Molewire.CString
import Molewire.WifiPick
import Molewire.WifiScan

namespace Molewire

open ByteBuffer

/-! ### Surroundings -/

/-- What is fixed when the firmware is built: `wifi_config.h`, the address parser of lwIP, and the
public key of a private one, which X25519 refuses for some. -/
structure Board where
  wifiSsid : CStr
  wifiPassword : CStr
  wifiCountry : UInt32
  aton : CStr → Option Ip4
  publicKey : Bytes → Option Bytes

/-- `cyw43_wifi_link_status`. -/
inductive LinkStatus
  | down | join | noip | up | fail | nonet | badauth
  deriving DecidableEq, Repr

/-- What the hardware answers during one event. A list holds the answers to the calls in the order
they are made; a call past its end is refused. -/
structure Env where
  now : UInt32 := 0
  link : Bool := false
  linkStatus : LinkStatus := .down
  connects : List Bool := []
  scans : List Bool := []
  scanActive : Bool := false
  flashes : List Bool := []
  random : List Bytes := []
  deriving DecidableEq, Repr

/-- What is called outside the control plane. -/
inductive Call
  | wifiLeave
  | wifiConnect (p : WifiProfile)
  | wifiScan
  | apply
  | applyWg (cfg : Config)
  | applyAp (cfg : Config)
  | pcapSetEnabled (on : Bool)
  | pcapClear
  | reboot
  | bootsel
  deriving DecidableEq, Repr

/-- What is printed to the client: a text, or one of the views of the state. -/
inductive Reply
  | text (s : String)
  | key (s : CStr)
  | dump
  | profiles
  | networks (shown : List ScanEntry)
  | stream (shown : List ScanEntry)
  deriving DecidableEq, Repr

/-! ### Statics -/

/-- The menu, `g_mode`. -/
inductive Mode
  | main | scan | contscan
  deriving DecidableEq, Repr

/-- The statics of `config_proto.c`. -/
structure Proto where
  mode : Mode := .main
  scanRounds : Nat := 0
  deriving DecidableEq, Repr

/-- `state` of `wifi_conn.c`. -/
inductive ConnState
  | stIdle | stScan | stTry | stWait | stUp
  deriving DecidableEq, Repr

/-- `BACKOFF_MIN_MS`. -/
def backoffMinMs : UInt32 := 8000

/-- The statics of `wifi_conn.c`. The length of `order` is `order_n`. -/
structure WifiConn where
  state : ConnState := .stIdle
  prof : Nat → ProfState := fun _ => {}
  badpassAt : Nat → UInt32 := fun _ => 0
  order : List Nat := []
  orderIx : Nat := 0
  trying : Nat := 0
  rrUnseen : UInt8 := 0
  fastTries : Nat := 0
  attemptAt : UInt32 := 0
  waitUntil : UInt32 := 0
  backoffMs : UInt32 := backoffMinMs
  scanPassesLeft : Nat := 0
  scanDoneAt : UInt32 := 0
  scanEver : Bool := false
  scanRequested : Bool := false
  credsUnsaved : Bool := false
  lastTick : UInt32 := 0

/-- The statics of `serial_console.c`. -/
structure Console where
  lineBuf : Bytes := []
  wasConnected : Bool := false
  deriving DecidableEq, Repr

/-- A join that succeeded: the profile it was credited to and the credentials the radio had last
accepted. -/
structure Credit where
  profile : WifiProfile
  handed : Option WifiProfile
  deriving DecidableEq, Repr

/-- What happened so far, for the results to refer to. Nothing in the program reads it. -/
structure History where
  handed : Option WifiProfile := none
  statusFor : Nat → Option WifiProfile := fun _ => none
  badpassFor : Nat → Option WifiProfile := fun _ => none
  credits : List Credit := []

structure Control where
  cfg : Config
  flash : Option Config
  env : Env := {}
  scan : Scan := {}
  conn : WifiConn := {}
  proto : Proto := {}
  console : Console := {}
  hist : History := {}
  calls : List Call := []
  out : List Reply := []
  halted : Bool := false

namespace Control

/-- `profile_count`. -/
def profileCount (c : Control) : Nat := c.cfg.profiles.entries.length

/-- `profiles[i]`. The array past the count is not modelled; `Attributed.candidates` says that it
is not read. -/
def profile (c : Control) (i : Nat) : WifiProfile := c.cfg.profiles.entries.getD i ⟨[], []⟩

/-! ### Output and calls -/

@[simp] def reply (c : Control) (r : Reply) : Control := { c with out := c.out ++ [r] }

@[simp] def say (c : Control) (s : String) : Control := c.reply (.text s)

@[simp] def call (c : Control) (k : Call) : Control := { c with calls := c.calls ++ [k] }

/-- `cyw43_wifi_leave`. -/
@[simp] def wifiLeave (c : Control) : Control := c.call .wifiLeave

/-- `netif_is_link_up`. The station has a link only once the radio has taken a join. -/
def linkUp (c : Control) : Bool := c.env.link && c.hist.handed.isSome

/-- `cyw43_arch_wifi_connect_async(..) == 0`. -/
def connectAsync (c : Control) (p : WifiProfile) : Bool × Control :=
  let c' := { c.call (.wifiConnect p) with env.connects := c.env.connects.tail }
  if c.env.connects.head? = some true then (true, { c' with hist.handed := some p })
  else (false, c')

/-- `cyw43_wifi_scan(..) == 0`. -/
def cyw43WifiScan (c : Control) : Bool × Control :=
  (c.env.scans.head? = some true, { c.call .wifiScan with env.scans := c.env.scans.tail })

/-! ### Scans -/

/-- The common end of `wifi_scan_start` and `wifi_scan_again`. -/
def scanPass (c : Control) : Bool × Control :=
  match c.cyw43WifiScan with
  | (true, c) => (true, { c with scan.scanning := true })
  | (false, c) => (false, c)

/-- `wifi_scan_start`. -/
def wifiScanStart (c : Control) : Bool × Control :=
  if c.scan.scanning then (true, c)
  else
    let c := { c with scan.resultCount := 0 }
    -- a join that is stuck would block the scan; a healthy association survives it
    (if c.linkUp then c else c.wifiLeave).scanPass

/-- `wifi_scan_again`. -/
def wifiScanAgain (c : Control) : Bool × Control :=
  if c.scan.scanning then (true, c) else c.scanPass

/-- `wifi_scan_poll`. -/
def wifiScanPoll (c : Control) : Bool × Control :=
  ((c.scan.poll c.env.scanActive).1, { c with scan := (c.scan.poll c.env.scanActive).2 })

/-- `config_proto_owns_scan`. -/
def ownsScan (c : Control) : Bool := 0 < c.proto.scanRounds || c.proto.mode != .main

/-! ### Flash -/

/-- `config_defaults`. -/
def configDefaults (board : Board) : Config :=
  let entry : WifiProfile :=
    ⟨board.wifiSsid.take (configSsidMax - 1), board.wifiPassword.take (configPassMax - 1)⟩
  if board.wifiSsid = [] then { country := board.wifiCountry }
  else
    { country := board.wifiCountry
      profiles := ⟨[entry], by simp [configProfileMax]⟩
      active := 0 }

/-- `config_load`. -/
def configLoad (board : Board) (c : Control) : Control :=
  { c with cfg := c.flash.getD (configDefaults board) }

/-- `config_save`. -/
def configSave (c : Control) : Bool × Control :=
  let c' := { c with env.flashes := c.env.flashes.tail }
  if c.env.flashes.head? = some true then (true, { c' with flash := some c.cfg }) else (false, c')

end Control

end Molewire
