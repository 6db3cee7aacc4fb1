/-
# Tunnel, route hook and exit mode

`wg.c` over the state the datapath shares. The route hook decides from the
addresses of a packet and, for exit mode, from the interface it came in on; the
wrapper around the station's output masquerades what the hook sends there. The
lifecycle functions take the answers of the WireGuard device and of the
resolver as arguments.
-/

import Molewire.Config
import Molewire.Napt
import Molewire.Netif

namespace Molewire

open ByteBuffer

/-! ### State -/

/-- `wg_state`. -/
inductive WgPhase | unconfigured | resolving | handshaking | up
  deriving DecidableEq, Repr

/-- The statics of `wg.c`. `staNetif` says that the station pointer is set, `wrapped` that the
station's output is `exit_sta_output`, `peer` that the peer index is valid. -/
structure Wg where
  netifAdded : Bool := false
  peer : Bool := false
  staNetif : Bool := false
  wgc : WgConfig := {}
  configured : Bool := false
  exitOn : Bool := false
  exitLanOn : Bool := false
  wrapped : Bool := false
  state : WgPhase := .unconfigured
  endpointAddr : Ip4 := Ip4.any
  endpointResolved : Bool := false
  lastKickMs : UInt32 := 0
  lastResolveMs : UInt32 := 0

/-- The statics of `ap.c`. -/
structure Ap where
  up : Bool := false
  applied : ApConfig := {}
  appliedDns : Ip4 := Ip4.any
  appliedMtu : UInt16 := 0

/-- The state of the datapath. -/
structure Device where
  stack : Stack := {}
  wg : Wg := {}
  ap : Ap := {}
  napt : Napt := {}

namespace Device

/-! ### The route hook -/

/-- `ap_active_netif`. -/
def apActiveNetif (d : Device) : Option NetifId := if d.ap.up then some .ap else none

/-- `in_usb_subnet`. -/
def inUsbSubnet (d : Device) (a : Ip4) : Bool :=
  if (d.stack.netif .usb).addr = Ip4.any then false else (d.stack.netif .usb).onLink a

/-- `in_ap_subnet`. -/
def inApSubnet (d : Device) (a : Ip4) : Bool :=
  if !d.ap.up || (d.stack.netif .ap).addr = Ip4.any then false
  else (d.stack.netif .ap).onLink a

/-- `dest_is_local_scope`: private, shared and link-local space, and the station's own subnet. -/
def destIsLocalScope (d : Device) (a : Ip4) : Bool :=
  let h := a.toUInt32
  if h >>> 24 = 10 ∨ h >>> 24 = 127 ∨ h &&& 0xFFF00000 = 0xAC100000 ∨
      h &&& 0xFFFF0000 = 0xC0A80000 ∨ h &&& 0xFFFF0000 = 0xA9FE0000 ∨
      h &&& 0xFFC00000 = 0x64400000 then true
  else d.wg.staNetif && (d.stack.netif .sta).addr != Ip4.any && (d.stack.netif .sta).onLink a

/-- `is_own_addr`: the address of some interface in the list. -/
def isOwnAddr (d : Device) (a : Ip4) : Bool :=
  d.stack.list.any fun i => (d.stack.netif i).addr != Ip4.any && a == (d.stack.netif i).addr

/-- `wg_ip4_route_hook` while a packet from `inp` is processed. No result leaves the packet to the
ordinary lookup. -/
def wgIp4RouteHook (d : Device) (inp : NetifId) (src : Option Ip4) (dest : Ip4) :
    Option NetifId :=
  match src with
  | none => none
  | some src =>
    if src = Ip4.any ∨ d.isOwnAddr src then none
    else if d.inUsbSubnet dest then
      if d.inApSubnet src then some .blackhole else some .usb
    else if d.inApSubnet dest then
      if d.inUsbSubnet src then some .blackhole else d.apActiveNetif
    -- only what was decrypted on the tunnel may leave through the station
    else if d.wg.exitOn ∧ d.wg.netifAdded ∧ inp = .wg then
      if !d.wg.exitLanOn ∧ d.destIsLocalScope dest then some .blackhole
      else if d.wg.staNetif then some .sta else some .blackhole
    -- everything else goes into the tunnel, or nowhere
    else if d.wg.netifAdded then some .wg
    else some .blackhole

/-- `ip4_route_src`: the hook first, then the ordinary lookup. -/
def route (d : Device) (inp : NetifId) (src dest : Ip4) : Option NetifId :=
  (d.wgIp4RouteHook inp (some src) dest).or (d.stack.ip4Route dest)

/-! ### Exit mode -/

/-- A packet handed to the station's original output, and whether `napt_outbound` translated it. -/
structure StaSent where
  pkt : Bytes
  translated : Bool
  deriving DecidableEq, Repr

/-- `exit_sta_output` on a packet whose first buffer is `pkt`. -/
def exitStaOutput (d : Device) (pkt : Bytes) (now : UInt32) : Device × Option StaSent :=
  -- the device itself speaks from its own addresses and is not translated
  if d.wg.exitOn ∧ 20 ≤ pkt.length ∧ ipVersion pkt = 4 ∧ ipSrc pkt ≠ Ip4.any ∧
      !d.isOwnAddr (ipSrc pkt) then
    let res := naptOutbound d.napt pkt pkt.length now
    if res.translated then ({ d with napt := res.napt }, some ⟨res.pkt, true⟩)
    else ({ d with napt := res.napt }, none)
  else (d, some ⟨pkt, false⟩)

/-- The station's output, wrapped once a tunnel configuration has been applied. -/
def staOutput (d : Device) (pkt : Bytes) (now : UInt32) : Device × Option StaSent :=
  if d.wg.wrapped then d.exitStaOutput pkt now else (d, some ⟨pkt, false⟩)

/-- `wg_ip4_input_hook`: a station packet that matches a mapping is readdressed in place. -/
def wgIp4InputHook (d : Device) (inp : NetifId) (pkt : Bytes) (now : UInt32) : NaptResult :=
  if d.wg.exitOn ∧ inp = .sta ∧ d.wg.staNetif then naptInbound d.napt pkt pkt.length now
  else ⟨false, d.napt, pkt⟩

/-! ### Lifecycle -/

/-- `wg_teardown`. -/
def wgTeardown (d : Device) : Device :=
  let stack :=
    if d.wg.netifAdded then
      let stack :=
        if d.stack.default = some .wg then
          d.stack.setDefault (if d.wg.staNetif then some .sta else none)
        else d.stack
      stack.remove .wg
    else d.stack
  { d with
    stack := stack
    wg := { d.wg with
      netifAdded := false
      -- the peer goes with the interface
      peer := if d.wg.netifAdded then false else d.wg.peer
      state := .unconfigured
      endpointResolved := false
      exitOn := false
      exitLanOn := false }
    napt := naptReset d.napt }

/-- `wg_add_peer_and_connect`, given whether the WireGuard device accepts the peer and whether it
gives it an index. A peer that is refused for its key still gets one. -/
def wgAddPeerAndConnect (d : Device) (accepted indexed : Bool) (now : UInt32) : Device :=
  { d with wg := { d.wg with
      peer := indexed
      state := if accepted && indexed then .handshaking else .unconfigured
      lastKickMs := now } }

/-- `dns_resolved_cb`. -/
def dnsResolvedCb (d : Device) (answer : Option Ip4) : Device :=
  match answer with
  | none => d
  | some a => { d with wg := { d.wg with endpointAddr := a, endpointResolved := true } }

/-- The MTU exit-mode TCP is clamped for. -/
def exitMtu (w : WgConfig) : UInt16 :=
  if w.hostMtu ≠ 0 ∧ w.hostMtu < wireguardifMtu then w.hostMtu else wireguardifMtu

/-- The exit-mode part of `wg_apply`. -/
def startExit (d : Device) : Device :=
  if d.wg.wgc.exitEnabled then
    let napt := naptSetMssClamp d.napt (exitMtu d.wg.wgc - 40)
    { d with
      napt := naptSetExtIp napt (d.stack.netif .sta).addr
      wg := { d.wg with exitLanOn := d.wg.wgc.exitLan, exitOn := true } }
  else d

/-- The last part of `wg_apply`, given whether `netif_add` succeeds. -/
def addTunnel (d : Device) (added : Bool) : Device :=
  if added then
    { d with
      stack := (d.stack.add .wg d.wg.wgc.addr ⟨255, 255, 255, 255⟩).setUp .wg true
      wg := { d.wg with netifAdded := true, state := .resolving } }
  else d

/-- `wg_apply` with the station present: tear down, wrap the station's output, and with a complete
configuration bring the tunnel interface up again. `literal` is the endpoint read as an address. -/
def wgApply (d : Device) (cfg : Config) (literal : Option Ip4) (added : Bool) : Device :=
  let d := wgTeardown { d with wg := { d.wg with staNetif := true } }
  let d := { d with wg := { d.wg with wrapped := true, configured := configWgComplete cfg } }
  if configWgComplete cfg then
    let d := { d with wg := { d.wg with wgc := cfg.wg } }
    (d.startExit.dnsResolvedCb literal).addTunnel added
  else d

/-- What `wg_poll` learns when it asks: the resolver's cached answer, whether the peer is
accepted, whether its session is up, and whether it got an index. -/
structure PollAnswers where
  cached : Option Ip4
  accepted : Bool
  sessionUp : Bool
  indexed : Bool

/-- The masquerade address follows the station's lease. -/
def refreshExt (d : Device) : Device :=
  if d.wg.exitOn then { d with napt := naptSetExtIp d.napt (d.stack.netif .sta).addr } else d

/-- The resolving state of `wg_poll`: ask at most every 15 seconds, connect once resolved. -/
def pollResolving (d : Device) (now : UInt32) (ans : PollAnswers) : Device :=
  let d :=
    if !d.wg.endpointResolved ∧
        (15000 ≤ now - d.wg.lastResolveMs ∨ d.wg.lastResolveMs = 0) then
      dnsResolvedCb { d with wg := { d.wg with lastResolveMs := now } } ans.cached
    else d
  if d.wg.endpointResolved then d.wgAddPeerAndConnect ans.accepted ans.indexed now else d

/-- Session monitoring: the default interface follows the session, and a quiet handshake is
kicked every ten seconds. -/
def pollSession (d : Device) (now : UInt32) (ans : PollAnswers) : Device :=
  let up := d.wg.peer && ans.sessionUp
  if up ∧ d.wg.state ≠ .up then
    { d with wg := { d.wg with state := .up }, stack := d.stack.setDefault (some .wg) }
  else if !up ∧ d.wg.state = .up then
    { d with
      wg := { d.wg with state := .handshaking, lastKickMs := now }
      stack := d.stack.setDefault (some .sta) }
  else if !up ∧ 10000 ≤ now - d.wg.lastKickMs then
    { d with wg := { d.wg with lastKickMs := now } }
  else d

/-- `wg_poll`: nothing without a tunnel interface or while the station has no link. -/
def wgPoll (d : Device) (now : UInt32) (ans : PollAnswers) : Device :=
  if !d.wg.configured || !d.wg.netifAdded then d
  else if !d.wg.staNetif || !(d.stack.netif .sta).linkUp then d
  else if d.wg.state = .resolving then d.refreshExt.pollResolving now ans
  else d.refreshExt.pollSession now ans

/-- `wg_session_up`. -/
def wgSessionUp (d : Device) : Bool := d.wg.state == .up

end Device

end Molewire
