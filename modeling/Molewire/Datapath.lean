/-
# The datapath over whole runs

The access point of `ap.c`, the configuration step of `main.c`, and the runs of
the device that decide which routing states can occur: configurations applied
at any time, polls, resolver answers, leases and link changes, and packets that
move the NAT. Packets are routed in the states such runs reach.
-/

import Molewire.Library.Transition
import Molewire.Wg

namespace Molewire

open ByteBuffer Transition

namespace Device

/-! ### Access point -/

/-- `ap_teardown`: the interface stays in the list, down and without an address. -/
def apTeardown (d : Device) : Device :=
  { d with
    stack := ((d.stack.setLink .ap false).setUp .ap false).setAddr .ap Ip4.any Ip4.any
    ap := { d.ap with up := false } }

/-- What the radio driver does to enable the access point: the interface is added anew with a
default address, brought up and made the default interface. -/
def enableApMode (s : Stack) : Stack :=
  let s := (s.remove .ap).add .ap ⟨192, 168, 4, 1⟩ ⟨255, 255, 255, 0⟩
  (s.setDefault (some .ap)).setUp .ap true

/-- The bring-up part of `ap_apply`: re-address, and give the default interface back to the tunnel
or the station. -/
def apBringUp (d : Device) (cfg : Config) (dns : Ip4) (mtu : UInt16) : Device :=
  let stack := (enableApMode d.stack).setAddr .ap cfg.ap.addr (Ip4.prefixMask cfg.ap.plen.toNat)
  { d with
    stack := stack.setDefault (if d.wgSessionUp ∧ d.wg.netifAdded then some .wg else some .sta)
    ap := { up := true, applied := cfg.ap, appliedDns := dns, appliedMtu := mtu } }

/-- The MTU the access point hands out. -/
def apMtu (cfg : Config) : UInt16 :=
  if cfg.wg.hostMtu ≠ 0 then cfg.wg.hostMtu else wireguardifMtu

/-- `ap_apply`: nothing when nothing it uses changed, otherwise from scratch. -/
def apApply (d : Device) (cfg : Config) : Device :=
  let want := cfg.ap.enabled && configApComplete cfg
  let dns := cfg.wg.dns
  let mtu := apMtu cfg
  -- a running access point is not restarted for an edit it does not use
  if d.ap.up ∧ want ∧ d.ap.applied = cfg.ap ∧ d.ap.appliedDns = dns ∧ d.ap.appliedMtu = mtu then d
  else
    let d := if d.ap.up then d.apTeardown else d
    if want then d.apBringUp cfg dns mtu else d

/-! ### Configuration -/

/-- `usb_net_set_addr`. -/
def usbNetSetAddr (d : Device) (addr : Ip4) (plen : UInt8) : Device :=
  -- no address, no subnet
  let mask := Ip4.prefixMask (if addr = Ip4.any then 0 else plen.toNat)
  { d with stack := d.stack.setAddr .usb addr mask }

/-- `BRINGUP_DEV_ADDR`. -/
def bringupDevAddr : Ip4 := ⟨172, 31, 255, 1⟩

/-- `apply_wg` of `main.c`, with the answers `wg_apply` gets. -/
def applyWg (d : Device) (cfg : Config) (literal : Option Ip4) (added : Bool) : Device :=
  let d :=
    if configWgComplete cfg then d.usbNetSetAddr cfg.wg.addr cfg.wg.plen
    else d.usbNetSetAddr bringupDevAddr 30
  (d.wgApply cfg literal added).apApply cfg

/-- The interfaces after the start of `main`: the station, then the USB link on top. -/
def boot (cfg : Config) : Device :=
  let s : Stack := {}
  let s := ((s.add .sta Ip4.any Ip4.any).setDefault (some .sta)).setUp .sta true
  let mask := Ip4.prefixMask (if cfg.wg.addr = Ip4.any then 0 else cfg.wg.plen.toNat)
  let s := ((s.add .usb cfg.wg.addr mask).setUp .usb true).setLink .usb true
  { stack := s }

/-! ### Runs -/

/-- What can happen to the datapath. -/
inductive Event
  | applyWg (cfg : Config) (literal : Option Ip4) (added : Bool)
  | apApply (cfg : Config)
  | wgPoll (now : UInt32) (ans : PollAnswers)
  | dnsResolved (answer : Option Ip4)
  | lease (addr mask : Ip4)
  | link (i : NetifId) (linkUp : Bool)
  | input (inp : NetifId) (pkt : Bytes) (now : UInt32)
  | staOutput (pkt : Bytes) (now : UInt32)

/-- One event. A lease is the station's. -/
def step (d : Device) : Event → Device
  | .applyWg cfg literal added => d.applyWg cfg literal added
  | .apApply cfg => d.apApply cfg
  | .wgPoll now ans => d.wgPoll now ans
  | .dnsResolved answer => d.dnsResolvedCb answer
  | .lease addr mask => { d with stack := d.stack.setAddr .sta addr mask }
  | .link i linkUp => { d with stack := d.stack.setLink i linkUp }
  | .input inp pkt now => { d with napt := (d.wgIp4InputHook inp pkt now).napt }
  | .staOutput pkt now => (d.staOutput pkt now).1

/-- The runs from the start, under any stored configuration. -/
def Reachable (d : Device) : Prop :=
  Reach (fun d => ∃ cfg, d = boot cfg) (fun _ _ => True) step d

/-- Any sequence of events leads on. -/
theorem Reachable.run {d : Device} (hd : d.Reachable) (events : List Event) :
    Reachable (events.foldl step d) := by
  induction events generalizing d with
  | nil => exact hd
  | cons e rest ih => exact ih (hd.step trivial)

/-- Any sequence of events from a stored configuration reaches its end. -/
theorem reachable_run (cfg : Config) (events : List Event) :
    Reachable (events.foldl step (boot cfg)) :=
  Reachable.run (.start ⟨cfg, rfl⟩) events

/-! ### A provisioned device -/

/-- A complete tunnel and access point, each on a four-address subnet. -/
def provisionedConfig : Config where
  wg := {
    privateKey := List.replicate 43 65 ++ [61]
    peerPublic := List.replicate 43 66 ++ [61]
    endpoint := ascii "192.0.2.1"
    endpointPort := 51820
    addr := ⟨10, 7, 0, 1⟩
    hostAddr := ⟨10, 7, 0, 2⟩
    plen := 30 }
  ap := {
    addr := ⟨10, 7, 1, 1⟩
    clientAddr := ⟨10, 7, 1, 2⟩
    plen := 30
    enabled := true
    ssid := ascii "quarantine"
    password := ascii "correct horse" }

/-- The device after it was provisioned and got a lease from the uplink. -/
def provisioned : Device :=
  [.applyWg provisionedConfig (some ⟨192, 0, 2, 1⟩) true,
    .lease ⟨192, 168, 1, 66⟩ ⟨255, 255, 255, 0⟩, .link .sta true,
    .link .ap true].foldl step (boot {})

theorem provisioned_reachable : provisioned.Reachable := reachable_run {} _

/-! ### Forwarding -/

/-- A packet that lwIP forwards: it came in on an interface in the list with a source the input
accepts, and is not addressed to the device. -/
structure Forwarded (d : Device) (inp : NetifId) (pkt : Bytes) : Prop where
  listed : inp ∈ d.stack.list
  source : ¬d.stack.isBroadcast (ipSrc pkt) inp ∧ ¬(ipSrc pkt).isMulticast
  dest : ¬d.isOwnAddr (ipDst pkt)

instance (d : Device) (inp : NetifId) (pkt : Bytes) : Decidable (d.Forwarded inp pkt) :=
  decidable_of_iff (inp ∈ d.stack.list ∧
    (¬d.stack.isBroadcast (ipSrc pkt) inp ∧ ¬(ipSrc pkt).isMulticast) ∧
      ¬d.isOwnAddr (ipDst pkt))
    ⟨fun h => ⟨h.1, h.2.1, h.2.2⟩, fun h => ⟨h.listed, h.source, h.dest⟩⟩

/-- The interface a forwarded packet is sent out of, if there is a route. -/
def egress (d : Device) (inp : NetifId) (pkt : Bytes) : Option NetifId :=
  d.route inp (ipSrc pkt) (ipDst pkt)

theorem Forwarded.source_ne_any {d : Device} {inp : NetifId} {pkt : Bytes}
    (h : d.Forwarded inp pkt) : ipSrc pkt ≠ Ip4.any := by
  intro hany
  apply h.source.1
  simp [Stack.isBroadcast, hany]

/-- One of the device's own addresses as source: only the ordinary lookup decides. -/
theorem egress_of_own {d : Device} {inp : NetifId} {pkt : Bytes}
    (hown : d.isOwnAddr (ipSrc pkt)) : d.egress inp pkt = d.stack.ip4Route (ipDst pkt) := by
  simp [egress, route, wgIp4RouteHook, hown]

/-- Any other source: the hook decides alone. -/
theorem egress_of_not_own {d : Device} {inp : NetifId} {pkt : Bytes}
    (h : d.Forwarded inp pkt) (hown : ¬d.isOwnAddr (ipSrc pkt)) :
    d.egress inp pkt =
      if d.inUsbSubnet (ipDst pkt) then
        if d.inApSubnet (ipSrc pkt) then some .blackhole else some .usb
      else if d.inApSubnet (ipDst pkt) then
        if d.inUsbSubnet (ipSrc pkt) then some .blackhole else some .ap
      else if d.wg.exitOn ∧ d.wg.netifAdded ∧ inp = .wg then
        if !d.wg.exitLanOn ∧ d.destIsLocalScope (ipDst pkt) then some .blackhole
        else if d.wg.staNetif then some .sta else some .blackhole
      else if d.wg.netifAdded then some .wg
      else some .blackhole := by
  -- the subnet of the access point counts only while it is up
  have hap : d.inApSubnet (ipDst pkt) → d.apActiveNetif = some .ap := by
    intro hin
    unfold inApSubnet at hin
    unfold apActiveNetif
    split_ifs at hin ⊢ with h1 h2 <;> simp_all
  simp only [egress, route, wgIp4RouteHook, h.source_ne_any, hown, false_or]
  split_ifs <;> simp_all

end Device

end Molewire
