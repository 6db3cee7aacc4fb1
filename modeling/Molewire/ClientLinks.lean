/-
# The client links

What `apply_wg` of `main.c` and `ap.c` set up for the USB host and for the
client of the access point: the interfaces of the datapath, a DHCP scope on
each link, and the network the radio announces. A configuration can be applied
at any time, between packets, polls, leases and DHCP requests.
-/

import Molewire.ConfigDomain
import Molewire.Datapath
import Molewire.DhcpReplies

namespace Molewire

open ByteBuffer Transition

/-- The network of `cyw43_arch_enable_ap_mode`, always with `CYW43_AUTH_WPA2_AES_PSK`. -/
structure ApNetwork where
  ssid : CStr
  password : CStr
  deriving DecidableEq, Repr

/-- The datapath with the DHCP server and the network on the air. -/
structure Links where
  device : Device := {}
  dhcp : Dhcp := fun _ => {}
  network : Option ApNetwork := none

namespace Links

/-- `netif_ip4_addr`. -/
def addrOf (w : Links) (i : NetifId) : Ip4 := (w.device.stack.netif i).addr

/-- A scope started anew. -/
def startScope (w : Links) (l : DhcpLink) (s : DhcpScope) : Links :=
  { w with dhcp := Function.update w.dhcp l s }

/-! ### Access point -/

/-- `ap_teardown`. -/
def apTeardown (w : Links) : Links :=
  { w with device := w.device.apTeardown, network := none }.startScope .ap
    (dhcpServerStart .ap {})

/-- The lease of the one client. It is always in gateway mode. -/
def apLease (cfg : Config) : DhcpLease where
  hostAddr := cfg.ap.clientAddr
  plen := cfg.ap.plen
  dns := cfg.wg.dns
  mtu := Device.apMtu cfg

/-- The bring-up part of `ap_apply`. -/
def apBringUp (w : Links) (cfg : Config) : Links :=
  { w with
    device := w.device.apBringUp cfg cfg.wg.dns (Device.apMtu cfg)
    network := some ⟨cfg.ap.ssid, cfg.ap.password⟩ }.startScope .ap
      (dhcpServerStart .ap (apLease cfg))

/-- Whether `ap_apply` has anything to bring up. -/
def apWanted (cfg : Config) : Bool := cfg.ap.enabled && configApComplete cfg

/-- `ap_apply`. `stale` says that the two records differ behind a terminating zero, which `memcmp`
sees. -/
def apApply (w : Links) (cfg : Config) (stale : Bool) : Links :=
  if w.device.ap.up ∧ apWanted cfg ∧ (w.device.ap.applied = cfg.ap ∧ ¬stale) ∧
      w.device.ap.appliedDns = cfg.wg.dns ∧ w.device.ap.appliedMtu = Device.apMtu cfg then w
  else
    let w := if w.device.ap.up then w.apTeardown else w
    if apWanted cfg then w.apBringUp cfg else w

/-! ### USB link -/

/-- `BRINGUP_HOST_ADDR`. -/
def bringupHostAddr : Ip4 := ⟨172, 31, 255, 2⟩

/-- The host's lease: the tunnel's, or the bring-up island while the tunnel is not configured. -/
def usbLease (cfg : Config) : DhcpLease :=
  if configWgComplete cfg then
    { hostAddr := cfg.wg.hostAddr
      plen := cfg.wg.plen
      dns := cfg.wg.dns
      mtu := Device.apMtu cfg
      routes := cfg.wg.routes }
  else { hostAddr := bringupHostAddr, plen := 30, mtu := 1500, linkOnly := true }

/-- `apply_wg` of `main.c`. -/
def applyWg (w : Links) (cfg : Config) (literal : Option Ip4) (added stale : Bool) : Links :=
  let device :=
    if configWgComplete cfg then w.device.usbNetSetAddr cfg.wg.addr cfg.wg.plen
    else w.device.usbNetSetAddr Device.bringupDevAddr 30
  let w := { w with device := device }.startScope .usb (dhcpServerStart .usb (usbLease cfg))
  { w with device := w.device.wgApply cfg literal added }.apApply cfg stale

/-! ### Requests -/

/-- A datagram for the DHCP server. A read outside of it would leave the state undefined; there is
none. -/
def recv (w : Links) (inp : NetifId) (allocated : Bool) (data : Bytes) : Links :=
  match dhcpRecv w.dhcp w.addrOf inp allocated data with
  | .ok (dhcp, _) => { w with dhcp := dhcp }
  | .error _ => w

end Links

/-! ### Runs -/

/-- What can happen to the datapath between two configurations. -/
def Device.Event.quiet : Device.Event → Prop
  | .applyWg _ _ _ => False
  | .apApply _ => False
  | _ => True

/-- What can happen to the client links. -/
inductive LinksEvent
  | applyWg (cfg : Config) (literal : Option Ip4) (added stale : Bool)
  | apApply (cfg : Config) (stale : Bool)
  | device (e : Device.Event)
  | recv (inp : NetifId) (allocated : Bool) (data : Bytes)

namespace Links

def step (w : Links) : LinksEvent → Links
  | .applyWg cfg literal added stale => w.applyWg cfg literal added stale
  | .apApply cfg stale => w.apApply cfg stale
  | .device e => { w with device := w.device.step e }
  | .recv inp allocated data => w.recv inp allocated data

/-- The configurations that are applied satisfy `P`, and nothing else changes one. -/
def Admits (P : Config → Prop) (_ : Links) : LinksEvent → Prop
  | .applyWg cfg _ _ _ => P cfg
  | .apApply cfg _ => P cfg
  | .device e => e.quiet
  | .recv _ _ _ => True

/-- The start of `main`. -/
def boot (cfg : Config) : Links := { device := Device.boot cfg }

/-- The runs from the start, under any stored configuration. -/
def Reached (P : Config → Prop) (w : Links) : Prop :=
  Reach (fun w => ∃ cfg, w = boot cfg) (Admits P) step w

/-! ### Requests leave the links alone -/

/-- A request changes at most whether a lease has been taken. -/
theorem dhcpRecv_scopes (d : Dhcp) (addrOf : NetifId → Ip4) (inp : NetifId) (allocated : Bool)
    (data : Bytes) :
    ∃ r, dhcpRecv d addrOf inp allocated data = .ok r ∧
      ∀ l, { r.1 l with leased := false } = { d l with leased := false } := by
  unfold dhcpRecv
  cases scopeFor d inp with
  | none => exact ⟨_, rfl, fun _ => rfl⟩
  | some l =>
    obtain ⟨⟨s, reply⟩, heq, hrecv⟩ := scopeRecv_spec (d l) (addrOf inp) allocated data
    simp only [heq, bind, Except.bind]
    refine ⟨_, rfl, fun l' => ?_⟩
    by_cases hl : l' = l
    · subst hl
      simpa using hrecv.scope
    · simp [hl]

theorem recv_cases (w : Links) (inp : NetifId) (allocated : Bool) (data : Bytes) :
    ∃ dhcp, w.recv inp allocated data = { w with dhcp := dhcp } ∧
      ∀ l, { dhcp l with leased := false } = { w.dhcp l with leased := false } := by
  obtain ⟨⟨dhcp, reply⟩, heq, hscopes⟩ := dhcpRecv_scopes w.dhcp w.addrOf inp allocated data
  exact ⟨dhcp, by rw [recv, heq], hscopes⟩

/-! ### The datapath of the links -/

variable {w : Links} {cfg : Config}

@[simp] theorem startScope_device (l : DhcpLink) (s : DhcpScope) :
    (w.startScope l s).device = w.device := rfl

@[simp] theorem startScope_network (l : DhcpLink) (s : DhcpScope) :
    (w.startScope l s).network = w.network := rfl

@[simp] theorem startScope_dhcp (l : DhcpLink) (s : DhcpScope) :
    (w.startScope l s).dhcp = Function.update w.dhcp l s := rfl

@[simp] theorem apTeardown_device : w.apTeardown.device = w.device.apTeardown := rfl

@[simp] theorem apBringUp_device :
    (w.apBringUp cfg).device = w.device.apBringUp cfg cfg.wg.dns (Device.apMtu cfg) := rfl

@[simp] theorem recv_device (inp : NetifId) (allocated : Bool) (data : Bytes) :
    (w.recv inp allocated data).device = w.device := by
  unfold recv
  split <;> rfl

/-- A configuration that switches the access point off. -/
def apOff (cfg : Config) : Config := { cfg with ap := { cfg.ap with enabled := false } }

theorem apApply_apOff {d : Device} (hup : d.ap.up) (cfg : Config) :
    d.apApply (apOff cfg) = d.apTeardown := by
  simp [Device.apApply, apOff, hup]

/-- On the datapath one call does what one event of it does, or three: nothing, down and up
again. -/
theorem apApply_device (w : Links) (cfg : Config) (stale : Bool) :
    (w.apApply cfg stale).device = w.device.apApply cfg ∨
      (w.apApply cfg stale).device =
        ((w.device.apApply cfg).apApply (apOff cfg)).apApply cfg := by
  by_cases hsame : w.device.ap.up ∧ apWanted cfg ∧ w.device.ap.applied = cfg.ap ∧
      w.device.ap.appliedDns = cfg.wg.dns ∧ w.device.ap.appliedMtu = Device.apMtu cfg
  · have hkeep : w.device.apApply cfg = w.device := if_pos hsame
    cases stale with
    | false =>
      left
      rw [hkeep, apApply, if_pos (by simpa using hsame)]
    | true =>
      -- `memcmp` saw a difference where there is none
      right
      obtain ⟨hup, hwant, -⟩ := hsame
      have hagain : w.device.apTeardown.apApply cfg =
          w.device.apTeardown.apBringUp cfg cfg.wg.dns (Device.apMtu cfg) := by
        have hdown : w.device.apTeardown.ap.up = false := rfl
        rw [apWanted] at hwant
        simp only [Device.apApply, hdown, hwant, Bool.false_eq_true, false_and, if_false, if_true]
      have hstale : ¬(w.device.ap.up ∧ apWanted cfg ∧
          (w.device.ap.applied = cfg.ap ∧ ¬true = true) ∧
          w.device.ap.appliedDns = cfg.wg.dns ∧ w.device.ap.appliedMtu = Device.apMtu cfg) := by
        simp
      rw [hkeep, apApply_apOff hup, hagain, apApply, if_neg hstale, if_pos hup, if_pos hwant]
      rfl
  · left
    have hnot : ¬(w.device.ap.up ∧ apWanted cfg ∧ (w.device.ap.applied = cfg.ap ∧ ¬stale) ∧
        w.device.ap.appliedDns = cfg.wg.dns ∧ w.device.ap.appliedMtu = Device.apMtu cfg) := by
      tauto
    have hdev : w.device.apApply cfg =
        let d := if w.device.ap.up then w.device.apTeardown else w.device
        if apWanted cfg then d.apBringUp cfg cfg.wg.dns (Device.apMtu cfg) else d := if_neg hsame
    rw [hdev, apApply, if_neg hnot]
    dsimp only
    split_ifs <;> rfl

theorem reachable_apApply (h : (w.device.apApply cfg).Reachable) (stale : Bool) :
    (w.apApply cfg stale).device.Reachable := by
  rcases apApply_device w cfg stale with heq | heq
  · rw [heq]
    exact h
  · rw [heq]
    exact h.run [.apApply (apOff cfg), .apApply cfg]

/-- The datapath of the links is that of a run of its own. -/
theorem reachable_device {P : Config → Prop} (h : Reached P w) : w.device.Reachable := by
  apply Reach.invariant _ _ h
  · rintro w ⟨cfg, rfl⟩
    exact .start ⟨cfg, rfl⟩
  · intro w e _ _ hw
    cases e with
    | applyWg cfg literal added stale =>
      have hdevice : (w.device.applyWg cfg literal added).Reachable :=
        hw.run [.applyWg cfg literal added]
      refine reachable_apApply ?_ stale
      exact hdevice
    | apApply cfg stale => exact reachable_apApply (hw.run [.apApply cfg]) stale
    | device e => exact hw.run [e]
    | recv inp allocated data =>
      rw [step, recv_device]
      exact hw

end Links

end Molewire
