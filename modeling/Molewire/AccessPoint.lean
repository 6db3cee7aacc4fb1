/-
# The access point follows the configuration

`ap_apply` may find that nothing it uses has changed and leave the access point
alone, or tear it down and bring it up again over what the radio driver set.
Either way the network on the air, the link and the lease are the ones a fresh
bring-up from the same configuration would give, and the default interface is
never the access point's.
-/

import Molewire.ClientLinks

namespace Molewire

open ByteBuffer Transition

namespace Device

/-! ### What leaves a client link alone -/

/-- A link of a client, which neither the uplink nor the tunnel touches. -/
def IsClientLink (i : NetifId) : Prop := i ≠ .sta ∧ i ≠ .wg

/-- The two states agree on the access point and on the address of a link, and a default interface
of another link stays one. -/
structure KeepsLink (i : NetifId) (d d' : Device) : Prop where
  ap : d'.ap = d.ap
  addr : (d'.stack.netif i).addr = (d.stack.netif i).addr
  mask : (d'.stack.netif i).mask = (d.stack.netif i).mask
  default : d.stack.default ≠ some i → d'.stack.default ≠ some i

variable {i : NetifId} {d d' d'' : Device}

theorem KeepsLink.of_stack_eq (hap : d'.ap = d.ap) (hstack : d'.stack = d.stack) :
    KeepsLink i d d' :=
  ⟨hap, by rw [hstack], by rw [hstack], by rw [hstack]; exact id⟩

theorem KeepsLink.refl (d : Device) : KeepsLink i d d := .of_stack_eq rfl rfl

theorem KeepsLink.trans (h : KeepsLink i d d') (h' : KeepsLink i d' d'') : KeepsLink i d d'' where
  ap := h'.ap.trans h.ap
  addr := h'.addr.trans h.addr
  mask := h'.mask.trans h.mask
  default hne := h'.default (h.default hne)

/-- An address of another link. -/
theorem keepsLink_setAddr {j : NetifId} (hij : i ≠ j) (addr mask : Ip4) :
    KeepsLink i d { d with stack := d.stack.setAddr j addr mask } := by
  refine ⟨rfl, ?_, ?_, id⟩ <;> simp [Stack.setAddr, Function.update_of_ne hij]

theorem keepsLink_setLink (j : NetifId) (linkUp : Bool) :
    KeepsLink i d { d with stack := d.stack.setLink j linkUp } := by
  -- a link that comes or goes has the same address
  by_cases hij : i = j
  · subst hij
    refine ⟨rfl, ?_, ?_, id⟩ <;> simp [Stack.setLink]
  · refine ⟨rfl, ?_, ?_, id⟩ <;> simp [Stack.setLink, Function.update_of_ne hij]

theorem keepsLink_wgTeardown (hi : IsClientLink i) (d : Device) : KeepsLink i d d.wgTeardown := by
  obtain ⟨hsta, hwg⟩ := hi
  unfold wgTeardown
  dsimp only
  split_ifs with hadded hdefault hstation
  · refine ⟨rfl, ?_, ?_, fun _ => ?_⟩ <;> simp [Stack.remove, Stack.setDefault, hwg, hsta.symm]
  · refine ⟨rfl, ?_, ?_, fun _ => ?_⟩ <;> simp [Stack.remove, Stack.setDefault, hwg]
  · refine ⟨rfl, ?_, ?_, fun h => ?_⟩ <;> simp_all [Stack.remove]
  · exact .of_stack_eq rfl rfl

@[simp] theorem dnsResolvedCb_ap (answer : Option Ip4) : (d.dnsResolvedCb answer).ap = d.ap := by
  cases answer <;> rfl

@[simp] theorem dnsResolvedCb_stack (answer : Option Ip4) :
    (d.dnsResolvedCb answer).stack = d.stack := by cases answer <;> rfl

theorem keepsLink_dnsResolvedCb (answer : Option Ip4) : KeepsLink i d (d.dnsResolvedCb answer) :=
  .of_stack_eq (dnsResolvedCb_ap answer) (dnsResolvedCb_stack answer)

theorem keepsLink_startExit (d : Device) : KeepsLink i d d.startExit := by
  unfold startExit
  split_ifs
  · exact .of_stack_eq rfl rfl
  · exact .refl d

theorem keepsLink_addTunnel (hi : IsClientLink i) (added : Bool) :
    KeepsLink i d (d.addTunnel added) := by
  unfold addTunnel
  split_ifs
  · refine ⟨rfl, ?_, ?_, id⟩ <;> simp [Stack.add, Stack.setUp, hi.2]
  · exact .refl d

theorem keepsLink_wgApply (hi : IsClientLink i) (cfg : Config) (literal : Option Ip4)
    (added : Bool) : KeepsLink i d (d.wgApply cfg literal added) := by
  have hdown := keepsLink_wgTeardown hi { d with wg := { d.wg with staNetif := true } }
  unfold wgApply
  dsimp only
  split_ifs
  · -- down, then exit mode, the endpoint and the interface in turn
    apply KeepsLink.trans _ (keepsLink_addTunnel hi added)
    apply KeepsLink.trans _ (keepsLink_dnsResolvedCb literal)
    apply KeepsLink.trans _ (keepsLink_startExit _)
    exact ⟨hdown.ap, hdown.addr, hdown.mask, hdown.default⟩
  · exact ⟨hdown.ap, hdown.addr, hdown.mask, hdown.default⟩

theorem keepsLink_wgPoll (hi : IsClientLink i) (now : UInt32) (ans : PollAnswers) :
    KeepsLink i d (d.wgPoll now ans) := by
  have hext : KeepsLink i d d.refreshExt := by
    unfold refreshExt
    split_ifs
    · exact .of_stack_eq rfl rfl
    · exact .refl d
  have hresolving : KeepsLink i d.refreshExt (d.refreshExt.pollResolving now ans) := by
    unfold pollResolving wgAddPeerAndConnect
    dsimp only
    split_ifs <;> exact .of_stack_eq (by simp) (by simp)
  have hsession : KeepsLink i d.refreshExt (d.refreshExt.pollSession now ans) := by
    unfold pollSession
    dsimp only
    split_ifs
    · exact ⟨rfl, rfl, rfl, fun _ => by simp [Stack.setDefault, hi.2.symm]⟩
    · exact ⟨rfl, rfl, rfl, fun _ => by simp [Stack.setDefault, hi.1.symm]⟩
    · exact .of_stack_eq rfl rfl
    · exact .refl _
  unfold wgPoll
  split_ifs
  · exact .refl d
  · exact .refl d
  · exact hext.trans hresolving
  · exact hext.trans hsession

/-- Nothing but a configuration touches the client links. -/
theorem keepsLink_step (hi : IsClientLink i) {e : Event} (h : e.quiet) :
    KeepsLink i d (d.step e) := by
  cases e with
  | applyWg => exact h.elim
  | apApply => exact h.elim
  | wgPoll now ans => exact keepsLink_wgPoll hi now ans
  | dnsResolved answer => exact keepsLink_dnsResolvedCb answer
  | lease addr mask => exact keepsLink_setAddr hi.1 addr mask
  | link j linkUp => exact keepsLink_setLink j linkUp
  | input inp pkt now => exact .of_stack_eq rfl rfl
  | staOutput pkt now =>
    simp only [step, staOutput, exitStaOutput]
    split_ifs <;> exact .of_stack_eq rfl rfl

theorem isClientLink_ap : IsClientLink .ap := ⟨by decide, by decide⟩

theorem isClientLink_usb : IsClientLink .usb := ⟨by decide, by decide⟩

end Device

namespace Links

/-! ### What a client of the access point sees -/

/-- The network on the air, the device's address on the link, and the lease, of which `leased`
only says whether the client has taken it. -/
structure ApView where
  network : Option ApNetwork
  addr : Ip4
  mask : Ip4
  scope : DhcpScope
  deriving DecidableEq, Repr

def apView (w : Links) : ApView where
  network := w.network
  addr := w.addrOf .ap
  mask := (w.device.stack.netif .ap).mask
  scope := { w.dhcp .ap with leased := false }

/-- What a configuration asks for. -/
def wantedView (cfg : Config) : ApView where
  network := some ⟨cfg.ap.ssid, cfg.ap.password⟩
  addr := cfg.ap.addr
  mask := Ip4.prefixMask cfg.ap.plen.toNat
  scope := dhcpServerStart .ap (apLease cfg)

/-- The parts of a configuration that `ap_apply` compares. -/
structure SameAp (cfg cfg' : Config) : Prop where
  ap : cfg.ap = cfg'.ap
  dns : cfg.wg.dns = cfg'.wg.dns
  mtu : Device.apMtu cfg = Device.apMtu cfg'

variable {w : Links} {cfg cfg' : Config} {stale : Bool}

theorem SameAp.wantedView (h : SameAp cfg cfg') : wantedView cfg = wantedView cfg' := by
  simp only [Links.wantedView, apLease, h.ap, h.dns, h.mtu]

/-! ### The invariant -/

/-- While the access point is up it serves the configuration it was last brought up with, and while
it is down there is neither a network nor a lease. -/
structure ApInv (w : Links) : Prop where
  up : w.device.ap.up → ∃ cfg, apWanted cfg ∧ w.apView = wantedView cfg ∧
    w.device.ap.applied = cfg.ap ∧ w.device.ap.appliedDns = cfg.wg.dns ∧
    w.device.ap.appliedMtu = Device.apMtu cfg
  down : ¬w.device.ap.up → w.network = none ∧ (w.dhcp .ap).leaseAddr = Ip4.any
  default : w.device.stack.default ≠ some .ap
  usbNif : (w.dhcp .usb).nif ≠ some .ap

theorem apInv_teardown (h : w.ApInv) : w.apTeardown.ApInv where
  up hup := by cases hup
  down _ := ⟨rfl, by simp [apTeardown, dhcpServerStart]⟩
  default := h.default
  usbNif := by simpa [apTeardown] using h.usbNif

/-- Whatever the radio driver did to the interface, bringing the access point up sets all of its
view. -/
theorem apBringUp_view (w : Links) (cfg : Config) : (w.apBringUp cfg).apView = wantedView cfg := by
  simp [apView, wantedView, addrOf, apBringUp, Device.apBringUp, Stack.setAddr, Stack.setDefault,
    dhcpServerStart]

theorem apBringUp_default (w : Links) (cfg : Config) :
    (w.apBringUp cfg).device.stack.default ≠ some .ap := by
  simp only [apBringUp_device, Device.apBringUp, Stack.setDefault]
  split_ifs <;> decide

theorem apInv_bringUp (h : w.ApInv) (hwant : apWanted cfg) : (w.apBringUp cfg).ApInv where
  up _ := ⟨cfg, hwant, apBringUp_view w cfg, rfl, rfl, rfl⟩
  down hdown := absurd rfl hdown
  default := apBringUp_default w cfg
  usbNif := by simpa [apBringUp] using h.usbNif

/-- What one call does: nothing, because the access point already serves what is asked for, or it
goes down, and comes up again if it is wanted. -/
theorem apApply_cases (w : Links) (cfg : Config) (stale : Bool) :
    (w.device.ap.up ∧ apWanted cfg ∧ w.device.ap.applied = cfg.ap ∧
        w.device.ap.appliedDns = cfg.wg.dns ∧ w.device.ap.appliedMtu = Device.apMtu cfg ∧
        w.apApply cfg stale = w) ∨
      ∃ w', (w' = w.apTeardown ∨ ¬w.device.ap.up ∧ w' = w) ∧
        w.apApply cfg stale = if apWanted cfg then w'.apBringUp cfg else w' := by
  unfold apApply
  by_cases hsame : w.device.ap.up ∧ apWanted cfg ∧ (w.device.ap.applied = cfg.ap ∧ ¬stale) ∧
      w.device.ap.appliedDns = cfg.wg.dns ∧ w.device.ap.appliedMtu = Device.apMtu cfg
  · rw [if_pos hsame]
    obtain ⟨hup, hwant, happlied, hdns, hmtu⟩ := hsame
    exact .inl ⟨hup, hwant, happlied.1, hdns, hmtu, rfl⟩
  · rw [if_neg hsame]
    right
    by_cases hup : w.device.ap.up
    · exact ⟨_, .inl rfl, by rw [if_pos hup]⟩
    · exact ⟨_, .inr ⟨hup, rfl⟩, by rw [if_neg hup]⟩

theorem ApInv.apApply (h : w.ApInv) (cfg : Config) (stale : Bool) :
    (w.apApply cfg stale).ApInv := by
  obtain ⟨-, -, -, -, -, heq⟩ | ⟨w', hw', heq⟩ := apApply_cases w cfg stale
  · rw [heq]
    exact h
  · have hinv : w'.ApInv := by
      rcases hw' with rfl | ⟨-, rfl⟩
      · exact apInv_teardown h
      · exact h
    rw [heq]
    split_ifs with hwant
    · exact apInv_bringUp hinv hwant
    · exact hinv

/-- A datapath that leaves the access point alone. -/
theorem ApInv.device {d : Device} (h : w.ApInv) (hd : Device.KeepsLink .ap w.device d) :
    ApInv { w with device := d } where
  up hup := by
    obtain ⟨cfg, hwant, hview, happlied⟩ := h.up (hd.ap ▸ hup)
    refine ⟨cfg, hwant, ?_, by simpa only [hd.ap] using happlied⟩
    simpa only [apView, addrOf, hd.addr, hd.mask] using hview
  down hdown := h.down (by rwa [← hd.ap])
  default := hd.default h.default
  usbNif := h.usbNif

theorem ApInv.startUsb (h : w.ApInv) (l : DhcpLease) :
    (w.startScope .usb (dhcpServerStart .usb l)).ApInv where
  up hup := by simpa [apView, addrOf] using h.up hup
  down hdown := by simpa using h.down hdown
  default := h.default
  usbNif := by simp [dhcpServerStart]

/-- What `ap_apply` starts from when the tunnel is applied: the USB link has its address. -/
theorem applyWg_before (w : Links) (cfg : Config) (literal : Option Ip4) (added stale : Bool) :
    ∃ w' : Links, w.applyWg cfg literal added stale = w'.apApply cfg stale ∧ (w.ApInv → w'.ApInv) ∧
      (configWgComplete cfg → w'.addrOf .usb = cfg.wg.addr ∧
        (w'.device.stack.netif .usb).mask =
          Ip4.prefixMask (if cfg.wg.addr = Ip4.any then 0 else cfg.wg.plen.toNat)) := by
  refine ⟨_, rfl, fun h => ?_, fun hc => ?_⟩
  · -- the USB link and its scope, and then the tunnel
    apply ApInv.device _ (Device.keepsLink_wgApply Device.isClientLink_ap cfg literal added)
    apply ApInv.startUsb
    split_ifs
    · exact h.device (Device.keepsLink_setAddr (by decide) _ _)
    · exact h.device (Device.keepsLink_setAddr (by decide) _ _)
  · have hkeep := Device.keepsLink_wgApply (d := w.device.usbNetSetAddr cfg.wg.addr cfg.wg.plen)
      Device.isClientLink_usb cfg literal added
    simp only [startScope_device, hc, if_true]
    exact ⟨hkeep.addr.trans (by simp [Device.usbNetSetAddr, Stack.setAddr]),
      hkeep.mask.trans (by simp [Device.usbNetSetAddr, Stack.setAddr])⟩

theorem ApInv.applyWg (h : w.ApInv) (cfg : Config) (literal : Option Ip4) (added stale : Bool) :
    (w.applyWg cfg literal added stale).ApInv := by
  obtain ⟨w', heq, hinv, -⟩ := applyWg_before w cfg literal added stale
  rw [heq]
  exact (hinv h).apApply cfg stale

theorem ApInv.recv (h : w.ApInv) (inp : NetifId) (allocated : Bool) (data : Bytes) :
    (w.recv inp allocated data).ApInv := by
  obtain ⟨dhcp, heq, hscopes⟩ := recv_cases w inp allocated data
  rw [heq]
  have hap := hscopes .ap
  refine ⟨fun hup => ?_, fun hdown => ?_, h.default, ?_⟩
  · obtain ⟨cfg, hwant, hview, happlied⟩ := h.up hup
    refine ⟨cfg, hwant, ?_, happlied⟩
    rw [← hview, apView, apView, hap]
    rfl
  · obtain ⟨hnet, haddr⟩ := h.down hdown
    exact ⟨hnet, (congrArg DhcpScope.leaseAddr hap).trans haddr⟩
  · have husb := congrArg DhcpScope.nif (hscopes .usb)
    intro hnif
    exact h.usbNif (husb.symm.trans hnif)

theorem ApInv.step (h : w.ApInv) {e : LinksEvent} {P : Config → Prop} (he : Admits P w e) :
    (w.step e).ApInv := by
  cases e with
  | applyWg cfg literal added stale => exact h.applyWg cfg literal added stale
  | apApply cfg stale => exact h.apApply cfg stale
  | device e => exact h.device (Device.keepsLink_step Device.isClientLink_ap he)
  | recv inp allocated data => exact h.recv inp allocated data

theorem apInv_boot (cfg : Config) : (boot cfg).ApInv := by
  refine ⟨nofun, fun _ => ⟨rfl, rfl⟩, ?_, nofun⟩
  simp [boot, Device.boot, Stack.setDefault, Stack.add, Stack.setUp, Stack.setLink]

/-- The access point in every run. -/
theorem Reached.apInv {P : Config → Prop} (h : Reached P w) : w.ApInv := by
  apply Reach.invariant _ _ h
  · rintro w ⟨cfg, rfl⟩
    exact apInv_boot cfg
  · intro w e _ he hw
    exact hw.step he

/-! ### Every call reflects its configuration -/

/-- What an access point that follows a configuration is like: up exactly when it is enabled and
complete, then as a fresh bring-up would have it, with a passphrase and a lease on the link, and
otherwise without a network and without an answer to any DHCP request. -/
structure Reflects (w : Links) (cfg : Config) : Prop where
  up_iff : w.device.ap.up ↔ cfg.ap.enabled ∧ configApComplete cfg
  fresh : w.device.ap.up → ∀ start, w.apView = ((boot start).apApply cfg false).apView
  secured : w.device.ap.up → ∃ n, w.network = some n ∧ 8 ≤ n.password.length ∧
    n.password.length ≤ 63
  lease : w.device.ap.up →
    (w.dhcp .ap).leaseAddr.netEq (w.addrOf .ap) (w.device.stack.netif .ap).mask
  down : ¬w.device.ap.up → w.network = none ∧ w.device.apActiveNetif = none ∧
    ∀ allocated data, dhcpRecv w.dhcp w.addrOf .ap allocated data = .ok (w.dhcp, none)
  default : w.device.stack.default ≠ some .ap

theorem apWanted_iff : apWanted cfg ↔ cfg.ap.enabled ∧ configApComplete cfg := by
  rw [apWanted, Bool.and_eq_true]

/-- After a call the access point is up exactly when it is wanted, and serves what was asked
for. -/
theorem apApply_view (h : w.ApInv) (cfg : Config) (stale : Bool) :
    ((w.apApply cfg stale).device.ap.up ↔ apWanted cfg) ∧
      (apWanted cfg → (w.apApply cfg stale).apView = wantedView cfg) := by
  obtain ⟨hup, hwant, happlied, hdns, hmtu, heq⟩ | ⟨w', hw', heq⟩ := apApply_cases w cfg stale
  · -- the shortcut: it serves the configuration it was brought up with, which is the same
    obtain ⟨cfg', -, hview, happlied', hdns', hmtu'⟩ := h.up hup
    have hsame : SameAp cfg' cfg :=
      ⟨happlied'.symm.trans happlied, hdns'.symm.trans hdns, hmtu'.symm.trans hmtu⟩
    rw [heq]
    exact ⟨⟨fun _ => hwant, fun _ => hup⟩, fun _ => hview.trans hsame.wantedView⟩
  · have hdown : ¬w'.device.ap.up := by
      rcases hw' with rfl | ⟨hdown, rfl⟩
      · exact Bool.false_ne_true
      · exact hdown
    rw [heq]
    by_cases hwant : apWanted cfg
    · rw [if_pos hwant]
      exact ⟨⟨fun _ => hwant, fun _ => rfl⟩, fun _ => apBringUp_view w' cfg⟩
    · rw [if_neg hwant]
      exact ⟨⟨fun hup => absurd hup hdown, fun h => absurd h hwant⟩, fun h => absurd h hwant⟩

/-- A complete configuration has a passphrase that WPA2 takes. -/
theorem configApComplete_password (h : configApComplete cfg) :
    8 ≤ cfg.ap.password.length ∧ cfg.ap.password.length ≤ 63 := by
  unfold configApComplete at h
  dsimp only at h
  split_ifs at h with hnet haddr
  omega

/-- It also has both addresses in one subnet. -/
theorem configApComplete_netEq (h : configApComplete cfg) :
    cfg.ap.clientAddr.netEq cfg.ap.addr (Ip4.prefixMask cfg.ap.plen.toNat) := by
  unfold configApComplete at h
  dsimp only at h
  split_ifs at h
  rw [Ip4.netEq, beq_iff_eq] at h ⊢
  exact h.symm

/-- A scope without a lease answers nothing. -/
theorem dhcpRecv_disabled {d : Dhcp} {addrOf : NetifId → Ip4} (husb : (d .usb).nif ≠ some .ap)
    (hoff : (d .ap).leaseAddr = Ip4.any) (allocated : Bool) (data : Bytes) :
    dhcpRecv d addrOf .ap allocated data = .ok (d, none) := by
  unfold dhcpRecv scopeFor
  rw [if_neg husb]
  split_ifs
  · simp only [scopeRecv, hoff, true_or, if_true, bind, Except.bind, pure, Except.pure,
      Function.update_eq_self]
  · rfl

/-- **The access point follows its configuration.** After every call, in every run, it is as a
bring-up from scratch would have left it, whether or not the call found anything to do. -/
theorem ap_reflects {P : Config → Prop} (h : Reached P w) (cfg : Config) (stale : Bool) :
    Reflects (w.apApply cfg stale) cfg := by
  have hinv := h.apInv.apApply cfg stale
  obtain ⟨hup, hview⟩ := apApply_view h.apInv cfg stale
  refine ⟨hup.trans apWanted_iff, fun hon start => ?_, fun hon => ?_, fun hon => ?_, fun hoff => ?_,
    hinv.default⟩
  · have hwant := hup.mp hon
    rw [hview hwant, (apApply_view (apInv_boot start) cfg false).2 hwant]
  · have hwant := hup.mp hon
    exact ⟨_, congrArg ApView.network (hview hwant),
      configApComplete_password (apWanted_iff.mp hwant).2⟩
  · have hwant := hup.mp hon
    have hlease : ((w.apApply cfg stale).dhcp .ap).leaseAddr = cfg.ap.clientAddr :=
      congrArg (fun v => v.scope.leaseAddr) (hview hwant)
    have haddr : (w.apApply cfg stale).addrOf .ap = cfg.ap.addr :=
      congrArg ApView.addr (hview hwant)
    have hmask : ((w.apApply cfg stale).device.stack.netif .ap).mask =
        Ip4.prefixMask cfg.ap.plen.toNat := congrArg ApView.mask (hview hwant)
    rw [hlease, haddr, hmask]
    exact configApComplete_netEq (apWanted_iff.mp hwant).2
  · obtain ⟨hnet, haddr⟩ := hinv.down hoff
    exact ⟨hnet, if_neg hoff, dhcpRecv_disabled hinv.usbNif haddr⟩

/-- A second call with the same configuration leaves the provisioned access point alone. -/
theorem ap_reflects_provisioned :
    Reflects (((boot {}).step (.apApply Device.provisionedConfig false)).apApply
      Device.provisionedConfig false) Device.provisionedConfig := by
  have hboot : Reached (fun _ => True) (boot {}) := .start ⟨{}, rfl⟩
  have hup : Reached (fun _ => True)
      ((boot {}).step (.apApply Device.provisionedConfig false)) := hboot.step trivial
  exact ap_reflects hup _ _

end Links

end Molewire
