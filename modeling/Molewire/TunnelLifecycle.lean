/-
# The tunnel's flags over whole runs

`wg.c` keeps the interface, the peer, the session and exit mode in flags of
their own, set and cleared in different functions. Through any run the peer and
the session imply the interface, and the default interface follows them. Exit
mode does not: it is switched on before the interface is created, and stays on
where that fails.
-/

import Molewire.ExitMode

namespace Molewire

open Transition

namespace Device

/-- `wg_exit_active`. -/
def wgExitActive (d : Device) : Bool := d.wg.exitOn

/-! ### One step -/

/-- What holds between the flags, whatever exit mode says. -/
structure Lifecycle (d : Device) : Prop where
  peer : d.wg.peer → d.wg.netifAdded
  up : d.wg.state = .up → d.stack.default = some .wg
  default : d.stack.default = some .wg → d.wg.netifAdded

/-- The two states agree on the flags and on the default interface. -/
structure SameTunnel (d d' : Device) : Prop where
  netifAdded : d'.wg.netifAdded = d.wg.netifAdded
  peer : d'.wg.peer = d.wg.peer
  state : d'.wg.state = d.wg.state
  exitOn : d'.wg.exitOn = d.wg.exitOn
  default : d'.stack.default = d.stack.default

theorem SameTunnel.refl (d : Device) : SameTunnel d d := ⟨rfl, rfl, rfl, rfl, rfl⟩

theorem SameTunnel.trans {d d' d'' : Device} (h : SameTunnel d d') (h' : SameTunnel d' d'') :
    SameTunnel d d'' where
  netifAdded := h'.netifAdded.trans h.netifAdded
  peer := h'.peer.trans h.peer
  state := h'.state.trans h.state
  exitOn := h'.exitOn.trans h.exitOn
  default := h'.default.trans h.default

theorem Lifecycle.of_same {d d' : Device} (h : d.Lifecycle) (hs : SameTunnel d d') :
    d'.Lifecycle where
  peer := by rw [hs.peer, hs.netifAdded]; exact h.peer
  up := by rw [hs.state, hs.default]; exact h.up
  default := by rw [hs.default, hs.netifAdded]; exact h.default

theorem sameTunnel_dnsResolvedCb (d : Device) (a : Option Ip4) :
    SameTunnel d (d.dnsResolvedCb a) := by
  cases a <;> exact ⟨rfl, rfl, rfl, rfl, rfl⟩

theorem sameTunnel_refreshExt (d : Device) : SameTunnel d d.refreshExt := by
  unfold refreshExt
  split_ifs <;> exact ⟨rfl, rfl, rfl, rfl, rfl⟩

theorem sameTunnel_staOutput (d : Device) (pkt : ByteBuffer.Bytes) (now : UInt32) :
    SameTunnel d (d.staOutput pkt now).1 := by
  unfold staOutput exitStaOutput
  dsimp only
  split_ifs <;> exact ⟨rfl, rfl, rfl, rfl, rfl⟩

/-- A teardown leaves no peer, no session and no tunnel as the default interface. -/
theorem Lifecycle.wgTeardown {d : Device} (h : d.Lifecycle) :
    d.wgTeardown.Lifecycle ∧ d.wgTeardown.wg.netifAdded = false ∧
      d.wgTeardown.wg.exitOn = false := by
  have hdefault : d.wgTeardown.stack.default ≠ some .wg := by
    by_cases hadded : d.wg.netifAdded
    · simp only [Device.wgTeardown, hadded, if_true, Stack.remove]
      split_ifs <;> simp_all
    · simp only [Device.wgTeardown, hadded]
      exact fun hc => hadded (h.default hc)
  have hpeer : d.wgTeardown.wg.peer = false := by
    by_cases hadded : d.wg.netifAdded
    · simp [Device.wgTeardown, hadded]
    · simpa [Device.wgTeardown, hadded] using fun hc => hadded (h.peer hc)
  refine ⟨⟨fun hc => ?_, fun hc => ?_, fun hc => absurd hc hdefault⟩, rfl, rfl⟩
  · rw [hpeer] at hc
    cases hc
  · cases hc

theorem startExit_flags (d : Device) :
    d.startExit.wg.netifAdded = d.wg.netifAdded ∧ d.startExit.wg.peer = d.wg.peer ∧
      d.startExit.wg.state = d.wg.state ∧ d.startExit.stack.default = d.stack.default ∧
      d.startExit.wg.exitOn = (d.wg.wgc.exitEnabled || d.wg.exitOn) := by
  unfold startExit
  cases d.wg.wgc.exitEnabled <;> exact ⟨rfl, rfl, rfl, rfl, rfl⟩

/-- The interface is created last, and nothing is up yet. -/
theorem Lifecycle.addTunnel {d : Device} (h : d.Lifecycle) (added : Bool) :
    (d.addTunnel added).Lifecycle ∧
      (d.addTunnel added).wg.netifAdded = (added || d.wg.netifAdded) ∧
      (d.addTunnel added).wg.exitOn = d.wg.exitOn := by
  unfold Device.addTunnel
  cases added with
  | false => exact ⟨h, rfl, rfl⟩
  | true => exact ⟨⟨fun _ => rfl, nofun, fun _ => rfl⟩, rfl, rfl⟩

/-- What one application leaves: the interface if the configuration is complete and the interface
was created, exit mode if the configuration is complete and has it enabled. -/
theorem Lifecycle.wgApply {d : Device} (h : d.Lifecycle) (cfg : Config) (literal : Option Ip4)
    (added : Bool) :
    (d.wgApply cfg literal added).Lifecycle ∧
      (d.wgApply cfg literal added).wg.netifAdded = (configWgComplete cfg && added) ∧
      (d.wgApply cfg literal added).wg.exitOn =
        (configWgComplete cfg && cfg.wg.exitEnabled) := by
  have hsta : ({ d with wg := { d.wg with staNetif := true } } : Device).Lifecycle :=
    h.of_same ⟨rfl, rfl, rfl, rfl, rfl⟩
  obtain ⟨hdown, hremoved, hexit⟩ := hsta.wgTeardown
  unfold Device.wgApply
  dsimp only
  cases hcomplete : configWgComplete cfg with
  | false => exact ⟨hdown.of_same ⟨rfl, rfl, rfl, rfl, rfl⟩, hremoved, hexit⟩
  | true =>
    simp only [if_true]
    -- the device after the teardown and the new setting, before exit mode starts
    generalize hd1 : ({ stack := _, wg := _, ap := _, napt := _ } : Device) = d1
    have hd1' : d1.Lifecycle ∧ d1.wg.netifAdded = false ∧ d1.wg.exitOn = false ∧
        d1.wg.wgc = cfg.wg := by
      subst hd1
      exact ⟨hdown.of_same ⟨rfl, rfl, rfl, rfl, rfl⟩, hremoved, hexit, rfl⟩
    obtain ⟨hlife, hremoved1, hexit1, hwgc1⟩ := hd1'
    obtain ⟨he1, he2, he3, he4, he5⟩ := startExit_flags d1
    have hstarted : d1.startExit.Lifecycle :=
      ⟨by rw [he2, he1]; exact hlife.peer, by rw [he3, he4]; exact hlife.up,
        by rw [he4, he1]; exact hlife.default⟩
    have hs := sameTunnel_dnsResolvedCb d1.startExit literal
    obtain ⟨hadd, hadded, hexit2⟩ := (hstarted.of_same hs).addTunnel added
    refine ⟨hadd, ?_, ?_⟩
    · rw [hadded, hs.netifAdded, he1, hremoved1, Bool.or_false, Bool.true_and]
    · rw [hexit2, hs.exitOn, he5, hexit1, hwgc1, Bool.or_false, Bool.true_and]

/-- Connecting needs the interface; it ends with a peer index or without one, and not up. -/
theorem Lifecycle.wgAddPeerAndConnect {d : Device} (h : d.Lifecycle) (hadded : d.wg.netifAdded)
    (accepted indexed : Bool) (now : UInt32) :
    (d.wgAddPeerAndConnect accepted indexed now).Lifecycle := by
  refine ⟨fun _ => hadded, fun hc => ?_, h.default⟩
  cases accepted <;> cases indexed <;> cases hc

/-- The flags a poll of a tunnel without session moves. -/
theorem Lifecycle.pollResolving {d : Device} (h : d.Lifecycle) (hadded : d.wg.netifAdded)
    (now : UInt32) (ans : PollAnswers) :
    (d.pollResolving now ans).Lifecycle ∧
      (d.pollResolving now ans).wg.netifAdded = d.wg.netifAdded ∧
      (d.pollResolving now ans).wg.exitOn = d.wg.exitOn := by
  have hask : SameTunnel d
      (dnsResolvedCb { d with wg := { d.wg with lastResolveMs := now } } ans.cached) := by
    have hs := sameTunnel_dnsResolvedCb { d with wg := { d.wg with lastResolveMs := now } }
      ans.cached
    exact ⟨hs.netifAdded, hs.peer, hs.state, hs.exitOn, hs.default⟩
  unfold Device.pollResolving
  dsimp only
  split_ifs
  · exact ⟨(h.of_same hask).wgAddPeerAndConnect (by rw [hask.netifAdded]; exact hadded) _ _ now,
      hask.netifAdded, hask.exitOn⟩
  · exact ⟨h.of_same hask, hask.netifAdded, hask.exitOn⟩
  · exact ⟨h.wgAddPeerAndConnect hadded _ _ now, rfl, rfl⟩
  · exact ⟨h, rfl, rfl⟩

/-- The session and the default interface move together. -/
theorem Lifecycle.pollSession {d : Device} (h : d.Lifecycle) (hadded : d.wg.netifAdded)
    (now : UInt32) (ans : PollAnswers) :
    (d.pollSession now ans).Lifecycle ∧
      (d.pollSession now ans).wg.netifAdded = d.wg.netifAdded ∧
      (d.pollSession now ans).wg.exitOn = d.wg.exitOn := by
  unfold Device.pollSession
  dsimp only
  split_ifs
  · exact ⟨⟨h.peer, fun _ => rfl, fun _ => hadded⟩, rfl, rfl⟩
  · exact ⟨⟨h.peer, nofun, nofun⟩, rfl, rfl⟩
  · exact ⟨h.of_same ⟨rfl, rfl, rfl, rfl, rfl⟩, rfl, rfl⟩
  · exact ⟨h, rfl, rfl⟩

theorem Lifecycle.wgPoll {d : Device} (h : d.Lifecycle) (now : UInt32) (ans : PollAnswers) :
    (d.wgPoll now ans).Lifecycle ∧ (d.wgPoll now ans).wg.netifAdded = d.wg.netifAdded ∧
      (d.wgPoll now ans).wg.exitOn = d.wg.exitOn := by
  have hs := sameTunnel_refreshExt d
  have hrefreshed := h.of_same hs
  unfold Device.wgPoll
  split_ifs with hguard
  · exact ⟨h, rfl, rfl⟩
  · exact ⟨h, rfl, rfl⟩
  all_goals
    have hadded : d.refreshExt.wg.netifAdded := by
      have hguard' : d.wg.configured = true ∧ d.wg.netifAdded = true := by simpa using hguard
      rw [hs.netifAdded]
      exact hguard'.2
  · obtain ⟨hl, ha, he⟩ := hrefreshed.pollResolving hadded now ans
    exact ⟨hl, ha.trans hs.netifAdded, he.trans hs.exitOn⟩
  · obtain ⟨hl, ha, he⟩ := hrefreshed.pollSession hadded now ans
    exact ⟨hl, ha.trans hs.netifAdded, he.trans hs.exitOn⟩

/-- The access point gives the default interface back to the tunnel that is up, or to the
station. -/
theorem Lifecycle.apApply {d : Device} (h : d.Lifecycle) (cfg : Config) :
    (d.apApply cfg).Lifecycle := by
  have hdown : d.apTeardown.Lifecycle := h.of_same ⟨rfl, rfl, rfl, rfl, rfl⟩
  have hup : ∀ e : Device, e.Lifecycle → ∀ dns mtu, (e.apBringUp cfg dns mtu).Lifecycle := by
    intro e he dns mtu
    have hdefault : (e.apBringUp cfg dns mtu).stack.default =
        if e.wgSessionUp ∧ e.wg.netifAdded then some .wg else some .sta := rfl
    refine ⟨he.peer, fun hstate => ?_, fun hc => ?_⟩
    · have hstate' : e.wg.state = .up := hstate
      rw [hdefault, if_pos ⟨by rw [wgSessionUp, hstate']; rfl, he.default (he.up hstate')⟩]
    · rw [hdefault] at hc
      split_ifs at hc with hboth
      · exact hboth.2
      · cases hc
  unfold Device.apApply
  dsimp only
  split_ifs
  · exact h
  · exact hup _ hdown cfg.wg.dns (apMtu cfg)
  · exact hup _ h cfg.wg.dns (apMtu cfg)
  · exact hdown
  · exact h

theorem apApply_flags (d : Device) (cfg : Config) :
    (d.apApply cfg).wg.netifAdded = d.wg.netifAdded ∧
      (d.apApply cfg).wg.exitOn = d.wg.exitOn := by
  unfold Device.apApply
  dsimp only
  split_ifs <;> exact ⟨rfl, rfl⟩

/-- Events other than a configuration keep the relation between the flags. -/
theorem Lifecycle.step {d : Device} (h : d.Lifecycle) {e : Event}
    (he : ∀ cfg literal added, e ≠ .applyWg cfg literal added) :
    (d.step e).Lifecycle ∧ (d.step e).wg.netifAdded = d.wg.netifAdded ∧
      (d.step e).wg.exitOn = d.wg.exitOn := by
  have same : ∀ {d' : Device}, SameTunnel d d' →
      d'.Lifecycle ∧ d'.wg.netifAdded = d.wg.netifAdded ∧ d'.wg.exitOn = d.wg.exitOn :=
    fun hs => ⟨h.of_same hs, hs.netifAdded, hs.exitOn⟩
  cases e with
  | applyWg cfg literal added => exact absurd rfl (he cfg literal added)
  | apApply cfg =>
    obtain ⟨hadded, hexit⟩ := apApply_flags d cfg
    exact ⟨h.apApply cfg, hadded, hexit⟩
  | wgPoll now ans => exact h.wgPoll now ans
  | dnsResolved answer => exact same (sameTunnel_dnsResolvedCb d answer)
  | lease addr mask => exact same ⟨rfl, rfl, rfl, rfl, rfl⟩
  | link i linkUp => exact same ⟨rfl, rfl, rfl, rfl, rfl⟩
  | input inp pkt now => exact same ⟨rfl, rfl, rfl, rfl, rfl⟩
  | staOutput pkt now => exact same (sameTunnel_staOutput d pkt now)

end Device

/-! ### Runs -/

/-- What the last `wg_apply` was given, and whether `netif_add` succeeds in it. -/
structure Applied where
  cfg : Config
  added : Bool

/-- A device and its last configuration. -/
structure TunnelHistory where
  device : Device
  applied : Option Applied := none

namespace TunnelHistory

/-- What can happen. Applying a configuration on the device is three calls, and the state between
them counts too. -/
inductive Event
  | wgApply (cfg : Config) (literal : Option Ip4) (added : Bool)
  | usbNetSetAddr (addr : Ip4) (plen : UInt8)
  | device (e : Device.Event)

/-- One event. -/
def step (r : TunnelHistory) : Event → TunnelHistory
  | .wgApply cfg literal added =>
    ⟨r.device.wgApply cfg literal added, some ⟨cfg, added⟩⟩
  | .usbNetSetAddr addr plen => { r with device := r.device.usbNetSetAddr addr plen }
  | .device (.applyWg cfg literal added) =>
    ⟨r.device.applyWg cfg literal added, some ⟨cfg, added⟩⟩
  | .device e => { r with device := r.device.step e }

/-- The runs from the start of the device. -/
def Reached : TunnelHistory → Prop :=
  Reach (fun r => ∃ cfg, r = { device := Device.boot cfg }) (fun _ _ => True) step

/-- The tunnel interface is in lwIP's list. -/
def tunnelAdded (r : TunnelHistory) : Prop := .wg ∈ r.device.stack.list

/-- The flags agree with the interfaces, and exit mode with the configuration. -/
structure Consistent (r : TunnelHistory) : Prop where
  peer : r.device.wg.peer → r.tunnelAdded
  up : r.device.wg.state = .up → r.tunnelAdded ∧ r.device.stack.default = some .wg
  default : ¬r.tunnelAdded → r.device.stack.default ≠ some .wg
  exit : r.device.wgExitActive → (∃ a ∈ r.applied, a.cfg.wg.exitEnabled) ∧ r.tunnelAdded

/-- The last configuration enables exit mode, and `netif_add` failed for it. -/
def ExitWithoutTunnel (r : TunnelHistory) : Prop :=
  ∃ a ∈ r.applied, configWgComplete a.cfg ∧ a.cfg.wg.exitEnabled ∧ ¬a.added

/-- The interface is there, and exit mode on, as the last configuration left them. -/
structure Inv (r : TunnelHistory) : Prop where
  device : r.device.Inv
  lifecycle : r.device.Lifecycle
  interface : r.device.wg.netifAdded = r.applied.any fun a => configWgComplete a.cfg && a.added
  exit : r.device.wg.exitOn =
    r.applied.any fun a => configWgComplete a.cfg && a.cfg.wg.exitEnabled

variable {r : TunnelHistory}

theorem inv_boot (cfg : Config) : Inv { device := Device.boot cfg } where
  device := Device.inv_boot cfg
  lifecycle := ⟨nofun, nofun, by simp [Device.boot, Stack.add, Stack.setUp, Stack.setLink,
    Stack.setDefault]⟩
  interface := rfl
  exit := rfl

theorem Inv.wgApply (h : r.Inv) (cfg : Config) (literal : Option Ip4) (added : Bool) :
    (r.step (.wgApply cfg literal added)).Inv := by
  obtain ⟨hlife, hadded, hexit⟩ := h.lifecycle.wgApply cfg literal added
  exact ⟨h.device.wgApply cfg literal added, hlife, hadded, hexit⟩

theorem Inv.usbNetSetAddr (h : r.Inv) (addr : Ip4) (plen : UInt8) :
    (r.step (.usbNetSetAddr addr plen)).Inv where
  device := h.device.of_same ⟨rfl, rfl, rfl, rfl, rfl⟩
  lifecycle := h.lifecycle.of_same ⟨rfl, rfl, rfl, rfl, rfl⟩
  interface := h.interface
  exit := h.exit

/-- Applying a configuration is its three calls in a row. -/
theorem step_applyWg (r : TunnelHistory) (cfg : Config) (literal : Option Ip4) (added : Bool) :
    ∃ addr plen, r.step (.device (.applyWg cfg literal added)) =
      ((r.step (.usbNetSetAddr addr plen)).step (.wgApply cfg literal added)).step
        (.device (.apApply cfg)) := by
  by_cases hcomplete : configWgComplete cfg
  · exact ⟨cfg.wg.addr, cfg.wg.plen, by simp only [step, Device.applyWg, hcomplete]; rfl⟩
  · exact ⟨Device.bringupDevAddr, 30, by simp only [step, Device.applyWg, hcomplete]; rfl⟩

/-- An event of the device that is no configuration. -/
theorem Inv.deviceStep (h : r.Inv) {e : Device.Event}
    (he : ∀ cfg literal added, e ≠ .applyWg cfg literal added) : (r.step (.device e)).Inv := by
  have hstep : r.step (.device e) = { r with device := r.device.step e } := by
    cases e with
    | applyWg cfg literal added => exact absurd rfl (he cfg literal added)
    | _ => rfl
  obtain ⟨hlife, hadded, hexit⟩ := h.lifecycle.step he
  rw [hstep]
  exact ⟨h.device.step e, hlife, hadded.trans h.interface, hexit.trans h.exit⟩

theorem Inv.step (h : r.Inv) (e : Event) : (r.step e).Inv := by
  cases e with
  | wgApply cfg literal added => exact h.wgApply cfg literal added
  | usbNetSetAddr addr plen => exact h.usbNetSetAddr addr plen
  | device e =>
    by_cases he : ∃ cfg literal added, e = .applyWg cfg literal added
    · obtain ⟨cfg, literal, added, rfl⟩ := he
      obtain ⟨addr, plen, hcalls⟩ := step_applyWg r cfg literal added
      have hap : ∀ cfg' literal' added', Device.Event.apApply cfg ≠ .applyWg cfg' literal' added' :=
        nofun
      rw [hcalls]
      exact ((h.usbNetSetAddr addr plen).wgApply cfg literal added).deviceStep hap
    · exact h.deviceStep fun cfg literal added heq => he ⟨cfg, literal, added, heq⟩

theorem Reached.inv (h : Reached r) : r.Inv := by
  refine Reach.invariant ?_ (fun s e _ _ hs => hs.step e) h
  rintro s ⟨cfg, rfl⟩
  exact inv_boot cfg

theorem Inv.tunnelAdded_iff (h : r.Inv) : r.tunnelAdded ↔ r.device.wg.netifAdded :=
  h.device.listed

/-- Exit mode is on and the interface there, unless its creation failed. -/
theorem Inv.exit_iff (h : r.Inv) :
    (r.device.wgExitActive → (∃ a ∈ r.applied, a.cfg.wg.exitEnabled) ∧ r.tunnelAdded) ↔
      ¬r.ExitWithoutTunnel := by
  have hactive : r.device.wgExitActive =
      r.applied.any fun a => configWgComplete a.cfg && a.cfg.wg.exitEnabled := h.exit
  rw [h.tunnelAdded_iff, hactive, h.interface, ExitWithoutTunnel]
  cases r.applied with
  | none => simp
  | some a =>
    by_cases hcomplete : configWgComplete a.cfg <;> by_cases hexit : a.cfg.wg.exitEnabled <;>
      simp [hcomplete, hexit]

/-- **The tunnel's flags agree.** At every point of every run they do exactly if the last
configuration was not one that enables exit mode and had its interface creation fail. -/
theorem tunnel_consistent_iff (h : Reached r) : r.Consistent ↔ ¬r.ExitWithoutTunnel := by
  have hinv : r.Inv := h.inv
  constructor
  · exact fun hc => hinv.exit_iff.mp hc.exit
  · intro hgood
    have hlife := hinv.lifecycle
    refine ⟨fun hpeer => ?_, fun hup => ⟨?_, hlife.up hup⟩, fun hno hc => ?_,
      hinv.exit_iff.mpr hgood⟩
    · exact hinv.tunnelAdded_iff.mpr (hlife.peer hpeer)
    · exact hinv.tunnelAdded_iff.mpr (hlife.default (hlife.up hup))
    · exact hno (hinv.tunnelAdded_iff.mpr (hlife.default hc))

/-- A complete configuration with exit mode. -/
def exitConfig : Config :=
  { Device.provisionedConfig with wg := { Device.provisionedConfig.wg with exitEnabled := true } }

/-- The run that applies it, with the interface created or not, and polls up to a session. -/
def exitRun (added : Bool) : TunnelHistory :=
  [.device (.lease ⟨192, 168, 1, 66⟩ ⟨255, 255, 255, 0⟩), .device (.link .sta true),
    .wgApply exitConfig (some ⟨192, 0, 2, 1⟩) added,
    .device (.wgPoll 1000 ⟨none, true, true, true⟩),
    .device (.wgPoll 2000 ⟨none, true, true, true⟩)].foldl step { device := Device.boot {} }

theorem exitRun_reached (added : Bool) : Reached (exitRun added) :=
  Reach.foldl (.start ⟨{}, rfl⟩) ⟨trivial, trivial, trivial, trivial, trivial, trivial⟩

/-- With the interface created the session comes up, and the flags agree. -/
theorem tunnel_consistent_iff_up :
    (exitRun true).device.wg.state = .up ∧ (exitRun true).Consistent := by
  refine ⟨by decide +kernel, (tunnel_consistent_iff (exitRun_reached true)).mpr ?_⟩
  rintro ⟨a, ha, -, -, hadded⟩
  obtain rfl : (⟨exitConfig, true⟩ : Applied) = a := Option.some.inj ha
  exact hadded rfl

/-- The key does not decode, and exit mode is on without a tunnel. -/
theorem tunnel_inconsistent : ¬∀ r, Reached r → r.Consistent := by
  intro hall
  obtain ⟨-, hadded⟩ := (hall _ (exitRun_reached false)).exit (by decide +kernel)
  revert hadded
  unfold tunnelAdded
  decide +kernel

end TunnelHistory

end Molewire
