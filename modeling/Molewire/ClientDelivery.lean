/-
# Delivery to the clients

A packet from the tunnel finds its client by the subnets of the links alone,
the USB link's first. Neither check of a configuration asks whether the host's
address is in the subnet of the USB link, nor whether that subnet reaches into
the access point's, so both must be required for every packet to arrive.
-/

import Mathlib.Data.Finset.Card
import Molewire.AccessPoint

namespace Molewire

open ByteBuffer Transition

namespace Ip4

/-! ### Subnets and first octets -/

/-- The first octet is the top of the value. -/
theorem toUInt32_shiftRight (a : Ip4) : a.toUInt32 >>> 24 = a.o0.toUInt32 := by
  have hfirst (n : Nat) (h : n < 256) : n * 16777216 % 4294967296 / 16777216 = n := by omega
  have hsecond (n : Nat) (h : n < 256) : n * 65536 % 4294967296 / 16777216 = 0 := by omega
  have hthird (n : Nat) (h : n < 256) : n * 256 % 4294967296 / 16777216 = 0 := by omega
  have hlast (n : Nat) (h : n < 256) : n / 16777216 = 0 := by omega
  apply UInt32.toNat_inj.mp
  simp only [toUInt32, UInt32.toNat_shiftRight, UInt32.toNat_or, UInt32.toNat_shiftLeft,
    UInt8.toNat_toUInt32, UInt32.reduceToNat, Nat.shiftRight_or_distrib]
  simp only [Nat.shiftLeft_eq, Nat.shiftRight_eq_div_pow, Nat.reduceMod, Nat.reducePow]
  -- the other three octets are shifted out
  rw [hfirst _ a.o0.toNat_lt, hsecond _ a.o1.toNat_lt, hthird _ a.o2.toNat_lt,
    hlast _ a.o3.toNat_lt, Nat.or_zero, Nat.or_zero, Nat.or_zero]

/-- Two addresses of one subnet share their first octet, because no prefix is shorter. -/
theorem first_of_netEq {a b : Ip4} {p : Nat} (h8 : 8 ≤ p) (h32 : p ≤ 32)
    (h : a.netEq b (prefixMask p)) : a.o0 = b.o0 := by
  have hmask : ∀ p < 33, 8 ≤ p → (prefixMask p).o0 = -1 := by decide
  have hoctet (x : UInt8) : x.toUInt32 &&& (-1 : UInt8).toUInt32 = x.toUInt32 := by
    rw [← UInt8.toUInt32_and, UInt8.and_neg_one]
  rw [netEq, beq_iff_eq] at h
  have htop : (a.toUInt32 &&& (prefixMask p).toUInt32) >>> 24 =
      (b.toUInt32 &&& (prefixMask p).toUInt32) >>> 24 := by rw [h]
  rw [UInt32.shiftRight_and, UInt32.shiftRight_and, toUInt32_shiftRight, toUInt32_shiftRight,
    toUInt32_shiftRight, hmask p (by omega) h8, hoctet, hoctet] at htop
  exact UInt8.toUInt32_inj.mp htop

end Ip4

namespace Device

variable {d : Device}

/-- A packet that the input takes from the tunnel, from neither client nor the device. -/
structure FromTunnel (d : Device) (pkt : Bytes) : Prop where
  accepted : ¬d.stack.isBroadcast (ipSrc pkt) .wg ∧ ¬(ipSrc pkt).isMulticast
  usb : ¬d.inUsbSubnet (ipSrc pkt)
  ap : ¬d.inApSubnet (ipSrc pkt)
  own : ¬d.isOwnAddr (ipSrc pkt)

theorem FromTunnel.source_ne_any {pkt : Bytes} (h : d.FromTunnel pkt) : ipSrc pkt ≠ Ip4.any := by
  intro hany
  apply h.accepted.1
  simp [Stack.isBroadcast, hany]

/-- Where the hook sends such a packet: to the link whose subnet it is for, the USB link first. -/
theorem FromTunnel.hook {pkt : Bytes} (h : d.FromTunnel pkt) (dest : Ip4) :
    d.wgIp4RouteHook .wg (some (ipSrc pkt)) dest =
      if d.inUsbSubnet dest then some .usb
      else if d.inApSubnet dest then d.apActiveNetif
      else if d.wg.exitOn ∧ d.wg.netifAdded then
        if !d.wg.exitLanOn ∧ d.destIsLocalScope dest then some .blackhole
        else if d.wg.staNetif then some .sta else some .blackhole
      else if d.wg.netifAdded then some .wg
      else some .blackhole := by
  simp only [wgIp4RouteHook, h.source_ne_any, h.own, h.usb, h.ap, false_or, if_false,
    Bool.false_eq_true, and_true]

/-- The hook sends a packet to the USB link exactly when it is for its subnet. -/
theorem FromTunnel.hook_usb {pkt : Bytes} (h : d.FromTunnel pkt) (dest : Ip4) :
    d.wgIp4RouteHook .wg (some (ipSrc pkt)) dest = some .usb ↔ d.inUsbSubnet dest := by
  rw [h.hook, apActiveNetif]
  split_ifs <;> simp_all

theorem apUp_of_inApSubnet {a : Ip4} (h : d.inApSubnet a) : d.ap.up := by
  unfold inApSubnet at h
  split_ifs at h with hoff
  simp_all

/-- It sends one to the access point when it is for its subnet and not for that of the USB
link. -/
theorem FromTunnel.hook_ap {pkt : Bytes} (h : d.FromTunnel pkt) (dest : Ip4) :
    d.wgIp4RouteHook .wg (some (ipSrc pkt)) dest = some .ap ↔
      d.inApSubnet dest ∧ ¬d.inUsbSubnet dest := by
  have hap := d.apUp_of_inApSubnet (a := dest)
  rw [h.hook, apActiveNetif]
  split_ifs <;> simp_all

/-- There are such packets for any destination, as long as each client's subnet is within one first
octet. -/
theorem exists_fromTunnel {usb ap : Ip4} (husb : ∀ a, d.inUsbSubnet a → a.o0 = usb.o0)
    (hap : ∀ a, d.inApSubnet a → a.o0 = ap.o0) (dest : Ip4) :
    ∃ pkt, d.FromTunnel pkt ∧ ipDst pkt = dest := by
  -- more first octets than interfaces and subnets
  let octets : Finset UInt8 := {1, 2, 3, 4, 5, 6, 7, 8}
  let netifs : List NetifId := [.sta, .ap, .usb, .wg, .blackhole]
  let taken := (usb.o0 :: ap.o0 :: netifs.map fun i => (d.stack.netif i).addr.o0).toFinset
  have hcard : taken.card < octets.card := by
    have hle : taken.card ≤ 7 := List.toFinset_card_le _
    have height : octets.card = 8 := rfl
    omega
  obtain ⟨k, hk, hfree⟩ := Finset.exists_mem_notMem_of_card_lt_card hcard
  simp only [taken, List.mem_toFinset, List.mem_cons, not_or] at hfree
  obtain ⟨hkusb, hkap, hkown⟩ := hfree
  have hkinds : k ≠ 0 ∧ k ≠ 255 ∧ k &&& 0xF0 ≠ 0xE0 := by
    have hall : ∀ k ∈ octets, k ≠ 0 ∧ k ≠ 255 ∧ k &&& 0xF0 ≠ 0xE0 := by
      simp only [octets, Finset.forall_mem_insert, Finset.mem_singleton, forall_eq]
      decide
    exact hall k hk
  have hsrc : ipSrc (List.replicate 12 0 ++ [k, 0, 0, 1] ++ dest.octets) = ⟨k, 0, 0, 1⟩ := rfl
  refine ⟨List.replicate 12 0 ++ [k, 0, 0, 1] ++ dest.octets, ⟨?_, ?_, ?_, ?_⟩, rfl⟩
  · rw [hsrc]
    simp [Stack.isBroadcast, Ip4.any, Ip4.isMulticast, hkinds]
  · rw [hsrc]
    exact fun hin => hkusb (husb _ hin)
  · rw [hsrc]
    exact fun hin => hkap (hap _ hin)
  · rw [hsrc, isOwnAddr, List.any_eq_true]
    rintro ⟨i, -, hi⟩
    simp only [Bool.and_eq_true, beq_iff_eq] at hi
    have hmem : i ∈ netifs := by cases i <;> decide
    exact hkown (List.mem_map.mpr ⟨i, hmem, (congrArg Ip4.o0 hi.2).symm⟩)

end Device

namespace Links

/-! ### The links of one configuration -/

/-- The links while a configuration is applied to them: the tunnel and the USB link, and the access
point from it or from an edit that left the tunnel's settings alone. -/
inductive AppliedFrom : Config → Links → Prop
  | applyWg {w : Links} (h : Reached (fun _ => True) w) (cfg : Config) (literal : Option Ip4)
      (added stale : Bool) : AppliedFrom cfg (w.applyWg cfg literal added stale)
  | apApply {w : Links} {cfg : Config} (h : AppliedFrom cfg w) {cfg' : Config}
      (hwg : cfg'.wg = cfg.wg) (stale : Bool) : AppliedFrom cfg' (w.apApply cfg' stale)
  | device {w : Links} {cfg : Config} (h : AppliedFrom cfg w) {e : Device.Event}
      (he : e.quiet) : AppliedFrom cfg { w with device := w.device.step e }
  | recv {w : Links} {cfg : Config} (h : AppliedFrom cfg w) (inp : NetifId) (allocated : Bool)
      (data : Bytes) : AppliedFrom cfg (w.recv inp allocated data)

variable {w : Links} {cfg cfg' : Config}

/-- What the subnet tests see of a complete configuration. -/
structure Serves (w : Links) (cfg : Config) : Prop where
  apInv : w.ApInv
  usbAddr : configWgComplete cfg → w.addrOf .usb = cfg.wg.addr
  usbMask : configWgComplete cfg →
    (w.device.stack.netif .usb).mask = Ip4.prefixMask cfg.wg.plen.toNat
  apUp : w.device.ap.up ↔ apWanted cfg
  apView : apWanted cfg → w.apView = wantedView cfg

theorem configWgComplete_congr (h : cfg'.wg = cfg.wg) :
    configWgComplete cfg' = configWgComplete cfg := by
  unfold configWgComplete
  rw [h]

/-- A complete tunnel has an address, and a prefix of a client link. -/
theorem configWgComplete_usb (h : configWgComplete cfg) :
    cfg.wg.addr ≠ Ip4.any ∧ 8 ≤ cfg.wg.plen.toNat ∧ cfg.wg.plen.toNat ≤ 30 := by
  unfold configWgComplete at h
  simp only [Bool.and_eq_true, decide_eq_true_eq, bne_iff_ne, UInt8.le_iff_toNat_le] at h
  tauto

theorem configApComplete_link (h : configApComplete cfg) :
    cfg.ap.addr ≠ Ip4.any ∧ 8 ≤ cfg.ap.plen.toNat ∧ cfg.ap.plen.toNat ≤ 30 := by
  unfold configApComplete at h
  dsimp only at h
  split_ifs at h with hpass haddr
  simp only [not_or, UInt8.lt_iff_toNat_lt] at haddr
  obtain ⟨hany, -, -, hlow, hhigh⟩ := haddr
  exact ⟨hany, Nat.not_lt.mp hlow, Nat.not_lt.mp hhigh⟩

/-- The access point comes and goes without the USB link. -/
theorem apApply_usb (w : Links) (cfg : Config) (stale : Bool) :
    (w.apApply cfg stale).device.stack.netif .usb = w.device.stack.netif .usb := by
  have hdown (w : Links) : w.apTeardown.device.stack.netif .usb = w.device.stack.netif .usb := by
    simp [Device.apTeardown, Stack.setAddr, Stack.setUp, Stack.setLink]
  have hup (w : Links) : (w.apBringUp cfg).device.stack.netif .usb = w.device.stack.netif .usb := by
    simp [Device.apBringUp, Device.enableApMode, Stack.setAddr, Stack.setUp, Stack.setDefault,
      Stack.add, Stack.remove]
  obtain ⟨-, -, -, -, -, heq⟩ | ⟨w', hw', heq⟩ := apApply_cases w cfg stale
  · rw [heq]
  · have hw : w'.device.stack.netif .usb = w.device.stack.netif .usb := by
      rcases hw' with rfl | ⟨-, rfl⟩
      · exact hdown w
      · rfl
    rw [heq]
    split_ifs
    · rw [hup, hw]
    · exact hw

theorem Serves.device {d : Device} (h : w.Serves cfg) (hap : Device.KeepsLink .ap w.device d)
    (husb : Device.KeepsLink .usb w.device d) : Serves { w with device := d } cfg where
  apInv := h.apInv.device hap
  usbAddr hc := husb.addr.trans (h.usbAddr hc)
  usbMask hc := husb.mask.trans (h.usbMask hc)
  apUp := by
    rw [hap.ap]
    exact h.apUp
  apView hwant := by
    rw [← h.apView hwant]
    simp only [Links.apView, addrOf, hap.addr, hap.mask]

theorem Serves.recv (h : w.Serves cfg) (inp : NetifId) (allocated : Bool) (data : Bytes) :
    (w.recv inp allocated data).Serves cfg where
  apInv := h.apInv.recv inp allocated data
  usbAddr hc := by rw [addrOf, recv_device]; exact h.usbAddr hc
  usbMask hc := by rw [recv_device]; exact h.usbMask hc
  apUp := by rw [recv_device]; exact h.apUp
  apView hwant := by
    obtain ⟨dhcp, heq, hscopes⟩ := recv_cases w inp allocated data
    rw [← h.apView hwant, heq, Links.apView, Links.apView, hscopes .ap]
    rfl

theorem Serves.apApply (h : w.Serves cfg) (hwg : cfg'.wg = cfg.wg) (stale : Bool) :
    (w.apApply cfg' stale).Serves cfg' where
  apInv := h.apInv.apApply cfg' stale
  usbAddr hc := by
    rw [addrOf, apApply_usb, hwg]
    exact h.usbAddr (configWgComplete_congr hwg ▸ hc)
  usbMask hc := by
    rw [apApply_usb, hwg]
    exact h.usbMask (configWgComplete_congr hwg ▸ hc)
  apUp := (apApply_view h.apInv cfg' stale).1
  apView := (apApply_view h.apInv cfg' stale).2

theorem serves_applyWg (h : w.ApInv) (cfg : Config) (literal : Option Ip4) (added stale : Bool) :
    (w.applyWg cfg literal added stale).Serves cfg := by
  obtain ⟨w', heq, hinv, husb⟩ := applyWg_before w cfg literal added stale
  obtain ⟨hup, hview⟩ := apApply_view (hinv h) cfg stale
  rw [heq]
  refine ⟨(hinv h).apApply cfg stale, fun hc => ?_, fun hc => ?_, hup, hview⟩
  · rw [addrOf, apApply_usb]
    exact (husb hc).1
  · rw [apApply_usb, (husb hc).2, if_neg (configWgComplete_usb hc).1]

/-- The links serve the configuration they were applied from. -/
theorem AppliedFrom.serves (h : AppliedFrom cfg w) : w.Serves cfg := by
  induction h with
  | applyWg h cfg literal added stale => exact serves_applyWg h.apInv cfg literal added stale
  | apApply _ hwg stale ih => exact ih.apApply hwg stale
  | device _ he ih =>
    exact ih.device (Device.keepsLink_step Device.isClientLink_ap he)
      (Device.keepsLink_step Device.isClientLink_usb he)
  | recv _ inp allocated data ih => exact ih.recv inp allocated data

theorem Serves.inUsbSubnet (h : w.Serves cfg) (hc : configWgComplete cfg) (a : Ip4) :
    w.device.inUsbSubnet a = a.netEq cfg.wg.addr (Ip4.prefixMask cfg.wg.plen.toNat) := by
  have haddr : (w.device.stack.netif .usb).addr = cfg.wg.addr := h.usbAddr hc
  rw [Device.inUsbSubnet, Netif.onLink, haddr, h.usbMask hc, if_neg (configWgComplete_usb hc).1]

theorem Serves.inApSubnet (h : w.Serves cfg) (hwant : apWanted cfg) (a : Ip4) :
    w.device.inApSubnet a = a.netEq cfg.ap.addr (Ip4.prefixMask cfg.ap.plen.toNat) := by
  have haddr : (w.device.stack.netif .ap).addr = cfg.ap.addr :=
    congrArg ApView.addr (h.apView hwant)
  have hmask : (w.device.stack.netif .ap).mask = Ip4.prefixMask cfg.ap.plen.toNat :=
    congrArg ApView.mask (h.apView hwant)
  have hany := (configApComplete_link (apWanted_iff.mp hwant).2).1
  rw [Device.inApSubnet, Netif.onLink, haddr, hmask, h.apUp.mpr hwant]
  simp [hany]

/-! ### Delivery -/

/-- Every packet from the tunnel for the host leaves on the USB link, and every one for the client
of a running access point on its link. -/
def Delivers (w : Links) (cfg : Config) : Prop :=
  ∀ pkt, w.device.FromTunnel pkt →
    (ipDst pkt = cfg.wg.hostAddr →
      w.device.wgIp4RouteHook .wg (some (ipSrc pkt)) (ipDst pkt) = some .usb) ∧
    (w.device.ap.up → ipDst pkt = cfg.ap.clientAddr →
      w.device.wgIp4RouteHook .wg (some (ipSrc pkt)) (ipDst pkt) = some .ap)

/-- The host's address is in the subnet of the USB link, and the client's is not. -/
def Separated (cfg : Config) : Bool :=
  let mask := Ip4.prefixMask cfg.wg.plen.toNat
  cfg.wg.hostAddr.netEq cfg.wg.addr mask &&
    !(apWanted cfg && cfg.ap.clientAddr.netEq cfg.wg.addr mask)

theorem separated_iff : Separated cfg ↔
    cfg.wg.hostAddr.netEq cfg.wg.addr (Ip4.prefixMask cfg.wg.plen.toNat) ∧
      (apWanted cfg →
        ¬cfg.ap.clientAddr.netEq cfg.wg.addr (Ip4.prefixMask cfg.wg.plen.toNat)) := by
  simp only [Separated, Bool.and_eq_true, Bool.not_eq_true', Bool.and_eq_false_imp,
    Bool.not_eq_true]

theorem Serves.delivers_iff (h : w.Serves cfg) (hc : configWgComplete cfg) :
    w.Delivers cfg ↔ Separated cfg := by
  obtain ⟨-, h8, h30⟩ := configWgComplete_usb hc
  have husb (a : Ip4) := h.inUsbSubnet hc a
  rw [separated_iff]
  constructor
  · intro hdelivers
    have husb8 (a : Ip4) (hin : w.device.inUsbSubnet a) : a.o0 = cfg.wg.addr.o0 := by
      rw [husb] at hin
      exact Ip4.first_of_netEq h8 (by omega) hin
    have hap8 (a : Ip4) (hin : w.device.inApSubnet a) : a.o0 = cfg.ap.addr.o0 := by
      have hwant := h.apUp.mp (Device.apUp_of_inApSubnet hin)
      obtain ⟨-, h8, h30⟩ := configApComplete_link (apWanted_iff.mp hwant).2
      rw [h.inApSubnet hwant] at hin
      exact Ip4.first_of_netEq h8 (by omega) hin
    refine ⟨?_, fun hwant => ?_⟩
    · obtain ⟨pkt, hfrom, hdst⟩ := Device.exists_fromTunnel husb8 hap8 cfg.wg.hostAddr
      have hout := (hdelivers pkt hfrom).1 hdst
      rwa [hfrom.hook_usb, hdst, husb] at hout
    · obtain ⟨pkt, hfrom, hdst⟩ := Device.exists_fromTunnel husb8 hap8 cfg.ap.clientAddr
      have hout := (hdelivers pkt hfrom).2 (h.apUp.mpr hwant) hdst
      rw [hfrom.hook_ap, hdst, husb] at hout
      exact hout.2
  · rintro ⟨hhost, hclient⟩ pkt hfrom
    refine ⟨fun hdst => ?_, fun hup hdst => ?_⟩
    · rw [hfrom.hook_usb, hdst, husb]
      exact hhost
    · have hwant := h.apUp.mp hup
      rw [hfrom.hook_ap, hdst, husb, h.inApSubnet hwant]
      exact ⟨configApComplete_netEq (apWanted_iff.mp hwant).2, hclient hwant⟩

/-- **Accepted configurations that deliver.** A complete configuration delivers to its own clients
exactly when it separates them, in whatever state the links that were applied from it are. -/
theorem client_delivery_iff (h : AppliedFrom cfg w) (hc : configWgComplete cfg) :
    w.Delivers cfg ↔ Separated cfg :=
  h.serves.delivers_iff hc

/-- A host whose address is not on the USB link. -/
def strandedConfig : Config :=
  { Device.provisionedConfig with
    wg := { Device.provisionedConfig.wg with hostAddr := ⟨10, 7, 9, 2⟩ } }

/-- The configuration is accepted, and the packets for that host go back into the tunnel. -/
theorem client_delivery_fails :
    configWgComplete strandedConfig ∧ configApComplete strandedConfig ∧
      AppliedFrom strandedConfig ((boot {}).applyWg strandedConfig (some ⟨192, 0, 2, 1⟩) true
        false) ∧
      ¬((boot {}).applyWg strandedConfig (some ⟨192, 0, 2, 1⟩) true false).Delivers
        strandedConfig := by
  have hboot : Reached (fun _ => True) (boot {}) := .start ⟨{}, rfl⟩
  refine ⟨by decide, by decide, .applyWg hboot _ _ _ _, fun hdelivers => ?_⟩
  have hpkt := hdelivers (udpDatagram ⟨198, 51, 100, 7⟩ ⟨10, 7, 9, 2⟩ (0, 53) (0x30, 0x39))
    ⟨by decide, by decide, by decide, by decide⟩
  have hout := hpkt.1 rfl
  revert hout
  decide

/-- The provisioned device delivers to its clients. -/
theorem client_delivery_provisioned :
    ((boot {}).applyWg Device.provisionedConfig (some ⟨192, 0, 2, 1⟩) true false).Delivers
      Device.provisionedConfig := by
  have hboot : Reached (fun _ => True) (boot {}) := .start ⟨{}, rfl⟩
  exact (client_delivery_iff (.applyWg hboot _ _ _ _) (by decide)).mpr (by decide)

end Links

end Molewire
