/-
# Who can reach whom

The route hook reads the sender off the packet. A packet with a source of its
own choice from either client link, or from the uplink, is therefore routed by
what it claims: with one of the device's own addresses it gets the ordinary
lookup, and with an address of neither client subnet it passes for tunnel
traffic. The results say for every state and every packet when each confinement
holds, and runs that reach a state where it does not.
-/

import Molewire.Datapath

namespace Molewire

open ByteBuffer Transition

namespace Device

/-! ### The client links -/

section Clients

variable {d : Device} {inp : NetifId} {pkt : Bytes}

/-- Where a packet of a foreign source leaves, when it did not come from the tunnel: a client link,
the tunnel or the blackhole. -/
theorem egress_ne_sta_of_not_own (h : d.Forwarded inp pkt) (hwg : inp ≠ .wg)
    (hown : ¬d.isOwnAddr (ipSrc pkt)) : d.egress inp pkt ≠ some .sta := by
  rw [egress_of_not_own h hown]
  simp only [hwg, and_false, if_false]
  split_ifs <;> decide

/-- **Client confinement.** A packet from the USB link or the access point stays off the station
exactly when it does not carry one of the device's own addresses as source while the ordinary
lookup sends its destination out of the station. -/
theorem client_confinement_iff (hinp : inp = .usb ∨ inp = .ap) (h : d.Forwarded inp pkt) :
    d.egress inp pkt ≠ some .sta ↔
      ¬(d.isOwnAddr (ipSrc pkt) ∧ d.stack.ip4Route (ipDst pkt) = some .sta) := by
  by_cases hown : d.isOwnAddr (ipSrc pkt)
  · rw [egress_of_own hown]
    tauto
  · have hwg : inp ≠ .wg := by rcases hinp with rfl | rfl <;> decide
    have hne := egress_ne_sta_of_not_own h hwg hown
    tauto

/-- The host forges the station's leased address. -/
theorem client_confinement_fails :
    ¬∀ (d : Device) (inp : NetifId) (pkt : Bytes), d.Reachable → inp = .usb ∨ inp = .ap →
      d.Forwarded inp pkt → d.egress inp pkt ≠ some .sta := by
  intro hclaim
  exact hclaim provisioned .usb
    (udpDatagram ⟨192, 168, 1, 66⟩ ⟨8, 8, 8, 8⟩ (0x12, 0x34) (0, 53)) provisioned_reachable
    (.inl rfl) (by decide +kernel) (by decide +kernel)

theorem client_confinement_iff_host :
    provisioned.egress .usb (udpDatagram ⟨10, 7, 0, 2⟩ ⟨8, 8, 8, 8⟩ (0x12, 0x34) (0, 53)) ≠
      some .sta :=
  (client_confinement_iff (.inl rfl) (by decide +kernel)).mpr (by decide +kernel)

/-- **Isolation, access point to USB.** -/
theorem ap_to_usb_iff (h : d.Forwarded .ap pkt) :
    d.egress .ap pkt ≠ some .usb ↔
      (d.isOwnAddr (ipSrc pkt) → d.stack.ip4Route (ipDst pkt) ≠ some .usb) ∧
      (¬d.isOwnAddr (ipSrc pkt) → d.inUsbSubnet (ipDst pkt) → d.inApSubnet (ipSrc pkt)) := by
  by_cases hown : d.isOwnAddr (ipSrc pkt)
  · rw [egress_of_own hown]
    tauto
  · rw [egress_of_not_own h hown]
    split_ifs <;> simp_all

/-- **Isolation, USB to access point.** -/
theorem usb_to_ap_iff (h : d.Forwarded .usb pkt) :
    d.egress .usb pkt ≠ some .ap ↔
      (d.isOwnAddr (ipSrc pkt) → d.stack.ip4Route (ipDst pkt) ≠ some .ap) ∧
      (¬d.isOwnAddr (ipSrc pkt) → ¬d.inUsbSubnet (ipDst pkt) → d.inApSubnet (ipDst pkt) →
        d.inUsbSubnet (ipSrc pkt)) := by
  by_cases hown : d.isOwnAddr (ipSrc pkt)
  · rw [egress_of_own hown]
    tauto
  · rw [egress_of_not_own h hown]
    split_ifs <;> simp_all

/-- **Mutual isolation of the two client links.** A packet of one client stays off the other link
exactly when it carries neither one of the device's own addresses, unless the ordinary lookup sends
it elsewhere, nor a source outside its own subnet while it is meant for the other link. -/
theorem client_isolation_iff (d : Device) :
    (∀ pkt, d.Forwarded .ap pkt → (d.egress .ap pkt ≠ some .usb ↔
      (d.isOwnAddr (ipSrc pkt) → d.stack.ip4Route (ipDst pkt) ≠ some .usb) ∧
      (¬d.isOwnAddr (ipSrc pkt) → d.inUsbSubnet (ipDst pkt) → d.inApSubnet (ipSrc pkt)))) ∧
    (∀ pkt, d.Forwarded .usb pkt → (d.egress .usb pkt ≠ some .ap ↔
      (d.isOwnAddr (ipSrc pkt) → d.stack.ip4Route (ipDst pkt) ≠ some .ap) ∧
      (¬d.isOwnAddr (ipSrc pkt) → ¬d.inUsbSubnet (ipDst pkt) → d.inApSubnet (ipDst pkt) →
        d.inUsbSubnet (ipSrc pkt)))) :=
  ⟨fun _ h => ap_to_usb_iff h, fun _ h => usb_to_ap_iff h⟩

/-- The quarantined client writes to the host under an address of neither link. -/
theorem client_isolation_fails :
    ¬∀ (d : Device) (pkt : Bytes), d.Reachable → d.ap.up →
      (d.Forwarded .ap pkt → d.egress .ap pkt ≠ some .usb) ∧
      (d.Forwarded .usb pkt → d.egress .usb pkt ≠ some .ap) := by
  intro hclaim
  exact (hclaim provisioned (udpDatagram ⟨9, 9, 9, 9⟩ ⟨10, 7, 0, 2⟩ (0x12, 0x34) (0, 53))
    provisioned_reachable (by decide +kernel)).1 (by decide +kernel) (by decide +kernel)

theorem client_isolation_iff_quarantined :
    provisioned.egress .ap (udpDatagram ⟨10, 7, 1, 2⟩ ⟨10, 7, 0, 2⟩ (0x12, 0x34) (0, 53)) ≠
      some .usb :=
  ((client_isolation_iff provisioned).1 _ (by decide +kernel)).mpr
    ⟨by decide +kernel, by decide +kernel⟩

end Clients

/-! ### The uplink -/

section Uplink

variable {d : Device} {pkt : Bytes}

/-- A station packet that matches no mapping goes on unchanged. -/
theorem wgIp4InputHook_miss {inp : NetifId} {now : UInt32}
    (hmiss : ¬(d.wgIp4InputHook inp pkt now).translated) :
    d.wgIp4InputHook inp pkt now = ⟨false, d.napt, pkt⟩ := by
  unfold wgIp4InputHook at hmiss ⊢
  split_ifs at hmiss ⊢
  · obtain ⟨v, i, -, -, -, -, -, -, -, heq⟩ | heq := naptInbound_cases d.napt pkt pkt.length now
    · rw [heq] at hmiss
      exact absurd rfl hmiss
    · exact heq
  · rfl

/-- **The way in from the uplink.** A station packet the input hook leaves alone stays off the
client links and the tunnel exactly when the ordinary lookup keeps it off them, if its source is
one of the device's own addresses, and otherwise when it is meant for one client with a source in
the subnet of the other, or for neither client while there is no tunnel interface. -/
theorem uplink_confinement_iff {now : UInt32}
    (hmiss : ¬(d.wgIp4InputHook .sta pkt now).translated)
    (h : d.Forwarded .sta (d.wgIp4InputHook .sta pkt now).pkt) :
    d.egress .sta (d.wgIp4InputHook .sta pkt now).pkt ∉ [some .usb, some .ap, some .wg] ↔
      (d.isOwnAddr (ipSrc pkt) →
        d.stack.ip4Route (ipDst pkt) ∉ [some .usb, some .ap, some .wg]) ∧
      (¬d.isOwnAddr (ipSrc pkt) →
        (d.inUsbSubnet (ipDst pkt) ∧ d.inApSubnet (ipSrc pkt)) ∨
        (¬d.inUsbSubnet (ipDst pkt) ∧ d.inApSubnet (ipDst pkt) ∧ d.inUsbSubnet (ipSrc pkt)) ∨
        (¬d.inUsbSubnet (ipDst pkt) ∧ ¬d.inApSubnet (ipDst pkt) ∧ ¬d.wg.netifAdded)) := by
  rw [wgIp4InputHook_miss hmiss] at h ⊢
  dsimp only at h ⊢
  by_cases hown : d.isOwnAddr (ipSrc pkt)
  · rw [egress_of_own hown]
    simp [hown]
  · rw [egress_of_not_own h hown]
    split_ifs <;> simp_all

/-- A neighbour on the uplink uses the device as its router to the USB host. -/
theorem uplink_confinement_fails :
    ¬∀ (d : Device) (pkt : Bytes) (now : UInt32), d.Reachable →
      ¬(d.wgIp4InputHook .sta pkt now).translated →
      d.Forwarded .sta (d.wgIp4InputHook .sta pkt now).pkt →
      d.egress .sta (d.wgIp4InputHook .sta pkt now).pkt ∉ [some .usb, some .ap, some .wg] := by
  intro hclaim
  exact hclaim provisioned
    (udpDatagram ⟨192, 168, 1, 50⟩ ⟨10, 7, 0, 2⟩ (0x12, 0x34) (0, 53)) 0 provisioned_reachable
    (by decide +kernel) (by decide +kernel) (by decide +kernel)

theorem uplink_confinement_iff_forged :
    provisioned.egress .sta (provisioned.wgIp4InputHook .sta
      (udpDatagram ⟨10, 7, 1, 2⟩ ⟨10, 7, 0, 2⟩ (0x12, 0x34) (0, 53)) 0).pkt ∉
        [some .usb, some .ap, some .wg] :=
  (uplink_confinement_iff (by decide +kernel) (by decide +kernel)).mpr
    ⟨by decide +kernel, by decide +kernel⟩

end Uplink

end Device

end Molewire
