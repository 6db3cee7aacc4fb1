/-
# Exit mode

What reaches the station's original output of the traffic decrypted on the
tunnel. While exit mode is on the output is wrapped and the station known, in
every run. A packet with a foreign source that the hook sends to the station is
masqueraded or dropped; one that carries an address of the device escapes both
filters, and one that is masqueraded carries the external address the NAT last
learned, which is the station's only until its lease changes.
-/

import Molewire.Datapath

namespace Molewire

open ByteBuffer OnesComplement Transition

namespace Device

/-! ### Exit mode in every run -/

/-- What exit mode relies on. -/
structure Inv (d : Device) : Prop where
  nodup : d.stack.list.Nodup
  listed : .wg ∈ d.stack.list ↔ d.wg.netifAdded
  wrapped : d.wg.netifAdded ∨ d.wg.exitOn → d.wg.staNetif ∧ d.wg.wrapped

/-- The two states agree on everything the invariant reads. -/
structure SameExit (d d' : Device) : Prop where
  list : d'.stack.list = d.stack.list
  netifAdded : d'.wg.netifAdded = d.wg.netifAdded
  exitOn : d'.wg.exitOn = d.wg.exitOn
  staNetif : d'.wg.staNetif = d.wg.staNetif
  wrapped : d'.wg.wrapped = d.wg.wrapped

theorem SameExit.refl (d : Device) : SameExit d d := ⟨rfl, rfl, rfl, rfl, rfl⟩

theorem SameExit.trans {d d' d'' : Device} (h : SameExit d d') (h' : SameExit d' d'') :
    SameExit d d'' where
  list := h'.list.trans h.list
  netifAdded := h'.netifAdded.trans h.netifAdded
  exitOn := h'.exitOn.trans h.exitOn
  staNetif := h'.staNetif.trans h.staNetif
  wrapped := h'.wrapped.trans h.wrapped

theorem Inv.of_same {d d' : Device} (h : d.Inv) (hs : SameExit d d') : d'.Inv where
  nodup := by rw [hs.list]; exact h.nodup
  listed := by rw [hs.list, hs.netifAdded]; exact h.listed
  wrapped := by rw [hs.netifAdded, hs.exitOn, hs.staNetif, hs.wrapped]; exact h.wrapped

/-- After a teardown there is no tunnel interface and no exit mode. -/
theorem wgTeardown_spec {d : Device} (hnodup : d.stack.list.Nodup)
    (hlisted : .wg ∈ d.stack.list ↔ d.wg.netifAdded) :
    d.wgTeardown.stack.list.Nodup ∧ .wg ∉ d.wgTeardown.stack.list ∧
      d.wgTeardown.wg.netifAdded = false ∧ d.wgTeardown.wg.exitOn = false ∧
      d.wgTeardown.wg.staNetif = d.wg.staNetif := by
  -- the interface is removed once, and only if it was added
  have hlist : d.wgTeardown.stack.list = d.stack.list.erase .wg := by
    by_cases hadded : d.wg.netifAdded
    · simp only [wgTeardown, hadded, if_true, Stack.remove]
      split_ifs <;> rfl
    · have hnot : .wg ∉ d.stack.list := fun hmem => hadded (hlisted.mp hmem)
      rw [List.erase_of_not_mem hnot]
      simp [wgTeardown, hadded]
  refine ⟨?_, ?_, rfl, rfl, rfl⟩
  · rw [hlist]
    exact hnodup.erase .wg
  · rw [hlist, hnodup.mem_erase_iff]
    exact fun h => h.1 rfl

theorem sameExit_dnsResolvedCb (d : Device) (a : Option Ip4) :
    SameExit d (d.dnsResolvedCb a) := by
  cases a <;> exact ⟨rfl, rfl, rfl, rfl, rfl⟩

theorem Inv.startExit {d : Device} (h : d.Inv) (hsta : d.wg.staNetif) (hwrapped : d.wg.wrapped) :
    d.startExit.Inv := by
  unfold Device.startExit
  split_ifs
  · exact ⟨h.nodup, h.listed, fun _ => ⟨hsta, hwrapped⟩⟩
  · exact h

theorem startExit_wg (d : Device) : d.startExit.wg.netifAdded = d.wg.netifAdded ∧
    d.startExit.wg.staNetif = d.wg.staNetif ∧ d.startExit.wg.wrapped = d.wg.wrapped := by
  unfold startExit
  split_ifs <;> exact ⟨rfl, rfl, rfl⟩

theorem Inv.addTunnel {d : Device} (h : d.Inv) (hadded : d.wg.netifAdded = false)
    (hsta : d.wg.staNetif) (hwrapped : d.wg.wrapped) (added : Bool) : (d.addTunnel added).Inv := by
  have hnot : .wg ∉ d.stack.list := fun hmem => by simp [h.listed.mp hmem] at hadded
  unfold Device.addTunnel
  split_ifs
  · exact ⟨List.nodup_cons.mpr ⟨hnot, h.nodup⟩, by simp [Stack.add, Stack.setUp],
      fun _ => ⟨hsta, hwrapped⟩⟩
  · exact h

theorem Inv.wgApply {d : Device} (h : d.Inv) (cfg : Config) (literal : Option Ip4)
    (added : Bool) : (d.wgApply cfg literal added).Inv := by
  obtain ⟨hnodup, hnot, hadded, hexit, hsta⟩ :=
    wgTeardown_spec (d := { d with wg := { d.wg with staNetif := true } }) h.nodup h.listed
  unfold Device.wgApply
  dsimp only
  split
  · -- the device after the teardown and the new setting, before exit mode starts
    generalize hd1 : ({ stack := _, wg := _, ap := _, napt := _ } : Device) = d1
    have hd1' : d1.Inv ∧ d1.wg.netifAdded = false ∧ d1.wg.staNetif = true ∧
        d1.wg.wrapped = true := by
      subst hd1
      exact ⟨⟨hnodup, by simp [hnot, hadded], fun _ => ⟨hsta, rfl⟩⟩, hadded, hsta, rfl⟩
    obtain ⟨hinv, hadded1, hsta1, hwrapped1⟩ := hd1'
    obtain ⟨he1, he2, he3⟩ := startExit_wg d1
    have hs := sameExit_dnsResolvedCb d1.startExit literal
    exact ((hinv.startExit hsta1 hwrapped1).of_same hs).addTunnel
      (by rw [hs.netifAdded, he1, hadded1]) (by rw [hs.staNetif, he2, hsta1])
      (by rw [hs.wrapped, he3, hwrapped1]) added
  · exact ⟨hnodup, by simp [hnot, hadded], fun _ => ⟨hsta, rfl⟩⟩

/-- The access point touches neither the tunnel nor exit mode. -/
theorem Inv.apBringUp {d : Device} (h : d.Inv) (cfg : Config) (dns : Ip4) (mtu : UInt16) :
    (d.apBringUp cfg dns mtu).Inv := by
  have hlist : (d.apBringUp cfg dns mtu).stack.list = .ap :: d.stack.list.erase .ap := rfl
  have hadded : (d.apBringUp cfg dns mtu).wg.netifAdded = d.wg.netifAdded := rfl
  refine ⟨?_, ?_, h.wrapped⟩
  · rw [hlist, List.nodup_cons, h.nodup.mem_erase_iff]
    exact ⟨fun hmem => hmem.1 rfl, h.nodup.erase .ap⟩
  · rw [hlist, hadded, List.mem_cons, h.nodup.mem_erase_iff]
    simpa using h.listed

theorem Inv.apApply {d : Device} (h : d.Inv) (cfg : Config) : (d.apApply cfg).Inv := by
  have hdown : d.apTeardown.Inv := h.of_same ⟨rfl, rfl, rfl, rfl, rfl⟩
  unfold Device.apApply
  dsimp only
  split_ifs
  · exact h
  · exact hdown.apBringUp cfg cfg.wg.dns (apMtu cfg)
  · exact h.apBringUp cfg cfg.wg.dns (apMtu cfg)
  · exact hdown
  · exact h

theorem sameExit_refreshExt (d : Device) : SameExit d d.refreshExt := by
  unfold refreshExt
  split_ifs <;> exact ⟨rfl, rfl, rfl, rfl, rfl⟩

theorem sameExit_pollResolving (d : Device) (now : UInt32) (ans : PollAnswers) :
    SameExit d (d.pollResolving now ans) := by
  have hask : SameExit d
      (dnsResolvedCb { d with wg := { d.wg with lastResolveMs := now } } ans.cached) := by
    have hs := sameExit_dnsResolvedCb { d with wg := { d.wg with lastResolveMs := now } } ans.cached
    exact ⟨hs.list, hs.netifAdded, hs.exitOn, hs.staNetif, hs.wrapped⟩
  unfold pollResolving
  dsimp only
  split_ifs
  · exact hask.trans ⟨rfl, rfl, rfl, rfl, rfl⟩
  · exact hask
  · exact ⟨rfl, rfl, rfl, rfl, rfl⟩
  · exact .refl d

theorem sameExit_pollSession (d : Device) (now : UInt32) (ans : PollAnswers) :
    SameExit d (d.pollSession now ans) := by
  unfold pollSession
  dsimp only
  split_ifs <;> exact ⟨rfl, rfl, rfl, rfl, rfl⟩

/-- A poll may move the default interface and the masquerade address, nothing exit mode relies
on. -/
theorem sameExit_wgPoll (d : Device) (now : UInt32) (ans : PollAnswers) :
    SameExit d (d.wgPoll now ans) := by
  unfold wgPoll
  split_ifs
  · exact .refl d
  · exact .refl d
  · exact (sameExit_refreshExt d).trans (sameExit_pollResolving _ now ans)
  · exact (sameExit_refreshExt d).trans (sameExit_pollSession _ now ans)

theorem sameExit_staOutput (d : Device) (pkt : Bytes) (now : UInt32) :
    SameExit d (d.staOutput pkt now).1 := by
  unfold staOutput exitStaOutput
  dsimp only
  split_ifs <;> exact ⟨rfl, rfl, rfl, rfl, rfl⟩

/-- One event keeps the invariant. -/
theorem Inv.step {d : Device} (h : d.Inv) (e : Event) : (d.step e).Inv := by
  cases e with
  | applyWg cfg literal added =>
    have husb : ∀ a p, (d.usbNetSetAddr a p).Inv :=
      fun a p => h.of_same ⟨rfl, rfl, rfl, rfl, rfl⟩
    unfold Device.step Device.applyWg
    dsimp only
    split_ifs
    · exact ((husb _ _).wgApply cfg literal added).apApply cfg
    · exact ((husb _ _).wgApply cfg literal added).apApply cfg
  | apApply cfg => exact h.apApply cfg
  | wgPoll now ans => exact h.of_same (sameExit_wgPoll d now ans)
  | dnsResolved answer => exact h.of_same (sameExit_dnsResolvedCb d answer)
  | lease addr mask => exact h.of_same ⟨rfl, rfl, rfl, rfl, rfl⟩
  | link i linkUp => exact h.of_same ⟨rfl, rfl, rfl, rfl, rfl⟩
  | input inp pkt now => exact h.of_same ⟨rfl, rfl, rfl, rfl, rfl⟩
  | staOutput pkt now => exact h.of_same (sameExit_staOutput d pkt now)

theorem inv_boot (cfg : Config) : (boot cfg).Inv where
  nodup := by simp [boot, Stack.add, Stack.setUp, Stack.setLink, Stack.setDefault]
  listed := by simp [boot, Stack.add, Stack.setUp, Stack.setLink, Stack.setDefault]
  wrapped h := by simp [boot] at h

theorem Reachable.inv {d : Device} (hd : d.Reachable) : d.Inv := by
  refine Reach.invariant ?_ (fun s e _ _ hs => hs.step e) hd
  rintro s ⟨cfg, rfl⟩
  exact inv_boot cfg

/-! ### Masquerading -/

/-- What `napt_outbound` asks of a packet and of its table. -/
def NaptAccepts (n : Napt) (pkt : Bytes) (now : UInt32) : Prop :=
  n.gExt ≠ Ip4.any ∧ ∃ v, parse pkt pkt.length = some v ∧ (v.proto = 1 → byte pkt v.ihl = 8) ∧
    (outboundEntry n.table now (outboundKey pkt v)).isSome

/-- What of a forwarded packet decrypted on the tunnel reaches the station's original output. -/
def exitSent (d : Device) (pkt : Bytes) (now : UInt32) : Option StaSent :=
  if d.egress .wg pkt = some .sta then (d.staOutput pkt now).2 else none

/-- Sent under the station's address and a port of the NAT range, and beyond the local scope
unless the configuration opens it. -/
structure Masqueraded (d : Device) (pkt : Bytes) (sent : StaSent) : Prop where
  translated : sent.translated
  source : ipSrc sent.pkt = (d.stack.netif .sta).addr
  port : ∃ v, parse pkt pkt.length = some v ∧ 60000 ≤ be16 sent.pkt (keyfield v true) ∧
    be16 sent.pkt (keyfield v true) ≤ 60511
  scope : ¬d.wg.exitLanOn → ¬d.destIsLocalScope (ipDst sent.pkt)

section Masquerade

variable {d : Device} {pkt : Bytes} {now : UInt32}

/-- A translation leaves under the external address with a port of the NAT range, to the same
destination. -/
theorem naptOutbound_sent {n : Napt} (htr : (naptOutbound n pkt pkt.length now).translated) :
    ipSrc (naptOutbound n pkt pkt.length now).pkt = n.gExt ∧
      ipDst (naptOutbound n pkt pkt.length now).pkt = ipDst pkt ∧
      ∃ v, parse pkt pkt.length = some v ∧
        60000 ≤ be16 (naptOutbound n pkt pkt.length now).pkt (keyfield v true) ∧
        be16 (naptOutbound n pkt pkt.length now).pkt (keyfield v true) ≤ 60511 := by
  obtain ⟨v, i, e, hp, hparse, -, -, -, hres⟩ | hres := naptOutbound_cases n pkt pkt.length now
  · have hihl := hp.twenty_le
    have hfield := hp.keyfield_le true
    have hkey := le_keyfield v true
    have hi : i.val < 512 := i.isLt
    rw [hres]
    refine ⟨atOffset_translate (by omega) hkey hfield, ?_, v, hparse, ?_⟩
    · -- the destination is neither the address that is rewritten nor in the transport part
      refine Ip4.atOffset_congr fun k hk => ?_
      dsimp only
      rw [translate, byte_rewritePort_of_lt (by omega) hkey,
        byte_rewriteAddr (by omega) (by omega) (by omega)]
    · dsimp only
      rw [be16_translate_field hfield, word_natPortBytes, natPort, naptPortBase]
      omega
  · rw [hres] at htr
    exact absurd htr (by simp)

/-- The wrapper on a packet of a foreign source: masqueraded or swallowed. -/
theorem exitStaOutput_of_not_own (hexit : d.wg.exitOn) (hhdr : 20 ≤ pkt.length ∧ ipVersion pkt = 4)
    (hany : ipSrc pkt ≠ Ip4.any) (hown : ¬d.isOwnAddr (ipSrc pkt)) :
    (d.exitStaOutput pkt now).2 =
      if (naptOutbound d.napt pkt pkt.length now).translated then
        some ⟨(naptOutbound d.napt pkt pkt.length now).pkt, true⟩
      else none := by
  have hcond : d.wg.exitOn ∧ 20 ≤ pkt.length ∧ ipVersion pkt = 4 ∧ ipSrc pkt ≠ Ip4.any ∧
      (!d.isOwnAddr (ipSrc pkt)) = true := ⟨hexit, hhdr.1, hhdr.2, hany, by simpa using hown⟩
  unfold exitStaOutput
  rw [if_pos hcond]
  dsimp only
  split_ifs <;> rfl

/-- A packet under an address of the device leaves as it is: neither filter looks at it. -/
theorem exitSent_of_own (hwrapped : d.wg.wrapped) (hown : d.isOwnAddr (ipSrc pkt)) :
    d.exitSent pkt now =
      if d.stack.ip4Route (ipDst pkt) = some .sta then some ⟨pkt, false⟩ else none := by
  rw [exitSent, egress_of_own hown]
  simp [staOutput, exitStaOutput, hwrapped, hown]

/-- A packet of a foreign source that both filters let pass leaves translated, or not at all. -/
theorem exitSent_of_not_own (hinv : d.Inv) (hexit : d.wg.exitOn)
    (h : d.Forwarded .wg pkt) (hhdr : 20 ≤ pkt.length ∧ ipVersion pkt = 4)
    (hown : ¬d.isOwnAddr (ipSrc pkt)) :
    d.exitSent pkt now =
      if ¬d.inUsbSubnet (ipDst pkt) ∧ ¬d.inApSubnet (ipDst pkt) ∧
          (d.wg.exitLanOn ∨ ¬d.destIsLocalScope (ipDst pkt)) ∧
          (naptOutbound d.napt pkt pkt.length now).translated then
        some ⟨(naptOutbound d.napt pkt pkt.length now).pkt, true⟩
      else none := by
  obtain ⟨hsta, hwrapped⟩ := hinv.wrapped (.inr hexit)
  have hadded : d.wg.netifAdded := hinv.listed.mp h.listed
  rw [exitSent, egress_of_not_own h hown, staOutput, if_pos hwrapped,
    exitStaOutput_of_not_own hexit hhdr h.source_ne_any hown]
  split_ifs <;> simp_all

/-- **Exit mode masquerades.** A packet decrypted on the tunnel that reaches the station's original
output has been masqueraded exactly when it does not slip past both filters under an address of the
device, and the external address the NAT translates to is still the station's. -/
theorem exit_masquerade_iff (hd : d.Reachable) (hexit : d.wg.exitOn) (h : d.Forwarded .wg pkt)
    (hhdr : 20 ≤ pkt.length ∧ ipVersion pkt = 4) :
    (∀ sent, d.exitSent pkt now = some sent → d.Masqueraded pkt sent) ↔
      (d.isOwnAddr (ipSrc pkt) → d.stack.ip4Route (ipDst pkt) ≠ some .sta) ∧
      (¬d.isOwnAddr (ipSrc pkt) → ¬d.inUsbSubnet (ipDst pkt) → ¬d.inApSubnet (ipDst pkt) →
        (d.wg.exitLanOn ∨ ¬d.destIsLocalScope (ipDst pkt)) → NaptAccepts d.napt pkt now →
        d.napt.gExt = (d.stack.netif .sta).addr) := by
  have hinv : d.Inv := hd.inv
  obtain ⟨-, hwrapped⟩ := hinv.wrapped (.inr hexit)
  -- under an address of the device neither filter applies, otherwise both do
  by_cases hown : d.isOwnAddr (ipSrc pkt)
  · rw [exitSent_of_own hwrapped hown]
    constructor
    · intro hall
      refine ⟨fun _ hroute => ?_, fun hnot => absurd hown hnot⟩
      rw [if_pos hroute] at hall
      exact absurd (hall _ rfl).translated (by simp)
    · rintro ⟨hroute, -⟩ sent hs
      rw [if_neg (hroute hown)] at hs
      exact absurd hs (by simp)
  · have haccepts : NaptAccepts d.napt pkt now ↔
        (naptOutbound d.napt pkt pkt.length now).translated :=
      (naptOutbound_translated_iff d.napt pkt pkt.length now).symm
    rw [exitSent_of_not_own hinv hexit h hhdr hown, haccepts]
    constructor
    · intro hall
      refine ⟨fun hown' => absurd hown' hown, fun _ husb hap hscope htr => ?_⟩
      rw [if_pos ⟨husb, hap, hscope, htr⟩] at hall
      exact (naptOutbound_sent htr).1.symm.trans (hall _ rfl).source
    · rintro ⟨-, hext⟩ sent hs
      split_ifs at hs with hcond
      obtain ⟨husb, hap, hscope, htr⟩ := hcond
      obtain rfl := Option.some.inj hs
      obtain ⟨hsrc, hdst, hport⟩ := naptOutbound_sent htr
      refine ⟨rfl, hsrc.trans (hext hown husb hap hscope htr), hport, fun hlan => ?_⟩
      dsimp only
      rw [hdst]
      exact hscope.resolve_left hlan

end Masquerade

/-! ### A device in exit mode -/

/-- An exit node with its session up and a lease from the uplink. -/
def exitNode : Device :=
  [.lease ⟨192, 168, 1, 66⟩ ⟨255, 255, 255, 0⟩, .link .sta true,
    .applyWg { provisionedConfig with
      wg := { provisionedConfig.wg with exitEnabled := true } } (some ⟨192, 0, 2, 1⟩) true,
    .link .wg true, .wgPoll 1000 ⟨none, true, true, true⟩,
    .wgPoll 2000 ⟨none, true, true, true⟩].foldl step (boot {})

theorem exitNode_reachable : exitNode.Reachable := reachable_run {} _

/-- A peer uses the device's own tunnel address as source and reaches a host on the uplink. -/
theorem exit_masquerade_fails :
    ¬∀ (d : Device) (pkt : Bytes) (now : UInt32), d.Reachable → d.wg.exitOn →
      d.Forwarded .wg pkt → 20 ≤ pkt.length ∧ ipVersion pkt = 4 →
      ∀ sent, d.exitSent pkt now = some sent → d.Masqueraded pkt sent := by
  intro hclaim
  have hm := hclaim exitNode
    (udpDatagram ⟨10, 7, 0, 1⟩ ⟨192, 168, 1, 1⟩ (0x12, 0x34) (0, 53)) 3000 exitNode_reachable
    (by decide +kernel) (by decide +kernel) (by decide +kernel)
    ⟨udpDatagram ⟨10, 7, 0, 1⟩ ⟨192, 168, 1, 1⟩ (0x12, 0x34) (0, 53), false⟩ (by decide +kernel)
  exact absurd hm.translated (by decide)

/-- What a peer with its own address sends to the internet leaves masqueraded. -/
theorem exit_masquerade_iff_peer :
    exitNode.Masqueraded (udpDatagram ⟨10, 9, 0, 5⟩ ⟨8, 8, 8, 8⟩ (0x12, 0x34) (0, 53))
      ⟨(naptOutbound exitNode.napt
        (udpDatagram ⟨10, 9, 0, 5⟩ ⟨8, 8, 8, 8⟩ (0x12, 0x34) (0, 53)) 28 3000).pkt, true⟩ := by
  have hall : ∀ sent, exitNode.exitSent
      (udpDatagram ⟨10, 9, 0, 5⟩ ⟨8, 8, 8, 8⟩ (0x12, 0x34) (0, 53)) 3000 = some sent →
        exitNode.Masqueraded
          (udpDatagram ⟨10, 9, 0, 5⟩ ⟨8, 8, 8, 8⟩ (0x12, 0x34) (0, 53)) sent :=
    (exit_masquerade_iff exitNode_reachable (by decide +kernel) (by decide +kernel)
      (by decide +kernel)).mpr
      ⟨fun hown => absurd hown (by decide +kernel), fun _ _ _ _ _ => by decide +kernel⟩
  exact hall _ (by decide +kernel)

end Device

end Molewire
