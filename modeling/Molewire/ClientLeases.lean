/-
# The leases of a device that follows its configuration

Every scope the program sets comes from a configuration in its domain, so the
encoder always has room and every reply says exactly what the scope holds. What
a request asks for is read from the bytes the receiver keeps, the first 600 of
the datagram: an option behind them is not seen.
-/

import Molewire.ClientLinks

namespace Molewire

open ByteBuffer Transition

namespace Links

variable {w : Links} {cfg : Config}

/-! ### Scopes are valid -/

theorem scopeValid_start (nif : NetifId) {l : DhcpLease}
    (h : ∀ r ∈ l.routes, r.plen ≤ 32) : ScopeValid (dhcpServerStart nif l) where
  count := List.length_take_le _ _
  plen r hr := h r (List.mem_of_mem_take hr)
  linkOnly hlink := if_pos hlink

/-- The host's lease, in the tunnel and on the bring-up island. -/
theorem scopeValid_usb (h : Domain cfg) : ScopeValid (dhcpServerStart .usb (usbLease cfg)) := by
  apply scopeValid_start
  unfold usbLease
  split_ifs
  · exact fun r hr => (h.wg.routePlen r hr).2
  · exact List.forall_mem_nil _

theorem scopeValid_ap (cfg : Config) : ScopeValid (dhcpServerStart .ap (apLease cfg)) :=
  scopeValid_start .ap (List.forall_mem_nil _)

/-- Whether a lease has been taken does not matter. -/
theorem scopeValid_of_same {s s' : DhcpScope} (h : ScopeValid s)
    (hs : { s' with leased := false } = { s with leased := false }) : ScopeValid s' := by
  rw [DhcpScope.mk.injEq] at hs
  obtain ⟨-, -, -, hdns, -, hroutes, hlink, -⟩ := hs
  exact ⟨hroutes ▸ h.count, hroutes ▸ h.plen, by rw [hlink, hdns]; exact h.linkOnly⟩

theorem scopeValid_startScope (h : ∀ l, ScopeValid (w.dhcp l)) {l : DhcpLink} {s : DhcpScope}
    (hs : ScopeValid s) (l' : DhcpLink) : ScopeValid ((w.startScope l s).dhcp l') := by
  rw [startScope_dhcp]
  by_cases hl : l' = l
  · rw [hl, Function.update_self]
    exact hs
  · rw [Function.update_of_ne hl]
    exact h l'

theorem scopeValid_apApply (h : ∀ l, ScopeValid (w.dhcp l)) (cfg : Config) (stale : Bool) :
    ∀ l, ScopeValid ((w.apApply cfg stale).dhcp l) := by
  have hdown : ∀ l, ScopeValid (w.apTeardown.dhcp l) :=
    scopeValid_startScope (w := { w with device := w.device.apTeardown, network := none }) h
      (scopeValid_start .ap (List.forall_mem_nil _))
  have hup {w : Links} (h : ∀ l, ScopeValid (w.dhcp l)) :
      ∀ l, ScopeValid ((w.apBringUp cfg).dhcp l) :=
    scopeValid_startScope (w := { w with
      device := w.device.apBringUp cfg cfg.wg.dns (Device.apMtu cfg)
      network := some ⟨cfg.ap.ssid, cfg.ap.password⟩ }) h (scopeValid_ap cfg)
  unfold apApply
  dsimp only
  split_ifs
  · exact h
  · exact hup hdown
  · exact hup h
  · exact hdown
  · exact h

/-- Every scope the program sets is one the encoder can write. -/
theorem Reached.scopeValid (h : Reached Domain w) : ∀ l, ScopeValid (w.dhcp l) := by
  apply Reach.invariant _ _ h
  · rintro w ⟨cfg, rfl⟩ l
    exact ⟨Nat.zero_le _, List.forall_mem_nil _, fun _ => rfl⟩
  · intro w e _ he hw
    cases e with
    | applyWg cfg literal added stale =>
      apply scopeValid_apApply
      exact scopeValid_startScope (w := { w with device := _ }) hw (scopeValid_usb he)
    | apApply cfg stale => exact scopeValid_apApply hw cfg stale
    | device e => exact hw
    | recv inp allocated data =>
      obtain ⟨dhcp, heq, hscopes⟩ := recv_cases w inp allocated data
      intro l
      rw [step, heq]
      exact scopeValid_of_same (hw l) (hscopes l)

/-! ### Replies -/

/-- What becomes of a datagram, of which `req` is kept: a reply to a discovery or a request on a
link that has a lease, which says what it should; one whenever it is due and there is memory for
it; and a lease that is taken by an acknowledgement only. -/
structure Answers (w : Links) (inp : NetifId) (allocated : Bool) (req : Bytes) (dhcp : Dhcp)
    (reply : Option Bytes) : Prop where
  replies : ∀ r, reply = some r → ∃ l type, scopeFor w.dhcp inp = some l ∧
    (w.dhcp l).leaseAddr ≠ Ip4.any ∧ Answered (w.dhcp l) req type ∧
      ReplySays (w.dhcp l) (w.addrOf inp) type req r
  due : ∀ l type, scopeFor w.dhcp inp = some l → (w.dhcp l).leaseAddr ≠ Ip4.any → allocated →
    Answered (w.dhcp l) req type →
      ∃ r, reply = some r ∧ ReplySays (w.dhcp l) (w.addrOf inp) type req r
  leased : ∀ l, (dhcp l).leased → ¬(w.dhcp l).leased → scopeFor w.dhcp inp = some l ∧
    ∃ r, reply = some r ∧ ReplySays (w.dhcp l) (w.addrOf inp) dhcpAck req r

/-- What the scope of a link does with a datagram is what the links do. -/
theorem answers_of_received {l : DhcpLink} {inp : NetifId} {allocated : Bool} {req : Bytes}
    {r : DhcpScope × Option Bytes} (hvalid : ScopeValid (w.dhcp l))
    (hscope : scopeFor w.dhcp inp = some l)
    (h : Received (w.dhcp l) (w.addrOf inp) allocated req r) :
    Answers w inp allocated req (Function.update w.dhcp l r.1) r.2 := by
  have honly {l' : DhcpLink} (hl : scopeFor w.dhcp inp = some l') : l' = l :=
    Option.some.inj (hl.symm.trans hscope)
  cases h with
  | silent hwhy =>
    refine ⟨nofun, fun l' type hl henabled halloc hdue => ?_, fun l' hnow hnot => ?_⟩
    · obtain rfl := honly hl
      rcases hwhy with hoff | hfull | hnone
      · exact absurd hoff henabled
      · exact absurd halloc hfull
      · exact absurd hdue (hnone type)
    · rw [Function.update_eq_self] at hnow
      exact absurd hnow hnot
  | @replied type henabled hdue =>
    have hsays := replyTo_says hvalid (w.addrOf inp) type hdue.message
    refine ⟨?_, fun l' type' hl _ _ hdue' => ?_, fun l' hnow hnot => ?_⟩
    · rintro _ ⟨rfl⟩
      exact ⟨l, type, hscope, henabled, hdue, hsays⟩
    · obtain rfl := honly hl
      exact ⟨_, rfl, answered_unique hdue hdue' ▸ hsays⟩
    · dsimp only at hnow
      by_cases hl : l' = l
      · subst hl
        rw [Function.update_self] at hnow
        split_ifs at hnow with hack
        · exact ⟨hscope, _, rfl, hack ▸ hsays⟩
        · exact absurd hnow hnot
      · rw [Function.update_of_ne hl] at hnow
        exact absurd hnow hnot

theorem dhcpRecv_answers (h : ∀ l, ScopeValid (w.dhcp l)) (inp : NetifId) (allocated : Bool)
    (data : Bytes) :
    ∃ dhcp reply, dhcpRecv w.dhcp w.addrOf inp allocated data = .ok (dhcp, reply) ∧
      Answers w inp allocated (data.take dhcpReqMax) dhcp reply := by
  unfold dhcpRecv
  cases hscope : scopeFor w.dhcp inp with
  | none =>
    refine ⟨_, _, rfl, nofun, fun l type hl => ?_,
      fun l hnow hnot => absurd hnow hnot⟩
    cases hscope.symm.trans hl
  | some l =>
    obtain ⟨⟨s, reply⟩, heq, hrecv⟩ := scopeRecv_spec (w.dhcp l) (w.addrOf inp) allocated data
    simp only [heq, bind, Except.bind]
    exact ⟨_, _, rfl, answers_of_received (h l) hscope hrecv⟩

/-- **Replies are exactly the lease.** In every run and for every datagram, of any length, the
receiver stays inside what it received and answers what it should. -/
theorem dhcp_replies (h : Reached Domain w) (inp : NetifId) (allocated : Bool) (data : Bytes) :
    ∃ dhcp reply, dhcpRecv w.dhcp w.addrOf inp allocated data = .ok (dhcp, reply) ∧
      Answers w inp allocated (data.take dhcpReqMax) dhcp reply :=
  dhcpRecv_answers h.scopeValid inp allocated data

/-! ### Options behind the buffer -/

/-- A request in which the address it asks for comes behind two long host names. -/
def lateRequest : Bytes :=
  [bootRequest, 1, 6, 0] ++ zeros 232 ++ dhcpMagic ++ Tlv.encode [(optMsgType, [dhcpRequest]),
    (12, zeros 255), (12, zeros 255), (optRequestedIp, [10, 9, 9, 9])] ++ [optEnd]

theorem hostName_writable : Tlv.Writable optPad optEnd (12, zeros 255) :=
  ⟨by decide, by decide, by
    rw [length_zeros]
    decide⟩

theorem msgType_writable : Tlv.Writable optPad optEnd (optMsgType, [dhcpRequest]) :=
  writable_of_le (by decide) (by decide) (by decide)

/-- The whole datagram asks for another address. -/
theorem lateRequest_options : dhcpOptions lateRequest = [(optMsgType, [dhcpRequest]),
    (12, zeros 255), (12, zeros 255), (optRequestedIp, [10, 9, 9, 9])] := by
  have hopts : lateRequest.drop dhcpMsgLen = Tlv.put (optMsgType, [dhcpRequest]) ++
      (Tlv.put (12, zeros 255) ++ (Tlv.put (12, zeros 255) ++
        (Tlv.put (optRequestedIp, [10, 9, 9, 9]) ++ [optEnd]))) := by decide +kernel
  rw [dhcpOptions, hopts, Tlv.walk_put msgType_writable, Tlv.walk_put hostName_writable,
    Tlv.walk_put hostName_writable,
    Tlv.walk_put (writable_of_le (by decide) (by decide) (by decide)), Tlv.walk_stop]

/-- What is kept of it is cut off in the second name. -/
theorem lateRequest_kept : dhcpOptions (lateRequest.take dhcpReqMax) =
    [(optMsgType, [dhcpRequest]), (12, zeros 255)] := by
  have hopts : (lateRequest.take dhcpReqMax).drop dhcpMsgLen =
      Tlv.put (optMsgType, [dhcpRequest]) ++ (Tlv.put (12, zeros 255) ++
        (12 :: (zeros 255).length.toUInt8 :: zeros 98)) := by decide +kernel
  have hcut : Tlv.walk optPad optEnd (12 :: (zeros 255).length.toUInt8 :: zeros 98) =
      ([], false) := Tlv.walk_cut hostName_writable (by
    rw [length_zeros, length_zeros]
    decide)
  rw [dhcpOptions, hopts, Tlv.walk_put msgType_writable, Tlv.walk_put hostName_writable, hcut]

theorem lateRequest_message : DhcpMessage lateRequest dhcpRequest where
  length := by decide +kernel
  op := rfl
  htype := rfl
  hlen := rfl
  magic := by decide +kernel
  msgType := by rw [lateRequest_options]; rfl

theorem lateRequest_kept_message : DhcpMessage (lateRequest.take dhcpReqMax) dhcpRequest where
  length := by decide +kernel
  op := rfl
  htype := rfl
  hlen := rfl
  magic := by decide +kernel
  msgType := by rw [lateRequest_kept]; rfl

theorem provisionedConfig_domain : Domain Device.provisionedConfig := by
  refine ⟨List.forall_mem_nil _, .inr ⟨rfl, rfl⟩, ?_, ?_⟩
  · exact {
      privateKey := .inr (by decide +kernel)
      peerPublic := .inr (by decide +kernel)
      psk := .inl rfl
      endpoint := by decide +kernel
      port := fun _ => by decide
      keepalive := by decide
      mtu := .inl rfl
      addr := .inr (by decide)
      routeCount := by decide
      routePlen := List.forall_mem_nil _ }
  · exact ⟨by decide +kernel, .inr (by decide +kernel), .inr (by decide)⟩

/-- The device on the tunnel's pair of addresses. -/
def leasing : Links := (boot {}).step (.applyWg Device.provisionedConfig none true false)

/-- The request for another address is acknowledged, since it does not reach the receiver. -/
theorem dhcp_replies_beyond :
    ¬∀ (w : Links) (inp : NetifId) (l : DhcpLink) (data : Bytes) (dhcp : Dhcp) (r : Bytes),
      Reached Domain w → scopeFor w.dhcp inp = some l → DhcpMessage data dhcpRequest →
      dhcpRecv w.dhcp w.addrOf inp true data = .ok (dhcp, some r) →
      (messageType r = some dhcpAck ↔ AsksForLease (w.dhcp l) data) := by
  intro hclaim
  have hboot : Reached Domain (boot {}) := .start ⟨{}, rfl⟩
  have hreached : Reached Domain leasing := hboot.step provisionedConfig_domain
  have hscope : scopeFor leasing.dhcp .usb = some .usb := by decide +kernel
  obtain ⟨dhcp, reply, heq, hanswers⟩ := dhcpRecv_answers hreached.scopeValid .usb true lateRequest
  -- the option it sees is the message type only, and `ciaddr` asks for nothing
  have hwant : requestedAddr (lateRequest.take dhcpReqMax) = Ip4.any := by
    rw [requestedAddr, lateRequest_kept]
    rfl
  obtain ⟨r, rfl, hsays⟩ := hanswers.due .usb dhcpAck hscope (by decide +kernel) rfl
    (.ack lateRequest_kept_message (.inl hwant))
  have hack : messageType r = some dhcpAck := hsays.messageType
  have hother : requestedAddr lateRequest = ⟨10, 9, 9, 9⟩ := by
    rw [requestedAddr, lateRequest_options]
    rfl
  rcases (hclaim leasing .usb .usb lateRequest dhcp r hreached hscope lateRequest_message heq).mp
    hack with hany | hlease
  · rw [hother] at hany
    cases hany
  · rw [hother] at hlease
    exact absurd hlease (by decide +kernel)

/-- A discovery on the host's link. -/
theorem dhcp_replies_discover :
    ∃ dhcp reply, dhcpRecv leasing.dhcp leasing.addrOf .usb true
        ([bootRequest, 1, 6, 0] ++ zeros 232 ++ dhcpMagic ++
          Tlv.put (optMsgType, [dhcpDiscover]) ++ [optEnd]) = .ok (dhcp, reply) ∧
      Answers leasing .usb true (([bootRequest, 1, 6, 0] ++ zeros 232 ++ dhcpMagic ++
          Tlv.put (optMsgType, [dhcpDiscover]) ++ [optEnd]).take dhcpReqMax) dhcp reply := by
  have hboot : Reached Domain (boot {}) := .start ⟨{}, rfl⟩
  have hreached : Reached Domain leasing := hboot.step provisionedConfig_domain
  exact dhcp_replies hreached .usb true _

end Links

end Molewire
