/-
# The tunnel endpoint

Which address the tunnel connects to. A run keeps, beside the device, the names
lwIP still has queries out for, the answers DNS gave and the peers that were
added. The callback takes whatever answer arrives for that of the endpoint in
use, so a query of an earlier configuration can decide where the tunnel goes.
While no such answer arrives in the resolving state, every peer is added with
its own endpoint's address.
-/

import Molewire.Datapath

namespace Molewire

open Transition

namespace Device

/-! ### The resolving state of a poll -/

/-- `wg_poll` gets to its resolving branch. -/
def pollsResolving (d : Device) : Bool :=
  d.wg.configured && d.wg.netifAdded && d.wg.staNetif && (d.stack.netif .sta).linkUp &&
    d.wg.state == .resolving

/-- The resolving branch calls `dns_gethostbyname`. -/
def asksDns (d : Device) (now : UInt32) : Bool :=
  !d.wg.endpointResolved ∧ (15000 ≤ now - d.wg.lastResolveMs ∨ d.wg.lastResolveMs = 0)

/-- The resolving branch up to the test of `endpoint_resolved`. -/
def askEndpoint (d : Device) (now : UInt32) (ans : PollAnswers) : Device :=
  if d.asksDns now then
    dnsResolvedCb { d with wg := { d.wg with lastResolveMs := now } } ans.cached
  else d

/-- The device at the call of `wg_add_peer_and_connect`, if the poll makes one. -/
def peerCall (d : Device) (now : UInt32) (ans : PollAnswers) : Option Device :=
  let asked := d.refreshExt.askEndpoint now ans
  if d.pollsResolving ∧ asked.wg.endpointResolved then some asked else none

theorem pollResolving_eq (d : Device) (now : UInt32) (ans : PollAnswers) :
    d.pollResolving now ans =
      if (d.askEndpoint now ans).wg.endpointResolved then
        (d.askEndpoint now ans).wgAddPeerAndConnect ans.accepted ans.indexed now
      else d.askEndpoint now ans := by
  simp only [pollResolving, askEndpoint, asksDns, decide_eq_true_eq]

@[simp] theorem refreshExt_wg (d : Device) : d.refreshExt.wg = d.wg := by
  unfold refreshExt
  split <;> rfl

theorem wgPoll_of_pollsResolving {d : Device} (h : d.pollsResolving) (now : UInt32)
    (ans : PollAnswers) : d.wgPoll now ans = d.refreshExt.pollResolving now ans := by
  simp only [pollsResolving, Bool.and_eq_true, beq_iff_eq] at h
  obtain ⟨⟨⟨⟨hc, hn⟩, hs⟩, hl⟩, hr⟩ := h
  simp [wgPoll, hc, hn, hs, hl, hr]

theorem askEndpoint_same (d : Device) (now : UInt32) (ans : PollAnswers) :
    (d.askEndpoint now ans).wg.state = d.wg.state ∧
      (d.askEndpoint now ans).wg.wgc = d.wg.wgc := by
  unfold askEndpoint dnsResolvedCb
  cases ans.cached <;> split <;> exact ⟨rfl, rfl⟩

/-- The address a peer is added with was there before the poll or is the resolver's cached one. -/
theorem peerCall_addr {d d' : Device} {now : UInt32} {ans : PollAnswers}
    (h : d.peerCall now ans = some d') :
    d.wg.state = .resolving ∧
      (d.wg.endpointResolved ∧ d'.wg.endpointAddr = d.wg.endpointAddr ∨
        (d.pollsResolving ∧ d.asksDns now) ∧ ans.cached = some d'.wg.endpointAddr) := by
  simp only [peerCall, Option.ite_none_right_eq_some, Option.some.injEq] at h
  obtain ⟨⟨hpolls, hresolved⟩, rfl⟩ := h
  have hstate : d.wg.state = .resolving := by
    simp only [pollsResolving, Bool.and_eq_true, beq_iff_eq] at hpolls
    exact hpolls.2
  refine ⟨hstate, ?_⟩
  -- the external address is refreshed first, which the question does not depend on
  have hasks : d.refreshExt.asksDns now = d.asksDns now := by
    rw [asksDns, asksDns, refreshExt_wg]
  unfold askEndpoint dnsResolvedCb at hresolved ⊢
  rw [hasks] at hresolved ⊢
  by_cases hask : d.asksDns now
  · cases hcached : ans.cached with
    | none =>
      -- asked and not answered: the endpoint stays unresolved and no peer is added
      simp only [hask, hcached, if_true, refreshExt_wg] at hresolved
      simp [asksDns, hresolved] at hask
    | some a => simp [hask, hpolls]
  · simp only [hask, Bool.false_eq_true, if_false, refreshExt_wg] at hresolved ⊢
    exact .inl ⟨hresolved, trivial⟩

theorem pollSession_ne_resolving {d : Device} (h : d.wg.state ≠ .resolving) (now : UInt32)
    (ans : PollAnswers) : (d.pollSession now ans).wg.state ≠ .resolving := by
  unfold pollSession
  dsimp only
  split_ifs <;> first | exact h | exact nofun

theorem wgAddPeerAndConnect_ne_resolving (d : Device) (accepted indexed : Bool) (now : UInt32) :
    (d.wgAddPeerAndConnect accepted indexed now).wg.state ≠ .resolving := by
  unfold wgAddPeerAndConnect
  cases accepted <;> cases indexed <;> exact nofun

/-- A poll that ends in the resolving state did nothing or asked without an answer. -/
theorem wgPoll_resolving {d : Device} {now : UInt32} {ans : PollAnswers}
    (h : (d.wgPoll now ans).wg.state = .resolving) :
    d.wgPoll now ans = d ∨
      d.wg.state = .resolving ∧ (d.wgPoll now ans).wg.wgc = d.wg.wgc ∧
        ¬(d.wgPoll now ans).wg.endpointResolved := by
  by_cases hres : d.pollsResolving
  · rw [wgPoll_of_pollsResolving hres, pollResolving_eq] at h ⊢
    split at h
    -- with an address the peer is added, and the state is handshaking or unconfigured
    case isTrue => exact absurd h (wgAddPeerAndConnect_ne_resolving _ _ _ _)
    case isFalse hresolved =>
      obtain ⟨hstate, hwgc⟩ := askEndpoint_same d.refreshExt now ans
      rw [refreshExt_wg] at hstate hwgc
      rw [if_neg hresolved]
      exact .inr ⟨hstate ▸ h, hwgc, hresolved⟩
  · left
    unfold wgPoll at h ⊢
    split_ifs at h ⊢ with hc hs hr
    · rfl
    · rfl
    · simp [pollsResolving, hr] at hres
      simp_all
    · exact absurd h (pollSession_ne_resolving (by rwa [refreshExt_wg]) now ans)

/-! ### Configurations -/

@[simp] theorem apApply_wg (d : Device) (cfg : Config) : (d.apApply cfg).wg = d.wg := by
  unfold apApply
  dsimp only
  split_ifs <;> rfl

theorem startExit_same (d : Device) :
    d.startExit.wg.endpointResolved = d.wg.endpointResolved ∧
      d.startExit.wg.state = d.wg.state ∧ d.startExit.wg.wgc = d.wg.wgc := by
  unfold startExit
  split <;> exact ⟨rfl, rfl, rfl⟩

theorem addTunnel_same (d : Device) (added : Bool) :
    (d.addTunnel added).wg.endpointResolved = d.wg.endpointResolved ∧
      (d.addTunnel added).wg.endpointAddr = d.wg.endpointAddr ∧
        (d.addTunnel added).wg.wgc = d.wg.wgc := by
  unfold addTunnel
  split <;> exact ⟨rfl, rfl, rfl⟩

/-- Bringing the tunnel up resolves the endpoint only if it is a literal. -/
theorem bringUp_endpoint {d : Device} (h : d.wg.endpointResolved = false) (literal : Option Ip4)
    (added : Bool) :
    ((d.startExit.dnsResolvedCb literal).addTunnel added).wg.wgc = d.wg.wgc ∧
      (((d.startExit.dnsResolvedCb literal).addTunnel added).wg.endpointResolved →
        literal = some ((d.startExit.dnsResolvedCb literal).addTunnel added).wg.endpointAddr) := by
  obtain ⟨hresolved, -, hwgc⟩ := startExit_same d
  obtain ⟨hresolved', haddr', hwgc'⟩ := addTunnel_same (d.startExit.dnsResolvedCb literal) added
  rw [hresolved', haddr', hwgc']
  -- a name leaves the flag as `wg_apply` has cleared it
  cases literal with
  | none => exact ⟨hwgc, fun hr => absurd (hresolved ▸ hr) (by simp [h])⟩
  | some a => exact ⟨hwgc, fun _ => rfl⟩

theorem wgApply_resolving {d : Device} {cfg : Config} {literal : Option Ip4} {added : Bool}
    (h : (d.wgApply cfg literal added).wg.state = .resolving) :
    (d.wgApply cfg literal added).wg.wgc = cfg.wg ∧
      ((d.wgApply cfg literal added).wg.endpointResolved →
        literal = some (d.wgApply cfg literal added).wg.endpointAddr) := by
  unfold wgApply at h ⊢
  by_cases hcomplete : configWgComplete cfg
  · simp only [hcomplete, if_true]
    exact bringUp_endpoint rfl literal added
  · simp [hcomplete, wgTeardown] at h

theorem applyWg_resolving {d : Device} {cfg : Config} {literal : Option Ip4} {added : Bool}
    (h : (d.applyWg cfg literal added).wg.state = .resolving) :
    (d.applyWg cfg literal added).wg.wgc = cfg.wg ∧
      ((d.applyWg cfg literal added).wg.endpointResolved →
        literal = some (d.applyWg cfg literal added).wg.endpointAddr) := by
  unfold applyWg at h ⊢
  rw [apApply_wg] at h ⊢
  exact wgApply_resolving h

/-! ### Other events -/

/-- Events that leave the tunnel's state alone. -/
def Event.isNetwork : Event → Bool
  | .applyWg .. | .wgPoll .. | .dnsResolved .. => false
  | .apApply .. | .lease .. | .link .. | .input .. | .staOutput .. => true

theorem step_wg_of_isNetwork {e : Event} (h : e.isNetwork) (d : Device) :
    (d.step e).wg = d.wg := by
  cases e with
  | applyWg => cases h
  | wgPoll => cases h
  | dnsResolved => cases h
  | apApply cfg => exact apApply_wg d cfg
  | lease => rfl
  | link => rfl
  | input => rfl
  | staOutput pkt now =>
    simp only [step, staOutput, exitStaOutput]
    split_ifs <;> rfl

end Device

/-! ### Runs -/

/-- A device, the names lwIP has queries out for, and what happened: the configuration applied
last, the addresses DNS gave for names, and the peers added, by configured endpoint. -/
structure TunnelRun where
  device : Device
  applied : Config := {}
  queries : List CStr := []
  answers : List (CStr × Ip4) := []
  peers : List (CStr × Ip4) := []

/-- What can happen. A query completes at any time after it was made, in any order, with an
address or without. `pending` says that lwIP takes the query of a poll. -/
inductive TunnelEvent
  | apply (cfg : Config) (added : Bool)
  | poll (now : UInt32) (ans : Device.PollAnswers) (pending : Bool)
  | complete (i : Nat) (answer : Option Ip4)
  | network (e : Device.Event)

namespace TunnelRun

/-- The name the endpoint in use is configured with. -/
def host (r : TunnelRun) : CStr := r.applied.wg.endpoint

/-- The poll asks DNS. -/
def asks (r : TunnelRun) (now : UInt32) : Bool :=
  r.device.pollsResolving && r.device.asksDns now

/-- What DNS answered to the poll at once. -/
def cachedAnswer (r : TunnelRun) (now : UInt32) (ans : Device.PollAnswers) : List (CStr × Ip4) :=
  if r.asks now then (ans.cached.map fun a => (r.device.wg.wgc.endpoint, a)).toList else []

/-- The query the poll leaves with lwIP. -/
def newQuery (r : TunnelRun) (now : UInt32) (ans : Device.PollAnswers) (pending : Bool) :
    List CStr :=
  if r.asks now ∧ ans.cached = none ∧ pending then [r.device.wg.wgc.endpoint] else []

/-- The peer the poll adds. -/
def newPeer (r : TunnelRun) (now : UInt32) (ans : Device.PollAnswers) : List (CStr × Ip4) :=
  ((r.device.peerCall now ans).map fun d => (r.host, d.wg.endpointAddr)).toList

/-- One event, with literal endpoints read by `aton`. -/
def step (aton : CStr → Option Ip4) (r : TunnelRun) : TunnelEvent → TunnelRun
  | .apply cfg added =>
    { r with
      device := r.device.step (.applyWg cfg (aton cfg.wg.endpoint) added)
      applied := cfg }
  | .poll now ans pending =>
    { r with
      device := r.device.step (.wgPoll now ans)
      queries := r.queries ++ r.newQuery now ans pending
      answers := r.answers ++ r.cachedAnswer now ans
      peers := r.peers ++ r.newPeer now ans }
  | .complete i answer =>
    match r.queries[i]? with
    | none => r
    | some name =>
      { r with
        device := r.device.step (.dnsResolved answer)
        queries := r.queries.eraseIdx i
        answers := r.answers ++ (answer.map fun a => (name, a)).toList }
  | .network e => if e.isNetwork then { r with device := r.device.step e } else r

/-- The address is the literal the endpoint spells, or one DNS returned for that name. -/
def Genuine (aton : CStr → Option Ip4) (answers : List (CStr × Ip4)) (peer : CStr × Ip4) :
    Prop :=
  aton peer.1 = some peer.2 ∨ peer ∈ answers

variable {aton : CStr → Option Ip4}

theorem Genuine.append {answers : List (CStr × Ip4)} {peer : CStr × Ip4}
    (h : Genuine aton answers peer) (more : List (CStr × Ip4)) :
    Genuine aton (answers ++ more) peer :=
  h.imp_right fun hmem => List.mem_append_left more hmem

/-- An address that arrives while the endpoint is being resolved answers a query for its name, or
is one of its addresses all the same. -/
def Prompt (aton : CStr → Option Ip4) (r : TunnelRun) : TunnelEvent → Prop
  | .complete i (some a) => r.device.wg.state = .resolving →
      r.queries[i]? = some r.host ∨ Genuine aton r.answers (r.host, a)
  | _ => True

/-- The runs from the start of the device whose steps are admitted. -/
def Reached (aton : CStr → Option Ip4) (admits : TunnelRun → TunnelEvent → Prop) :
    TunnelRun → Prop :=
  Reach (fun r => ∃ cfg, r = { device := Device.boot cfg }) admits (step aton)

/-! ### The invariant -/

/-- While the endpoint is being resolved, the configuration in use is the one applied last, and a
resolved address is one of its endpoint. -/
structure Inv (aton : CStr → Option Ip4) (r : TunnelRun) : Prop where
  applied : r.device.wg.state = .resolving → r.device.wg.wgc = r.applied.wg
  resolved : r.device.wg.state = .resolving → r.device.wg.endpointResolved →
    Genuine aton r.answers (r.host, r.device.wg.endpointAddr)
  peers : ∀ peer ∈ r.peers, Genuine aton r.answers peer

theorem Inv.boot (cfg : Config) : Inv aton { device := Device.boot cfg } where
  applied := nofun
  resolved := nofun
  peers := nofun

theorem Inv.apply {r : TunnelRun} (h : Inv aton r) (cfg : Config) (added : Bool) :
    Inv aton (step aton r (.apply cfg added)) where
  applied hstate := (Device.applyWg_resolving hstate).1
  resolved hstate hresolved := .inl ((Device.applyWg_resolving hstate).2 hresolved)
  peers := h.peers

/-- A peer is added with the address resolved before, or with the one DNS just answered. -/
theorem Inv.newPeer_genuine {r : TunnelRun} (h : Inv aton r) (now : UInt32)
    (ans : Device.PollAnswers) :
    ∀ peer ∈ r.newPeer now ans, Genuine aton (r.answers ++ r.cachedAnswer now ans) peer := by
  intro peer hpeer
  simp only [newPeer, Option.mem_toList, Option.map_eq_some_iff] at hpeer
  obtain ⟨d, hcall, rfl⟩ := hpeer
  obtain ⟨hstate, ⟨hresolved, haddr⟩ | ⟨⟨hpolls, hasks⟩, hcached⟩⟩ := Device.peerCall_addr hcall
  · -- resolved earlier, and genuine by the invariant
    rw [haddr]
    exact (h.resolved hstate hresolved).append _
  · -- the resolver had the name cached, and the answer is noted with this very poll
    right
    apply List.mem_append_right
    simp [cachedAnswer, asks, hpolls, hasks, hcached, h.applied hstate, host]

theorem Inv.poll {r : TunnelRun} (h : Inv aton r) (now : UInt32) (ans : Device.PollAnswers)
    (pending : Bool) : Inv aton (step aton r (.poll now ans pending)) where
  applied hstate := by
    rcases Device.wgPoll_resolving hstate with hsame | ⟨hbefore, hwgc, -⟩
    · have hdev : (step aton r (.poll now ans pending)).device = r.device := hsame
      rw [hdev] at hstate ⊢
      exact h.applied hstate
    · exact hwgc.trans (h.applied hbefore)
  resolved hstate hresolved := by
    rcases Device.wgPoll_resolving hstate with hsame | ⟨-, -, hunresolved⟩
    · have hdev : (step aton r (.poll now ans pending)).device = r.device := hsame
      rw [hdev] at hstate hresolved ⊢
      exact (h.resolved hstate hresolved).append _
    · exact absurd hresolved hunresolved
  peers peer hpeer := by
    rcases List.mem_append.mp hpeer with hold | hnew
    · exact (h.peers peer hold).append _
    · exact h.newPeer_genuine now ans peer hnew

theorem Inv.complete {r : TunnelRun} (h : Inv aton r) {i : Nat} {answer : Option Ip4}
    (prompt : Prompt aton r (.complete i answer)) :
    Inv aton (step aton r (.complete i answer)) := by
  cases hquery : r.queries[i]? with
  -- nothing was out under this number
  | none =>
    simp only [TunnelRun.step, hquery]
    exact h
  | some name =>
    simp only [TunnelRun.step, hquery]
    cases answer with
    | none =>
      exact ⟨h.applied, fun hstate hresolved => (h.resolved hstate hresolved).append _,
        fun peer hpeer => (h.peers peer hpeer).append _⟩
    -- the callback stores the address whatever name it answers: only `prompt` helps
    | some a =>
      refine ⟨h.applied, fun hstate _ => ?_, fun peer hpeer => (h.peers peer hpeer).append _⟩
      rcases prompt hstate with hname | hgenuine
      · obtain rfl : name = r.host := Option.some.inj (hquery.symm.trans hname)
        exact .inr (List.mem_append_right _ (List.mem_singleton_self _))
      · exact hgenuine.append _

theorem Inv.network {r : TunnelRun} (h : Inv aton r) (e : Device.Event) :
    Inv aton (step aton r (.network e)) := by
  simp only [TunnelRun.step]
  split
  case isTrue he =>
    have hwg := Device.step_wg_of_isNetwork he r.device
    exact ⟨hwg ▸ h.applied, hwg ▸ h.resolved, h.peers⟩
  case isFalse => exact h

theorem Inv.step {r : TunnelRun} {e : TunnelEvent} (h : Inv aton r) (prompt : Prompt aton r e) :
    Inv aton (step aton r e) := by
  cases e with
  | apply cfg added => exact h.apply cfg added
  | poll now ans pending => exact h.poll now ans pending
  | complete i answer => exact h.complete prompt
  | network e => exact h.network e

/-- In every run without a foreign answer in the resolving state, each peer is added with the
literal address of its configured endpoint or with one DNS returned for that name. -/
theorem peers_genuine {r : TunnelRun} (h : Reached aton (Prompt aton) r) :
    ∀ peer ∈ r.peers, Genuine aton r.answers peer := by
  have hinv : Inv aton r := by
    apply Reach.invariant _ _ h
    · rintro _ ⟨cfg, rfl⟩
      exact Inv.boot cfg
    · intro r e _ hprompt hr
      exact hr.step hprompt
  exact hinv.peers

/-! ### An answer of the previous configuration -/

/-- Provisioned for a server with a name. -/
def namedConfig (name : String) : Config :=
  { Device.provisionedConfig with
    wg := { Device.provisionedConfig.wg with endpoint := ascii name } }

/-- Asked for the old server, given the new one, and polled after the answer came. -/
def reprovisioned (first second : String) : List TunnelEvent :=
  [.apply (namedConfig first) true, .network (.link .sta true),
    .poll 20000 ⟨none, true, false, true⟩ true, .apply (namedConfig second) true,
    .complete 0 (some ⟨198, 51, 100, 1⟩), .poll 21000 ⟨none, true, false, true⟩ true]

/-- No name spells an address. -/
def noLiteral : CStr → Option Ip4 := fun _ => none

def runOf (events : List TunnelEvent) : TunnelRun :=
  events.foldl (step noLiteral) { device := Device.boot {} }

theorem peers_genuine_same_name :
    Genuine noLiteral (runOf (reprovisioned "vpn.example" "vpn.example")).answers
      (ascii "vpn.example", ⟨198, 51, 100, 1⟩) := by
  have hreached : Reached noLiteral (Prompt noLiteral)
      (runOf (reprovisioned "vpn.example" "vpn.example")) := by
    apply Reach.foldl (.start ⟨{}, rfl⟩)
    refine ⟨trivial, trivial, trivial, trivial, ?_, trivial, trivial⟩
    intro _
    left
    decide +kernel
  have hpeer : (ascii "vpn.example", (⟨198, 51, 100, 1⟩ : Ip4)) ∈
      (runOf (reprovisioned "vpn.example" "vpn.example")).peers := by decide +kernel
  exact peers_genuine hreached _ hpeer

/-- The tunnel to the new server is sent to the address of the old one. -/
theorem peers_not_genuine :
    ¬ ∀ r, Reached noLiteral (fun _ _ => True) r →
      ∀ peer ∈ r.peers, Genuine noLiteral r.answers peer := by
  intro genuine
  -- the query for the old name is still out when the new configuration is applied
  have hreached : Reached noLiteral (fun _ _ => True)
      (runOf (reprovisioned "old.example" "new.example")) :=
    Reach.foldl (.start ⟨{}, rfl⟩) ⟨trivial, trivial, trivial, trivial, trivial, trivial, trivial⟩
  have hpeer : (ascii "new.example", (⟨198, 51, 100, 1⟩ : Ip4)) ∈
      (runOf (reprovisioned "old.example" "new.example")).peers := by decide +kernel
  rcases genuine _ hreached _ hpeer with hliteral | hanswer
  · cases hliteral
  · revert hanswer
    decide +kernel

end TunnelRun

end Molewire
