/-
# What `set` stores

One command with twenty keys. A handler refuses with an answer and changes
nothing, or stores values it has checked; which values those are is said here
once for all the keys, and read off the handlers.
-/

import Molewire.KeyText

namespace Molewire

open ByteBuffer

/-! ### Stored values -/

/-- A key as a field holds it: none, or one that was accepted, with room for the terminating
zero. -/
def StoredKey (k : CStr) : Prop := k = [] ∨ validWgKey k ∧ k.length < configWgkeyMax

/-- The edits of the tunnel's part. -/
inductive WgEdit (w : WgConfig) : WgConfig → Prop
  | key {k : CStr} (h : StoredKey k) : WgEdit w { w with privateKey := k }
  | peer {k : CStr} (h : StoredKey k) : WgEdit w { w with peerPublic := k }
  | psk {k : CStr} (h : StoredKey k) : WgEdit w { w with psk := k }
  | endpoint {host : CStr} {p : UInt16} (hhost : host.length < configEndpointMax) (hport : p ≠ 0) :
      WgEdit w { w with endpoint := host, endpointPort := p }
  | addr {a : Ip4} {pfx : UInt8} (h : 8 ≤ pfx ∧ pfx ≤ 30) :
      WgEdit w { w with addr := a, plen := pfx }
  | hostip (a : Ip4) : WgEdit w { w with hostAddr := a }
  | dns (a : Ip4) : WgEdit w { w with dns := a }
  | routes {rs : List WgRoute} (hcount : rs.length ≤ configRoutesMax)
      (hplen : ∀ r ∈ rs, 1 ≤ r.plen ∧ r.plen ≤ 32) : WgEdit w { w with routes := rs }
  | keepalive {k : UInt16} (h : k ≤ 65000) : WgEdit w { w with keepalive := k }
  | mtu {m : UInt16} (h : m = 0 ∨ 576 ≤ m ∧ m ≤ 1420) : WgEdit w { w with hostMtu := m }
  | exit (on : Bool) : WgEdit w { w with exitEnabled := on }
  | exitlan (on : Bool) : WgEdit w { w with exitLan := on }

/-- The edits of the access point's part. -/
inductive ApEdit (a : ApConfig) : ApConfig → Prop
  | ssid {s : CStr} (h : s.length < configSsidMax) : ApEdit a { a with ssid := s }
  | password {s : CStr} (h : 8 ≤ s.length ∧ s.length ≤ 63) : ApEdit a { a with password := s }
  | addr {ip : Ip4} {pfx : UInt8} (h : 8 ≤ pfx ∧ pfx ≤ 30) :
      ApEdit a { a with addr := ip, plen := pfx }
  | client (ip : Ip4) : ApEdit a { a with clientAddr := ip }
  | enabled (on : Bool) : ApEdit a { a with enabled := on }

theorem length_take_lt (s : CStr) {n : Nat} (h : 0 < n) : (s.take (n - 1)).length < n := by
  rw [List.length_take]
  omega

/-- An accepted key fits its field, so nothing is cut off. -/
theorem storedKey_take {val : CStr} (h : validWgKey val) :
    StoredKey (val.take (configWgkeyMax - 1)) := by
  have hlen := validWgKey_length h
  have hfits : val.length ≤ configWgkeyMax - 1 := by
    rw [configWgkeyMax]
    omega
  rw [List.take_of_length_le hfits]
  exact .inr ⟨h, by rw [configWgkeyMax]; omega⟩

/-- A number checked against bounds is within them in the field it is stored in. -/
theorem toUInt8_bounds {v : Int} (lo hi : UInt8) (h : lo.toNat ≤ v ∧ v ≤ hi.toNat) :
    lo ≤ v.toNat.toUInt8 ∧ v.toNat.toUInt8 ≤ hi := by
  have hhi := hi.toNat_lt
  -- the check is made on the long, so the cast to the field loses nothing
  have hlt : v.toNat < 256 := by omega
  have hv : v.toNat.toUInt8.toNat = v.toNat := UInt8.toNat_ofNat_of_lt' hlt
  rw [UInt8.le_iff_toNat_le, UInt8.le_iff_toNat_le, hv]
  omega

theorem toUInt16_bounds {v : Int} (lo hi : UInt16) (h : lo.toNat ≤ v ∧ v ≤ hi.toNat) :
    lo ≤ v.toNat.toUInt16 ∧ v.toNat.toUInt16 ≤ hi := by
  have hhi := hi.toNat_lt
  have hlt : v.toNat < 65536 := by omega
  have hv : v.toNat.toUInt16.toNat = v.toNat := UInt16.toNat_ofNat_of_lt' hlt
  rw [UInt16.le_iff_toNat_le, UInt16.le_iff_toNat_le, hv]
  omega

theorem parseRoute_plen {board : Board} {n : Nat} {tok : CStr} {r : WgRoute}
    (h : parseRoute board n tok = .ok r) : n < configRoutesMax ∧ 1 ≤ r.plen ∧ r.plen ≤ 32 := by
  unfold parseRoute at h
  split at h
  case h_1 => cases h
  case h_2 addr slash _ =>
    dsimp only at h
    split_ifs at h with hbad hfull
    cases h
    simp only [not_or, Int.not_lt] at hbad
    exact ⟨Nat.lt_of_not_le hfull, toUInt8_bounds 1 32 hbad.2⟩

theorem parseRoutes_spec {board : Board} {toks : List CStr} {parsed rs : List WgRoute}
    (h : parseRoutes board toks parsed = .ok rs) (hcount : parsed.length ≤ configRoutesMax)
    (hplen : ∀ r ∈ parsed, 1 ≤ r.plen ∧ r.plen ≤ 32) :
    rs.length ≤ configRoutesMax ∧ ∀ r ∈ rs, 1 ≤ r.plen ∧ r.plen ≤ 32 := by
  -- case1 and case2 end the list, case3 is a bad route, case4 a good one
  fun_induction parseRoutes board toks parsed with
  | case1 parsed =>
    cases h
    exact ⟨hcount, hplen⟩
  | case2 parsed =>
    cases h
    exact ⟨hcount, hplen⟩
  | case3 => cases h
  | case4 parsed tok rest _ r hr ih =>
    obtain ⟨hroom, hbounds⟩ := parseRoute_plen hr
    apply ih h
    · rw [List.length_append, List.length_singleton]
      exact hroom
    · intro r' hr'
      rcases List.mem_append.mp hr' with hold | hnew
      · exact hplen r' hold
      · exact List.mem_singleton.mp hnew ▸ hbounds

/-! ### The keys -/

namespace Control

/-- What `set` with these arguments may do. -/
inductive SetCase (c : Control) (args : CStr) : SetResult × Control → Prop
  | err (s : String) : SetCase c args (c.setErr s)
  | ssid {key val : CStr} (cut : strchrCut args 32 = some (key, val)) (word : isWord key "ssid") :
      SetCase c args (c.setSsid val)
  | pass {key : CStr} (val : CStr) (cut : strchrCut args 32 = some (key, val))
      (word : isWord key "pass") : SetCase c args (c.setPass val)
  | country (val : CStr) : SetCase c args (c.setCountry val)
  | debug (on : Bool) : SetCase c args (.other, { c with cfg.debugEnabled := on })
  | wg {w : WgConfig} (h : WgEdit c.cfg.wg w) : SetCase c args (c.putWg w)
  | ap {a : ApConfig} (h : ApEdit c.cfg.ap a) : SetCase c args (c.putAp a)

variable {c : Control} {args : CStr}

theorem setDebug_case (val : CStr) : SetCase c args (c.setDebug val) := by
  unfold setDebug
  split_ifs
  · exact .debug true
  · exact .debug false
  · exact .err _

theorem setWgKey_case {store : WgConfig → CStr → WgConfig} {allowOff : Bool}
    (h : ∀ k, StoredKey k → WgEdit c.cfg.wg (store c.cfg.wg k)) (val : CStr) :
    SetCase c args (setWgKey store allowOff c val) := by
  unfold setWgKey
  split_ifs with hoff hinvalid
  · exact .wg (h [] (.inl rfl))
  · exact .err _
  · exact .wg (h _ (storedKey_take (by simpa using hinvalid)))

theorem setEndpoint_case (val : CStr) : SetCase c args (c.setEndpoint val) := by
  unfold setEndpoint
  split
  case h_1 => exact .err _
  case h_2 host port _ =>
    dsimp only
    split_ifs with hbad
    · exact .err _
    · simp only [not_or, Int.not_lt, Nat.not_le] at hbad
      obtain ⟨hlo, hhi, hhost⟩ := hbad
      have hport := (toUInt16_bounds 1 65535 ⟨hlo, hhi⟩).1
      refine .wg (.endpoint hhost ?_)
      intro hzero
      rw [hzero] at hport
      exact absurd hport (by decide)

/-- `set addr` and `set apaddr` store a prefix they have checked. -/
theorem setAddrPrefix_case {board : Board} {usage : String} {val : CStr}
    {store : Ip4 → UInt8 → SetResult × Control}
    (h : ∀ a pfx, 8 ≤ pfx ∧ pfx ≤ 30 → SetCase c args (store a pfx)) :
    SetCase c args (setAddrPrefix board usage c val store) := by
  unfold setAddrPrefix
  split
  case h_1 => exact .err _
  case h_2 addr slash _ =>
    dsimp only
    split_ifs with hbad
    · exact .err _
    · simp only [not_or, Int.not_lt] at hbad
      exact h _ _ (toUInt8_bounds 8 30 hbad.2)

theorem setHostip_case (board : Board) (val : CStr) : SetCase c args (c.setHostip board val) := by
  unfold setHostip
  dsimp only
  split_ifs
  · exact .err _
  · exact .wg (.hostip _)

theorem setDns_case (board : Board) (val : CStr) : SetCase c args (c.setDns board val) := by
  unfold setDns
  dsimp only
  split_ifs
  · exact .wg (.dns _)
  · exact .err _
  · exact .wg (.dns _)

theorem setRoutes_case (board : Board) (val : CStr) : SetCase c args (c.setRoutes board val) := by
  unfold setRoutes
  split_ifs
  · exact .wg (.routes (Nat.zero_le _) nofun)
  · split
    case h_1 => exact .err _
    case h_2 => exact .err _
    case h_3 parsed _ hparsed =>
      obtain ⟨hcount, hplen⟩ := parseRoutes_spec hparsed (Nat.zero_le _) nofun
      exact .wg (.routes hcount hplen)

theorem setKeepalive_case (val : CStr) : SetCase c args (c.setKeepalive val) := by
  unfold setKeepalive
  dsimp only
  split_ifs with hbad
  · exact .err _
  · simp only [not_or, Int.not_lt] at hbad
    exact .wg (.keepalive (toUInt16_bounds 0 65000 hbad).2)

theorem setMtu_case (val : CStr) : SetCase c args (c.setMtu val) := by
  unfold setMtu
  dsimp only
  split_ifs with hbad
  · exact .err _
  · -- zero means the default and passes the check
    by_cases hzero : (strtol val).1 = 0
    · rw [hzero]
      exact .wg (.mtu (.inl rfl))
    · simp only [hzero, not_false_eq_true, ne_eq, true_and, not_or, Int.not_lt] at hbad
      exact .wg (.mtu (.inr (toUInt16_bounds 576 1420 hbad)))

theorem setSwitch_case {store : WgConfig → Bool → WgConfig} {usage : String}
    (h : ∀ on, WgEdit c.cfg.wg (store c.cfg.wg on)) (val : CStr) :
    SetCase c args (setSwitch store usage c val) := by
  unfold setSwitch
  split_ifs
  · exact .wg (h true)
  · exact .wg (h false)
  · exact .err _

theorem setAppass_case (val : CStr) : SetCase c args (c.setAppass val) := by
  unfold setAppass
  split_ifs with hbad
  · exact .err _
  · have hbounds : 8 ≤ val.length ∧ val.length ≤ 63 := by omega
    -- the field holds 64 characters, so the check leaves nothing to cut off
    have hfits : val.length ≤ configPassMax - 1 := hbounds.2
    rw [List.take_of_length_le hfits]
    exact .ap (.password hbounds)

theorem setApclient_case (board : Board) (val : CStr) :
    SetCase c args (c.setApclient board val) := by
  unfold setApclient
  dsimp only
  split_ifs
  · exact .err _
  · exact .ap (.client _)

theorem setAp_case (val : CStr) : SetCase c args (c.setAp val) := by
  unfold setAp
  split_ifs
  · exact .ap (.enabled false)
  · exact .err _
  · exact .err _
  · exact .ap (.enabled true)

theorem setKeys_case (board : Board) {key val : CStr} (cut : strchrCut args 32 = some (key, val)) :
    ∀ k ∈ setKeys board, isWord key k.1 → SetCase c args (k.2 c val) := by
  simp only [setKeys, List.forall_mem_cons]
  -- in the order of the table; only the first two need to say which key it was
  refine ⟨.ssid cut, .pass val cut, fun _ => .country val, fun _ => setDebug_case val,
    fun _ => setWgKey_case (fun _ => .key) val, fun _ => setWgKey_case (fun _ => .peer) val,
    fun _ => setWgKey_case (fun _ => .psk) val, fun _ => setEndpoint_case val,
    fun _ => setAddrPrefix_case fun _ _ h => .wg (.addr h), fun _ => setHostip_case board val,
    fun _ => setDns_case board val, fun _ => setRoutes_case board val,
    fun _ => setKeepalive_case val, fun _ => setMtu_case val, fun _ => setSwitch_case .exit val,
    fun _ => setSwitch_case .exitlan val,
    fun _ => .ap (.ssid (length_take_lt val (by decide))), fun _ => setAppass_case val,
    fun _ => setAddrPrefix_case fun _ _ h => .ap (.addr h), fun _ => setApclient_case board val,
    fun _ => setAp_case val, nofun⟩

/-- Every `set` is one of these cases. -/
theorem cmdSet_case (board : Board) (c : Control) (args : CStr) :
    SetCase c args (c.cmdSet board args) := by
  unfold cmdSet
  split
  case h_1 => exact .err _
  case h_2 key val hcut =>
    split
    case h_1 word set hfind =>
      have hword : isWord key word := by
        simpa using List.find?_some hfind
      exact setKeys_case board hcut _ (List.mem_of_find?_eq_some hfind) hword
    case h_2 => exact .err _

end Control

end Molewire
