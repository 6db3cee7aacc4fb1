/-
# The status of the portal

The body of `/api/status` for a configuration in its domain. It quotes three
kinds of names that a user chose, and eleven texts of fixed shape. The longest
of them together leave the buffer room to spare, so the body is the whole of
one JSON value.
-/

import Molewire.PortalBodies

namespace Molewire

open ByteBuffer Json Transition

/-! ### Texts that are quoted as they are -/

theorem base64Char_isPlain (tmp : UInt32) (i : Nat) : isPlain (base64Char tmp i) := by
  have hchars : ∀ n < 64, isPlain (base64Lookup.getD n 0) := by decide +kernel
  exact hchars _ (base64Sextet_lt tmp i)

theorem base64Encode_isPlain (bs : Bytes) : (base64Encode bs).all isPlain := by
  have hpad : isPlain 61 := by decide
  fun_induction base64Encode bs with
  | case1 => rfl
  | case2 a tmp => simp [base64Char_isPlain, hpad]
  | case3 a b tmp => simp [base64Char_isPlain, hpad]
  | case4 a b c rest tmp ih => simpa [base64Char_isPlain] using ih

/-- The public key as it is shown, or nothing. -/
theorem pubkey_isPlain (board : Board) (cfg : Config) :
    ((configProtoPubkey board cfg).getD []).all isPlain := by
  unfold configProtoPubkey
  split_ifs
  · rfl
  · split
    next priv _ =>
      split_ifs
      · cases board.publicKey priv with
        | none => rfl
        | some pub => exact base64Encode_isPlain pub
      · rfl
    next => rfl

/-- The public key of a private one has 32 bytes. -/
def PublicKeys (board : Board) : Prop :=
  ∀ priv pub, board.publicKey priv = some pub → pub.length = 32

theorem pubkey_length {board : Board} (hkeys : PublicKeys board) (cfg : Config) :
    ((configProtoPubkey board cfg).getD []).length ≤ 44 := by
  unfold configProtoPubkey
  split_ifs
  · simp
  · split
    next priv _ =>
      split_ifs
      · cases hpub : board.publicKey priv with
        | none => simp
        | some pub => exact validWgKey_length (validWgKey_encode (hkeys _ _ hpub))
      · simp
    next => simp

theorem statusName_isPlain (s : ProfStatus) : (statusName s).all isPlain := by
  cases s <;> decide

theorem statusName_length (s : ProfStatus) : (statusName s).length ≤ 9 := by
  cases s <;> decide

theorem Wg.stateStr_isPlain (w : Wg) : w.stateStr.all isPlain := by
  unfold Wg.stateStr
  split
  · split_ifs <;> decide
  all_goals decide

theorem Wg.stateStr_length (w : Wg) : w.stateStr.length ≤ 12 := by
  unfold Wg.stateStr
  split
  · split_ifs <;> decide
  all_goals decide

namespace Control

/-- What `status_json` calls the state of the station. -/
def stationState (c : Control) : CStr := if c.linkUp then ascii "up" else c.wifiConnStateStr

theorem stationState_isPlain (c : Control) : c.stationState.all isPlain := by
  unfold stationState wifiConnStateStr
  split_ifs
  · decide
  · split <;> decide

theorem stationState_length (c : Control) : c.stationState.length ≤ 8 := by
  unfold stationState wifiConnStateStr
  split_ifs
  · decide
  · split <;> decide

/-! ### The value -/

/-- The object of profile `i`. -/
def profileValue (c : Control) (p : WifiProfile) (i : Nat) : Value :=
  .obj ([(bytes "ssid", .str p.ssid), (bytes "open", .bool (p.password = [])),
      (bytes "active", .bool (i = c.cfg.active)),
      (bytes "status", .str (statusName (c.profStatus i)))] ++
    if c.profRssi i ≠ wifiRssiUnseen then
      [(bytes "rssi", .num (decimalInt (Int16.ofInt (c.profRssi i)).toInt))] else [])

/-- The text of a route. -/
def routeValue (r : WgRoute) : Value :=
  .str (fmtIp4OrEmpty r.net ++ 47 :: decimal r.plen.toNat)

def wifiValue (c : Control) (v : StatusView) : Value :=
  .obj [(bytes "ssid", .str (configActiveSsid c.cfg)), (bytes "link", .bool c.linkUp),
    (bytes "ip", .str (ip4addrNtoa v.staIp)), (bytes "state", .str c.stationState),
    (bytes "profiles", .arr (c.cfg.profiles.entries.zipIdx.map fun (p, i) => c.profileValue p i))]

def wgValue (board : Board) (c : Control) (v : StatusView) : Value :=
  let w := c.cfg.wg
  .obj [(bytes "state", .str v.wg.stateStr),
    (bytes "pubkey", .str ((configProtoPubkey board c.cfg).getD [])),
    (bytes "peer_set", .bool (w.peerPublic ≠ [])), (bytes "psk_set", .bool (w.psk ≠ [])),
    (bytes "endpoint", .str w.endpoint), (bytes "port", .num (decimal w.endpointPort.toNat)),
    (bytes "addr", .str (fmtIp4OrEmpty w.addr)), (bytes "prefix", .num (decimal w.plen.toNat)),
    (bytes "hostip", .str (fmtIp4OrEmpty w.hostAddr)), (bytes "dns", .str (fmtIp4OrEmpty w.dns)),
    (bytes "mtu", .num (decimal w.hostMtu.toNat)),
    (bytes "keepalive", .num (decimal w.keepalive.toNat)), (bytes "exit", .bool w.exitEnabled),
    (bytes "exitlan", .bool w.exitLan),
    (bytes "routes", .arr (w.routes.zipIdx.map fun (r, _) => routeValue r))]

def apValue (c : Control) (v : StatusView) : Value :=
  let apc := c.cfg.ap
  .obj [(bytes "enabled", .bool apc.enabled), (bytes "ssid", .str apc.ssid),
    (bytes "addr", .str (fmtIp4OrEmpty apc.addr)), (bytes "prefix", .num (decimal apc.plen.toNat)),
    (bytes "client", .str (fmtIp4OrEmpty apc.clientAddr)),
    (bytes "stas", .num (decimalInt v.apClientCount.toInt)), (bytes "leased", .bool v.apLeased)]

def usbValue (v : StatusView) : Value :=
  .obj [(bytes "from_host", .num (decimal v.fromHost.toNat)),
    (bytes "to_host", .num (decimal v.toHost.toNat)), (bytes "txdrop", .num (decimal v.txdrop.toNat)),
    (bytes "poolfail", .num (decimal v.poolfail.toNat))]

/-- The body of `/api/status`. -/
def statusValue (board : Board) (version : CStr) (c : Control) (v : StatusView) : Value :=
  .obj [(bytes "version", .str version), (bytes "uptime_s", .num (decimal (c.env.now / 1000).toNat)),
    (bytes "provisioned", .bool (configWgComplete c.cfg)), (bytes "leased", .bool v.usbLeased),
    (bytes "wifi", c.wifiValue v), (bytes "wg", wgValue board c v), (bytes "ap", c.apValue v),
    (bytes "usb", usbValue v)]

/-! ### The text is the value's -/

theorem profilePieces_bytes (c : Control) (p : WifiProfile) (i : Nat) :
    pieceBytes (c.profilePieces p i) = comma i ++ render (c.profileValue p i) := by
  unfold profilePieces profileValue
  split_ifs <;>
  · simp only [pieceBytes, Piece.bytes, List.flatMap_cons, List.flatMap_nil, List.append_nil,
      boolText_eq, render, renderMembers, quote, escape_plain (statusName_isPlain _),
      List.append_assoc, List.cons_append, List.nil_append]
    rfl

theorem routePieces_bytes (r : WgRoute) (i : Nat) :
    pieceBytes (routePieces r i) = comma i ++ render (routeValue r) := by
  have hplain : (fmtIp4OrEmpty r.net ++ 47 :: decimal r.plen.toNat).all isPlain := by
    rw [List.all_append, List.all_cons, fmtIp4_isPlain, decimal_isPlain]
    decide
  simp only [routePieces, routeValue, pieceBytes, Piece.bytes, List.flatMap_cons, List.flatMap_nil,
    List.append_nil, render, quote, escape_plain hplain, List.append_assoc, List.cons_append]
  rfl

theorem wifiPieces_bytes (c : Control) (v : StatusView) :
    pieceBytes (c.wifiPieces v) = ascii "\"wifi\":" ++ render (c.wifiValue v) ++ [44] := by
  rw [wifiPieces, pieceBytes_append, pieceBytes_append,
    pieceBytes_items c.profilePieces c.profileValue c.profilePieces_bytes]
  simp only [wifiValue, pieceBytes, Piece.bytes, List.flatMap_cons, List.flatMap_nil, boolText_eq,
    render, renderMembers, quote, escape_plain (ntoa_isPlain _),
    escape_plain (stationState_isPlain c), List.append_assoc, List.cons_append, List.nil_append]
  rfl

set_option maxRecDepth 2048 in
theorem wgPieces_bytes (board : Board) (c : Control) (v : StatusView) :
    pieceBytes (wgPieces board c v) =
      ascii "\"wg\":" ++ render (wgValue board c v) ++ [44] := by
  rw [wgPieces, pieceBytes_append, pieceBytes_append,
    pieceBytes_items routePieces (fun r _ => routeValue r) routePieces_bytes]
  simp only [wgValue, pieceBytes, Piece.bytes, List.flatMap_cons, List.flatMap_nil, boolText_eq,
    render, renderMembers, quote, escape_plain (fmtIp4_isPlain _),
    escape_plain (Wg.stateStr_isPlain _), escape_plain (pubkey_isPlain board c.cfg),
    List.append_assoc, List.cons_append, List.nil_append]
  rfl

theorem apPieces_bytes (c : Control) (v : StatusView) :
    pieceBytes (c.apPieces v) = ascii "\"ap\":" ++ render (c.apValue v) ++ [44] := by
  simp only [apPieces, apValue, pieceBytes, Piece.bytes, List.flatMap_cons, List.flatMap_nil,
    boolText_eq, render, renderMembers, quote, escape_plain (fmtIp4_isPlain _), List.append_assoc,
    List.cons_append, List.nil_append]
  rfl

theorem usbPieces_bytes (v : StatusView) :
    pieceBytes (usbPieces v) = ascii "\"usb\":" ++ render (usbValue v) ++ [125] := by
  simp only [usbPieces, usbValue, pieceBytes, Piece.bytes, List.flatMap_cons, List.flatMap_nil,
    render, renderMembers, List.append_assoc, List.cons_append, List.nil_append]
  rfl

theorem statusPieces_bytes (board : Board) {version : CStr} (hv : version.all isPlain)
    (c : Control) (v : StatusView) :
    pieceBytes (statusPieces board version c v) = render (statusValue board version c v) := by
  rw [statusPieces, pieceBytes_append, pieceBytes_append, pieceBytes_append, pieceBytes_append,
    wifiPieces_bytes, wgPieces_bytes, apPieces_bytes, usbPieces_bytes]
  rw [statusValue, render]
  generalize c.wifiValue v = wifi
  generalize wgValue board c v = wg
  generalize c.apValue v = ap
  generalize usbValue v = usb
  simp only [headPieces, pieceBytes, Piece.bytes, List.flatMap_cons, List.flatMap_nil, boolText_eq,
    render, renderMembers, quote, escape_plain hv, List.append_assoc, List.cons_append,
    List.nil_append]
  rfl

/-! ### Its numbers and its length -/

theorem numeric_statusValue (board : Board) (version : CStr) (c : Control) (v : StatusView) :
    Numeric (statusValue board version c v) := by
  have hprofiles : NumericItems
      (c.cfg.profiles.entries.zipIdx.map fun (p, i) => c.profileValue p i) := by
    rw [numericItems_iff]
    intro u hu
    obtain ⟨⟨p, i⟩, -, rfl⟩ := List.mem_map.mp hu
    dsimp only
    unfold profileValue
    split_ifs
    · exact ⟨trivial, trivial, trivial, trivial, numeric_decimalInt _, trivial⟩
    · exact ⟨trivial, trivial, trivial, trivial, trivial⟩
  have hroutes : NumericItems (c.cfg.wg.routes.zipIdx.map fun (r, _) => routeValue r) := by
    rw [numericItems_iff]
    intro u hu
    obtain ⟨⟨r, i⟩, -, rfl⟩ := List.mem_map.mp hu
    exact trivial
  have hwifi : Numeric (c.wifiValue v) := ⟨trivial, trivial, trivial, trivial, hprofiles, trivial⟩
  have hwg : Numeric (wgValue board c v) :=
    ⟨trivial, trivial, trivial, trivial, trivial, numeric_decimal _, trivial, numeric_decimal _,
      trivial, trivial, numeric_decimal _, numeric_decimal _, trivial, trivial, hroutes, trivial⟩
  have hap : Numeric (c.apValue v) :=
    ⟨trivial, trivial, trivial, numeric_decimal _, trivial, numeric_decimalInt _, trivial, trivial⟩
  have husb : Numeric (usbValue v) :=
    ⟨numeric_decimal _, numeric_decimal _, numeric_decimal _, numeric_decimal _, trivial⟩
  exact ⟨trivial, numeric_decimal _, trivial, trivial, hwifi, hwg, hap, husb, trivial⟩

theorem length_decimal_uint8 (n : UInt8) : (decimal n.toNat).length ≤ 3 :=
  decimal_length (by decide) (by have := n.toNat_lt; omega)

theorem length_decimal_uint32 (n : UInt32) : (decimal n.toNat).length ≤ 10 :=
  decimal_length (by decide) (by have := n.toNat_lt; omega)

theorem length_decimalInt_int32 (z : Int32) : (decimalInt z.toInt).length ≤ 11 :=
  decimalInt_length (by decide) (by have := z.toInt_lt; have := z.le_toInt; omega)

theorem length_quote (s : Bytes) : (quote s).length ≤ 6 * s.length + 2 := by
  have hescape := length_escape_le s
  simp only [quote, List.length_append, List.length_cons, List.length_nil]
  omega

/-- The turns of a loop, each of bounded length. -/
theorem length_turns {α : Type*} (f : α → Nat → List Piece) (xs : List α) {m : Nat}
    (h : ∀ x ∈ xs, ∀ i, (pieceBytes (f x i)).length ≤ m) :
    (pieceBytes (xs.zipIdx.flatMap fun (x, i) => f x i)).length ≤ m * xs.length := by
  have hfrom (k : Nat) :
      (pieceBytes ((xs.zipIdx k).flatMap fun (x, i) => f x i)).length ≤ m * xs.length := by
    induction xs generalizing k with
    | nil => simp [pieceBytes]
    | cons x xs ih =>
      have hx := h x List.mem_cons_self k
      have hxs := ih (fun y hy => h y (List.mem_cons_of_mem _ hy)) (k + 1)
      rw [List.zipIdx_cons, List.flatMap_cons, pieceBytes_append, List.length_append,
        List.length_cons, Nat.mul_succ]
      exact (Nat.add_le_add hx hxs).trans (Nat.add_comm _ _).le
  exact hfrom 0

theorem length_profilePieces (c : Control) {p : WifiProfile} (hp : p.ssid.length < configSsidMax)
    (i : Nat) : (pieceBytes (c.profilePieces p i)).length ≤ 267 := by
  have hssid := length_quote p.ssid
  have hcomma := length_comma i
  have hopen := length_boolText (p.password = [])
  have hactive := length_boolText (i = c.cfg.active)
  have hstatus := statusName_length (c.profStatus i)
  have hrssi := length_decimalInt_int16 (Int16.ofInt (c.profRssi i))
  have hmax : configSsidMax = 33 := rfl
  unfold profilePieces
  split_ifs <;> simp [pieceBytes, Piece.bytes, ascii, -Int16.toInt_ofInt] <;> omega

theorem length_routePieces (r : WgRoute) (i : Nat) :
    (pieceBytes (routePieces r i)).length ≤ 22 := by
  have hcomma := length_comma i
  have hnet := fmtIp4_length r.net
  have hplen := length_decimal_uint8 r.plen
  simp [routePieces, pieceBytes, Piece.bytes, ascii]
  omega

theorem configActiveSsid_length {cfg : Config} (hcfg : Domain cfg) :
    (configActiveSsid cfg).length < configSsidMax := by
  unfold configActiveSsid activeProfile
  cases hp : cfg.profiles.entries[cfg.active]? with
  | none => decide
  | some p => exact (hcfg.profiles p (List.mem_of_getElem? hp)).1

theorem length_wifiPieces {c : Control} (hcfg : Domain c.cfg) (v : StatusView) :
    (pieceBytes (c.wifiPieces v)).length ≤ 2416 := by
  have hprofiles := length_turns c.profilePieces c.cfg.profiles.entries
    fun p hp i => length_profilePieces c (hcfg.profiles p hp).1 i
  have hcount := c.cfg.profiles.le_max
  have hactive := configActiveSsid_length hcfg
  have hssid := length_quote (configActiveSsid c.cfg)
  have hlink := length_boolText c.linkUp
  have hip := ntoa_length v.staIp
  have hsta := c.stationState_length
  have hmax : configSsidMax = 33 ∧ configProfileMax = 8 := ⟨rfl, rfl⟩
  rw [wifiPieces, pieceBytes_append, pieceBytes_append, List.length_append, List.length_append]
  rw [← stationState]
  simp [pieceBytes, Piece.bytes, ascii] at hprofiles ⊢
  omega

set_option maxRecDepth 2048 in
theorem length_wgPieces {board : Board} (hkeys : PublicKeys board) {c : Control}
    (hcfg : Domain c.cfg) (v : StatusView) :
    (pieceBytes (wgPieces board c v)).length ≤ 772 := by
  have hroutes := length_turns routePieces c.cfg.wg.routes
    fun r _ i => length_routePieces r i
  have hcount := hcfg.wg.routeCount
  have hstate := v.wg.stateStr_length
  have hpub := pubkey_length hkeys c.cfg
  have hpeer := length_boolText (c.cfg.wg.peerPublic ≠ [])
  have hpsk := length_boolText (c.cfg.wg.psk ≠ [])
  have hendpoint := hcfg.wg.endpoint
  have hquote := length_quote c.cfg.wg.endpoint
  have hport := length_decimal_uint16 c.cfg.wg.endpointPort
  have haddr := fmtIp4_length c.cfg.wg.addr
  have hprefix := length_decimal_uint8 c.cfg.wg.plen
  have hhost := fmtIp4_length c.cfg.wg.hostAddr
  have hdns := fmtIp4_length c.cfg.wg.dns
  have hmtu := length_decimal_uint16 c.cfg.wg.hostMtu
  have hkeepalive := length_decimal_uint16 c.cfg.wg.keepalive
  have hexit := length_boolText c.cfg.wg.exitEnabled
  have hexitlan := length_boolText c.cfg.wg.exitLan
  have hmax : configEndpointMax = 64 ∧ configRoutesMax = 4 := ⟨rfl, rfl⟩
  rw [wgPieces, pieceBytes_append, pieceBytes_append, List.length_append, List.length_append]
  simp [pieceBytes, Piece.bytes, ascii] at hroutes hpeer hpsk ⊢
  omega

theorem length_apPieces {c : Control} (hcfg : Domain c.cfg) (v : StatusView) :
    (pieceBytes (c.apPieces v)).length ≤ 324 := by
  have henabled := length_boolText c.cfg.ap.enabled
  have hssid := hcfg.ap.ssid
  have hquote := length_quote c.cfg.ap.ssid
  have haddr := fmtIp4_length c.cfg.ap.addr
  have hprefix := length_decimal_uint8 c.cfg.ap.plen
  have hclient := fmtIp4_length c.cfg.ap.clientAddr
  have hstas := length_decimalInt_int32 v.apClientCount
  have hleased := length_boolText v.apLeased
  have hmax : configSsidMax = 33 := rfl
  simp [apPieces, pieceBytes, Piece.bytes, ascii]
  omega

theorem length_usbPieces (v : StatusView) : (pieceBytes (usbPieces v)).length ≤ 94 := by
  have hfrom := length_decimal_uint32 v.fromHost
  have hto := length_decimal_uint32 v.toHost
  have htxdrop := length_decimal_uint32 v.txdrop
  have hpoolfail := length_decimal_uint32 v.poolfail
  simp [usbPieces, pieceBytes, Piece.bytes, ascii]
  omega

theorem length_headPieces (version : CStr) (c : Control) (v : StatusView) :
    (pieceBytes (headPieces version c v)).length ≤ 71 + version.length := by
  have huptime := length_decimal_uint32 (c.env.now / 1000)
  have hprovisioned := length_boolText (configWgComplete c.cfg)
  have hleased := length_boolText v.usbLeased
  simp [headPieces, pieceBytes, Piece.bytes, ascii] at huptime ⊢
  omega

/-- The longest status. -/
theorem length_statusPieces {board : Board} (hkeys : PublicKeys board) {c : Control}
    (hcfg : Domain c.cfg) (version : CStr) (v : StatusView) :
    (pieceBytes (statusPieces board version c v)).length ≤ 3677 + version.length := by
  have hhead := length_headPieces version c v
  have hwifi := length_wifiPieces hcfg v
  have hwg := length_wgPieces hkeys hcfg v
  have hap := length_apPieces hcfg v
  have husb := length_usbPieces v
  simp only [statusPieces, pieceBytes_append, List.length_append]
  omega

/-! ### What is in the buffer -/

theorem profilePieces_spaced (c : Control) (p : WifiProfile) (i : Nat) :
    Spaced (c.profilePieces p i) := by
  simp only [profilePieces, List.append_assoc, List.cons_append, List.nil_append]
  refine ⟨?_, .of_texts (by grind)⟩
  simp [pieceBytes, Piece.bytes, ascii]

theorem statusPieces_spaced (board : Board) (version : CStr) (c : Control) (v : StatusView) :
    Spaced (statusPieces board version c v) := by
  have hprofiles : Spaced (c.cfg.profiles.entries.zipIdx.flatMap fun (p, i) =>
      c.profilePieces p i) := Spaced.flatMap fun x _ => profilePieces_spaced c x.1 x.2
  have hroutes : Spaced (c.cfg.wg.routes.zipIdx.flatMap fun (r, i) => routePieces r i) :=
    Spaced.flatMap fun x _ => .of_texts (by simp [routePieces])
  have hhead : Spaced (headPieces version c v) := trivial
  have hwifi : Spaced (c.wifiPieces v) := by
    refine Spaced.append (Spaced.append ⟨?_, trivial⟩ hprofiles) trivial
    simp [pieceBytes, Piece.bytes, ascii]
  have hwg : Spaced (wgPieces board c v) := by
    refine Spaced.append (Spaced.append ⟨?_, trivial⟩ hroutes) trivial
    simp [pieceBytes, Piece.bytes, ascii]
  have hap : Spaced (c.apPieces v) := by
    refine ⟨?_, trivial⟩
    simp [pieceBytes, Piece.bytes, ascii]
  exact (((hhead.append hwifi).append hwg).append hap).append trivial

/-- The version of a firmware, as it is put between quotes. -/
def VersionFits (version : CStr) : Prop := version.all isPlain ∧ version.length ≤ 160

/-- For a configuration in its domain the body is the whole of the value. -/
theorem statusJson_body {board : Board} (hkeys : PublicKeys board) {version : CStr}
    (hv : VersionFits version) {c : Control} (hcfg : Domain c.cfg) (v : StatusView) {o : Bytes}
    (ho : o.length = bodyMax) :
    ∃ s, statusJson board version c v o bodyMax = some s ∧ s.n < bodyMax ∧
      s.body = render (statusValue board version c v) := by
  have hlen := length_statusPieces hkeys hcfg version v
  have hmax : bodyMax = 3840 := rfl
  have hversion := hv.2
  obtain ⟨s, ps', hs, hlt, -, hbody, hall⟩ := emitAll_body (statusPieces board version c v) ho
    (by rw [statusPieces, List.getLast?_append]; rfl) (by decide) (by decide)
    (.of_length (by omega))
  have hwhole := hall (statusPieces_spaced board version c v) (by omega)
  rw [← Out.body, hwhole, List.take_of_length_le (by omega), statusPieces_bytes board hv.1]
    at hbody
  exact ⟨s, hs, hlt, hbody⟩

/-! ### Complete bodies -/

/-- A body is one JSON value that gives the names and the endpoint of a configuration as they are,
and lists every profile. -/
def StatusSays (cfg : Config) (body : Bytes) : Prop :=
  ∃ v, Json.parse body = some v ∧
    (v.field "wifi").bind (Value.field "ssid") = some (.str (configActiveSsid cfg)) ∧
    (v.field "wifi").bind (Value.column "profiles" "ssid") =
      some (cfg.profiles.entries.map fun p => some (.str p.ssid)) ∧
    (v.field "wg").bind (Value.field "endpoint") = some (.str cfg.wg.endpoint) ∧
    (v.field "ap").bind (Value.field "ssid") = some (.str cfg.ap.ssid)

theorem statusValue_says (board : Board) (version : CStr) (c : Control) (v : StatusView) :
    StatusSays c.cfg (render (statusValue board version c v)) := by
  refine ⟨_, parse_render (numeric_statusValue board version c v), rfl, ?_, rfl, rfl⟩
  have hwifi : (statusValue board version c v).field "wifi" = some (c.wifiValue v) := rfl
  have hlist : (c.wifiValue v).field "profiles" =
      some (.arr (c.cfg.profiles.entries.zipIdx.map fun (p, i) => c.profileValue p i)) := rfl
  have hfield (p : WifiProfile) (i : Nat) :
      (c.profileValue p i).field "ssid" = some (.str p.ssid) := rfl
  simp only [hwifi, hlist, Value.column, Value.elements, Option.bind_some, Option.map_some,
    List.map_map]
  conv_rhs => rw [← List.zipIdx_map_fst 0 c.cfg.profiles.entries, List.map_map]
  rfl

/-- Every configuration is in its domain. -/
theorem reached_domain {board : Board} {r : Control}
    (h : Reach (StartsFrom board Domain) (fun _ _ => True) (step board) r) : Domain r.cfg := by
  have hadmitted : Reach (StartsFrom board Domain) (LinesAdmitted board fun _ _ => True)
      (step board) r := h.mono (fun _ hs => hs) fun _ _ _ _ _ => trivial
  exact ((domain_invariant board).reached hadmitted).cfg

/-- With a configuration that some run leaves behind, whatever the rest of the device is at: the
status is always complete, and the scan results are exactly when what they ask for fits in front
of the last byte of the buffer. -/
theorem bodies_complete {board : Board} (hkeys : PublicKeys board) {version : CStr}
    (hv : VersionFits version) {r : Control}
    (h : Reach (StartsFrom board Domain) (fun _ _ => True) (step board) r) {c : Control}
    (hcfg : c.cfg = r.cfg) (v : StatusView) {o : Bytes} (ho : o.length = bodyMax) :
    (∃ s, statusJson board version c v o bodyMax = some s ∧ StatusSays c.cfg s.body) ∧
      ((∃ s, c.scanJson o bodyMax = some s ∧
          ScanSays (c.scan.entries.map (·.ssid)) s.body) ↔
        scanLength c.anyScanning c.scanAge (c.scan.entries.map c.scanNet) ≤ bodyMax - 1) := by
  have hdomain : Domain c.cfg := hcfg ▸ reached_domain h
  obtain ⟨s, hs, -, hbody⟩ := statusJson_body hkeys hv hdomain v ho
  refine ⟨⟨s, hs, hbody ▸ statusValue_says board version c v⟩, ?_⟩
  rw [scanSays_iff c ho, length_scanValue]
  exact Nat.lt_iff_le_pred (by decide)

/-- A firmware built for one network. -/
def homeBoard : Board :=
  { plainBoard with wifiSsid := ascii "home", wifiPassword := ascii "hush-hush" }

/-- It sees that network and one with a quote in its name. -/
def homeScan : Scan where
  results i := if i = 0 then { ssidBuf := ascii "home" ++ [0], rssi := -48, channel := 6, auth := 4 }
    else { ssidBuf := ascii "the \"other\"" ++ [0], rssi := -71, channel := 11 }
  resultCount := 2

/-- Both bodies, of a device that was started with its defaults. -/
theorem bodies_complete_home :
    (∃ s, statusJson homeBoard (ascii "0.0.0-dev") { boot homeBoard none {} with scan := homeScan } {}
        (List.replicate bodyMax 0) bodyMax = some s ∧ StatusSays (boot homeBoard none {}).cfg s.body) ∧
      ∃ s, Control.scanJson { boot homeBoard none {} with scan := homeScan }
        (List.replicate bodyMax 0) bodyMax = some s ∧
          ScanSays [ascii "home", ascii "the \"other\""] s.body := by
  have hstart : Reach (StartsFrom homeBoard Domain) (fun _ _ => True) (step homeBoard)
      (boot homeBoard none {}) := .start ⟨none, {}, nofun, rfl⟩
  have hkeys : PublicKeys homeBoard := nofun
  have hversion : VersionFits (ascii "0.0.0-dev") := ⟨by decide, by decide⟩
  have hboth := bodies_complete hkeys hversion hstart
    (c := { boot homeBoard none {} with scan := homeScan }) rfl {}
    (o := List.replicate bodyMax 0) List.length_replicate
  exact ⟨hboth.1, hboth.2.mpr (by decide)⟩

/-- The strongest networks around have different names of 32 control characters. -/
def crowdedScan : Scan where
  results i :=
    { ssidBuf := UInt8.ofNat (i + 1) :: List.replicate 31 1 ++ [0], rssi := -60, channel := 6,
      auth := 4 }
  resultCount := wifiScanMax

/-- A full table of them, on a device without a saved network: the body is not complete. -/
theorem bodies_incomplete :
    (∀ e ∈ crowdedScan.entries, e.ssid.length = 32 ∧ 0 ∉ e.ssid) ∧
      crowdedScan.entries.length = 24 ∧ (crowdedScan.entries.map (·.ssid)).Nodup ∧
      ¬∃ s, Control.scanJson { boot plainBoard none {} with scan := crowdedScan }
        (List.replicate bodyMax 0) bodyMax = some s ∧
          ScanSays (crowdedScan.entries.map (·.ssid)) s.body := by
  refine ⟨by decide, by decide, by decide, fun h => ?_⟩
  have hfits := (scanSays_iff { boot plainBoard none {} with scan := crowdedScan }
    List.length_replicate).mp h
  rw [length_scanValue] at hfits
  exact absurd hfits (by decide +kernel)

end Control

end Molewire
