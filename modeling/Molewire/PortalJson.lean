/-
# The JSON bodies of the portal

`http_portal.c`: the bodies of `/api/status` and `/api/scan`, put together in a
buffer of fixed size. A piece that does not fit is cut off without notice, and
the pieces behind it go on where it ends. A write past the end of the buffer
has no result.
-/

import Molewire.ConfigProto
import Molewire.HttpPortal
import Molewire.Library.Json
import Molewire.Wg

namespace Molewire

open ByteBuffer

/-! ### Writing into a buffer -/

/-- A store of some bytes. -/
def poke (o : Bytes) (off : Nat) (xs : Bytes) : Option Bytes :=
  if off + xs.length ≤ o.length then some (splice o off xs) else none

/-- `snprintf(o + off, size, ..)` of a text: what there is room for, and a zero. -/
def snprintf (o : Bytes) (off size : Nat) (t : CStr) : Option Bytes :=
  if size = 0 then some o else poke o off (t.take (size - 1) ++ [0])

/-- `(size_t)(cap - n)`. -/
def sizeLeft (cap n : Nat) : Nat := (cap + 2 ^ 32 - n) % 2 ^ 32

/-- The buffer of a body and how much of it is in use, `o` and `n`. -/
structure Out where
  o : Bytes
  n : Nat

/-- The bytes a generator reports to have written. -/
def Out.body (s : Out) : Bytes := s.o.take s.n

/-- `JADD`. -/
def jadd (cap : Nat) (t : CStr) (s : Out) : Option Out := do
  let o ← snprintf s.o s.n (sizeLeft cap s.n) t
  let n := (s.n + t.length % 2 ^ 16) % 2 ^ 16
  return ⟨o, if cap ≤ n then cap - 1 else n⟩

/-! ### Strings -/

/-- `\u%04x`. -/
def unicodeEscape (ch : UInt8) : CStr :=
  ascii "\\u" ++ [Json.hexDigit (ch.toNat / 4096 % 16), Json.hexDigit (ch.toNat / 256 % 16),
    Json.hexDigit (ch.toNat / 16 % 16), Json.hexDigit (ch.toNat % 16)]

/-- One turn of the loop of `json_str`, behind the `w` bytes already written. -/
def jsonChar (o : Bytes) (off cap w : Nat) (ch : UInt8) : Option (Bytes × Nat) :=
  if ch = 34 ∨ ch = 92 then (poke o (off + w) [92, ch]).map (·, w + 2)
  else if ch < 0x20 then
    (snprintf o (off + w) (cap - w) (unicodeEscape ch)).map (·, w + (unicodeEscape ch).length)
  else (poke o (off + w) [ch]).map (·, w + 1)

/-- The loop of `json_str`. It stops while there is room for the longest escape. -/
def jsonChars (off cap : Nat) : CStr → Bytes → Nat → Option (Bytes × Nat)
  | [], o, w => some (o, w)
  | ch :: s, o, w =>
    if w + 8 < cap then (jsonChar o off cap w ch).bind fun (o, w) => jsonChars off cap s o w
    else some (o, w)

/-- A quote of `json_str`, where there is room for it. -/
def jsonQuote (off cap : Nat) (o : Bytes) (w : Nat) : Option (Bytes × Nat) :=
  if w < cap then (poke o (off + w) [34]).map (·, w + 1) else some (o, w)

/-- `json_str(o + off, cap, s)`: the buffer and the number of bytes written. -/
def jsonStr (o : Bytes) (off cap : Nat) (s : CStr) : Option (Bytes × Nat) := do
  let (o, w) ← jsonQuote off cap o 0
  let (o, w) ← jsonChars off cap s o w
  jsonQuote off cap o w

/-- `n += (uint16_t)json_str(o + n, cap - n, ..)`. -/
def jaddStr (cap : Nat) (x : CStr) (s : Out) : Option Out := do
  let (o, w) ← jsonStr s.o s.n (sizeLeft cap s.n) x
  return ⟨o, (s.n + w % 2 ^ 16) % 2 ^ 16⟩

/-- One call of a generator: `JADD` with the text it prints, or `json_str`. -/
inductive Piece
  | text (t : CStr)
  | str (x : CStr)
  deriving DecidableEq, Repr

def emit (cap : Nat) (s : Out) : Piece → Option Out
  | .text t => jadd cap t s
  | .str x => jaddStr cap x s

/-- The calls of a generator, one after the other. -/
def emitAll (cap : Nat) (ps : List Piece) (s : Out) : Option Out := ps.foldlM (emit cap) s

/-! ### Formats -/

/-- `%lu` and `%u`. -/
def decimal (n : Nat) : CStr := ascii (toString n)

/-- `%ld` and `%d`. -/
def decimalInt (z : Int) : CStr := if z < 0 then 45 :: decimal z.natAbs else decimal z.natAbs

def boolText (b : Bool) : CStr := ascii (if b then "true" else "false")

/-- `i ? "," : ""`. -/
def comma (i : Nat) : CStr := if i = 0 then [] else [44]

/-- `ip4addr_ntoa_r`. -/
def ip4addrNtoa (a : Ip4) : CStr :=
  decimal a.o0.toNat ++ 46 :: decimal a.o1.toNat ++ 46 :: decimal a.o2.toNat ++
    46 :: decimal a.o3.toNat

/-- `fmt_ip4_or_empty`. -/
def fmtIp4OrEmpty (a : Ip4) : CStr := if a = Ip4.any then [] else ip4addrNtoa a

/-- `stname`. -/
def statusName : ProfStatus → CStr
  | .untried => []
  | .connected => ascii "connected"
  | .nojoin => ascii "nojoin"
  | .badpass => ascii "badpass"

/-- `wg_state_str`. -/
def Wg.stateStr (w : Wg) : CStr :=
  match w.state with
  | .resolving => if w.endpointResolved then ascii "starting" else ascii "resolving"
  | .handshaking => ascii "handshaking"
  | .up => ascii "up"
  | .unconfigured => ascii "unconfigured"

namespace Control

/-- `wifi_conn_state_str`. -/
def wifiConnStateStr (c : Control) : CStr :=
  match c.conn.state with
  | .stUp => ascii "up"
  | .stTry => ascii "joining"
  | .stScan => ascii "scanning"
  | .stWait => ascii "backoff"
  | .stIdle => ascii "idle"

/-- `wifi_conn_prof_status`. -/
def profStatus (c : Control) (i : Nat) : ProfStatus :=
  if i < configProfileMax then (c.conn.prof i).status else .untried

/-- `wifi_conn_prof_rssi`. -/
def profRssi (c : Control) (i : Nat) : Int :=
  if i < configProfileMax then (c.conn.prof i).rssi else wifiRssiUnseen

/-- `wifi_conn_scan_age_ms`. -/
def scanAgeMs (c : Control) : UInt32 :=
  if c.conn.scanEver then c.env.now - c.conn.scanDoneAt else 0xFFFFFFFF

end Control

/-! ### The status -/

/-- What `status_json` reads outside the control plane. -/
structure StatusView where
  staIp : Ip4 := Ip4.any
  usbLeased : Bool := false
  wg : Wg := {}
  apClientCount : Int32 := 0
  apLeased : Bool := false
  fromHost : UInt32 := 0
  toHost : UInt32 := 0
  txdrop : UInt32 := 0
  poolfail : UInt32 := 0

namespace Control

/-- The turn of the first loop of `status_json` for profile `i`. -/
def profilePieces (c : Control) (p : WifiProfile) (i : Nat) : List Piece :=
  [.text (comma i ++ ascii "\x7b\"ssid\":"), .str p.ssid,
    .text (ascii ",\"open\":" ++ boolText (p.password = []) ++ ascii ",\"active\":" ++
      boolText (i = c.cfg.active) ++ ascii ",\"status\":\"" ++ statusName (c.profStatus i) ++
      ascii "\"")] ++
  (if c.profRssi i ≠ wifiRssiUnseen then
    [.text (ascii ",\"rssi\":" ++ decimalInt (Int16.ofInt (c.profRssi i)).toInt)] else []) ++
  [.text (ascii "\x7d")]

/-- The turn of the second loop for route `i`. -/
def routePieces (r : WgRoute) (i : Nat) : List Piece :=
  [.text (comma i ++ ascii "\"" ++ fmtIp4OrEmpty r.net ++ ascii "/" ++ decimal r.plen.toNat ++
    ascii "\"")]

/-- The calls of `status_json` up to the first object, in a firmware of the given version. -/
def headPieces (version : CStr) (c : Control) (v : StatusView) : List Piece :=
  [.text (ascii "\x7b\"version\":\"" ++ version ++ ascii "\",\"uptime_s\":" ++
      decimal (c.env.now / 1000).toNat ++ ascii ","),
    .text (ascii "\"provisioned\":" ++ boolText (configWgComplete c.cfg) ++ ascii ",\"leased\":" ++
      boolText v.usbLeased ++ ascii ",")]

/-- The calls for the station and the profiles. -/
def wifiPieces (c : Control) (v : StatusView) : List Piece :=
  [.text (ascii "\"wifi\":\x7b\"ssid\":"), .str (configActiveSsid c.cfg),
    .text (ascii ",\"link\":" ++ boolText c.linkUp ++ ascii ",\"ip\":\"" ++ ip4addrNtoa v.staIp ++
      ascii "\",\"state\":\"" ++ (if c.linkUp then ascii "up" else c.wifiConnStateStr) ++
      ascii "\",\"profiles\":[")] ++
  (c.cfg.profiles.entries.zipIdx.flatMap fun (p, i) => c.profilePieces p i) ++
  [.text (ascii "]\x7d,")]

/-- The calls for the tunnel. -/
def wgPieces (board : Board) (c : Control) (v : StatusView) : List Piece :=
  let w := c.cfg.wg
  [.text (ascii "\"wg\":\x7b\"state\":\"" ++ v.wg.stateStr ++ ascii "\",\"pubkey\":\"" ++
      (configProtoPubkey board c.cfg).getD [] ++ ascii "\","),
    .text (ascii "\"peer_set\":" ++ boolText (w.peerPublic ≠ []) ++ ascii ",\"psk_set\":" ++
      boolText (w.psk ≠ []) ++ ascii ",\"endpoint\":"), .str w.endpoint,
    .text (ascii ",\"port\":" ++ decimal w.endpointPort.toNat ++ ascii ",\"addr\":\"" ++
      fmtIp4OrEmpty w.addr ++ ascii "\",\"prefix\":" ++ decimal w.plen.toNat ++
      ascii ",\"hostip\":\"" ++ fmtIp4OrEmpty w.hostAddr ++ ascii "\",\"dns\":\"" ++
      fmtIp4OrEmpty w.dns ++ ascii "\",\"mtu\":" ++ decimal w.hostMtu.toNat ++
      ascii ",\"keepalive\":" ++ decimal w.keepalive.toNat ++ ascii ",\"exit\":" ++
      boolText w.exitEnabled ++ ascii ",\"exitlan\":" ++ boolText w.exitLan ++
      ascii ",\"routes\":[")] ++
  (w.routes.zipIdx.flatMap fun (r, i) => routePieces r i) ++
  [.text (ascii "]\x7d,")]

/-- The calls for the access point. -/
def apPieces (c : Control) (v : StatusView) : List Piece :=
  let apc := c.cfg.ap
  [.text (ascii "\"ap\":\x7b\"enabled\":" ++ boolText apc.enabled ++ ascii ",\"ssid\":"),
    .str apc.ssid,
    .text (ascii ",\"addr\":\"" ++ fmtIp4OrEmpty apc.addr ++ ascii "\",\"prefix\":" ++
      decimal apc.plen.toNat ++ ascii ",\"client\":\"" ++ fmtIp4OrEmpty apc.clientAddr ++
      ascii "\",\"stas\":" ++ decimalInt v.apClientCount.toInt ++ ascii ",\"leased\":" ++
      boolText v.apLeased ++ ascii "\x7d,")]

/-- The last call, for the counters of the USB link. -/
def usbPieces (v : StatusView) : List Piece :=
  [.text (ascii "\"usb\":\x7b\"from_host\":" ++ decimal v.fromHost.toNat ++
    ascii ",\"to_host\":" ++ decimal v.toHost.toNat ++ ascii ",\"txdrop\":" ++
    decimal v.txdrop.toNat ++ ascii ",\"poolfail\":" ++ decimal v.poolfail.toNat ++
    ascii "\x7d\x7d")]

/-- The calls of `status_json`. -/
def statusPieces (board : Board) (version : CStr) (c : Control) (v : StatusView) : List Piece :=
  headPieces version c v ++ c.wifiPieces v ++ wgPieces board c v ++ c.apPieces v ++ usbPieces v

/-- `status_json(o, cap)`. -/
def statusJson (board : Board) (version : CStr) (c : Control) (v : StatusView) (o : Bytes)
    (cap : Nat) : Option Out :=
  emitAll cap (statusPieces board version c v) ⟨o, 0⟩

end Control

/-! ### The scan results -/

/-- What `scan_json` says of one result. -/
structure Net where
  ssid : CStr
  rssi : Int16
  channel : UInt16
  isOpen : Bool
  saved : Bool
  connected : Bool
  badpass : Bool
  deriving DecidableEq, Repr

/-- One turn of the loop of `scan_json`. -/
def netPieces (n : Net) (i : Nat) : List Piece :=
  [.text (comma i ++ ascii "\x7b\"ssid\":"), .str n.ssid,
    .text (ascii ",\"rssi\":" ++ decimalInt n.rssi.toInt ++ ascii ",\"ch\":" ++
      decimal n.channel.toNat ++ ascii ",\"open\":" ++ boolText n.isOpen ++ ascii ",\"saved\":" ++
      boolText n.saved)] ++
  (if n.connected then [.text (ascii ",\"connected\":true")] else []) ++
  (if n.badpass then [.text (ascii ",\"badpass\":true")] else []) ++
  [.text (ascii "\x7d")]

/-- The calls of `scan_json` for some results. -/
def scanPieces (scanning : Bool) (age : Int) (nets : List Net) : List Piece :=
  [.text (ascii "\x7b\"scanning\":" ++ boolText scanning ++ ascii ",\"age_s\":" ++
    decimalInt age ++ ascii ",\"nets\":[")] ++
  (nets.zipIdx.flatMap fun (n, i) => netPieces n i) ++ [.text (ascii "]\x7d")]

namespace Control

/-- A result with what is known of its name. Only a saved one can be marked. -/
def scanNet (c : Control) (e : ScanEntry) : Net :=
  let p := configFindProfile c.cfg e.ssid
  { ssid := e.ssid
    rssi := Int16.ofInt e.rssi
    channel := e.channel
    isOpen := e.auth = 0
    saved := p.isSome
    connected := p.any fun p => p = c.cfg.active ∧ c.linkUp
    badpass := p.any fun p => c.profStatus p = .badpass }

/-- `wifi_conn_scanning() || config_proto_scanning()`. -/
def anyScanning (c : Control) : Bool := 0 < c.conn.scanPassesLeft || c.protoScanning

/-- What is printed for `age_s`. -/
def scanAge (c : Control) : Int :=
  if c.scanAgeMs = 0xFFFFFFFF then -1 else (c.scanAgeMs / 1000).toNat

/-- `scan_json(o, cap)`. -/
def scanJson (c : Control) (o : Bytes) (cap : Nat) : Option Out :=
  emitAll cap (scanPieces c.anyScanning c.scanAge (c.scan.entries.map c.scanNet)) ⟨o, 0⟩

end Control

end Molewire
