/-
# The command protocol

`config_proto.c`: one interpreter for the lines of the serial console and of
the portal, with the main menu, the scan submenu and the live scan. A command
edits the configuration, answers, and has the change applied.
-/

import Molewire.WifiConn

namespace Molewire

open ByteBuffer

/-! ### Parsing -/

/-- `strcasecmp(cmd, word) == 0`. -/
def isWord (cmd : CStr) (word : String) : Bool := strcasecmpEq cmd (ascii word)

/-- `CONFIG_ENDPOINT_MAX`, the terminating zero included. -/
def configEndpointMax : Nat := 64

/-- `CONFIG_WGKEY_MAX`, the terminating zero included. -/
def configWgkeyMax : Nat := 46

/-- `CONFIG_ROUTES_MAX`. -/
def configRoutesMax : Nat := 4

/-- `SCAN_PASSES`. -/
def scanPasses : Nat := 4

/-- `CYW43_COUNTRY(a, b, 0)`. -/
def cyw43Country (a b : UInt8) : UInt32 := a.toUInt32 ||| b.toUInt32 <<< 8

/-- `CYW43_COUNTRY_WORLDWIDE`. -/
def countryWorldwide : UInt32 := cyw43Country 88 88

/-- `parse_country`. -/
def parseCountry (v : CStr) : UInt32 :=
  if strcasecmpEq v (ascii "WORLDWIDE") then countryWorldwide
  else
    match v with
    | a :: b :: _ => cyw43Country (toupper a) (toupper b)
    | _ => countryWorldwide

/-- `parse_index`: a number from one to `count`, and nothing after it, as an index. -/
def parseIndex (s : CStr) (count : Nat) : Option Nat :=
  let v := (strtol s).1
  let rest := (strtol s).2
  if rest = s ∨ rest ≠ [] ∨ v < 1 ∨ count < v then none else some (v.toNat - 1)

/-- `valid_wg_key`. -/
def validWgKey (s : CStr) : Bool := (base64Decode 64 s).any (·.length = 32)

/-- `parse_ip4`. -/
def parseIp4 (board : Board) (s : CStr) : Ip4 := (board.aton s).getD Ip4.any

/-- `config_proto_pubkey`. -/
def configProtoPubkey (board : Board) (cfg : Config) : Option CStr :=
  if cfg.wg.privateKey = [] then none
  else
    match base64Decode 64 cfg.wg.privateKey with
    | some priv => if priv.length = 32 then (board.publicKey priv).map base64Encode else none
    | none => none

/-- One `<a.b.c.d/nn>` of `set routes`, behind `n` others. -/
def parseRoute (board : Board) (n : Nat) (tok : CStr) : Except String WgRoute :=
  match strchrCut tok 47 with
  | none => .error "ERR routes are <a.b.c.d/nn>, comma-separated\n"
  | some (addr, slash) =>
    -- `0.0.0.0` is what the parser returns for a bad address too
    let net := parseIp4 board addr
    let plen := (strtol slash).1
    if (net = Ip4.any ∧ addr ≠ ascii "0.0.0.0") ∨ plen < 1 ∨ 32 < plen then
      .error "ERR bad route (prefix 1-32)\n"
    else if configRoutesMax ≤ n then .error "ERR too many routes (max 4)\n"
    else .ok ⟨net, plen.toNat.toUInt8⟩

/-- The loop of `set routes` over the texts between the commas. An empty text ends it only at the
end of the line. -/
def parseRoutes (board : Board) : List CStr → List WgRoute → Except String (List WgRoute)
  | [], parsed => .ok parsed
  | [[]], parsed => .ok parsed
  | tok :: rest, parsed =>
    match parseRoute board parsed.length tok with
    | .error e => .error e
    | .ok r => parseRoutes board rest (parsed ++ [r])

namespace Control

/-! ### Menus -/

/-- `config_proto_reset`. -/
def protoReset (c : Control) : Control :=
  let scan := if 0 < c.proto.scanRounds ∨ c.proto.mode = .contscan then c.scan.stop else c.scan
  { c with scan := scan, proto := { mode := .main, scanRounds := 0 } }

/-- `config_proto_prompt`. -/
def prompt (c : Control) : String :=
  match c.proto.mode with
  | .contscan => ""
  | .scan => if c.scan.scanning then "" else "(back|join|scan|live) # "
  | .main => "(set|scan|join|list|use|save) # "

/-- `config_proto_dump`. -/
@[simp] def dump (c : Control) : Control := c.reply .dump

/-- `list_scan`. -/
@[simp] def listScan (c : Control) : Control := c.reply (.networks c.scan.entries)

/-- `start_scan`. -/
def startScan (c : Control) : Control :=
  match c.wifiScanStart with
  | (true, c) =>
    { c with proto := { mode := .scan, scanRounds := scanPasses } }.say "[*] scanning"
  | (false, c) => c.say "[!] scan failed to start\n"

/-! ### Joining by name -/

/-- Whether the latest scan saw a network without security. One it did not see is taken to have
it. -/
def scanOpen (c : Control) (ssid : CStr) : Bool :=
  (c.scan.entries.find? fun e => strncmpEq e.ssid ssid configSsidMax).any (·.auth = 0)

/-- The second half of `join_ssid`: select profile `p` and join it if the credentials suffice. -/
def joinProfile (c : Control) (p : Nat) (isOpen : Bool) : Control :=
  let c := { c with cfg.active := p }
  if (c.profile p).password ≠ [] then
    (c.say "[*] joining with the saved password\n").wifiConnApply
  -- without a password only an open network is joined
  else if isOpen then (c.say "[*] joining (open network)\n").wifiConnApply
  else
    c.say "[*] staged -- set pass <password> to join (saved automatically once it works)\n"

/-- `join_ssid`: the profile of that name, or a new one for which a full list gives one up. -/
def joinSsid (c : Control) (ssid : CStr) (openHint : Option Bool) : Control :=
  let isOpen := openHint.getD (c.scanOpen ssid)
  match configFindProfile c.cfg ssid with
  | some p => c.joinProfile p isOpen
  | none =>
    match configAddProfile c.cfg ssid with
    | none => c.say "ERR could not add a profile\n"
    | some (p, cfg) => { c with cfg := cfg }.markCredsUnsaved.joinProfile p isOpen

/-! ### SET -/

end Control

/-- What a `set` changed: `SET_ERR`, `SET_WIFI` and so on. -/
inductive SetResult
  | err | wifi | other | wg | ap
  deriving DecidableEq, Repr

namespace Control

@[simp] def setErr (c : Control) (s : String) : SetResult × Control := (.err, c.say s)

@[simp] def putWg (c : Control) (w : WgConfig) : SetResult × Control :=
  (.wg, { c with cfg.wg := w })

@[simp] def putAp (c : Control) (a : ApConfig) : SetResult × Control :=
  (.ap, { c with cfg.ap := a })

/-- `set ssid`: rename the active profile, or add one when none is active. -/
def setSsid (c : Control) (val : CStr) : SetResult × Control :=
  if c.cfg.active < c.profileCount then
    let rename (p : WifiProfile) : WifiProfile := { p with ssid := val.take (configSsidMax - 1) }
    (.wifi, { c with cfg.profiles := c.cfg.profiles.modify c.cfg.active rename }.markCredsUnsaved)
  else
    match configAddProfile c.cfg val with
    | none => c.setErr "ERR could not add a profile\n"
    | some (i, cfg) => (.wifi, { c with cfg := { cfg with active := i } }.markCredsUnsaved)

/-- `set pass`. -/
def setPass (c : Control) (val : CStr) : SetResult × Control :=
  if c.profileCount ≤ c.cfg.active then
    c.setErr "ERR no active profile -- set ssid (or join <ssid>) first\n"
  else
    let edit (p : WifiProfile) : WifiProfile := { p with password := val.take (configPassMax - 1) }
    (.wifi, { c with cfg.profiles := c.cfg.profiles.modify c.cfg.active edit }.markCredsUnsaved)

/-- `set country`. -/
def setCountry (c : Control) (val : CStr) : SetResult × Control :=
  (.wifi, { c with cfg.country := parseCountry val })

/-- `set debug`. -/
def setDebug (c : Control) (val : CStr) : SetResult × Control :=
  if strcasecmpEq val (ascii "on") then (.other, { c with cfg.debugEnabled := true })
  else if strcasecmpEq val (ascii "off") then (.other, { c with cfg.debugEnabled := false })
  else c.setErr "ERR usage: set debug <on|off>\n"

/-- `set_wg_key`, storing through `store`. -/
def setWgKey (store : WgConfig → CStr → WgConfig) (allowOff : Bool) (c : Control) (val : CStr) :
    SetResult × Control :=
  if allowOff ∧ strcasecmpEq val (ascii "off") then c.putWg (store c.cfg.wg [])
  else if !validWgKey val then c.setErr "ERR not a WireGuard key (base64, 32 bytes)\n"
  else c.putWg (store c.cfg.wg (val.take (configWgkeyMax - 1)))

/-- `set endpoint`. -/
def setEndpoint (c : Control) (val : CStr) : SetResult × Control :=
  match strchrCut val 32 with
  | none => c.setErr "ERR usage: set endpoint <host|ip> <port>\n"
  | some (host, port) =>
    let p := (strtol port).1
    if p < 1 ∨ 65535 < p ∨ configEndpointMax ≤ host.length then
      c.setErr "ERR bad endpoint (name too long or port not 1-65535)\n"
    else c.putWg { c.cfg.wg with endpoint := host, endpointPort := p.toNat.toUInt16 }

/-- `set addr` and `set apaddr`: an address with a prefix length. -/
def setAddrPrefix (board : Board) (usage : String) (c : Control) (val : CStr)
    (store : Ip4 → UInt8 → SetResult × Control) : SetResult × Control :=
  match strchrCut val 47 with
  | none => c.setErr usage
  | some (addr, slash) =>
    let a := parseIp4 board addr
    let pfx := (strtol slash).1
    if a = Ip4.any ∨ pfx < 8 ∨ 30 < pfx then c.setErr "ERR bad address or prefix (prefix 8-30)\n"
    else store a pfx.toNat.toUInt8

/-- `set addr`. -/
def setAddr (board : Board) (c : Control) (val : CStr) : SetResult × Control :=
  setAddrPrefix board "ERR usage: set addr <a.b.c.d/nn> (e.g. 10.66.0.249/30)\n" c val
    fun a pfx => c.putWg { c.cfg.wg with addr := a, plen := pfx }

/-- `set hostip`. -/
def setHostip (board : Board) (c : Control) (val : CStr) : SetResult × Control :=
  let a := parseIp4 board val
  if a = Ip4.any then c.setErr "ERR usage: set hostip <a.b.c.d>\n"
  else c.putWg { c.cfg.wg with hostAddr := a }

/-- `set dns`. -/
def setDns (board : Board) (c : Control) (val : CStr) : SetResult × Control :=
  let a := parseIp4 board val
  if strcasecmpEq val (ascii "off") then c.putWg { c.cfg.wg with dns := Ip4.any }
  else if a = Ip4.any then c.setErr "ERR usage: set dns <a.b.c.d|off>\n"
  else c.putWg { c.cfg.wg with dns := a }

/-- `set routes`. -/
def setRoutes (board : Board) (c : Control) (val : CStr) : SetResult × Control :=
  if strcasecmpEq val (ascii "off") then c.putWg { c.cfg.wg with routes := [] }
  else
    match parseRoutes board (val.splitOn 44) [] with
    | .error e => c.setErr e
    -- an empty list would read as off
    | .ok [] => c.setErr "ERR usage: set routes <a.b.c.d/nn>[,...] | off\n"
    | .ok parsed => c.putWg { c.cfg.wg with routes := parsed }

/-- `set keepalive`. -/
def setKeepalive (c : Control) (val : CStr) : SetResult × Control :=
  let k := (strtol val).1
  if k < 0 ∨ 65000 < k then c.setErr "ERR usage: set keepalive <seconds> (0 = off)\n"
  else c.putWg { c.cfg.wg with keepalive := k.toNat.toUInt16 }

/-- `set mtu`. -/
def setMtu (c : Control) (val : CStr) : SetResult × Control :=
  let m := (strtol val).1
  if m ≠ 0 ∧ (m < 576 ∨ 1420 < m) then
    c.setErr "ERR usage: set mtu <576-1420> (0 = default 1420)\n"
  else c.putWg { c.cfg.wg with hostMtu := m.toNat.toUInt16 }

/-- `set exit` and `set exitlan`: a switch of the tunnel. -/
def setSwitch (store : WgConfig → Bool → WgConfig) (usage : String) (c : Control) (val : CStr) :
    SetResult × Control :=
  if strcasecmpEq val (ascii "on") then c.putWg (store c.cfg.wg true)
  else if strcasecmpEq val (ascii "off") then c.putWg (store c.cfg.wg false)
  else c.setErr usage

/-- `set exit`. -/
def setExit : Control → CStr → SetResult × Control :=
  setSwitch (fun w on => { w with exitEnabled := on }) "ERR usage: set exit <on|off>\n"

/-- `set exitlan`. -/
def setExitlan : Control → CStr → SetResult × Control :=
  setSwitch (fun w on => { w with exitLan := on })
    ("ERR usage: set exitlan <on|off> (on = exit traffic may reach the\n    " ++
     "local LAN's private addresses; off = internet only)\n")

/-- `set apssid`. -/
def setApssid (c : Control) (val : CStr) : SetResult × Control :=
  c.putAp { c.cfg.ap with ssid := val.take (configSsidMax - 1) }

/-- `set appass`. -/
def setAppass (c : Control) (val : CStr) : SetResult × Control :=
  if val.length < 8 ∨ 63 < val.length then
    c.setErr "ERR AP password must be 8-63 chars (an open AP is not allowed)\n"
  else c.putAp { c.cfg.ap with password := val.take (configPassMax - 1) }

/-- `set apaddr`. -/
def setApaddr (board : Board) (c : Control) (val : CStr) : SetResult × Control :=
  setAddrPrefix board "ERR usage: set apaddr <a.b.c.d/nn> (e.g. 10.66.0.253/30)\n" c val
    fun a pfx => c.putAp { c.cfg.ap with addr := a, plen := pfx }

/-- `set apclient`. -/
def setApclient (board : Board) (c : Control) (val : CStr) : SetResult × Control :=
  let a := parseIp4 board val
  if a = Ip4.any then c.setErr "ERR usage: set apclient <a.b.c.d>\n"
  else c.putAp { c.cfg.ap with clientAddr := a }

/-- `set ap`. -/
def setAp (c : Control) (val : CStr) : SetResult × Control :=
  if strcasecmpEq val (ascii "off") then c.putAp { c.cfg.ap with enabled := false }
  else if !strcasecmpEq val (ascii "on") then c.setErr "ERR usage: set ap <on|off>\n"
  else if !configApComplete c.cfg then
    c.setErr ("ERR AP config incomplete -- need apssid, appass (8-63 chars), and an\n    " ++
      "apaddr/apclient pair inside one subnet (both from tunnel space,\n    " ++
      "covered by the server's AllowedIPs)\n")
  else c.putAp { c.cfg.ap with enabled := true }

/-- The keys of `cmd_set` in the order they are compared. -/
def setKeys (board : Board) : List (String × (Control → CStr → SetResult × Control)) :=
  [("ssid", setSsid), ("pass", setPass), ("country", setCountry), ("debug", setDebug),
    ("key", setWgKey (fun w k => { w with privateKey := k }) false),
    ("peer", setWgKey (fun w k => { w with peerPublic := k }) false),
    ("psk", setWgKey (fun w k => { w with psk := k }) true),
    ("endpoint", setEndpoint), ("addr", setAddr board), ("hostip", setHostip board),
    ("dns", setDns board), ("routes", setRoutes board), ("keepalive", setKeepalive),
    ("mtu", setMtu), ("exit", setExit), ("exitlan", setExitlan), ("apssid", setApssid),
    ("appass", setAppass), ("apaddr", setApaddr board), ("apclient", setApclient board),
    ("ap", setAp)]

/-- `cmd_set`. -/
def cmdSet (board : Board) (c : Control) (args : CStr) : SetResult × Control :=
  match strchrCut args 32 with
  | none => c.setErr "ERR usage: set <key> <value> (see help)\n"
  | some (key, val) =>
    match (setKeys board).find? fun k => isWord key k.1 with
    | some (_, set) => set c val
    | none =>
      c.setErr ("ERR unknown key (ssid|pass|country|debug|key|peer|psk|endpoint|addr|" ++
        "hostip|dns|keepalive|mtu|routes|exit|exitlan|apssid|appass|apaddr|apclient|ap)\n")

/-! ### The main menu -/

/-- `g_apply_wg`. -/
@[simp] def applyWg (c : Control) : Control := c.call (.applyWg c.cfg)

/-- `g_apply_ap`. -/
@[simp] def applyAp (c : Control) : Control := c.call (.applyAp c.cfg)

/-- What follows a `set` in `handle_main`. -/
def applySet : SetResult × Control → Control
  | (.err, c) => c
  | (.wifi, c) => (c.say "[*] applying -- re-associating\n").wifiConnApply.dump
  | (.wg, c) => (c.say "[*] applying -- restarting tunnel\n").applyWg.dump
  | (.ap, c) => (c.say "[*] applying -- reconfiguring AP\n").applyAp.dump
  | (.other, c) => (c.say "[*] updated\n").dump

/-- `use <n>`. -/
def mainUse (c : Control) (args : CStr) : Control :=
  match parseIndex args c.profileCount with
  | none => c.say "ERR usage: use <n> (see list)\n"
  | some i =>
    ({ c with cfg.active := i }.say "[*] applying -- re-associating\n").wifiConnApply.dump

/-- `del <n|ssid>`. -/
def mainDel (c : Control) (args : CStr) : Control :=
  -- a number in the list is taken for its place before it is looked up as a name
  match (parseIndex args c.profileCount).or (configFindProfile c.cfg args) with
  | none => c.say "ERR usage: del <n|ssid> (see list)\n"
  | some i =>
    let c := { c with cfg := configDelProfile c.cfg i }
    (c.say "[*] deleted (save to persist)\n").wifiConnApply.dump

/-- `pcap <on|off|clear>`. -/
def mainPcap (c : Control) (args : CStr) : Control :=
  if strcasecmpEq args (ascii "on") then
    (c.call (.pcapSetEnabled true)).say
      "[*] capturing the USB link (download via the portal: /api/pcap)\n"
  else if strcasecmpEq args (ascii "off") then
    (c.call (.pcapSetEnabled false)).say
      "[*] capture stopped (ring kept -- 'pcap clear' to discard)\n"
  else if strcasecmpEq args (ascii "clear") then
    (c.call .pcapClear).say "[*] capture ring cleared\n"
  else c.say "ERR usage: pcap <on|off|clear>\n"

/-- The clamp of `wg_keypair_generate`. -/
def clampKey (r : Bytes) : Bytes :=
  (r.modify 0 (· &&& 248)).modify 31 fun b => (b &&& 127) ||| 64

/-- `wireguard_random_bytes`: as many bytes of what is drawn as were asked for. -/
def wireguardRandomBytes (draw : Bytes) (size : Nat) : Bytes := draw.takeD size 0

/-- `wg_keypair_generate`: the public and the private key. -/
def wgKeypairGenerate (board : Board) (c : Control) : Option (Bytes × Bytes) × Control :=
  let priv := clampKey (wireguardRandomBytes (c.env.random.headD []) 32)
  ((board.publicKey priv).map fun pub => (pub, priv),
    { c with env.random := c.env.random.tail })

/-- `genkey [force]`. -/
def mainGenkey (board : Board) (c : Control) (args : Option CStr) : Control :=
  if c.cfg.wg.privateKey ≠ [] ∧ !args.any fun a => strcasecmpEq a (ascii "force") then
    c.say ("ERR a private key is already set -- 'genkey force' replaces it\n    " ++
      "(the server must then be given the new public key)\n")
  else
    match c.wgKeypairGenerate board with
    | (none, c) => c.say "[!] key generation failed\n"
    | (some (pub, priv), c) =>
      let c := { c with cfg.wg.privateKey := base64Encode priv }
      let c := c.say "[*] keypair generated on-device; the private key never leaves it\n"
      let c := ((c.say "    public key: ").reply (.key (base64Encode pub))).say
        "\n    give this to the WireGuard admin, then `save`\n"
      c.applyWg.dump

/-- `pubkey`. -/
def mainPubkey (board : Board) (c : Control) : Control :=
  match configProtoPubkey board c.cfg with
  | some key => (c.reply (.key key)).say "\n"
  | none => c.say "ERR no usable private key -- genkey (or set key <b64>) first\n"

/-- `reboot` and `bootsel`, which do not return. -/
def restart (c : Control) (toBootloader : Bool) : Control :=
  let c := c.say (if toBootloader then "[*] rebooting to UF2 bootloader...\n"
    else "[*] rebooting...\n")
  { c.call (if toBootloader then .bootsel else .reboot) with halted := true }

/-- `save`. -/
def mainSave (c : Control) : Control :=
  match c.configSave with
  | (true, c) => (c.noteSaved.say "[*] saved to flash\n").dump
  | (false, c) => (c.say "[!] save failed\n").dump

/-- `restore`. -/
def mainRestore (board : Board) (c : Control) : Control :=
  let c := (c.configLoad board).noteSaved.say "[*] restored saved settings\n"
  -- both parts are applied anew, whatever changed
  c.wifiConnApply.applyWg.dump

/-- `handle_main`. -/
def handleMain (board : Board) (c : Control) (cmd : CStr) (args : Option CStr) : Control :=
  if isWord cmd "SET" && args.isSome then applySet (c.cmdSet board (args.getD []))
  else if isWord cmd "LIST" then c.reply .profiles
  else if isWord cmd "JOIN" && args.isSome then (c.joinSsid (args.getD []) none).dump
  else if isWord cmd "USE" && args.isSome then c.mainUse (args.getD [])
  else if isWord cmd "DEL" && args.isSome then c.mainDel (args.getD [])
  else if isWord cmd "PCAP" && args.isSome then c.mainPcap (args.getD [])
  else if isWord cmd "GENKEY" then c.mainGenkey board args
  else if isWord cmd "PUBKEY" then c.mainPubkey board
  -- the first letter tells the two apart
  else if isWord cmd "BOOTSEL" || isWord cmd "REBOOT" then
    c.restart (cmd.head?.map toupper == some 66)
  else if isWord cmd "SCAN" then c.startScan
  else if isWord cmd "SAVE" then c.mainSave
  else if isWord cmd "RESTORE" then c.mainRestore board
  else
    c.say ("[!] commands: set <ssid|pass|country|debug|key|peer|psk|endpoint|addr|" ++
      "hostip|dns|keepalive|mtu|routes|exit|exitlan|apssid|appass|apaddr|apclient|ap> <val> | " ++
      "genkey [force] | pubkey | pcap <on|off|clear> | list | join <ssid> | " ++
      "use <n> | del <n> | scan | save | restore | reboot | bootsel\n")

/-! ### The scan submenu -/

/-- `live`. -/
def scanLive (c : Control) : Control :=
  -- the live scan gives up the association
  match c.wifiLeave.wifiScanStart with
  | (true, c) =>
    { c with proto.mode := .contscan }.say "[*] live scan -- press any key to stop\n"
  | (false, c) => c.say "[!] scan failed to start\n"

/-- `join <n>` of the submenu. -/
def scanJoin (c : Control) (args : CStr) : Control :=
  match parseIndex args c.scan.resultCount with
  | none => c.say "ERR usage: join <n> (see the list)\n"
  | some i =>
    -- the scan has seen whether this network is open
    let e := c.scan.results i
    ({ c with proto.mode := .main }.joinSsid e.ssid (some (e.auth = 0))).dump

/-- `handle_scan`. -/
def handleScan (c : Control) (cmd : CStr) (args : Option CStr) : Control :=
  if isWord cmd "BACK" then { c with proto.mode := .main }.dump
  else if isWord cmd "SCAN" then c.startScan
  else if isWord cmd "LIVE" then c.scanLive
  else if isWord cmd "JOIN" && args.isSome then c.scanJoin (args.getD [])
  else c.say "[!] scan: back | join <n> | scan | live\n"

/-! ### Lines -/

end Control

/-- The line without the carriage returns and blanks at its end. -/
def trimLine (line : CStr) : CStr := line.rdropWhile fun ch => ch = 13 ∨ ch = 32

/-- The command word of a line and what follows the first blank. -/
def splitLine (line : CStr) : CStr × Option CStr :=
  match strchrCut line 32 with
  | some (cmd, args) => (cmd, some args)
  | none => (line, none)

namespace Control

/-- `config_proto_handle_line`. -/
def handleLine (board : Board) (c : Control) (line : CStr) : Control :=
  let line := trimLine line
  if line = [] then if c.proto.mode = .scan then c.listScan else c.dump
  else
    let cmd := (splitLine line).1
    let args := (splitLine line).2
    if c.proto.mode = .scan then c.handleScan cmd args else c.handleMain board cmd args

/-! ### Driving a scan -/

/-- `config_proto_scanning`. -/
def protoScanning (c : Control) : Bool :=
  c.scan.scanning || c.proto.mode == .contscan || 0 < c.proto.scanRounds

/-- `config_proto_poll` in the live scan. -/
def pollLive (c : Control) : Control :=
  let done := c.wifiScanPoll.1
  let c := c.wifiScanPoll.2
  let c := if done then c.reply (.stream c.scan.entries) else c
  -- the next pass starts at once
  if c.scan.scanning then c else c.wifiScanStart.2

/-- `config_proto_poll` with passes of a single scan pending. -/
def pollRounds (c : Control) : Control :=
  let done := c.wifiScanPoll.1
  let c := c.wifiScanPoll.2
  let left := if done then c.proto.scanRounds - 1 else c.proto.scanRounds
  let c := { c with proto.scanRounds := left }
  let c := if done ∧ 0 < left then c.say "." else c
  if 0 < left then if c.scan.scanning then c else c.wifiScanAgain.2
  else if c.proto.mode = .scan then
    let c := (c.say "\n").listScan
    c.say c.prompt
  else c

/-- `config_proto_poll`. -/
def protoPoll (c : Control) : Control :=
  if c.proto.mode = .contscan then c.pollLive
  else if c.proto.scanRounds = 0 then c
  else c.pollRounds

/-- `config_proto_contscan_stop`. -/
def contscanStop (c : Control) : Control :=
  let c := { c with scan := c.scan.stop, proto := { mode := .scan, scanRounds := 0 } }
  (c.say "\n[*] stopped\n").listScan

end Control

end Molewire
