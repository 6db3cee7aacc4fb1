/-
# The DHCP server

`dhcp_server.c`: one lease on each client link. A request is flattened into a
static buffer that still holds older ones behind it, so every read says whether
it stayed inside the bytes that were received. The reply is written behind a
fixed header into a buffer with 128 bytes reserved for options.
-/

import Molewire.ConfigProto
import Molewire.Library.BigEndian
import Molewire.Library.Tlv
import Molewire.Netif

namespace Molewire

open BigEndian ByteBuffer

/-! ### Constants -/

/-- `sizeof(dhcp_msg_t)`, through the magic cookie. -/
def dhcpMsgLen : Nat := 240

/-- `REPLY_OPTS_MAX`. -/
def replyOptsMax : Nat := 128

/-- The size of the static `req`. -/
def dhcpReqMax : Nat := 600

/-- `LEASE_TIME_S`. -/
def leaseTimeS : Nat := 86400

/-- `DHCP_MAGIC` as it is sent. -/
def dhcpMagic : Bytes := [0x63, 0x82, 0x53, 0x63]

def bootRequest : UInt8 := 1

def bootReply : UInt8 := 2

def dhcpDiscover : UInt8 := 1

def dhcpOffer : UInt8 := 2

def dhcpRequest : UInt8 := 3

def dhcpAck : UInt8 := 5

def dhcpNak : UInt8 := 6

def optPad : UInt8 := 0

def optSubnetMask : UInt8 := 1

def optRouter : UInt8 := 3

def optDns : UInt8 := 6

def optMtu : UInt8 := 26

def optRequestedIp : UInt8 := 50

def optLeaseTime : UInt8 := 51

def optMsgType : UInt8 := 53

def optServerId : UInt8 := 54

def optClasslessRoutes : UInt8 := 121

def optEnd : UInt8 := 255

/-! ### Scopes -/

/-- `dhcp_server_t`. The length of `leaseRoutes` is the route count. -/
structure DhcpScope where
  nif : Option NetifId := none
  leaseAddr : Ip4 := Ip4.any
  leaseMask : Ip4 := Ip4.any
  leaseDns : Ip4 := Ip4.any
  leaseMtu : UInt16 := 0
  leaseRoutes : List WgRoute := []
  leaseLinkOnly : Bool := false
  leased : Bool := false
  deriving DecidableEq, Repr

/-- The arguments of `dhcp_server_start`. -/
structure DhcpLease where
  hostAddr : Ip4 := Ip4.any
  plen : UInt8 := 0
  dns : Ip4 := Ip4.any
  mtu : UInt16 := 0
  routes : List WgRoute := []
  linkOnly : Bool := false
  deriving DecidableEq, Repr

/-- `dhcp_server_start`. The socket the scopes share is bound on the first call. -/
def dhcpServerStart (nif : NetifId) (l : DhcpLease) : DhcpScope where
  nif := some nif
  leaseAddr := l.hostAddr
  leaseMask := Ip4.prefixMask l.plen.toNat
  leaseDns := if l.linkOnly then Ip4.any else l.dns
  leaseMtu := l.mtu
  leaseRoutes := l.routes.take configRoutesMax
  leaseLinkOnly := l.linkOnly
  leased := false

/-- The two scopes, `dhcp_usb` and `dhcp_ap`. -/
inductive DhcpLink | usb | ap
  deriving DecidableEq, Repr

/-- The statics of `dhcp_server.c`. -/
abbrev Dhcp := DhcpLink → DhcpScope

/-- `scope_for`. A request from any other interface has no scope. -/
def scopeFor (d : Dhcp) (inp : NetifId) : Option DhcpLink :=
  if (d .usb).nif = some inp then some .usb
  else if (d .ap).nif = some inp then some .ap
  else none

/-! ### Reading a request -/

/-- What goes wrong when bytes are read that were not received. -/
inductive ReadFault | overread
  deriving DecidableEq, Repr

/-- The byte at an offset of what was received. -/
def readByte (req : Bytes) (i : Nat) : Except ReadFault UInt8 :=
  match req[i]? with
  | some b => .ok b
  | none => .error .overread

/-- The `n` bytes from an offset on. -/
def readRange (req : Bytes) (off n : Nat) : Except ReadFault Bytes :=
  if off + n ≤ req.length then .ok (span req off n) else .error .overread

/-- The address at an offset. -/
def readAddr (req : Bytes) (off : Nat) : Except ReadFault Ip4 :=
  if off + 4 ≤ req.length then .ok (Ip4.atOffset req off) else .error .overread

/-- `find_opt`, from offset `i` of the options: the offset of the length byte. The options are
never longer than the buffer, so no offset leaves sixteen bits. -/
def findOpt (opts : Bytes) (code : UInt8) (i : Nat) : Except ReadFault (Option Nat) :=
  if i + 1 < opts.length then
    match readByte opts i with
    | .error e => .error e
    | .ok c =>
      if c = optEnd then .ok none
      else if c = optPad then findOpt opts code (i + 1)
      else
        match readByte opts (i + 1) with
        | .error e => .error e
        | .ok olen =>
          -- an option that is cut off ends the search
          if opts.length < i + 2 + olen.toNat then .ok none
          else if c = code then .ok (some (i + 1))
          else findOpt opts code (i + 2 + olen.toNat)
  else .ok none
termination_by opts.length - i

/-- The checks of the fixed header. -/
def checkHeader (req : Bytes) : Except ReadFault Bool := do
  let op ← readByte req 0
  let htype ← readByte req 1
  let hlen ← readByte req 2
  let magic ← readRange req 236 4
  pure (op == bootRequest && htype == 1 && hlen == 6 && magic == dhcpMagic)

/-- The address a request asks for. -/
def wantedAddr (req : Bytes) : Except ReadFault Ip4 := do
  let opts := req.drop dhcpMsgLen
  let rip ← findOpt opts optRequestedIp 0
  let ciaddr ← readAddr req 12
  match rip with
  | none => pure ciaddr
  | some k =>
    let len ← readByte opts k
    if len = 4 then readAddr opts (k + 1) else pure ciaddr

/-- The type of the reply, if there is one. -/
def replyType (s : DhcpScope) (req : Bytes) : Except ReadFault (Option UInt8) := do
  let opts := req.drop dhcpMsgLen
  match ← findOpt opts optMsgType 0 with
  | none => pure none
  | some k =>
    let len ← readByte opts k
    if len ≠ 1 then pure none
    else
      let msgType ← readByte opts (k + 1)
      if msgType = dhcpDiscover then pure (some dhcpOffer)
      else if msgType = dhcpRequest then
        -- a client that remembers a lease of another network starts over
        let want ← wantedAddr req
        pure (some (if want = Ip4.any ∨ want = s.leaseAddr then dhcpAck else dhcpNak))
      -- there is nothing to decline, release or ask about
      else pure none

/-! ### Writing the reply -/

/-- `put_opt`. -/
def putOpt (code : UInt8) (val : Bytes) : Bytes := Tlv.put (code, val)

/-- One route of option 121: the prefix length, the octets of the destination it covers, and the
device as router. -/
def routeDescriptor (sid : Ip4) (r : WgRoute) : Bytes :=
  r.plen :: r.net.octets.take ((r.plen.toNat + 7) / 8) ++ sid.octets

/-- What tells the three modes apart: nothing on the bring-up island, the router in gateway mode,
the routes in split mode. -/
def modeOpts (s : DhcpScope) (sid : Ip4) : Bytes :=
  if s.leaseLinkOnly then []
  else if s.leaseRoutes = [] then putOpt optRouter sid.octets
  else putOpt optClasslessRoutes (s.leaseRoutes.flatMap (routeDescriptor sid))

/-- The options of an offer or an acknowledgement behind the server's address. -/
def leaseOpts (s : DhcpScope) (sid : Ip4) : Bytes :=
  putOpt optLeaseTime (beBytes 4 leaseTimeS) ++ putOpt optSubnetMask s.leaseMask.octets ++
    modeOpts s sid ++
    (if s.leaseDns ≠ Ip4.any then putOpt optDns s.leaseDns.octets else []) ++
    putOpt optMtu (beBytes 2 s.leaseMtu.toNat)

/-- All the options of a reply, the end mark last. -/
def replyOpts (s : DhcpScope) (sid : Ip4) (type : UInt8) : Bytes :=
  putOpt optMsgType [type] ++ putOpt optServerId sid.octets ++
    (if type ≠ dhcpNak then leaseOpts s sid else []) ++ [optEnd]

/-- A run of zeros. -/
def zeros (n : Nat) : Bytes := List.replicate n 0

@[simp] theorem length_zeros (n : Nat) : (zeros n).length = n := List.length_replicate

/-- The reply to a request, with what it takes over from it. -/
def buildReply (s : DhcpScope) (sid : Ip4) (type : UInt8) (req : Bytes) :
    Except ReadFault Bytes := do
  let xid ← readRange req 4 4
  let flags ← readRange req 10 2
  let chaddr ← readRange req 28 16
  let yiaddr := if type = dhcpNak then Ip4.any else s.leaseAddr
  pure ([bootReply, 1, 6, 0] ++ xid ++ [0, 0] ++ flags ++ zeros 4 ++ yiaddr.octets ++ zeros 8 ++
    chaddr ++ zeros 192 ++ dhcpMagic ++ replyOpts s sid type)

/-! ### The receiver -/

/-- `dhcp_recv` from the header checks on. `allocated` says whether there was memory for a reply. -/
def answerRequest (s : DhcpScope) (sid : Ip4) (allocated : Bool) (req : Bytes) :
    Except ReadFault (DhcpScope × Option Bytes) := do
  if !(← checkHeader req) then pure (s, none)
  else
    match ← replyType s req with
    | none => pure (s, none)
    | some type =>
      if !allocated then pure (s, none)
      else
        let reply ← buildReply s sid type req
        pure (if type = dhcpAck then { s with leased := true } else s, some reply)

/-- `dhcp_recv` on the scope of the interface, whose address is `sid`: the scope afterwards and the
reply that is broadcast on its link. -/
def scopeRecv (s : DhcpScope) (sid : Ip4) (allocated : Bool) (data : Bytes) :
    Except ReadFault (DhcpScope × Option Bytes) :=
  if s.leaseAddr = Ip4.any ∨ data.length < dhcpMsgLen + 3 then .ok (s, none)
  else answerRequest s sid allocated (data.take dhcpReqMax)

/-- `dhcp_recv`, with the addresses of the interfaces. -/
def dhcpRecv (d : Dhcp) (addrOf : NetifId → Ip4) (inp : NetifId) (allocated : Bool)
    (data : Bytes) : Except ReadFault (Dhcp × Option Bytes) :=
  match scopeFor d inp with
  | none => .ok (d, none)
  | some l => do
    let (s, reply) ← scopeRecv (d l) (addrOf inp) allocated data
    pure (Function.update d l s, reply)

end Molewire
