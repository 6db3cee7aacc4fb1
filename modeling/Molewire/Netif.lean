/-
# Interfaces and the ordinary route lookup

What the firmware uses of lwIP: the list of interfaces with their addresses and
flags, the default interface, and the lookup a packet gets when the route hook
has no opinion. A new interface goes to the head of the list. The blackhole is
never in it, so no lookup can select it.
-/

import Mathlib.Logic.Function.Basic
import Molewire.Ipv4

namespace Molewire

open ByteBuffer

/-- The interfaces of the device. -/
inductive NetifId | sta | ap | usb | wg | blackhole
  deriving DecidableEq, Repr

/-- A `struct netif`, as far as routing reads it. -/
structure Netif where
  addr : Ip4 := Ip4.any
  mask : Ip4 := Ip4.any
  up : Bool := false
  linkUp : Bool := false
  deriving DecidableEq, Repr

/-- Up, with a link and an address. -/
def Netif.usable (n : Netif) : Bool := n.up && n.linkUp && n.addr != Ip4.any

/-- The address is in the interface's subnet. -/
def Netif.onLink (n : Netif) (a : Ip4) : Bool := a.netEq n.addr n.mask

/-- `netif_list`, `netif_default` and the interfaces themselves. -/
structure Stack where
  netif : NetifId → Netif := fun _ => {}
  list : List NetifId := []
  default : Option NetifId := none

namespace Stack

/-- `netif_add`. -/
def add (s : Stack) (i : NetifId) (addr mask : Ip4) : Stack :=
  { s with
    netif := Function.update s.netif i { addr := addr, mask := mask }
    list := i :: s.list }

/-- `netif_remove`. -/
def remove (s : Stack) (i : NetifId) : Stack :=
  { netif := Function.update s.netif i { s.netif i with up := false }
    list := s.list.erase i
    default := if s.default = some i then none else s.default }

/-- `netif_set_addr`. -/
def setAddr (s : Stack) (i : NetifId) (addr mask : Ip4) : Stack :=
  { s with netif := Function.update s.netif i { s.netif i with addr := addr, mask := mask } }

/-- `netif_set_up` and `netif_set_down`. -/
def setUp (s : Stack) (i : NetifId) (up : Bool) : Stack :=
  { s with netif := Function.update s.netif i { s.netif i with up := up } }

/-- `netif_set_link_up` and `netif_set_link_down`. -/
def setLink (s : Stack) (i : NetifId) (linkUp : Bool) : Stack :=
  { s with netif := Function.update s.netif i { s.netif i with linkUp := linkUp } }

/-- `netif_set_default`. -/
def setDefault (s : Stack) (i : Option NetifId) : Stack := { s with default := i }

/-- `ip4_route`: the first usable interface with the destination on its link, else the default
interface if it is usable. -/
def ip4Route (s : Stack) (dest : Ip4) : Option NetifId :=
  match s.list.find? fun i => (s.netif i).usable && (s.netif i).onLink dest with
  | some i => some i
  | none => s.default.filter fun i => (s.netif i).usable

end Stack

/-- `ip4_addr_ismulticast`. -/
def Ip4.isMulticast (a : Ip4) : Bool := a.o0 &&& 0xF0 == 0xE0

/-- `ip4_addr_isbroadcast` on an interface; the unset address counts as one. The tunnel has no
broadcast address of its own. -/
def Stack.isBroadcast (s : Stack) (a : Ip4) (i : NetifId) : Bool :=
  let n := s.netif i
  let host := n.mask.toUInt32 ^^^ 0xFFFFFFFF
  a == Ip4.any || a == ⟨255, 255, 255, 255⟩ ||
    (i != .wg && a != n.addr && n.onLink a && a.toUInt32 &&& host == host)

end Molewire
