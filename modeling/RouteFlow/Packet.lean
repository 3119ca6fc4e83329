import RouteFlow.Protocol

/-!
# Packets

What the matches and actions of a RouteMod mean on a switch with one table.
-/

namespace RouteFlow

/-- A packet as it comes in. The VLAN and MPLS tags start with the outermost one, and `nwDst` is there
in IP packets only. -/
structure Packet where
  inPort : Nat
  dlSrc : Mac
  dlDst : Mac
  dlType : Nat
  vlans : List Nat := []
  labels : List Nat := []
  nwDst : Option IPAddress := none
  nwProto : Option Nat := none
  tpSrc : Option Nat := none
  tpDst : Option Nat := none
deriving DecidableEq

/-- The bits of the address under the mask. -/
def IPAddress.masked (a mask : IPAddress) : List Byte := List.zipWith (· &&& ·) a.data mask.data

def Match.accepts (pkt : Packet) : Match → Bool
  | .ip addr mask =>
    match pkt.nwDst with
    | none => false
    | some dst => dst.version == addr.version && dst.masked mask == addr.masked mask
  | .ethernet dst => pkt.dlDst == dst
  | .mpls label => pkt.labels.head? == some label
  | .ethertype type => pkt.dlType == type
  | .nwProto proto => pkt.nwProto == some proto
  | .tpSrc port => pkt.tpSrc == some port
  | .tpDst port => pkt.tpDst == some port
  | .inPort port => pkt.inPort == port
  | .vlanId tag => pkt.vlans.head? == some tag

namespace RouteMod

def accepts (pkt : Packet) (rm : RouteMod) : Prop := rm.matchList.all (Match.accepts pkt) = true

instance (pkt : Packet) (rm : RouteMod) : Decidable (rm.accepts pkt) := inferInstanceAs (Decidable (_ = true))

/-- A flow without a priority is one of the lowest. -/
def level (rm : RouteMod) : Nat := rm.priority.getD PRIORITY_LOWEST

end RouteMod

/-- What the switch sends: ports, with the packet as it is when it leaves. `SET_VLAN_ID` puts a tag on
and `STRIP_VLAN` takes the outermost one off. The actions for groups, for further tables and for
statistics are not for a switch with one table. -/
def execute (pkt : Packet) : List Action → List (Nat × Packet)
  | [] => []
  | .output port :: rest => (port, pkt) :: execute pkt rest
  | .setEthSrc mac :: rest => execute { pkt with dlSrc := mac } rest
  | .setEthDst mac :: rest => execute { pkt with dlDst := mac } rest
  | .pushMpls label :: rest => execute { pkt with labels := label :: pkt.labels } rest
  | .popMpls :: rest => execute { pkt with labels := pkt.labels.tail } rest
  | .swapMpls label :: rest => execute { pkt with labels := label :: pkt.labels.tail } rest
  | .setVlanId tag :: rest => execute { pkt with vlans := tag :: pkt.vlans } rest
  | .stripVlan :: rest => execute { pkt with vlans := pkt.vlans.tail } rest
  | .swapVlanId tag :: rest => execute { pkt with vlans := tag :: pkt.vlans.tail } rest
  | .drop :: _ => []
  | .stripVlanDeferred :: rest | .group _ :: rest | .goto _ :: rest | .sflow :: rest => execute pkt rest

end RouteFlow
