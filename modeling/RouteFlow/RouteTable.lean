import Mathlib.Data.List.AList
import Mathlib.Data.List.Sort
import RouteFlow.Client
import RouteFlow.Tlv

/-!
# The route table of RFClient

The threads of `FlowTable.cc`: the netlink listener, which pushes routes and learns hosts, and the gateway
resolver, which keeps the route table and makes the calls of `sendToHw`.
-/

namespace RouteFlow

def IPAddress.toText (inet : Inet) (a : IPAddress) : Text := inet.ntop a.version a.data

structure RouteEntry where
  address : IPAddress
  gateway : IPAddress
  netmask : IPAddress
  interface : Interface
deriving DecidableEq

/-- The netmask stands in the place of the gateway too. -/
def RouteEntry.toString (inet : Inet) (re : RouteEntry) : Text :=
  re.address.toText inet ++ '/' :: (re.netmask.toText inet ++ (" via ".toList ++ re.netmask.toText inet))

structure HostEntry where
  address : IPAddress
  hwaddress : Mac
  interface : Interface

structure PendingRoute where
  type : RouteModType
  rentry : RouteEntry

/-- A RouteMod that is held back. -/
structure CachedRM where
  mod : RouteModType
  addr : IPAddress
  mask : IPAddress
  gateway : Mac

/-- A call of `sendToHw`. The log is for the proofs. -/
structure HwCall where
  mod : RouteModType
  addr : IPAddress
  mask : IPAddress
  localIface : Interface
  gateway : Mac

/-- Where the resolver is: in the loop over `pendingRoutes`, or before the one over `unresolvedRoutes`. -/
inductive Resolver where
  | drain | retry
deriving DecidableEq

/-- `calls` has the calls of the last `sendToHw`. The code keeps no such list. -/
structure FlowTable where
  hostTable : AList fun _ : Text => HostEntry := ∅
  pendingRoutes : List PendingRoute := []
  routeTable : AList fun _ : Text => RouteEntry := ∅
  unresolvedRoutes : List Text := []
  cachedRm : List (String × CachedRM) := []
  rmQ : List RouteMod := []
  resolver : Resolver := .drain
  calls : List HwCall := []

def MAC_ADDR_NONE : Mac := 0

namespace FlowTable

/-! ## Netlink -/

def RT_TABLE_MAIN : Nat := 254
def DEFAULT_RFCLIENT_INTERFACE : String := "eth0"

inductive NlAction where
  | new | del | change
deriving DecidableEq

structure Nexthop where
  gateway : Option IPAddress
  intf : String

/-- A family that is neither AF_INET nor AF_INET6 is `none`. -/
structure RtnlRoute where
  table : Nat := RT_TABLE_MAIN
  family : Option IPVersion
  nexthops : List Nexthop
  dst : IPAddress
  prefixLen : Nat

/-- What `updateRouteTable` pushes. The first nexthop with a gateway is taken. -/
def updateRouteTable (ifaces : List Interface) (route : RtnlRoute)
    (action : NlAction) : Option PendingRoute := do
  let type ← match action with
    | .new => some .add
    | .del => some .delete
    | .change => none
  if route.table ≠ RT_TABLE_MAIN then none
  let family ← route.family
  let nh ← route.nexthops.find? fun nh => nh.gateway.isSome
  let gateway ← nh.gateway
  if nh.intf = DEFAULT_RFCLIENT_INTERFACE then none
  let interface ← ifaces.find? fun iface => iface.name = nh.intf
  let netmask := IPAddress.ofPrefixLen family route.prefixLen
  -- A default route has a zero address.
  let address := if route.prefixLen = 0 then netmask else route.dst
  return ⟨type, ⟨address, gateway, netmask, interface⟩⟩

/-! ## The resolver -/

section Resolver

variable (vmId : Nat) (inet : Inet)

def findHost (ft : FlowTable) (host : IPAddress) : Mac :=
  match ft.hostTable.lookup (host.toText inet) with
  | some hentry => hentry.hwaddress
  | none => MAC_ADDR_NONE

/-- The last `sendToHw`. It keeps back what is for a port that is down. -/
def handOver (ft : FlowTable) (c : HwCall) : FlowTable :=
  let ft := { ft with calls := ft.calls ++ [c] }
  if c.localIface.active then
    { ft with rmQ := ft.rmQ ++ [sendToHw vmId c.mod c.addr c.mask c.localIface c.gateway] }
  else
    { ft with cachedRm := ft.cachedRm ++ [(c.localIface.name, ⟨c.mod, c.addr, c.mask, c.gateway⟩)] }

/-- `FlowTable::sendToHw` for a route. Without the gateway's address it does nothing. -/
def sendRouteToHw (ft : FlowTable) (mod : RouteModType) (re : RouteEntry) : FlowTable :=
  let remoteMac := ft.findHost inet re.gateway
  if remoteMac = MAC_ADDR_NONE then ft
  else ft.handOver vmId ⟨mod, re.address, re.netmask, re.interface, remoteMac⟩

-- The order of strings.

/-- The order of `std::string`. -/
def keyLe : Text → Text → Bool
  | [], _ => true
  | _ :: _, [] => false
  | a :: s, b :: t => a.toNat < b.toNat || (a.toNat == b.toNat && keyLe s t)

/-- A `std::set` of keys, as a sorted list. -/
def insertKey (key : Text) (keys : List Text) : List Text :=
  if key ∈ keys then keys else keys.orderedInsert (fun a b => keyLe a b = true) key

/-- One round of the loop over `pendingRoutes`, for the route that was popped. -/
def handle (ft : FlowTable) (pr : PendingRoute) : FlowTable :=
  let re := pr.rentry
  let reKey := re.toString inet
  match pr.type with
  | .add =>
    if reKey ∈ ft.routeTable then ft
    else
      let ft := { ft with routeTable := ft.routeTable.insert reKey re }
      if ft.findHost inet re.gateway = MAC_ADDR_NONE then
        { ft with unresolvedRoutes := insertKey reKey ft.unresolvedRoutes }
      else ft.sendRouteToHw vmId inet .add re
  | .delete =>
    if reKey ∈ ft.routeTable then
      let ft := { ft with
        routeTable := ft.routeTable.erase reKey
        unresolvedRoutes := ft.unresolvedRoutes.erase reKey }
      ft.sendRouteToHw vmId inet .delete re
    else ft
  | _ => ft

/-- What `routeTable[key]` adds for a key that is not there. The code leaves the bytes of the addresses
unset. -/
def blankRoute : RouteEntry :=
  let blank : IPAddress := ⟨.ipv4, [0, 0, 0, 0], rfl⟩
  ⟨blank, blank, blank, { port := 0, name := "", hwaddress := 0 }⟩

/-- The route is new, and goes into the table. -/
def openRoute (ft : FlowTable) (key : Text) : FlowTable :=
  if key ∈ ft.routeTable then ft else { ft with routeTable := ft.routeTable.insert key blankRoute }

/-- One round of the loop over `unresolvedRoutes`, with the routes that were resolved so far. -/
def retryRoute (acc : FlowTable × List Text) (key : Text) : FlowTable × List Text :=
  let ft := acc.1.openRoute key
  let re := (ft.routeTable.lookup key).getD blankRoute
  if ft.findHost inet re.gateway = MAC_ADDR_NONE then (ft, acc.2)
  else (ft.sendRouteToHw vmId inet .add re, acc.2 ++ [key])

/-- The pass over `unresolvedRoutes`. -/
def retryRoutes (ft : FlowTable) : FlowTable :=
  let (ft, resolvedRoutes) := ft.unresolvedRoutes.foldl (retryRoute vmId inet) (ft, [])
  { ft with unresolvedRoutes := ft.unresolvedRoutes.diff resolvedRoutes }

/-- `GWResolverCb` up to the next time that it looks at a queue. -/
def resolve (ft : FlowTable) : FlowTable :=
  match ft.resolver with
  | .drain =>
    match ft.pendingRoutes with
    | [] => { ft with resolver := .retry }
    | pr :: rest => handle vmId inet { ft with pendingRoutes := rest } pr
  | .retry => { retryRoutes vmId inet ft with resolver := .drain }

/-! ## The other threads -/

/-- `updateHostTable`, for a neighbour that passes its checks. -/
def updateHostTable (ft : FlowTable) (hentry : HostEntry) : FlowTable :=
  let mask := match hentry.address.version with
    | .ipv4 => IPAddress.ofPrefixLen .ipv4 FULL_IPV4_PREFIX
    | .ipv6 => IPAddress.ofPrefixLen .ipv6 FULL_IPV6_PREFIX
  let ft := ft.handOver vmId ⟨.add, hentry.address, mask, hentry.interface, hentry.hwaddress⟩
  { ft with hostTable := ft.hostTable.insert (hentry.address.toText inet) hentry }

/-- `FlowTable::notify_port_up`: what was held back for the interface is sent. -/
def notifyPortUp (ft : FlowTable) (iface : Interface) : FlowTable :=
  let mine := ft.cachedRm.filter fun c => c.1 = iface.name
  let ft := { ft with cachedRm := ft.cachedRm.filter fun c => c.1 ≠ iface.name }
  mine.foldl (fun ft c => ft.handOver vmId ⟨c.2.mod, c.2.addr, c.2.mask, iface, c.2.gateway⟩) ft

inductive Event where
  | route (pr : PendingRoute)
  | host (hentry : HostEntry)
  | portUp (iface : Interface)
  | resolver

def step (ft : FlowTable) : Event → FlowTable
  | .route pr => { ft with pendingRoutes := ft.pendingRoutes ++ [pr] }
  | .host hentry => ft.updateHostTable vmId inet hentry
  | .portUp iface => ft.notifyPortUp vmId iface
  | .resolver => ft.resolve vmId inet

end Resolver

end FlowTable

end RouteFlow
