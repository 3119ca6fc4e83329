import RouteFlow.Protocol

/-!
# RFClient

`RFClient.cc`, the part of `FlowTable.cc` that makes RouteMods, and the netmasks of `IPAddress.cc`.
-/

namespace RouteFlow

/-! ## Netmasks -/

namespace IPAddress

-- The loop of the constructor, with the number of bytes that are left.
def maskBytes : Nat → Nat → List Byte
  | 0, _ => []
  | n + 1, prefixLen =>
    if 8 ≤ prefixLen then 0xff :: maskBytes n (prefixLen - 8)
    else if prefixLen = 0 then 0 :: maskBytes n 0
    else BitVec.ofNat 8 (((1 <<< prefixLen) - 1) <<< (8 - prefixLen)) :: maskBytes n 0

theorem maskBytes_length (n prefixLen : Nat) : (maskBytes n prefixLen).length = n := by
  induction n generalizing prefixLen with
  | zero => rfl
  | succ n ih =>
    unfold maskBytes
    split
    · simp [ih]
    · split <;> simp [ih]

/-- `IPAddress(version, prefixLen)`: the netmask of that length. -/
def ofPrefixLen (version : IPVersion) (prefixLen : Nat) : IPAddress where
  version := version
  data := maskBytes version.length prefixLen
  length_eq := maskBytes_length _ _

-- The inner loop, from the bit `k - 1` down.

/-- The ones at the top of a byte, of the `n` bits that are looked at. -/
def leadingOnes (b : Byte) : Nat → Nat
  | 0 => 0
  | k + 1 => if b.getLsbD k then leadingOnes b k + 1 else 0

/-- The loop of `toPrefixLen` over the bytes. -/
def countPrefix : List Byte → Nat
  | [] => 0
  | b :: rest => if b = 0xff then 8 + countPrefix rest else leadingOnes b 8

def toPrefixLen (a : IPAddress) : Nat := countPrefix a.data

end IPAddress

/-! ## RouteMods -/

def FULL_IPV4_PREFIX : Nat := 32
def FULL_IPV6_PREFIX : Nat := 128

def IPPROTO_ICMP : Nat := 1
def IPPROTO_TCP : Nat := 6
def IPPROTO_ICMPV6 : Nat := 58
def IPPROTO_OSPF : Nat := 0x59
def TPORT_BGP : Nat := 0x00B3

structure Interface where
  port : Nat
  name : String
  addresses : List IPAddress := []
  hwaddress : Mac
  active : Bool := false
  physical : Bool := false
  vlan : Nat := 0
deriving DecidableEq

namespace FlowTable

/-- The two addresses that a RouteMod of a route writes. -/
def setEthernet (rm : RouteMod) (iface : Interface) (gateway : Mac) : RouteMod :=
  (rm.addAction (.setEthSrc iface.hwaddress)).addAction (.setEthDst gateway)

/-- `priority` is a `uint16_t`. -/
def setIP (rm : RouteMod) (addr mask : IPAddress) : RouteMod :=
  (rm.addMatch (.ip addr mask)).addOption
    (.priority ((PRIORITY_LOW + mask.toPrefixLen * PRIORITY_BAND) % 2 ^ 16))

/-- The RouteMod of a prefix, for an interface that is active. -/
def sendToHw (vmId : Nat) (mod : RouteModType) (addr mask : IPAddress) (iface : Interface) (gateway : Mac) :
    RouteMod :=
  let rm : RouteMod := { mod := mod, id := vmId }
  let rm := if iface.vlan = 0 then rm else rm.addAction (.swapVlanId iface.vlan)
  { setIP (setEthernet rm iface gateway) addr mask with vmPort := iface.port }

/-- What `sendToHw` makes of a host: a route of full length. -/
def sendHostToHw (vmId : Nat) (mod : RouteModType) (addr : IPAddress) (iface : Interface) (hwaddress : Mac) :
    RouteMod :=
  let full := match addr.version with
    | .ipv4 => IPAddress.ofPrefixLen .ipv4 FULL_IPV4_PREFIX
    | .ipv6 => IPAddress.ofPrefixLen .ipv6 FULL_IPV6_PREFIX
  sendToHw vmId mod addr full iface hwaddress

end FlowTable

def controllerRouteMod (vmId port vlan : Nat) (matchMac : Bool) (hwaddress : Mac) (matchIP : Bool)
    (ip : IPAddress) : RouteMod :=
  let rm : RouteMod := { mod := .controller, id := vmId, vmPort := port }
  let rm := if matchMac then rm.addMatch (.ethernet hwaddress) else rm
  let rm := if vlan = 0 then rm else rm.addMatch (.vlanId vlan)
  let rm :=
    if matchIP then
      match ip.version with
      | .ipv4 => rm.addMatch (.ip ip (.ofPrefixLen .ipv4 FULL_IPV4_PREFIX))
      | .ipv6 => rm.addMatch (.ip ip (.ofPrefixLen .ipv6 FULL_IPV6_PREFIX))
    else rm
  rm.addOption (.priority PRIORITY_HIGH)

/-- What the client sends for one address of an interface that has come up. -/
def addressRouteMods (vmId : Nat) (iface : Interface) (ip : IPAddress) : List RouteMod :=
  let new (matchMac matchIP : Bool) :=
    controllerRouteMod vmId iface.port iface.vlan matchMac iface.hwaddress matchIP ip
  let neighbours := match ip.version with
    | .ipv4 =>
      [(new true true).addMatch (.nwProto IPPROTO_ICMP),
       (new true false).addMatch (.ethertype ETHERTYPE_ARP)]
    | .ipv6 =>
      [(((new false false).addMatch (.ethertype ETHERTYPE_IPV6)).addMatch (.nwProto IPPROTO_ICMPV6)).addOption
        (.priority (PRIORITY_LOW + 1)),
       ((new true true).addMatch (.ethertype ETHERTYPE_IPV6)).addMatch (.nwProto IPPROTO_ICMPV6)]
  neighbours ++
    [((new true true).addMatch (.nwProto IPPROTO_TCP)).addMatch (.tpSrc TPORT_BGP),
     ((new true true).addMatch (.nwProto IPPROTO_TCP)).addMatch (.tpDst TPORT_BGP),
     ((new false false).addMatch (.ethertype ETHERTYPE_IP)).addMatch (.nwProto IPPROTO_OSPF),
     ((new false false).addMatch (.ethertype ETHERTYPE_IPV6)).addMatch (.nwProto IPPROTO_OSPF)]

/-- `RFClient::sendInterfaceToControllerRouteMods`: what the interface makes, address by address. -/
def interfaceToControllerRouteMods (vmId : Nat) (iface : Interface) : List RouteMod :=
  iface.addresses.flatMap (addressRouteMods vmId iface)

/-! ## The client -/

/-- The client waits for an ack when more are outstanding. -/
def max_rm_outstanding : BitVec 64 := 1

/-- Where the send loop is: before its check, before it takes a RouteMod, or before it counts the one
it has sent. -/
inductive SendLoop where
  | check | pop | count
deriving DecidableEq

/-- `sent` and `acked` count what the client did, over all of its restarts. The code has no such
counters. -/
structure RFClient where
  ifaces : List Interface
  rmQ : List RouteMod := []
  rmOutstanding : BitVec 64 := 0
  loop : SendLoop := .check
  sent : Nat := 0
  acked : Nat := 0

namespace RFClient

/-- All interfaces of the port become active or inactive. -/
def setActive (active : Bool) (vmPort : Nat) (ifaces : List Interface) : List Interface :=
  ifaces.map fun iface => if iface.port = vmPort then { iface with active := active } else iface

def deactivateInterfaces (c : RFClient) (vmPort : Nat) : RFClient :=
  { c with ifaces := setActive false vmPort c.ifaces }

def sendAllInterfaceToControllerRouteMods (vmId : Nat) (c : RFClient) (vmPort : Nat) : RFClient :=
  let rms := (c.ifaces.filter fun iface => iface.port = vmPort).flatMap (interfaceToControllerRouteMods vmId)
  { c with ifaces := setActive true vmPort c.ifaces, rmQ := c.rmQ ++ rms }

/-- `RFClient::process`, for a `PortConfig`. -/
def process (vmId : Nat) (c : RFClient) (config : PortConfig) : RFClient :=
  match config.operationId with
  | .mapRequest => c
  | .reset => c.deactivateInterfaces config.vmPort
  | .mapSuccess => c.sendAllInterfaceToControllerRouteMods vmId config.vmPort
  | .routemodAck => { c with rmOutstanding := c.rmOutstanding - 1, acked := c.acked + 1 }

/-- A new process, with the counters of the old one. -/
def restart (c : RFClient) : RFClient where
  ifaces := c.ifaces.map fun iface => { iface with active := false }
  sent := c.sent
  acked := c.acked

/-- What `RFClient::RFClient` registers. -/
def portRegisters (vmId : Nat) (c : RFClient) : List Msg :=
  (c.ifaces.filter fun iface => iface.physical).map fun iface =>
    .portRegister vmId iface.port iface.hwaddress

end RFClient

end RouteFlow
