import Mathlib.Data.BitVec

/-!
# RFProtocol: constants, TLVs and messages

`rflib/defs.py`, the values of `rflib/types` and the messages of `rflib/ipc/RFProtocol.py`.
Numbers are the naturals that the text fields decode to. The bytes of a TLV are left to the codecs.
-/

namespace RouteFlow

/-! ## Constants -/

def RFVS_PREFIX : Nat := 0x72667673

/-- The datapath is a virtual switch. -/
def isRfvs (dpId : Nat) : Bool := dpId >>> 32 == RFVS_PREFIX

def ETHERTYPE_IP : Nat := 0x0800
def ETHERTYPE_ARP : Nat := 0x0806
def ETHERTYPE_IPV6 : Nat := 0x86DD
def OFPP_CONTROLLER : Nat := 0xFFFFFFFD

def PRIORITY_BAND : Nat := 0xA
def PRIORITY_LOWEST : Nat := 0x0000
def PRIORITY_LOW : Nat := 0x4010
def PRIORITY_HIGH : Nat := 0x8020

def CONTROLLER_GROUP : Nat := 1

/-- A Python exception that leaves a handler. -/
inductive PyErr where
  | attributeError | keyError | typeError | valueError | stopIteration | overflowError | runtimeError
deriving DecidableEq, Repr

theorem bind_eq_ok {α β : Type} {x : Except PyErr α} {f : α → Except PyErr β} {b : β} :
    x >>= f = .ok b ↔ ∃ a, x = .ok a ∧ f a = .ok b := by
  cases x with
  | error e => simp [bind, Except.bind]
  | ok a => simp [bind, Except.bind]

/-! ## Addresses -/

/-- A MAC address. Clients write it as text, and the tables keep the text. -/
abbrev Mac := BitVec 48

abbrev Byte := BitVec 8

inductive IPVersion where
  | ipv4 | ipv6
deriving DecidableEq, Repr

/-- The length `IPAddress::init` gives an address. -/
def IPVersion.length : IPVersion → Nat
  | .ipv4 => 4
  | .ipv6 => 16

/-- `IPAddress`: the bytes in network order, as many as the version asks for. -/
structure IPAddress where
  version : IPVersion
  data : List Byte
  length_eq : data.length = version.length
deriving DecidableEq

/-! ## TLVs -/

/-- The matches of `Match.py` that RFServer uses, with their values. -/
inductive Match where
  | ip (addr mask : IPAddress)
  | ethernet (dst : Mac)
  | mpls (label : Nat)
  | ethertype (type : Nat)
  | nwProto (proto : Nat)
  | tpSrc (port : Nat)
  | tpDst (port : Nat)
  | inPort (port : Nat)
  | vlanId (tag : Nat)
deriving DecidableEq

def Match.isInPort : Match → Bool
  | .inPort _ => true
  | _ => false

/-- The actions of `Action.py` that RFServer uses. -/
inductive Action where
  | output (port : Nat)
  | setEthSrc (mac : Mac)
  | setEthDst (mac : Mac)
  | pushMpls (label : Nat)
  | popMpls
  | swapMpls (label : Nat)
  | setVlanId (tag : Nat)
  | stripVlanDeferred
  | swapVlanId (tag : Nat)
  | group (id : Nat)
  | goto (table : Nat)
  | stripVlan
  | drop
  | sflow
deriving DecidableEq

inductive RFOption where
  | priority (n : Nat)
  | idleTimeout (n : Nat)
  | hardTimeout (n : Nat)
  | ctId (n : Nat)
deriving DecidableEq

def Action.CONTROLLER : Action := .output OFPP_CONTROLLER

/-- `Match.IN_PORT(port)`. `int_to_bin(None)` calls `hex(None)`. -/
def Match.IN_PORT : Option Nat → Except PyErr Match
  | some p => .ok (.inPort p)
  | none => .error .typeError

/-- `Action.OUTPUT(port)`. A `None` can not be packed. -/
def Action.OUTPUT : Option Nat → Except PyErr Action
  | some p => .ok (.output p)
  | none => .error .typeError

/-! ## Messages -/

inductive RouteModType where
  | add | delete | controller | addGroup | deleteGroup
  /-- A number that `defs.py` does not name. -/
  | unknown (n : Nat)
deriving DecidableEq

/-- The fields of `RouteMod`. -/
structure RouteMod where
  mod : RouteModType
  id : Nat := 0
  vmPort : Nat := 0
  table : Nat := 0
  group : Nat := 0
  matchList : List Match := []
  actions : List Action := []
  options : List RFOption := []
deriving DecidableEq

namespace RouteMod

def addMatch (rm : RouteMod) (m : Match) : RouteMod := { rm with matchList := rm.matchList ++ [m] }
def addAction (rm : RouteMod) (a : Action) : RouteMod := { rm with actions := rm.actions ++ [a] }
def addOption (rm : RouteMod) (o : RFOption) : RouteMod := { rm with options := rm.options ++ [o] }
def setId (rm : RouteMod) (id : Nat) : RouteMod := { rm with id := id }
def setTable (rm : RouteMod) (table : Nat) : RouteMod := { rm with table := table }
def setMatches (rm : RouteMod) (ms : List Match) : RouteMod := { rm with matchList := ms }
def setActions (rm : RouteMod) (as : List Action) : RouteMod := { rm with actions := as }
def setOptions (rm : RouteMod) (os : List RFOption) : RouteMod := { rm with options := os }

/-- The priority that a switch reads: the last one in the options. -/
def priority (rm : RouteMod) : Option Nat :=
  (rm.options.filterMap fun | .priority n => some n | _ => none).getLast?

end RouteMod

inductive PortConfigType where
  | mapRequest | reset | mapSuccess | routemodAck
deriving DecidableEq

structure PortConfig where
  vmId : Nat
  vmPort : Nat
  operationId : PortConfigType
deriving DecidableEq

structure DataPlaneMap where
  ctId : Option Nat
  dpId : Option Nat
  dpPort : Option Nat
  vsId : Nat
  vsPort : Nat
deriving DecidableEq

/-- What RFServer sends on the RFProxy channel. -/
inductive ProxyMsg where
  | routeMod (rm : RouteMod)
  | dataPlaneMap (m : DataPlaneMap)
deriving DecidableEq

/-- What RFServer receives, on either channel. A `ROUTE_MOD` from RFProxy is its answer to one. -/
inductive Msg where
  | portRegister (vmId vmPort : Nat) (hwaddress : Mac)
  | routeMod (rm : RouteMod)
  | datapathPortRegister (ctId dpId dpPort : Nat)
  | datapathDown (ctId dpId : Nat)
  | virtualPlaneMap (vmId vmPort vsId vsPort : Nat)
  | routeModReply
deriving DecidableEq

end RouteFlow
