import RouteFlow.Tlv

/-!
# The messages as documents

`rflib/ipc/RFProtocol.cc` and `RFProtocol.py`. Numbers travel as decimal text, and each language has its
own way of reading it.
-/

namespace RouteFlow

open Bytes

/-- The types of `RFProtocol.h` and `RFProtocol.py`. -/
@[match_pattern] abbrev PORT_REGISTER : Nat := 0
@[match_pattern] abbrev PORT_CONFIG : Nat := 1
@[match_pattern] abbrev DATAPATH_PORT_REGISTER : Nat := 2
@[match_pattern] abbrev DATAPATH_DOWN : Nat := 3
@[match_pattern] abbrev VIRTUAL_PLANE_MAP : Nat := 4
@[match_pattern] abbrev DATA_PLANE_MAP : Nat := 5
@[match_pattern] abbrev ROUTE_MOD : Nat := 6

/-- What `isspace` and the streams skip. -/
def isSpace (c : Char) : Bool := c ∈ [' ', '\t', '\n', '\x0b', '\x0c', '\r']

def takeSign (t : Text) : Bool × Text :=
  if t.head? = some '-' then (true, t.tail)
  else if t.head? = some '+' then (false, t.tail)
  else (false, t)

/-! ## C++ streams -/

namespace Cpp

def toText (n : Nat) : Text := Nat.toDigits 10 n

/-- A stream skips blanks before a number. -/
def skipws (t : Text) : Text := t.dropWhile isSpace

/-- A number of `w` bits is extracted. A negative one wraps around, one that is too large fails. -/
def extractUint (w : Nat) (t : Text) : Option (Nat × Text) := do
  let (neg, t) := takeSign (skipws t)
  let (n, rest) ← scan 10 t
  if n < 2 ^ w then return (if neg then (2 ^ w - n) % 2 ^ w else n, rest) else none

/-- `string_to` throws for `none`. -/
def stringToUint (w : Nat) (t : Text) : Option Nat := (extractUint w t).map fun r => r.1

def stringTo64 (t : Text) : Option UInt64 := (stringToUint 64 t).map UInt64.ofNat
def stringTo32 (t : Text) : Option UInt32 := (stringToUint 32 t).map UInt32.ofNat

/-- A `uint8_t` is extracted as a character. -/
def stringTo8 (t : Text) : Option UInt8 := (skipws t).head?.map fun c => UInt8.ofNat c.toNat

/-- What an `int` that is read after `hex` holds then, and what is left of the stream if it has not
failed. At the end nothing is stored, without digits 0, and for a number that does not fit the nearest
one that does. -/
def extractHex (t : Text) (byte : Int) : Int × Option Text :=
  if skipws t = [] then (byte, none)
  else
    let (neg, t) := takeSign (skipws t)
    let t := if t.take 2 = ['0', 'x'] ∨ t.take 2 = ['0', 'X'] then t.drop 2 else t
    match scan 16 t with
    | none => (0, none)
    | some (n, rest) =>
      let value : Int := if neg then -n else n
      if value < -2 ^ 31 then (-2 ^ 31, none)
      else if 2 ^ 31 ≤ value then (2 ^ 31 - 1, none)
      else (value, some rest)

def macToString (m : Mac) : Text :=
  [':'].intercalate (m.bytes.map fun b => zeroFill 2 (Nat.toDigits 16 b.toNat))

/-- The rounds of `data_from_string` that are left. `none` is a stream that has failed: it leaves `byte`
as it is. -/
def dataFromString : Nat → Option Text → Int → List Byte
  | 0, _, _ => []
  | k + 1, stream, byte =>
    let (byte, stream) :=
      match stream with
      | none => (byte, none)
      | some t => extractHex t byte
    let stream := stream.bind fun t =>
      match skipws t with
      | [] => none
      | _ :: rest => some rest
    BitVec.ofInt 8 byte :: dataFromString k stream byte

/-- An address that starts with no number leaves `byte` undefined. It is 0 here. -/
def macFromString (address : Text) : Mac := BitVec.ofNat 48 (ofBe (dataFromString 6 (some address) 0))

/-- `obj[key].String()` and `obj[key].Array()`, which throw for another type. -/
def stringField (obj : Bson) (key : String) : Option Text :=
  match obj.get key with
  | some (.string t) => some t
  | _ => none

def arrayField (obj : Bson) (key : String) : Option (List Bson) :=
  match obj.get key with
  | some (.array l) => some l
  | _ => none

def uint64Field (obj : Bson) (key : String) : Option UInt64 := (stringField obj key).bind stringTo64
def uint32Field (obj : Bson) (key : String) : Option UInt32 := (stringField obj key).bind stringTo32

/-! ## C++ messages -/

structure PortRegister where
  vmId : UInt64
  vmPort : UInt32
  hwaddress : Mac
deriving DecidableEq

def PortRegister.toBson (m : PortRegister) : Bson :=
  .object [("vm_id", .string (toText m.vmId.toNat)), ("vm_port", .string (toText m.vmPort.toNat)),
    ("hwaddress", .string (macToString m.hwaddress))]

def PortRegister.fromBson (obj : Bson) : Option PortRegister := do
  return ⟨← uint64Field obj "vm_id", ← uint32Field obj "vm_port",
    macFromString (← stringField obj "hwaddress")⟩

structure PortConfig where
  vmId : UInt64
  vmPort : UInt32
  operationId : UInt32
deriving DecidableEq

def PortConfig.toBson (m : PortConfig) : Bson :=
  .object [("vm_id", .string (toText m.vmId.toNat)), ("vm_port", .string (toText m.vmPort.toNat)),
    ("operation_id", .string (toText m.operationId.toNat))]

def PortConfig.fromBson (obj : Bson) : Option PortConfig := do
  return ⟨← uint64Field obj "vm_id", ← uint32Field obj "vm_port", ← uint32Field obj "operation_id"⟩

structure DatapathPortRegister where
  ctId : UInt64
  dpId : UInt64
  dpPort : UInt32
deriving DecidableEq

def DatapathPortRegister.toBson (m : DatapathPortRegister) : Bson :=
  .object [("ct_id", .string (toText m.ctId.toNat)), ("dp_id", .string (toText m.dpId.toNat)),
    ("dp_port", .string (toText m.dpPort.toNat))]

def DatapathPortRegister.fromBson (obj : Bson) : Option DatapathPortRegister := do
  return ⟨← uint64Field obj "ct_id", ← uint64Field obj "dp_id", ← uint32Field obj "dp_port"⟩

structure DatapathDown where
  ctId : UInt64
  dpId : UInt64
deriving DecidableEq

def DatapathDown.toBson (m : DatapathDown) : Bson :=
  .object [("ct_id", .string (toText m.ctId.toNat)), ("dp_id", .string (toText m.dpId.toNat))]

def DatapathDown.fromBson (obj : Bson) : Option DatapathDown := do
  return ⟨← uint64Field obj "ct_id", ← uint64Field obj "dp_id"⟩

structure VirtualPlaneMap where
  vmId : UInt64
  vmPort : UInt32
  vsId : UInt64
  vsPort : UInt32
deriving DecidableEq

def VirtualPlaneMap.toBson (m : VirtualPlaneMap) : Bson :=
  .object [("vm_id", .string (toText m.vmId.toNat)), ("vm_port", .string (toText m.vmPort.toNat)),
    ("vs_id", .string (toText m.vsId.toNat)), ("vs_port", .string (toText m.vsPort.toNat))]

def VirtualPlaneMap.fromBson (obj : Bson) : Option VirtualPlaneMap := do
  return ⟨← uint64Field obj "vm_id", ← uint32Field obj "vm_port", ← uint64Field obj "vs_id",
    ← uint32Field obj "vs_port"⟩

structure DataPlaneMap where
  ctId : UInt64
  dpId : UInt64
  dpPort : UInt32
  vsId : UInt64
  vsPort : UInt32
deriving DecidableEq

def DataPlaneMap.toBson (m : DataPlaneMap) : Bson :=
  .object [("ct_id", .string (toText m.ctId.toNat)), ("dp_id", .string (toText m.dpId.toNat)),
    ("dp_port", .string (toText m.dpPort.toNat)), ("vs_id", .string (toText m.vsId.toNat)),
    ("vs_port", .string (toText m.vsPort.toNat))]

def DataPlaneMap.fromBson (obj : Bson) : Option DataPlaneMap := do
  return ⟨← uint64Field obj "ct_id", ← uint64Field obj "dp_id", ← uint32Field obj "dp_port",
    ← uint64Field obj "vs_id", ← uint32Field obj "vs_port"⟩

structure RouteMod where
  mod : UInt8
  id : UInt64
  vmPort : UInt64
  table : UInt64
  group : UInt64
  matchList : List Tlv
  actions : List Tlv
  options : List Tlv
deriving DecidableEq

/-- `mod` is written as a `uint16_t`, so that it is not taken for a character. -/
def RouteMod.toBson (m : RouteMod) : Bson :=
  .object [("mod", .string (toText m.mod.toNat)), ("id", .string (toText m.id.toNat)),
    ("vm_port", .string (toText m.vmPort.toNat)), ("table", .string (toText m.table.toNat)),
    ("group", .string (toText m.group.toNat)), ("matches", matchClass.listToBson m.matchList),
    ("actions", actionClass.listToBson m.actions), ("options", optionClass.listToBson m.options)]

def RouteMod.fromBson (obj : Bson) : Option RouteMod := do
  return ⟨← (stringField obj "mod").bind stringTo8, ← uint64Field obj "id", ← uint64Field obj "vm_port",
    ← uint64Field obj "table", ← uint64Field obj "group",
      ← (arrayField obj "matches").bind matchClass.toVector,
    ← (arrayField obj "actions").bind actionClass.toVector,
      ← (arrayField obj "options").bind optionClass.toVector⟩

inductive Message where
  | portRegister (m : PortRegister)
  | portConfig (m : PortConfig)
  | datapathPortRegister (m : DatapathPortRegister)
  | datapathDown (m : DatapathDown)
  | virtualPlaneMap (m : VirtualPlaneMap)
  | dataPlaneMap (m : DataPlaneMap)
  | routeMod (m : RouteMod)

namespace Message

def getType : Message → Nat
  | .portRegister _ => PORT_REGISTER
  | .portConfig _ => PORT_CONFIG
  | .datapathPortRegister _ => DATAPATH_PORT_REGISTER
  | .datapathDown _ => DATAPATH_DOWN
  | .virtualPlaneMap _ => VIRTUAL_PLANE_MAP
  | .dataPlaneMap _ => DATA_PLANE_MAP
  | .routeMod _ => ROUTE_MOD

def toBson : Message → Bson
  | .portRegister m => m.toBson
  | .portConfig m => m.toBson
  | .datapathPortRegister m => m.toBson
  | .datapathDown m => m.toBson
  | .virtualPlaneMap m => m.toBson
  | .dataPlaneMap m => m.toBson
  | .routeMod m => m.toBson

/-- `from_BSON` of the class that has this type. It sets every field. -/
def fromBson (type : Nat) (obj : Bson) : Option Message :=
  match type with
  | PORT_REGISTER => (PortRegister.fromBson obj).map .portRegister
  | PORT_CONFIG => (PortConfig.fromBson obj).map .portConfig
  | DATAPATH_PORT_REGISTER => (DatapathPortRegister.fromBson obj).map .datapathPortRegister
  | DATAPATH_DOWN => (DatapathDown.fromBson obj).map .datapathDown
  | VIRTUAL_PLANE_MAP => (VirtualPlaneMap.fromBson obj).map .virtualPlaneMap
  | DATA_PLANE_MAP => (DataPlaneMap.fromBson obj).map .dataPlaneMap
  | ROUTE_MOD => (RouteMod.fromBson obj).map .routeMod
  | _ => none

end Message

end Cpp

/-! ## Python setters -/

namespace Py

def str (n : Int) : Text := if n < 0 then '-' :: Nat.toDigits 10 n.natAbs else Nat.toDigits 10 n.natAbs

/-- `int(t)`, with `none` for a ValueError. -/
def int (t : Text) : Option Int :=
  let s := takeSign ((t.dropWhile isSpace).rdropWhile isSpace)
  if s.2 = [] then none else (numeral 10 s.2).map fun (n : Nat) => if s.1 then -(n : Int) else n

def ofBytes (b : List Byte) : Text := b.map fun x => Char.ofNat x.toNat

/-- `int(x)` of the setters. Whatever goes wrong makes it 0. -/
def setInt : Bson → Int
  | .int n => n
  | .string t => (int t).getD 0
  | .binary b => (int (ofBytes b)).getD 0
  | .array _ | .object _ => 0

/-- `str(x)` of `set_hwaddress`. No message has a list or a dict there. -/
def setStr : Bson → Text
  | .int n => str n
  | .string t => t
  | .binary b => ofBytes b
  | .array _ | .object _ => []

/-- `list(x)` of the setters: the characters of a string, the keys of a dict. -/
def setList : Bson → List Bson
  | .int _ => []
  | .string t => t.map fun c => .string [c]
  | .binary b => (ofBytes b).map fun c => .string [c]
  | .array l => l
  | .object fields => fields.map fun f => .string f.1.toList

/-- `data[key]`, which raises without the key. -/
def item (data : Bson) (key : String) : Except PyErr Bson :=
  match data.get key with
  | some v => .ok v
  | none => .error .keyError

/-- `self.set_x(data["x"])` for a number. -/
def intItem (data : Bson) (key : String) : Except PyErr Int := (item data key).map setInt
def listItem (data : Bson) (key : String) : Except PyErr (List Bson) := (item data key).map setList

/-! ## Python messages -/

structure PortRegister where
  vmId : Int := 0
  vmPort : Int := 0
  hwaddress : Text := []

def PortRegister.toDict (m : PortRegister) : Bson :=
  .object [("vm_id", .string (str m.vmId)), ("vm_port", .string (str m.vmPort)),
    ("hwaddress", .string m.hwaddress)]

def PortRegister.fromDict (data : Bson) : Except PyErr PortRegister := do
  return ⟨← intItem data "vm_id", ← intItem data "vm_port", setStr (← item data "hwaddress")⟩

structure PortConfig where
  vmId : Int := 0
  vmPort : Int := 0
  operationId : Int := 0

def PortConfig.toDict (m : PortConfig) : Bson :=
  .object [("vm_id", .string (str m.vmId)), ("vm_port", .string (str m.vmPort)),
    ("operation_id", .string (str m.operationId))]

def PortConfig.fromDict (data : Bson) : Except PyErr PortConfig := do
  return ⟨← intItem data "vm_id", ← intItem data "vm_port", ← intItem data "operation_id"⟩

structure DatapathPortRegister where
  ctId : Int := 0
  dpId : Int := 0
  dpPort : Int := 0

def DatapathPortRegister.toDict (m : DatapathPortRegister) : Bson :=
  .object [("ct_id", .string (str m.ctId)), ("dp_id", .string (str m.dpId)),
    ("dp_port", .string (str m.dpPort))]

def DatapathPortRegister.fromDict (data : Bson) : Except PyErr DatapathPortRegister := do
  return ⟨← intItem data "ct_id", ← intItem data "dp_id", ← intItem data "dp_port"⟩

structure DatapathDown where
  ctId : Int := 0
  dpId : Int := 0

def DatapathDown.toDict (m : DatapathDown) : Bson :=
  .object [("ct_id", .string (str m.ctId)), ("dp_id", .string (str m.dpId))]

def DatapathDown.fromDict (data : Bson) : Except PyErr DatapathDown := do
  return ⟨← intItem data "ct_id", ← intItem data "dp_id"⟩

structure VirtualPlaneMap where
  vmId : Int := 0
  vmPort : Int := 0
  vsId : Int := 0
  vsPort : Int := 0

def VirtualPlaneMap.toDict (m : VirtualPlaneMap) : Bson :=
  .object [("vm_id", .string (str m.vmId)), ("vm_port", .string (str m.vmPort)),
    ("vs_id", .string (str m.vsId)), ("vs_port", .string (str m.vsPort))]

def VirtualPlaneMap.fromDict (data : Bson) : Except PyErr VirtualPlaneMap := do
  return ⟨← intItem data "vm_id", ← intItem data "vm_port", ← intItem data "vs_id",
    ← intItem data "vs_port"⟩

structure DataPlaneMap where
  ctId : Int := 0
  dpId : Int := 0
  dpPort : Int := 0
  vsId : Int := 0
  vsPort : Int := 0

def DataPlaneMap.toDict (m : DataPlaneMap) : Bson :=
  .object [("ct_id", .string (str m.ctId)), ("dp_id", .string (str m.dpId)),
    ("dp_port", .string (str m.dpPort)), ("vs_id", .string (str m.vsId)), ("vs_port", .string (str m.vsPort))]

def DataPlaneMap.fromDict (data : Bson) : Except PyErr DataPlaneMap := do
  return ⟨← intItem data "ct_id", ← intItem data "dp_id", ← intItem data "dp_port", ← intItem data "vs_id",
    ← intItem data "vs_port"⟩

structure RouteMod where
  mod : Int := 0
  id : Int := 0
  vmPort : Int := 0
  table : Int := 0
  group : Int := 0
  matchList : List Bson := []
  actions : List Bson := []
  options : List Bson := []

/-- `str(self.get_vm_port)`: the method itself, of an object at some address. -/
def boundMethod (addr : Text) : Text :=
  '<' :: "bound method RouteMod.get_vm_port of <rflib.ipc.RFProtocol.RouteMod object at 0x".toList ++
    addr ++ ['>', '>']

/-- `RouteMod.to_dict`, which writes the method where its value should be. -/
def RouteMod.toDict (addr : Text) (m : RouteMod) : Bson :=
  .object [("mod", .string (str m.mod)), ("id", .string (str m.id)), ("vm_port", .string (boundMethod addr)),
    ("table", .string (str m.table)), ("group", .string (str m.group)), ("matches", .array m.matchList),
    ("actions", .array m.actions), ("options", .array m.options)]

def RouteMod.fromDict (data : Bson) : Except PyErr RouteMod := do
  return ⟨← intItem data "mod", ← intItem data "id", ← intItem data "vm_port", ← intItem data "table",
    ← intItem data "group", ← listItem data "matches", ← listItem data "actions", ← listItem data "options"⟩

inductive Message where
  | portRegister (m : PortRegister)
  | portConfig (m : PortConfig)
  | datapathPortRegister (m : DatapathPortRegister)
  | datapathDown (m : DatapathDown)
  | virtualPlaneMap (m : VirtualPlaneMap)
  | dataPlaneMap (m : DataPlaneMap)
  | routeMod (m : RouteMod)

namespace Message

def getType : Message → Nat
  | .portRegister _ => PORT_REGISTER
  | .portConfig _ => PORT_CONFIG
  | .datapathPortRegister _ => DATAPATH_PORT_REGISTER
  | .datapathDown _ => DATAPATH_DOWN
  | .virtualPlaneMap _ => VIRTUAL_PLANE_MAP
  | .dataPlaneMap _ => DATA_PLANE_MAP
  | .routeMod _ => ROUTE_MOD

def toDict (addr : Text) : Message → Bson
  | .portRegister m => m.toDict
  | .portConfig m => m.toDict
  | .datapathPortRegister m => m.toDict
  | .datapathDown m => m.toDict
  | .virtualPlaneMap m => m.toDict
  | .dataPlaneMap m => m.toDict
  | .routeMod m => m.toDict addr

def buildForType : Nat → Option Message
  | PORT_REGISTER => some (.portRegister {})
  | PORT_CONFIG => some (.portConfig {})
  | DATAPATH_PORT_REGISTER => some (.datapathPortRegister {})
  | DATAPATH_DOWN => some (.datapathDown {})
  | VIRTUAL_PLANE_MAP => some (.virtualPlaneMap {})
  | DATA_PLANE_MAP => some (.dataPlaneMap {})
  | ROUTE_MOD => some (.routeMod {})
  | _ => none

/-- `from_dict` of the message's class. It sets every field. -/
def fromDict (self : Message) (data : Bson) : Except PyErr Message :=
  match self with
  | .portRegister _ => (PortRegister.fromDict data).map .portRegister
  | .portConfig _ => (PortConfig.fromDict data).map .portConfig
  | .datapathPortRegister _ => (DatapathPortRegister.fromDict data).map .datapathPortRegister
  | .datapathDown _ => (DatapathDown.fromDict data).map .datapathDown
  | .virtualPlaneMap _ => (VirtualPlaneMap.fromDict data).map .virtualPlaneMap
  | .dataPlaneMap _ => (DataPlaneMap.fromDict data).map .dataPlaneMap
  | .routeMod _ => (RouteMod.fromDict data).map .routeMod

end Message

end Py

end RouteFlow
