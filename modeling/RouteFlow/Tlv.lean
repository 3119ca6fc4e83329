import Mathlib.Data.List.DropRight
import RouteFlow.Lib.Bytes
import RouteFlow.Protocol

/-!
# The TLV codecs

`rflib/types` in C++ and in Python. C++ keeps numbers in the order of the host and swaps them on the way
out and in. Python writes them through hexadecimal text. The host is little-endian.
-/

namespace RouteFlow

open Bytes

abbrev Text := List Char

/-! ## Documents -/

/-- What the BSON libraries carry. -/
inductive Bson where
  | int (n : Int)
  | string (t : Text)
  | binary (b : List Byte)
  | array (l : List Bson)
  | object (fields : List (String × Bson))

def Bson.get : Bson → String → Option Bson
  | .object fields, key => fields.lookup key
  | _, _ => none

def Bson.isObject : Bson → Bool
  | .object _ => true
  | _ => false

/-! ## Types -/

@[match_pattern] abbrev RFMT_IPV4 : Nat := 1
@[match_pattern] abbrev RFMT_IPV6 : Nat := 2
@[match_pattern] abbrev RFMT_ETHERNET : Nat := 3
@[match_pattern] abbrev RFMT_MPLS : Nat := 4
@[match_pattern] abbrev RFMT_ETHERTYPE : Nat := 5
@[match_pattern] abbrev RFMT_NW_PROTO : Nat := 6
@[match_pattern] abbrev RFMT_TP_SRC : Nat := 7
@[match_pattern] abbrev RFMT_TP_DST : Nat := 8
@[match_pattern] abbrev RFMT_IN_PORT : Nat := 9
@[match_pattern] abbrev RFMT_VLAN_ID : Nat := 10

@[match_pattern] abbrev RFAT_OUTPUT : Nat := 1
@[match_pattern] abbrev RFAT_SET_ETH_SRC : Nat := 2
@[match_pattern] abbrev RFAT_SET_ETH_DST : Nat := 3
@[match_pattern] abbrev RFAT_PUSH_MPLS : Nat := 4
@[match_pattern] abbrev RFAT_POP_MPLS : Nat := 5
@[match_pattern] abbrev RFAT_SWAP_MPLS : Nat := 6
@[match_pattern] abbrev RFAT_SET_VLAN_ID : Nat := 7
@[match_pattern] abbrev RFAT_STRIP_VLAN_DEFERRED : Nat := 8
@[match_pattern] abbrev RFAT_SWAP_VLAN_ID : Nat := 9
@[match_pattern] abbrev RFAT_GROUP : Nat := 10
@[match_pattern] abbrev RFAT_GOTO : Nat := 11
@[match_pattern] abbrev RFAT_STRIP_VLAN : Nat := 12
@[match_pattern] abbrev RFAT_DROP : Nat := 254
@[match_pattern] abbrev RFAT_SFLOW : Nat := 255

@[match_pattern] abbrev RFOT_PRIORITY : Nat := 1
@[match_pattern] abbrev RFOT_IDLE_TIMEOUT : Nat := 2
@[match_pattern] abbrev RFOT_HARD_TIMEOUT : Nat := 3
@[match_pattern] abbrev RFOT_CT_ID : Nat := 255

def Match.type : Match → Nat
  | .ip addr _ =>
    match addr.version with
    | .ipv4 => RFMT_IPV4
    | .ipv6 => RFMT_IPV6
  | .ethernet _ => RFMT_ETHERNET
  | .mpls _ => RFMT_MPLS
  | .ethertype _ => RFMT_ETHERTYPE
  | .nwProto _ => RFMT_NW_PROTO
  | .tpSrc _ => RFMT_TP_SRC
  | .tpDst _ => RFMT_TP_DST
  | .inPort _ => RFMT_IN_PORT
  | .vlanId _ => RFMT_VLAN_ID

def Action.type : Action → Nat
  | .output _ => RFAT_OUTPUT
  | .setEthSrc _ => RFAT_SET_ETH_SRC
  | .setEthDst _ => RFAT_SET_ETH_DST
  | .pushMpls _ => RFAT_PUSH_MPLS
  | .popMpls => RFAT_POP_MPLS
  | .swapMpls _ => RFAT_SWAP_MPLS
  | .setVlanId _ => RFAT_SET_VLAN_ID
  | .stripVlanDeferred => RFAT_STRIP_VLAN_DEFERRED
  | .swapVlanId _ => RFAT_SWAP_VLAN_ID
  | .group _ => RFAT_GROUP
  | .goto _ => RFAT_GOTO
  | .stripVlan => RFAT_STRIP_VLAN
  | .drop => RFAT_DROP
  | .sflow => RFAT_SFLOW

def RFOption.type : RFOption → Nat
  | .priority _ => RFOT_PRIORITY
  | .idleTimeout _ => RFOT_IDLE_TIMEOUT
  | .hardTimeout _ => RFOT_HARD_TIMEOUT
  | .ctId _ => RFOT_CT_ID

def Mac.bytes (m : Mac) : List Byte := toBe 6 m.toNat

/-! ## C++ -/

namespace Cpp

/-- Where the bytes of a number stand, on a little-endian host. -/
def htons (x : Nat) : Nat := ofLe (toBe 2 x)

/-- `htonl` on a machine that stores the low byte first. -/
def htonl (x : Nat) : Nat := ofLe (toBe 4 x)

def htonll (value : Nat) : Nat :=
  let high := htonl (value >>> 32)
  let low := htonl (value &&& 0xFFFFFFFF)
  (low <<< 32) ||| high

/-- How `TLV` stores a value. -/
inductive ByteOrder where
  | host | network
deriving DecidableEq

/-- A `TLV` object. The pointer to its value may be null. -/
structure Tlv where
  type : Nat
  length : Nat
  value : Option (List Byte)
deriving DecidableEq

namespace Tlv

def init (type len : Nat) (value : Option (List Byte)) : Tlv :=
  if len = 0 ∨ value = none then ⟨type, 0, none⟩ else ⟨type, len, value⟩

/-- The constructor for a number. It copies the first `len` bytes of a variable of `width` bytes. -/
def ofUint (type len width value : Nat) : Tlv := init type len (some ((toLe width value).take len))

def ofMac (type : Nat) (addr : Mac) : Tlv := init type 6 (some addr.bytes)

def ofIp (type : Nat) (addr mask : IPAddress) : Tlv :=
  init type (2 * addr.version.length) (some (addr.data ++ mask.data))

/-- `getUint8` to `getUint64`, for a number of `n` bytes. -/
def getUint (n : Nat) (tlv : Tlv) : Nat :=
  if tlv.length < n then 0 else ofLe ((tlv.value.getD []).take n)

/-- The value in the order of the network. -/
def netValue (tlv : Tlv) : ByteOrder → List Byte
  | .network => (tlv.value.getD []).take tlv.length
  | .host =>
    match tlv.length with
    | 2 => toLe 2 (htons (tlv.getUint 2))
    | 4 => toLe 4 (htonl (tlv.getUint 4))
    | 8 => toLe 8 (htonll (tlv.getUint 8))
    | n => (tlv.value.getD []).take n

def toBson (tlv : Tlv) (order : ByteOrder) : Bson :=
  .object [("type", .int tlv.type), ("value", .binary (tlv.netValue order))]

/-- Zero stands for a type that is not there. -/
def typeFromBson (bson : Bson) : Nat :=
  match bson.get "type" with
  | some (.int n) => (n % 256).toNat
  | _ => 0

/-- The value of a document, in the order in which it is stored. -/
def valueFromBson (bson : Bson) (order : ByteOrder) : Option (List Byte) :=
  match bson.get "value" with
  | some (.binary value) =>
    match order with
    | .network => some value
    | .host =>
      match value.length with
      | 2 => some (toLe 2 (htons (ofLe value)))
      | 4 => some (toLe 4 (htonl (ofLe value)))
      | 8 => some (toLe 8 (htonll (ofLe value)))
      | _ => some value
  | _ => none

end Tlv

/-- The tables that Match, Action and Option differ in. -/
structure TlvClass where
  typeToLength : Nat → Nat
  typeToByteOrder : Nat → ByteOrder

namespace TlvClass

variable (c : TlvClass)

def ofUint (type width value : Nat) : Tlv := Tlv.ofUint type (c.typeToLength type) width value

def ofBytes (type : Nat) (value : List Byte) : Tlv :=
  Tlv.init type (c.typeToLength type) (some (value.take (c.typeToLength type)))

def toBson (tlv : Tlv) : Bson := tlv.toBson (c.typeToByteOrder tlv.type)

/-- `none` is the null pointer. -/
def fromBson (bson : Bson) : Option Tlv :=
  let type := Tlv.typeFromBson bson
  if type = 0 then none
  else
    match Tlv.valueFromBson bson (c.typeToByteOrder type) with
    | none => none
    | some value => some (Tlv.init type (c.typeToLength type) (some value))

def listToBson (list : List Tlv) : Bson := .array (list.map c.toBson)

/-- Invalid elements are skipped, but `Obj()` throws for one that is not an object. -/
def toVector (array : List Bson) : Option (List Tlv) :=
  if array.all Bson.isObject then some (array.filterMap c.fromBson) else none

end TlvClass

def matchClass : TlvClass where
  typeToLength
    | RFMT_IPV4 => 8
    | RFMT_IPV6 => 32
    | RFMT_ETHERNET => 6
    | RFMT_NW_PROTO => 1
    | RFMT_ETHERTYPE | RFMT_TP_SRC | RFMT_TP_DST | RFMT_VLAN_ID => 2
    | RFMT_MPLS | RFMT_IN_PORT => 4
    | _ => 0
  typeToByteOrder
    | RFMT_IPV4 | RFMT_IPV6 | RFMT_ETHERNET => .network
    | _ => .host

def actionClass : TlvClass where
  typeToLength
    | RFAT_OUTPUT | RFAT_PUSH_MPLS | RFAT_SWAP_MPLS | RFAT_SET_VLAN_ID | RFAT_SWAP_VLAN_ID | RFAT_GROUP
    | RFAT_GOTO => 4
    | RFAT_SET_ETH_SRC | RFAT_SET_ETH_DST => 6
    | _ => 0
  typeToByteOrder
    | RFAT_SET_ETH_SRC | RFAT_SET_ETH_DST => .network
    | _ => .host

def optionClass : TlvClass where
  typeToLength
    | RFOT_PRIORITY | RFOT_IDLE_TIMEOUT | RFOT_HARD_TIMEOUT => 2
    | RFOT_CT_ID => 8
    | _ => 0
  typeToByteOrder _ := .host

/-- The constructor for the type, with a number of the type's own width. -/
def ofMatch : Match → Tlv
  | .ip addr mask => .ofIp (Match.ip addr mask).type addr mask
  | .ethernet dst => .ofMac RFMT_ETHERNET dst
  | .mpls label => matchClass.ofUint RFMT_MPLS 4 label
  | .ethertype type => matchClass.ofUint RFMT_ETHERTYPE 2 type
  | .nwProto proto => matchClass.ofUint RFMT_NW_PROTO 1 proto
  | .tpSrc port => matchClass.ofUint RFMT_TP_SRC 2 port
  | .tpDst port => matchClass.ofUint RFMT_TP_DST 2 port
  | .inPort port => matchClass.ofUint RFMT_IN_PORT 4 port
  | .vlanId tag => matchClass.ofUint RFMT_VLAN_ID 2 tag

def ofAction : Action → Tlv
  | .output port => actionClass.ofUint RFAT_OUTPUT 4 port
  | .setEthSrc mac => .ofMac RFAT_SET_ETH_SRC mac
  | .setEthDst mac => .ofMac RFAT_SET_ETH_DST mac
  | .pushMpls label => actionClass.ofUint RFAT_PUSH_MPLS 4 label
  | .popMpls => actionClass.ofBytes RFAT_POP_MPLS []
  | .swapMpls label => actionClass.ofUint RFAT_SWAP_MPLS 4 label
  | .setVlanId tag => actionClass.ofUint RFAT_SET_VLAN_ID 4 tag
  | .stripVlanDeferred => actionClass.ofBytes RFAT_STRIP_VLAN_DEFERRED []
  | .swapVlanId tag => actionClass.ofUint RFAT_SWAP_VLAN_ID 4 tag
  | .group id => actionClass.ofUint RFAT_GROUP 4 id
  | .goto table => actionClass.ofUint RFAT_GOTO 4 table
  | .stripVlan => actionClass.ofBytes RFAT_STRIP_VLAN []
  | .drop => actionClass.ofBytes RFAT_DROP []
  | .sflow => actionClass.ofBytes RFAT_SFLOW []

def ofOption : RFOption → Tlv
  | .priority n => optionClass.ofUint RFOT_PRIORITY 2 n
  | .idleTimeout n => optionClass.ofUint RFOT_IDLE_TIMEOUT 2 n
  | .hardTimeout n => optionClass.ofUint RFOT_HARD_TIMEOUT 2 n
  | .ctId n => optionClass.ofUint RFOT_CT_ID 8 n

end Cpp

/-! ## Python -/

/-- `inet_ntop` and `inet_pton`, for both address families. -/
structure Inet where
  ntop : IPVersion → List Byte → Text
  pton : IPVersion → Text → Option (List Byte)

namespace Py

/-- What the constructors take and `get_value` returns. -/
inductive Value where
  | int (n : Nat)
  | text (t : Text)
  | texts (a b : Text)
  | none
deriving DecidableEq

/-- `binascii.a2b_hex`, which raises `TypeError`. -/
def a2bHex (t : Text) : Except PyErr (List Byte) :=
  match ofHex t with
  | some b => .ok b
  | none => .error .typeError

/-- A number beyond `sys.maxint` is a `long`. -/
def hex (num : Nat) : Text := '0' :: 'x' :: Nat.toDigits 16 num ++ if num < 2 ^ 63 then [] else ['L']

def hexIntExtend (num : Text) (length : Nat) : Text := zeroFill (length / 4) num

def intToBin (num length : Nat) : Except PyErr (List Byte) :=
  let hexnum := ((hex num).drop 2).rdropWhile fun c => c == 'L'
  let hexnum := if hexnum.length % 2 = 0 then hexnum else '0' :: hexnum
  a2bHex (hexIntExtend hexnum length)

def binToInt (value : List Byte) : Except PyErr Nat :=
  match value, numeral 16 (toHex value) with
  | [], _ | _, none => .error .valueError
  | _, some n => .ok n

def etherToBin (ethaddr : Text) : Except PyErr (List Byte) := a2bHex (ethaddr.filter fun c => c != ':')

def fill2 (t : Text) : Text := List.replicate (2 - t.length) ' ' ++ t

def binToEther (value : List Byte) : Text :=
  let hexval := toHex value
  [':'].intercalate ([hexval.take 2, (hexval.drop 2).take 2, (hexval.drop 4).take 2, (hexval.drop 6).take 2,
    (hexval.drop 8).take 2, hexval.drop 10].map fill2)

def Value.toBin (length : Nat) : Value → Except PyErr (List Byte)
  | .int n => intToBin n length
  | _ => .error .typeError

def Value.etherToBin : Value → Except PyErr (List Byte)
  | .text t => Py.etherToBin t
  | _ => .error .attributeError

variable (inet : Inet)

def inetPton (v : IPVersion) (t : Text) : Except PyErr (List Byte) :=
  match inet.pton v t with
  | some b => .ok b
  | none => .error .valueError

def Value.inetToBin (v : IPVersion) : Value → Except PyErr (List Byte)
  | .texts a b => do return (← inetPton inet v a) ++ (← inetPton inet v b)
  | _ => .error .typeError

/-- `Match.type_to_bin`. The last case is `None`. -/
def matchTypeToBin (matchType : Nat) (value : Value) : Except PyErr (Option (List Byte)) :=
  match matchType with
  | RFMT_IPV4 => (value.inetToBin inet .ipv4).map some
  | RFMT_IPV6 => (value.inetToBin inet .ipv6).map some
  | RFMT_ETHERNET => value.etherToBin.map some
  | RFMT_MPLS | RFMT_IN_PORT => (value.toBin 32).map some
  | RFMT_VLAN_ID | RFMT_ETHERTYPE | RFMT_TP_SRC | RFMT_TP_DST => (value.toBin 16).map some
  | RFMT_NW_PROTO => (value.toBin 8).map some
  | _ => .ok none

def matchGetValue (matchType : Nat) (value : List Byte) : Except PyErr Value :=
  match matchType with
  | RFMT_IPV4 => .ok (.texts (inet.ntop .ipv4 (value.take 4)) (inet.ntop .ipv4 (value.drop 4)))
  | RFMT_IPV6 => .ok (.texts (inet.ntop .ipv6 (value.take 16)) (inet.ntop .ipv6 (value.drop 16)))
  | RFMT_ETHERNET => .ok (.text (binToEther value))
  | RFMT_MPLS | RFMT_IN_PORT | RFMT_VLAN_ID | RFMT_ETHERTYPE | RFMT_NW_PROTO | RFMT_TP_SRC | RFMT_TP_DST =>
    (binToInt value).map .int
  | _ => .ok .none

def actionTypeToBin (actionType : Nat) (value : Value) : Except PyErr (Option (List Byte)) :=
  match actionType with
  | RFAT_OUTPUT | RFAT_PUSH_MPLS | RFAT_SWAP_MPLS | RFAT_SET_VLAN_ID | RFAT_SWAP_VLAN_ID | RFAT_GROUP
  | RFAT_GOTO => (value.toBin 32).map some
  | RFAT_SET_ETH_SRC | RFAT_SET_ETH_DST => value.etherToBin.map some
  | RFAT_POP_MPLS | RFAT_DROP | RFAT_SFLOW | RFAT_STRIP_VLAN_DEFERRED | RFAT_STRIP_VLAN => .ok (some [])
  | _ => .ok none

def actionGetValue (actionType : Nat) (value : List Byte) : Except PyErr Value :=
  match actionType with
  | RFAT_OUTPUT | RFAT_PUSH_MPLS | RFAT_SWAP_MPLS | RFAT_SET_VLAN_ID | RFAT_SWAP_VLAN_ID | RFAT_GROUP
  | RFAT_GOTO => (binToInt value).map .int
  | RFAT_SET_ETH_SRC | RFAT_SET_ETH_DST => .ok (.text (binToEther value))
  | _ => .ok .none

def optionTypeToBin (optionType : Nat) (value : Value) : Except PyErr (Option (List Byte)) :=
  match optionType with
  | RFOT_PRIORITY | RFOT_IDLE_TIMEOUT | RFOT_HARD_TIMEOUT => (value.toBin 16).map some
  | RFOT_CT_ID => (value.toBin 64).map some
  | _ => .ok none

def optionGetValue (optionType : Nat) (value : List Byte) : Except PyErr Value :=
  match optionType with
  | RFOT_PRIORITY | RFOT_IDLE_TIMEOUT | RFOT_HARD_TIMEOUT | RFOT_CT_ID => (binToInt value).map .int
  | _ => .ok .none

def tlvToDict (type : Nat) (value : List Byte) : Bson :=
  .object [("type", .int type), ("value", .binary value)]

end Py

end RouteFlow
