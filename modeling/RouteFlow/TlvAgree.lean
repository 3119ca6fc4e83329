import RouteFlow.EthAddr

/-!
# The two TLV codecs agree

A number, an address or no value makes the same bytes in both languages, and each side reads back what
the other side wrote.
-/

namespace RouteFlow

open Bytes

@[simp] theorem Bson.get_cons (k : String) (v : Bson) (rest : List (String × Bson)) (key : String) :
    (Bson.object ((k, v) :: rest)).get key = if key = k then some v else (Bson.object rest).get key := by
  simp only [Bson.get, List.lookup_cons]
  split <;> simp_all

/-! ## Byte order -/

namespace Cpp

theorem htonll_eq (x : Nat) : htonll x = ofLe (toBe 8 x) := by
  have hmask : x &&& 0xFFFFFFFF = x % 256 ^ 4 := Nat.and_two_pow_sub_one_eq_mod x 32
  have hhigh : ofLe (toBe 4 (x >>> 32)) < 2 ^ 32 := by
    have := ofBe_lt (toBe 4 (x >>> 32)).reverse
    simpa [ofLe] using this
  have hsplit : toBe 8 x = toBe 4 (x >>> 32) ++ toBe 4 x := by
    rw [Nat.shiftRight_eq_div_pow]
    exact toBe_add 4 4 x
  unfold htonll htonl
  rw [hmask, toBe_mod, hsplit, ofLe_append, length_toBe]
  dsimp only
  rw [← Nat.shiftLeft_add_eq_or_of_lt hhigh, Nat.shiftLeft_eq, Nat.add_comm, Nat.mul_comm]
  norm_num

theorem toLe_htons (x : Nat) : toLe 2 (htons x) = toBe 2 x := toLe_ofLe (toBe 2 x)

theorem toLe_htonl (x : Nat) : toLe 4 (htonl x) = toBe 4 x := toLe_ofLe (toBe 4 x)

theorem toLe_htonll (x : Nat) : toLe 8 (htonll x) = toBe 8 x := by
  rw [htonll_eq]
  exact toLe_ofLe (toBe 8 x)

/-- What a swap does to the bytes: those of a number change places, all others stay. -/
def ByteOrder.swap (order : ByteOrder) (bytes : List Byte) : List Byte :=
  if order = .host ∧ (bytes.length = 2 ∨ bytes.length = 4 ∨ bytes.length = 8) then bytes.reverse else bytes

theorem ByteOrder.length_swap (order : ByteOrder) (bytes : List Byte) :
    (order.swap bytes).length = bytes.length := by
  unfold swap
  split <;> simp

theorem ByteOrder.swap_swap (order : ByteOrder) (bytes : List Byte) :
    order.swap (order.swap bytes) = bytes := by
  unfold swap
  split
  · rename_i h
    rw [List.length_reverse, if_pos h, List.reverse_reverse]
  · rfl

theorem Tlv.valueFromBson_eq {bson : Bson} {value : List Byte} (h : bson.get "value" = some (.binary value))
    (order : ByteOrder) : valueFromBson bson order = some (order.swap value) := by
  have hrev : toBe value.length (ofLe value) = value.reverse := toBe_ofLe value
  unfold valueFromBson ByteOrder.swap
  rw [h]
  cases order with
  | network => rfl
  | host =>
    by_cases h2 : value.length = 2
    · simp only [h2, toLe_htons] at hrev ⊢
      simp [hrev]
    · by_cases h4 : value.length = 4
      · simp only [h4, toLe_htonl] at hrev ⊢
        simp [hrev]
      · by_cases h8 : value.length = 8
        · simp only [h8, toLe_htonll] at hrev ⊢
          simp [hrev]
        · simp [h2, h4, h8]

theorem Tlv.netValue_eq {tlv : Tlv} {v : List Byte} (hv : tlv.value.getD [] = v)
    (hlen : v.length = tlv.length) (order : ByteOrder) : tlv.netValue order = order.swap v := by
  have htake : v.take tlv.length = v := List.take_of_length_le hlen.le
  have hrev : toBe v.length (ofLe v) = v.reverse := toBe_ofLe v
  unfold netValue ByteOrder.swap
  cases order with
  | network => simp [hv, htake]
  | host =>
    by_cases h2 : tlv.length = 2
    · rw [h2] at htake hlen
      rw [hlen] at hrev
      simp [h2, hlen, getUint, hv, htake, toLe_htons, hrev]
    · by_cases h4 : tlv.length = 4
      · rw [h4] at htake hlen
        rw [hlen] at hrev
        simp [h4, hlen, getUint, hv, htake, toLe_htonl, hrev]
      · by_cases h8 : tlv.length = 8
        · rw [h8] at htake hlen
          rw [hlen] at hrev
          simp [h8, hlen, getUint, hv, htake, toLe_htonll, hrev]
        · simp [h2, h4, h8, hlen, hv, htake]

def IsWidth (k : Nat) : Prop := k = 1 ∨ k = 2 ∨ k = 4 ∨ k = 8

theorem IsWidth.pos {k : Nat} (h : IsWidth k) : 0 < k := by
  unfold IsWidth at h
  omega

theorem ofUint_eq {k : Nat} (hk : IsWidth k) (type value : Nat) :
    Tlv.ofUint type k k value = ⟨type, k, some (toLe k value)⟩ := by
  have hpos := hk.pos
  have htake : (toLe k value).take k = toLe k value := List.take_of_length_le (by simp)
  unfold Tlv.ofUint Tlv.init
  rw [htake, if_neg (by simp; omega)]

theorem ofUint_netValue {k : Nat} (hk : IsWidth k) (type : Nat) {value : Nat} (h : value < 256 ^ k) :
    (Tlv.ofUint type k k value).netValue .host = toBe k value := by
  have hget : Tlv.getUint k ⟨type, k, some (toLe k value)⟩ = value := by
    have htake : (toLe k value).take k = toLe k value := List.take_of_length_le (by simp)
    simp [Tlv.getUint, htake, ofLe_toLe h]
  rw [ofUint_eq hk]
  rcases hk with rfl | rfl | rfl | rfl
  · simp [Tlv.netValue, toLe, toBe]
  · simp only [Tlv.netValue, hget, toLe_htons]
  · simp only [Tlv.netValue, hget, toLe_htonl]
  · simp only [Tlv.netValue, hget, toLe_htonll]

theorem valueFromBson_toBe {k : Nat} (hk : IsWidth k) (type value : Nat) :
    Tlv.valueFromBson (Py.tlvToDict type (toBe k value)) .host = some (toLe k value) := by
  have hget : (Py.tlvToDict type (toBe k value)).get "value" = some (.binary (toBe k value)) := rfl
  have hback : toBe k (ofLe (toBe k value)) = toLe k value := by
    have := toBe_ofLe (toBe k value)
    rw [length_toBe] at this
    exact this
  unfold Tlv.valueFromBson
  rcases hk with rfl | rfl | rfl | rfl
  · rfl
  · simp only [hget, length_toBe, toLe_htons, hback]
  · simp only [hget, length_toBe, toLe_htonl, hback]
  · simp only [hget, length_toBe, toLe_htonll, hback]

theorem typeFromBson_dict {type : Nat} (h : type < 256) (value : List Byte) :
    Tlv.typeFromBson (Py.tlvToDict type value) = type := by
  have hget : (Py.tlvToDict type value).get "type" = some (.int type) := rfl
  simp only [Tlv.typeFromBson, hget]
  omega

/-! ## One class -/

/-- C++ sends the bytes and makes the object from them. -/
structure Carries (c : TlvClass) (tlv : Tlv) (type : Nat) (bytes : List Byte) : Prop where
  sends : c.toBson tlv = Py.tlvToDict type bytes
  receives : c.fromBson (Py.tlvToDict type bytes) = some tlv

variable (c : TlvClass) {type : Nat} (hpos : 0 < type) (hlt : type < 256)

include hpos hlt in
theorem carries_uint {k : Nat} (hk : IsWidth k) (hlen : c.typeToLength type = k)
    (horder : c.typeToByteOrder type = .host) {value : Nat} (h : value < 256 ^ k) :
    Carries c (c.ofUint type k value) type (toBe k value) := by
  have htlv : c.ofUint type k value = Tlv.ofUint type k k value := by
    rw [TlvClass.ofUint, hlen]
  have htype : (Tlv.ofUint type k k value).type = type := by rw [ofUint_eq hk]
  rw [htlv]
  constructor
  · unfold TlvClass.toBson Tlv.toBson
    rw [htype, horder, ofUint_netValue hk type h]
    rfl
  · unfold TlvClass.fromBson
    simp only [typeFromBson_dict hlt, horder, valueFromBson_toBe hk, hlen]
    rw [if_neg (by omega), ofUint_eq hk, Tlv.init, if_neg (by simp; have := hk.pos; omega)]

include hpos hlt in
theorem carries_network {bytes : List Byte} (hne : bytes ≠ []) (hlen : c.typeToLength type = bytes.length)
    (horder : c.typeToByteOrder type = .network) :
    Carries c (Tlv.init type bytes.length (some bytes)) type bytes := by
  have htlv : Tlv.init type bytes.length (some bytes) = ⟨type, bytes.length, some bytes⟩ := by
    simp [Tlv.init, hne]
  have hget : (Py.tlvToDict type bytes).get "value" = some (.binary bytes) := rfl
  constructor
  · rw [htlv]
    simp [TlvClass.toBson, Tlv.toBson, Tlv.netValue, horder, Py.tlvToDict]
  · unfold TlvClass.fromBson
    simp only [typeFromBson_dict hlt, horder, Tlv.valueFromBson, hget, hlen]
    rw [if_neg (by omega)]

include hpos hlt in
theorem carries_empty (hlen : c.typeToLength type = 0) (horder : c.typeToByteOrder type = .host) :
    Carries c (c.ofBytes type []) type [] := by
  have hget : (Py.tlvToDict type []).get "value" = some (.binary []) := rfl
  have htlv : c.ofBytes type [] = ⟨type, 0, none⟩ := by simp [TlvClass.ofBytes, Tlv.init, hlen]
  rw [htlv]
  constructor
  · simp [TlvClass.toBson, Tlv.toBson, Tlv.netValue, horder, Py.tlvToDict]
  · unfold TlvClass.fromBson
    simp only [typeFromBson_dict hlt, horder, Tlv.valueFromBson, hget, hlen]
    rw [if_neg (by omega)]
    simp [Tlv.init]

end Cpp

/-! ## Python -/

namespace Py

theorem hex_digits (num : Nat) : ((hex num).drop 2).rdropWhile (fun c => c == 'L') = Nat.toDigits 16 num := by
  have hself : (Nat.toDigits 16 num).rdropWhile (fun c => c == 'L') = Nat.toDigits 16 num := by
    rw [List.rdropWhile_eq_self_iff]
    intro hne hlast
    have hdigit := isDigit_of_mem_toDigits (by decide) (le_refl 16) (List.getLast_mem hne)
    rw [beq_iff_eq.mp hlast] at hdigit
    exact absurd hdigit (by decide)
  have hdrop : (hex num).drop 2 = Nat.toDigits 16 num ++ if num < 2 ^ 63 then [] else ['L'] := rfl
  rw [hdrop]
  split
  · rw [List.append_nil, hself]
  · rw [List.rdropWhile_concat_pos _ _ _ (by simp), hself]

theorem intToBin_eq {k num : Nat} (hk : 0 < k) (h : num < 256 ^ k) :
    intToBin num (8 * k) = .ok (toBe k num) := by
  have hpow : (16 : Nat) ^ (2 * k) = 256 ^ k := by
    rw [pow_mul]
    norm_num
  have hlen : (Nat.toDigits 16 num).length ≤ 2 * k := by
    rw [Nat.length_toDigits_le_iff (by decide) (by omega), hpow]
    exact h
  have heven : ∀ t : Text, t.length ≤ 2 * k →
      zeroFill (2 * k) (if t.length % 2 = 0 then t else '0' :: t) = zeroFill (2 * k) t := by
    intro t ht
    split
    · rfl
    · rename_i hodd
      have hcount : 2 * k - t.length = 2 * k - (t.length + 1) + 1 := by omega
      rw [zeroFill, zeroFill, List.length_cons, hcount, List.replicate_succ']
      simp
  have hlength : 8 * k / 4 = 2 * k := by omega
  unfold intToBin hexIntExtend
  rw [hex_digits, hlength]
  dsimp only
  rw [heven _ hlen, zeroFill_toDigits (by decide) (by omega) (by rw [hpow]; exact h), ← toHex_toBe, a2bHex,
    ofHex_toHex]

theorem binToInt_toBe {k num : Nat} (hk : 0 < k) (h : num < 256 ^ k) : binToInt (toBe k num) = .ok num := by
  have hne : toBe k num ≠ [] := by
    intro hnil
    have := length_toBe k num
    rw [hnil, List.length_nil] at this
    omega
  unfold binToInt
  rw [numeral_toHex, ofBe_toBe h]
  cases hl : toBe k num with
  | nil => exact absurd hl hne
  | cons b rest => rfl

end Py

/-! ## Both languages -/

/-- One TLV class in both languages. -/
structure TlvCodec (α : Type) where
  cpp : Cpp.TlvClass
  construct : α → Cpp.Tlv
  type : α → Nat
  value : α → Py.Value
  typeToBin : Nat → Py.Value → Except PyErr (Option (List Byte))
  getValue : Nat → List Byte → Except PyErr Py.Value

namespace TlvCodec

variable {α : Type} (c : TlvCodec α)

/-- The Python object as a dict. `Binary(None, 0)` raises. -/
def toDict (x : α) : Except PyErr Bson := do
  match ← c.typeToBin (c.type x) (c.value x) with
  | some bytes => return Py.tlvToDict (c.type x) bytes
  | none => .error .typeError

/-- The bytes are the same, Python reads the value from what C++ sends, and C++ makes its own object from
what Python sends. -/
structure Agrees (x : α) : Prop where
  bytes : ∃ bytes, c.typeToBin (c.type x) (c.value x) = .ok (some bytes) ∧
    c.cpp.toBson (c.construct x) = Py.tlvToDict (c.type x) bytes
  getValue : ∀ bytes, c.cpp.toBson (c.construct x) = Py.tlvToDict (c.type x) bytes →
    c.getValue (c.type x) bytes = .ok (c.value x)
  fromBson : ∀ bytes, c.typeToBin (c.type x) (c.value x) = .ok (some bytes) →
    c.cpp.fromBson (Py.tlvToDict (c.type x) bytes) = some (c.construct x)

/-- Both languages read the list that the other wrote. -/
structure ListAgrees (l : List α) : Prop where
  each : ∀ x ∈ l, c.Agrees x
  lists : ∃ dicts, l.mapM c.toDict = .ok dicts ∧ c.cpp.listToBson (l.map c.construct) = .array dicts ∧
    c.cpp.toVector dicts = some (l.map c.construct)

variable {c}

theorem Agrees.of {x : α} (bytes : List Byte) (hbin : c.typeToBin (c.type x) (c.value x) = .ok (some bytes))
    (hget : c.getValue (c.type x) bytes = .ok (c.value x))
    (hcpp : Cpp.Carries c.cpp (c.construct x) (c.type x) bytes) : c.Agrees x where
  bytes := ⟨bytes, hbin, hcpp.sends⟩
  getValue := by
    intro bytes' h
    have hsame : bytes = bytes' := by
      have := hcpp.sends.symm.trans h
      simpa [Py.tlvToDict] using this
    rw [← hsame, hget]
  fromBson := by
    intro bytes' h
    have hsame : bytes = bytes' := by
      have := hbin.symm.trans h
      simpa using this
    rw [← hsame, hcpp.receives]

theorem ListAgrees.of {l : List α} (h : ∀ x ∈ l, c.Agrees x) : c.ListAgrees l := by
  refine ⟨h, ?_⟩
  induction l with
  | nil => exact ⟨[], rfl, rfl, rfl⟩
  | cons x rest ih =>
    obtain ⟨dicts, hmap, hlist, hvec⟩ := ih fun y hy => h y (List.mem_cons_of_mem _ hy)
    have hx := h x List.mem_cons_self
    obtain ⟨bytes, hbin, hsend⟩ := hx.bytes
    have hdict : c.toDict x = .ok (Py.tlvToDict (c.type x) bytes) := by
      simp [toDict, hbin, bind, Except.bind, pure, Except.pure]
    have hall : dicts.all Bson.isObject = true := by
      by_contra hno
      simp [Cpp.TlvClass.toVector, hno] at hvec
    rw [Cpp.TlvClass.toVector, if_pos hall, Option.some.injEq] at hvec
    refine ⟨Py.tlvToDict (c.type x) bytes :: dicts, ?_, ?_, ?_⟩
    · rw [List.mapM_cons, hdict, hmap]
      rfl
    · simp only [Cpp.TlvClass.listToBson, List.map_cons, hsend, Bson.array.injEq] at hlist ⊢
      rw [hlist]
    · have hall' : (Py.tlvToDict (c.type x) bytes :: dicts).all Bson.isObject = true := by
        simpa [Py.tlvToDict, Bson.isObject] using hall
      rw [Cpp.TlvClass.toVector, if_pos hall', List.filterMap_cons, hx.fromBson bytes hbin, hvec]
      rfl

end TlvCodec

/-! ## The three classes -/

/-- A number is below the width of its type, and the two addresses are of one version. -/
def Match.InDomain : Match → Prop
  | .ip addr mask => addr.version = mask.version
  | .ethernet _ => True
  | .mpls n | .inPort n => n < 2 ^ 32
  | .ethertype n | .tpSrc n | .tpDst n | .vlanId n => n < 2 ^ 16
  | .nwProto n => n < 2 ^ 8

def Action.InDomain : Action → Prop
  | .output n | .pushMpls n | .swapMpls n | .setVlanId n | .swapVlanId n | .group n | .goto n => n < 2 ^ 32
  | _ => True

def RFOption.InDomain : RFOption → Prop
  | .priority n | .idleTimeout n | .hardTimeout n => n < 2 ^ 16
  | .ctId n => n < 2 ^ 64

def Match.value (inet : Inet) : Match → Py.Value
  | .ip addr mask => .texts (inet.ntop addr.version addr.data) (inet.ntop mask.version mask.data)
  | .ethernet dst => .text dst.text
  | .mpls n | .ethertype n | .nwProto n | .tpSrc n | .tpDst n | .inPort n | .vlanId n => .int n

def Action.value : Action → Py.Value
  | .output n | .pushMpls n | .swapMpls n | .setVlanId n | .swapVlanId n | .group n | .goto n => .int n
  | .setEthSrc mac | .setEthDst mac => .text mac.text
  | .popMpls | .stripVlanDeferred | .stripVlan | .drop | .sflow => .none

def RFOption.value : RFOption → Py.Value
  | .priority n | .idleTimeout n | .hardTimeout n | .ctId n => .int n

def matchCodec (inet : Inet) : TlvCodec Match where
  cpp := Cpp.matchClass
  construct := Cpp.ofMatch
  type := Match.type
  value := Match.value inet
  typeToBin := Py.matchTypeToBin inet
  getValue := Py.matchGetValue inet

def actionCodec : TlvCodec Action where
  cpp := Cpp.actionClass
  construct := Cpp.ofAction
  type := Action.type
  value := Action.value
  typeToBin := Py.actionTypeToBin
  getValue := Py.actionGetValue

def optionCodec : TlvCodec RFOption where
  cpp := Cpp.optionClass
  construct := Cpp.ofOption
  type := RFOption.type
  value := RFOption.value
  typeToBin := Py.optionTypeToBin
  getValue := Py.optionGetValue

namespace TlvCodec

variable {α : Type} {c : TlvCodec α} {x : α}

theorem agrees_uint {k n : Nat} (hk : Cpp.IsWidth k) (h : n < 256 ^ k) (hpos : 0 < c.type x)
    (hlt : c.type x < 256) (hlen : c.cpp.typeToLength (c.type x) = k)
    (horder : c.cpp.typeToByteOrder (c.type x) = .host)
    (hcons : c.construct x = c.cpp.ofUint (c.type x) k n) (hvalue : c.value x = .int n)
    (hbin : ∀ v, c.typeToBin (c.type x) v = (v.toBin (8 * k)).map some)
    (hget : ∀ b, c.getValue (c.type x) b = (Py.binToInt b).map .int) : c.Agrees x := by
  have hpy := Py.intToBin_eq hk.pos h
  refine Agrees.of (toBe k n) ?_ ?_ ?_
  · rw [hbin, hvalue, Py.Value.toBin, hpy]
    rfl
  · rw [hget, Py.binToInt_toBe hk.pos h, hvalue]
    rfl
  · rw [hcons]
    exact Cpp.carries_uint c.cpp hpos hlt hk hlen horder h

theorem agrees_mac {m : Mac} (hpos : 0 < c.type x) (hlt : c.type x < 256)
    (hlen : c.cpp.typeToLength (c.type x) = 6) (horder : c.cpp.typeToByteOrder (c.type x) = .network)
    (hcons : c.construct x = .ofMac (c.type x) m) (hvalue : c.value x = .text m.text)
    (hbin : ∀ v, c.typeToBin (c.type x) v = v.etherToBin.map some)
    (hget : ∀ b, c.getValue (c.type x) b = .ok (.text (Py.binToEther b))) : c.Agrees x := by
  have hbytes := m.length_bytes
  have hne : m.bytes ≠ [] := List.ne_nil_of_length_pos (by omega)
  refine Agrees.of m.bytes ?_ ?_ ?_
  · rw [hbin, hvalue, Py.Value.etherToBin, Mac.text, Py.etherToBin_binToEther hbytes]
    rfl
  · rw [hget, hvalue, Mac.text]
  · rw [hcons]
    have hcarries := Cpp.carries_network c.cpp hpos hlt hne (by rw [hlen, hbytes]) horder
    rw [hbytes] at hcarries
    exact hcarries

theorem agrees_none (hpos : 0 < c.type x) (hlt : c.type x < 256) (hlen : c.cpp.typeToLength (c.type x) = 0)
    (horder : c.cpp.typeToByteOrder (c.type x) = .host) (hcons : c.construct x = c.cpp.ofBytes (c.type x) [])
    (hvalue : c.value x = .none) (hbin : ∀ v, c.typeToBin (c.type x) v = .ok (some []))
    (hget : ∀ b, c.getValue (c.type x) b = .ok .none) : c.Agrees x := by
  refine Agrees.of [] (hbin _) ?_ ?_
  · rw [hget, hvalue]
  · rw [hcons]
    exact Cpp.carries_empty c.cpp hpos hlt hlen horder

end TlvCodec

/-- `inet_pton` undoes `inet_ntop` on addresses. -/
def Inet.Inverse (inet : Inet) : Prop :=
  ∀ v bytes, bytes.length = IPVersion.length v → inet.pton v (inet.ntop v bytes) = some bytes

theorem ip_agrees {inet : Inet} (hi : inet.Inverse) {addr mask : IPAddress}
    (h : addr.version = mask.version) :
    (matchCodec inet).Agrees (.ip addr mask) := by
  obtain ⟨v, a, ha⟩ := addr
  obtain ⟨w, b, hb⟩ := mask
  obtain rfl : v = w := h
  have hpa : Py.inetPton inet v (inet.ntop v a) = .ok a := by simp [Py.inetPton, hi v a ha]
  have hpb : Py.inetPton inet v (inet.ntop v b) = .ok b := by simp [Py.inetPton, hi v b hb]
  have hboth : (Py.Value.texts (inet.ntop v a) (inet.ntop v b)).inetToBin inet v = .ok (a ++ b) := by
    simp [Py.Value.inetToBin, hpa, hpb, bind, Except.bind, pure, Except.pure]
  have htake : (a ++ b).take v.length = a := by rw [← ha, List.take_left]
  have hdrop : (a ++ b).drop v.length = b := by rw [← ha, List.drop_left]
  have hlen : (a ++ b).length = 2 * v.length := by
    rw [List.length_append, ha, hb]
    omega
  have hne : a ++ b ≠ [] := by
    apply List.ne_nil_of_length_pos
    cases v <;> simp [hlen, IPVersion.length]
  refine TlvCodec.Agrees.of (a ++ b) ?_ ?_ ?_
  · cases v
    · exact congrArg (Except.map some) hboth
    · exact congrArg (Except.map some) hboth
  · cases v
    · simp only [matchCodec, Match.type, Py.matchGetValue, Match.value]
      simp only [IPVersion.length] at htake hdrop
      rw [htake, hdrop]
    · simp only [matchCodec, Match.type, Py.matchGetValue, Match.value]
      simp only [IPVersion.length] at htake hdrop
      rw [htake, hdrop]
  · have hcarries : ∀ type, 0 < type → type < 256 → Cpp.matchClass.typeToLength type = 2 * v.length →
        Cpp.matchClass.typeToByteOrder type = .network →
        Cpp.Carries Cpp.matchClass (Cpp.Tlv.init type (2 * v.length) (some (a ++ b))) type (a ++ b) := by
      intro type hpos hlt htl horder
      have := Cpp.carries_network Cpp.matchClass hpos hlt hne (by rw [htl, hlen]) horder
      rwa [hlen] at this
    cases v
    · exact hcarries RFMT_IPV4 (by decide) (by decide) rfl rfl
    · exact hcarries RFMT_IPV6 (by decide) (by decide) rfl rfl

theorem Match.type_byte (m : Match) : 0 < m.type ∧ m.type < 256 := by
  unfold Match.type
  split
  · split <;> decide
  all_goals decide

theorem Action.type_byte (a : Action) : 0 < a.type ∧ a.type < 256 := by
  unfold Action.type
  split <;> decide

theorem RFOption.type_byte (x : RFOption) : 0 < x.type ∧ x.type < 256 := by
  unfold RFOption.type
  split <;> decide

theorem match_agrees {inet : Inet} (hi : inet.Inverse) {m : Match} (h : m.InDomain) :
    (matchCodec inet).Agrees m := by
  have one : Cpp.IsWidth 1 := Or.inl rfl
  have two : Cpp.IsWidth 2 := Or.inr (Or.inl rfl)
  have four : Cpp.IsWidth 4 := Or.inr (Or.inr (Or.inl rfl))
  obtain ⟨hpos, hlt⟩ := m.type_byte
  cases m with
  | ip addr mask => exact ip_agrees hi h
  | ethernet dst =>
    exact TlvCodec.agrees_mac hpos hlt rfl rfl rfl rfl (fun _ => rfl) fun _ => rfl
  | mpls n | inPort n =>
    exact TlvCodec.agrees_uint four h hpos hlt rfl rfl rfl rfl (fun _ => rfl) fun _ => rfl
  | ethertype n | tpSrc n | tpDst n | vlanId n =>
    exact TlvCodec.agrees_uint two h hpos hlt rfl rfl rfl rfl (fun _ => rfl) fun _ => rfl
  | nwProto n =>
    exact TlvCodec.agrees_uint one h hpos hlt rfl rfl rfl rfl (fun _ => rfl) fun _ => rfl

theorem action_agrees {a : Action} (h : a.InDomain) : actionCodec.Agrees a := by
  have four : Cpp.IsWidth 4 := Or.inr (Or.inr (Or.inl rfl))
  obtain ⟨hpos, hlt⟩ := a.type_byte
  cases a with
  | output n | pushMpls n | swapMpls n | setVlanId n | swapVlanId n | group n | goto n =>
    exact TlvCodec.agrees_uint four h hpos hlt rfl rfl rfl rfl (fun _ => rfl) fun _ => rfl
  | setEthSrc mac | setEthDst mac =>
    exact TlvCodec.agrees_mac hpos hlt rfl rfl rfl rfl (fun _ => rfl) fun _ => rfl
  | popMpls | stripVlanDeferred | stripVlan | drop | sflow =>
    exact TlvCodec.agrees_none hpos hlt rfl rfl rfl rfl (fun _ => rfl) fun _ => rfl

theorem option_agrees {x : RFOption} (h : x.InDomain) : optionCodec.Agrees x := by
  have two : Cpp.IsWidth 2 := Or.inr (Or.inl rfl)
  have eight : Cpp.IsWidth 8 := Or.inr (Or.inr (Or.inr rfl))
  obtain ⟨hpos, hlt⟩ := x.type_byte
  cases x with
  | priority n | idleTimeout n | hardTimeout n =>
    exact TlvCodec.agrees_uint two h hpos hlt rfl rfl rfl rfl (fun _ => rfl) fun _ => rfl
  | ctId n =>
    exact TlvCodec.agrees_uint eight h hpos hlt rfl rfl rfl rfl (fun _ => rfl) fun _ => rfl

/-- The codecs agree on lists of matches, actions and options. -/
theorem tlv_codecs_agree (inet : Inet) (hi : inet.Inverse) (ms : List Match) (actions : List Action)
    (options : List RFOption) (hm : ∀ m ∈ ms, m.InDomain) (ha : ∀ a ∈ actions, a.InDomain)
    (ho : ∀ x ∈ options, x.InDomain) :
    (matchCodec inet).ListAgrees ms ∧ actionCodec.ListAgrees actions ∧ optionCodec.ListAgrees options :=
  ⟨.of fun m h => match_agrees hi (hm m h), .of fun a h => action_agrees (ha a h),
    .of fun x h => option_agrees (ho x h)⟩

/-! ## Plain texts of addresses -/

def groups : List Byte → List Nat
  | a :: b :: rest => ofBe [a, b] :: groups rest
  | _ => []

/-- `inet_ntop` and `inet_pton` without the abbreviation `::` for zeros. -/
def plainInet : Inet where
  ntop
    | .ipv4, bytes => numerals '.' 10 (bytes.map BitVec.toNat)
    | .ipv6, bytes => numerals ':' 16 (groups bytes)
  pton
    | .ipv4, t => (ofNumerals '.' 10 t).map fun ns => ns.map (BitVec.ofNat 8)
    | .ipv6, t => (ofNumerals ':' 16 t).map fun ns => ns.flatMap (toBe 2)

theorem groups_flatMap : ∀ (bytes : List Byte), bytes.length % 2 = 0 → (groups bytes).flatMap (toBe 2) = bytes
  | [], _ => rfl
  | [_], h => by simp at h
  | a :: b :: rest, h => by
    have hrest : rest.length % 2 = 0 := by
      simp only [List.length_cons] at h
      omega
    have hpair : toBe 2 (ofBe [a, b]) = [a, b] := toBe_ofBe [a, b]
    rw [groups, List.flatMap_cons, hpair, groups_flatMap rest hrest]
    rfl

theorem plainInet_inverse : plainInet.Inverse := by
  rintro (_ | _) bytes hlen
  · have hne : bytes.map BitVec.toNat ≠ [] := by
      rintro hnil
      rw [List.map_eq_nil_iff.mp hnil] at hlen
      simp [IPVersion.length] at hlen
    simp only [plainInet]
    rw [ofNumerals_numerals (by decide) (by decide) (by decide) hne]
    simp [Function.comp_def]
  · obtain ⟨a, b, rest, rfl⟩ : ∃ a b rest, bytes = a :: b :: rest := by
      match bytes, hlen with
      | a :: b :: rest, _ => exact ⟨a, b, rest, rfl⟩
    have hne : groups (a :: b :: rest) ≠ [] := by simp [groups]
    have hback := groups_flatMap (a :: b :: rest) (by rw [hlen]; rfl)
    simp only [plainInet]
    rw [ofNumerals_numerals (by decide) (by decide) (by decide) hne, Option.map_some, hback]

/-- A route to 10.1.0.0/16 for the packets of one port. -/
theorem tlv_codecs_agree_route :
    plainInet.ntop .ipv4 [10, 1, 0, 0] = "10.1.0.0".toList ∧
      (matchCodec plainInet).ListAgrees
        [.ip ⟨.ipv4, [10, 1, 0, 0], rfl⟩ ⟨.ipv4, [255, 255, 0, 0], rfl⟩,
          .ethernet 0x123456789abc, .inPort 3] ∧
      actionCodec.ListAgrees [.setEthDst 0x31, .output 2, .stripVlan] ∧
      optionCodec.ListAgrees [.priority 0x8020, .ctId 0] := by
  refine ⟨by decide, tlv_codecs_agree plainInet plainInet_inverse _ _ _ ?_ ?_ ?_⟩
  · simp [Match.InDomain]
  · simp [Action.InDomain]
  · simp [RFOption.InDomain]

end RouteFlow
