import RouteFlow.Messages
import RouteFlow.TlvAgree

/-!
# Messages over the wire

What C++ writes, Python reads, and the other way round for the messages that RFServer sends. Each
language also reads its own messages, except for one field of a RouteMod.
-/

namespace RouteFlow

open Bytes

/-! ## Numbers as text -/

section Digits

variable {b : Nat}

theorem isDigit_plain {c : Char} (h : (digitVal b c).isSome) : isSpace c = false ∧ c ≠ '-' ∧ c ≠ '+' := by
  have hhex : hexVal c ≠ none := by
    intro hnone
    simp [digitVal, hnone] at h
  refine ⟨?_, ?_, ?_⟩
  · by_contra hsp
    rw [isSpace, Bool.not_eq_false, decide_eq_true_iff] at hsp
    simp only [List.mem_cons, List.not_mem_nil, or_false] at hsp
    rcases hsp with rfl | rfl | rfl | rfl | rfl | rfl <;> exact hhex (by decide)
  · rintro rfl
    exact hhex (by decide)
  · rintro rfl
    exact hhex (by decide)

theorem digits_start {t : Text} (hne : t ≠ []) (hd : ∀ c ∈ t, (digitVal b c).isSome) (rest : Text) :
    (t ++ rest).dropWhile isSpace = t ++ rest ∧ takeSign (t ++ rest) = (false, t ++ rest) := by
  cases t with
  | nil => exact absurd rfl hne
  | cons c t =>
    obtain ⟨hsp, hminus, hplus⟩ := isDigit_plain (hd c List.mem_cons_self)
    exact ⟨by simp [hsp], by simp [takeSign, hminus, hplus]⟩

theorem decimal_digits (n : Nat) : ∀ c ∈ Nat.toDigits 10 n, (digitVal 10 c).isSome :=
  fun _ hc => isDigit_of_mem_toDigits (by decide) (by decide) hc

end Digits

namespace Cpp

theorem stringToUint_toText {w n : Nat} (h : n < 2 ^ w) : stringToUint w (toText n) = some n := by
  obtain ⟨hws, hsign⟩ := digits_start Nat.toDigits_ne_nil (decimal_digits n) []
  have hscan : scan 10 (Nat.toDigits 10 n ++ []) = some (n, []) := scan_toDigits (by decide)
    (by decide) n (by simp)
  rw [List.append_nil] at hws hsign hscan
  simp [stringToUint, extractUint, skipws, toText, hws, hsign, hscan, h]

@[simp] theorem stringTo64_toText (x : UInt64) : stringTo64 (toText x.toNat) = some x := by
  simp [stringTo64, stringToUint_toText x.toNat_lt]

@[simp] theorem stringTo32_toText (x : UInt32) : stringTo32 (toText x.toNat) = some x := by
  simp [stringTo32, stringToUint_toText x.toNat_lt]

/-! ## Addresses as text -/

theorem toHex_digits (l : List Byte) : ∀ c ∈ toHex l, (digitVal 16 c).isSome := by
  intro c hc
  obtain ⟨b, -, hb⟩ := List.mem_flatMap.mp hc
  have hlt := b.isLt
  simp only [List.mem_cons, List.not_mem_nil, or_false] at hb
  rcases hb with rfl | rfl
  · rw [digitVal_digitChar (le_refl 16) (by omega)]
    rfl
  · rw [digitVal_digitChar (le_refl 16) (by omega)]
    rfl

theorem zeroFill_byte (b : Byte) : zeroFill 2 (Nat.toDigits 16 b.toNat) = toHex [b] := by
  have hbyte : toBe 1 b.toNat = [b] := by simp [toBe]
  have hlt := b.isLt
  rw [zeroFill_toDigits (by decide) (by decide) (by omega), ← toHex_toBe 1, hbyte]

theorem extractHex_byte (b : Byte) {rest : Text} (hrest : ∀ c ∈ rest.head?, digitVal 16 c = none) :
    ∀ byte, extractHex (toHex [b] ++ rest) byte = ((b.toNat : Int), some rest) := by
  intro byte
  have hlt := b.isLt
  have hne : toHex [b] ≠ [] := by simp [toHex]
  obtain ⟨hws, hsign⟩ := digits_start hne (toHex_digits [b]) rest
  have hval : numeral 16 (toHex [b]) = some b.toNat := by
    rw [numeral_toHex]
    simp [ofBe]
  have hscan := scan_of_digits hne (toHex_digits [b]) hval hrest
  have hprefix : ¬ ((toHex [b] ++ rest).take 2 = ['0', 'x'] ∨ (toHex [b] ++ rest).take 2 = ['0', 'X']) := by
    have htake : (toHex [b] ++ rest).take 2 = toHex [b] := rfl
    rw [htake]
    rintro (h | h)
    · have hx := toHex_digits [b] 'x' (by rw [h]; simp)
      exact absurd hx (by decide)
    · have hx := toHex_digits [b] 'X' (by rw [h]; simp)
      exact absurd hx (by decide)
  have hsome : toHex [b] ++ rest ≠ [] := by simp [hne]
  simp only [extractHex, skipws, hws, hsign, if_neg hprefix, hscan, if_neg hsome,
    Bool.false_eq_true, if_false]
  rw [if_neg (by omega), if_neg (by omega)]

theorem dataFromString_byte (k : Nat) (b : Byte) (rest : Text) (byte : Int) :
    dataFromString (k + 1) (some (toHex [b] ++ ':' :: rest)) byte =
      b :: dataFromString k (some rest) b.toNat := by
  have hcolon : digitVal 16 ':' = none := by decide
  have hws : skipws (':' :: rest) = ':' :: rest := rfl
  have hextract := @extractHex_byte b (':' :: rest) (by simpa using hcolon)
  simp [dataFromString, hextract, hws]

theorem dataFromString_last (b : Byte) (byte : Int) : dataFromString 1 (some (toHex [b])) byte = [b] := by
  have hextract := @extractHex_byte b [] (by simp)
  rw [List.append_nil] at hextract
  simp [dataFromString, hextract]

theorem Mac.exists_bytes (m : Mac) : ∃ a b c d e f, m.bytes = [a, b, c, d, e, f] := by
  have h := m.length_bytes
  match hm : m.bytes, h with
  | [a, b, c, d, e, f], _ => exact ⟨a, b, c, d, e, f, rfl⟩

theorem macToString_eq (m : Mac) : macToString m = m.text := by
  obtain ⟨a, b, c, d, e, f, h⟩ := Mac.exists_bytes m
  rw [macToString, Mac.text, h, Py.binToEther_eq]
  simp only [zeroFill_byte]
  rfl

@[simp] theorem macFromString_macToString (m : Mac) : macFromString (macToString m) = m := by
  have hdata : dataFromString 6 (some m.text) 0 = m.bytes := by
    obtain ⟨a, b, c, d, e, f, h⟩ := Mac.exists_bytes m
    rw [Mac.text, h, Py.binToEther_eq]
    simp only [List.append_assoc, List.cons_append]
    rw [dataFromString_byte, dataFromString_byte, dataFromString_byte, dataFromString_byte,
      dataFromString_byte, dataFromString_last]
  have hlt : m.toNat < 256 ^ 6 := m.isLt
  rw [macToString_eq, macFromString, hdata, Mac.bytes, ofBe_toBe hlt]
  simp

end Cpp

/-! ## Python -/

namespace Py

theorem digits_end {t : Text} (hne : t ≠ []) (hd : ∀ c ∈ t, (digitVal 10 c).isSome) (pre : Text) :
    (pre ++ t).rdropWhile isSpace = pre ++ t := by
  rw [List.rdropWhile_eq_self_iff]
  intro hl
  rw [List.getLast_append_of_ne_nil _ hne]
  simpa using (isDigit_plain (hd _ (List.getLast_mem hne))).1

@[simp] theorem int_str (n : Int) : int (str n) = some n := by
  have hd := decimal_digits n.natAbs
  have hne : Nat.toDigits 10 n.natAbs ≠ [] := Nat.toDigits_ne_nil
  have hnum : numeral 10 (Nat.toDigits 10 n.natAbs) = some n.natAbs :=
    numeral_toDigits (by decide) (by decide) _
  unfold str
  split
  · have hstart : ('-' :: Nat.toDigits 10 n.natAbs).dropWhile isSpace = '-' :: Nat.toDigits 10 n.natAbs := rfl
    have hend := digits_end hne hd ['-']
    rw [List.singleton_append] at hend
    unfold int
    rw [hstart, hend]
    simp only [takeSign, List.head?_cons, if_true, List.tail_cons, hne, if_false, hnum, Option.map_some,
      Option.some.injEq]
    omega
  · obtain ⟨hws, hsign⟩ := digits_start hne hd []
    have hend := digits_end hne hd []
    rw [List.append_nil] at hws hsign
    rw [List.nil_append] at hend
    unfold int
    rw [hws, hend, hsign]
    simp only [hne, if_false, hnum, Option.map_some, Bool.false_eq_true, Option.some.injEq]
    omega

theorem int_boundMethod (addr : Text) : int (boundMethod addr) = none := by
  obtain ⟨mid, hmid⟩ : ∃ mid, boundMethod addr = '<' :: mid ++ ['>', '>'] := ⟨_, rfl⟩
  have hend : ('<' :: mid ++ ['>', '>']).rdropWhile isSpace = '<' :: mid ++ ['>', '>'] := by
    rw [List.rdropWhile_eq_self_iff]
    intro hl
    rw [List.getLast_append_of_ne_nil _ (by simp)]
    decide
  have hws : ('<' :: mid ++ ['>', '>']).dropWhile isSpace = '<' :: mid ++ ['>', '>'] := rfl
  have hdigit : digitVal 10 '<' = none := by decide
  unfold int
  rw [hmid, hws, hend]
  simp [takeSign, numeral, hdigit]

end Py

/-! ## Python to Python -/

namespace Py

/-- A fresh message of the same type reads back all fields. -/
def Message.RoundTrips (addr : Text) (m : Message) : Prop :=
  ∃ fresh, buildForType m.getType = some fresh ∧ fresh.fromDict (m.toDict addr) = .ok m

@[simp] theorem setInt_str (n : Int) : setInt (.string (str n)) = n := by simp [setInt]

section Items

variable (k : String) (v : Bson) (rest : List (String × Bson)) (key : String)

@[simp] theorem item_cons : item (.object ((k, v) :: rest)) key =
    if key = k then .ok v else item (.object rest) key := by
  unfold item
  rw [Bson.get_cons]
  by_cases h : key = k
  · rw [if_pos h, if_pos h]
  · rw [if_neg h, if_neg h]

@[simp] theorem intItem_cons : intItem (.object ((k, v) :: rest)) key =
    if key = k then .ok (setInt v) else intItem (.object rest) key := by
  unfold intItem
  rw [item_cons]
  split <;> rfl

@[simp] theorem listItem_cons : listItem (.object ((k, v) :: rest)) key =
    if key = k then .ok (setList v) else listItem (.object rest) key := by
  unfold listItem
  rw [item_cons]
  split <;> rfl

end Items

@[simp] theorem ok_bind {α β : Type} (a : α) (f : α → Except PyErr β) : (Except.ok a >>= f) = f a := rfl

theorem PortRegister.fromDict_toDict (m : PortRegister) : fromDict m.toDict = .ok m := by
  simp [fromDict, toDict, setStr, pure, Except.pure]

theorem PortConfig.fromDict_toDict (m : PortConfig) : fromDict m.toDict = .ok m := by
  simp [fromDict, toDict, pure, Except.pure]

theorem DatapathPortRegister.fromDict_toDict (m : DatapathPortRegister) : fromDict m.toDict = .ok m := by
  simp [fromDict, toDict, pure, Except.pure]

theorem DatapathDown.fromDict_toDict (m : DatapathDown) : fromDict m.toDict = .ok m := by
  simp [fromDict, toDict, pure, Except.pure]

theorem VirtualPlaneMap.fromDict_toDict (m : VirtualPlaneMap) : fromDict m.toDict = .ok m := by
  simp [fromDict, toDict, pure, Except.pure]

theorem DataPlaneMap.fromDict_toDict (m : DataPlaneMap) : fromDict m.toDict = .ok m := by
  simp [fromDict, toDict, pure, Except.pure]

theorem RouteMod.fromDict_toDict (addr : Text) (m : RouteMod) :
    fromDict (m.toDict addr) = .ok { m with vmPort := 0 } := by
  have hport : setInt (.string (boundMethod addr)) = 0 := by simp [setInt, int_boundMethod]
  simp [fromDict, toDict, hport, setList, pure, Except.pure]

/-- Every message survives, a RouteMod only if it has no `vm_port`. -/
theorem python_round_trip_iff (addr : Text) (m : Message) :
    m.RoundTrips addr ↔ ∀ rm, m = .routeMod rm → rm.vmPort = 0 := by
  have hok : ∀ {α : Type} {r : Except PyErr α} {x : α} (f : α → Message), r = .ok x →
    r.map f = .ok (f x) := by
    rintro α _ x f rfl
    rfl
  cases m with
  | portRegister m => exact iff_of_true ⟨_, rfl, hok _ m.fromDict_toDict⟩ (by simp)
  | portConfig m => exact iff_of_true ⟨_, rfl, hok _ m.fromDict_toDict⟩ (by simp)
  | datapathPortRegister m => exact iff_of_true ⟨_, rfl, hok _ m.fromDict_toDict⟩ (by simp)
  | datapathDown m => exact iff_of_true ⟨_, rfl, hok _ m.fromDict_toDict⟩ (by simp)
  | virtualPlaneMap m => exact iff_of_true ⟨_, rfl, hok _ m.fromDict_toDict⟩ (by simp)
  | dataPlaneMap m => exact iff_of_true ⟨_, rfl, hok _ m.fromDict_toDict⟩ (by simp)
  | routeMod m =>
    have hread : (RouteMod.fromDict (m.toDict addr)).map Message.routeMod =
      .ok (.routeMod { m with vmPort := 0 }) :=
      hok _ (m.fromDict_toDict addr)
    constructor
    · rintro ⟨fresh, hfresh, hm⟩ rm hrm
      obtain rfl := Message.routeMod.inj hrm
      obtain rfl := Option.some.inj hfresh
      have heq := Message.routeMod.inj (Except.ok.inj (hread.symm.trans hm))
      rw [← heq]
    · intro h
      have hport := h m rfl
      refine ⟨_, rfl, hread.trans ?_⟩
      rw [← hport]

/-- A RouteMod on its way from RFServer to RFProxy. -/
theorem python_vm_port_lost :
    ¬ (Message.routeMod { id := 5, vmPort := 1 }).RoundTrips "7f1c2a3b4d50".toList := by
  rintro ⟨fresh, hfresh, hm⟩
  obtain rfl := Option.some.inj hfresh
  have hread := RouteMod.fromDict_toDict "7f1c2a3b4d50".toList { id := 5, vmPort := 1 }
  simp only [Message.fromDict, Message.toDict, hread, Except.map, Except.ok.injEq, Message.routeMod.injEq,
    RouteMod.mk.injEq] at hm
  omega

end Py

/-! ## Between the languages -/

theorem Py.str_natCast (n : Nat) : Py.str n = Cpp.toText n := by
  simp [Py.str, Cpp.toText]

@[simp] theorem Py.setInt_toText (n : Nat) : Py.setInt (.string (Cpp.toText n)) = n := by
  rw [← Py.str_natCast, Py.setInt_str]

theorem Py.portRegister_fromDict (m : Cpp.PortRegister) :
    Py.PortRegister.fromDict m.toBson = .ok ⟨m.vmId.toNat, m.vmPort.toNat, m.hwaddress.text⟩ := by
  simp [Py.PortRegister.fromDict, Cpp.PortRegister.toBson, Cpp.macToString_eq, Py.setStr, pure, Except.pure]

theorem Py.routeMod_fromDict (m : Cpp.RouteMod) :
    Py.RouteMod.fromDict m.toBson = .ok ⟨m.mod.toNat, m.id.toNat, m.vmPort.toNat, m.table.toNat,
      m.group.toNat, m.matchList.map Cpp.matchClass.toBson, m.actions.map Cpp.actionClass.toBson,
      m.options.map Cpp.optionClass.toBson⟩ := by
  simp [Py.RouteMod.fromDict, Cpp.RouteMod.toBson, Cpp.TlvClass.listToBson, Py.setList, pure, Except.pure]

section Fields

variable (k : String) (t : Text) (rest : List (String × Bson)) (key : String)

@[simp] theorem Cpp.stringField_cons : Cpp.stringField (.object ((k, .string t) :: rest)) key =
    if key = k then some t else Cpp.stringField (.object rest) key := by
  unfold Cpp.stringField
  rw [Bson.get_cons]
  by_cases h : key = k
  · rw [if_pos h, if_pos h]
  · rw [if_neg h, if_neg h]

@[simp] theorem Cpp.uint64Field_cons : Cpp.uint64Field (.object ((k, .string t) :: rest)) key =
    if key = k then Cpp.stringTo64 t else Cpp.uint64Field (.object rest) key := by
  unfold Cpp.uint64Field
  rw [Cpp.stringField_cons]
  split <;> rfl

@[simp] theorem Cpp.uint32Field_cons : Cpp.uint32Field (.object ((k, .string t) :: rest)) key =
    if key = k then Cpp.stringTo32 t else Cpp.uint32Field (.object rest) key := by
  unfold Cpp.uint32Field
  rw [Cpp.stringField_cons]
  split <;> rfl

end Fields

theorem Py.str_toNat {n : Int} (h : 0 ≤ n) : Py.str n = Cpp.toText n.toNat := by
  rw [← Py.str_natCast, Int.toNat_of_nonneg h]

theorem Cpp.portConfig_fromBson {p : Py.PortConfig} (hid : 0 ≤ p.vmId ∧ p.vmId < 2 ^ 64)
    (hport : 0 ≤ p.vmPort ∧ p.vmPort < 2 ^ 32) (hop : 0 ≤ p.operationId ∧ p.operationId < 2 ^ 32) :
    ∃ m, Cpp.PortConfig.fromBson p.toDict = some m ∧ (m.vmId.toNat : Int) = p.vmId ∧
      (m.vmPort.toNat : Int) = p.vmPort ∧ (m.operationId.toNat : Int) = p.operationId := by
  have hidText : Cpp.stringTo64 (Py.str p.vmId) = some (.ofNat p.vmId.toNat) := by
    rw [Py.str_toNat hid.1, Cpp.stringTo64, Cpp.stringToUint_toText (by omega), Option.map_some]
  have hportText : Cpp.stringTo32 (Py.str p.vmPort) = some (.ofNat p.vmPort.toNat) := by
    rw [Py.str_toNat hport.1, Cpp.stringTo32, Cpp.stringToUint_toText (by omega), Option.map_some]
  have hopText : Cpp.stringTo32 (Py.str p.operationId) = some (.ofNat p.operationId.toNat) := by
    rw [Py.str_toNat hop.1, Cpp.stringTo32, Cpp.stringToUint_toText (by omega), Option.map_some]
  refine ⟨⟨.ofNat p.vmId.toNat, .ofNat p.vmPort.toNat, .ofNat p.operationId.toNat⟩, ?_, ?_, ?_, ?_⟩
  · simp [Cpp.PortConfig.fromBson, Py.PortConfig.toDict, hidText, hportText, hopText]
  · rw [UInt64.toNat_ofNat']
    omega
  · rw [UInt32.toNat_ofNat']
    omega
  · rw [UInt32.toNat_ofNat']
    omega

/-- RFServer reads what RFClient sends, and RFClient reads how its ports are configured. -/
theorem client_server_agree :
    (∀ m : Cpp.PortRegister, ∃ p, Py.PortRegister.fromDict m.toBson = .ok p ∧ p.vmId = m.vmId.toNat ∧
      p.vmPort = m.vmPort.toNat ∧ Py.etherToBin p.hwaddress = .ok m.hwaddress.bytes) ∧
    (∀ m : Cpp.RouteMod, ∃ p, Py.RouteMod.fromDict m.toBson = .ok p ∧ p.mod = m.mod.toNat ∧
      p.id = m.id.toNat ∧ p.vmPort = m.vmPort.toNat ∧ p.table = m.table.toNat ∧ p.group = m.group.toNat ∧
      p.matchList = m.matchList.map Cpp.matchClass.toBson ∧ p.actions = m.actions.map Cpp.actionClass.toBson ∧
      p.options = m.options.map Cpp.optionClass.toBson) ∧
    (∀ p : Py.PortConfig, 0 ≤ p.vmId ∧ p.vmId < 2 ^ 64 → 0 ≤ p.vmPort ∧ p.vmPort < 2 ^ 32 →
      0 ≤ p.operationId ∧ p.operationId < 2 ^ 32 →
      ∃ m, Cpp.PortConfig.fromBson p.toDict = some m ∧ (m.vmId.toNat : Int) = p.vmId ∧
        (m.vmPort.toNat : Int) = p.vmPort ∧ (m.operationId.toNat : Int) = p.operationId) := by
  refine ⟨?_, ?_, ?_⟩
  · intro m
    refine ⟨_, Py.portRegister_fromDict m, rfl, rfl, ?_⟩
    dsimp only
    rw [Mac.text, Py.etherToBin_binToEther m.hwaddress.length_bytes]
  · intro m
    exact ⟨_, Py.routeMod_fromDict m, rfl, rfl, rfl, rfl, rfl, rfl, rfl, rfl⟩
  · intro p hid hport hop
    exact Cpp.portConfig_fromBson hid hport hop

theorem client_server_agree_largest :
    ∃ m, Cpp.PortConfig.fromBson (Py.PortConfig.toDict ⟨2 ^ 64 - 1, 2 ^ 32 - 1, 0⟩) = some m ∧
      (m.vmId.toNat : Int) = 2 ^ 64 - 1 ∧ (m.vmPort.toNat : Int) = 2 ^ 32 - 1 ∧
      (m.operationId.toNat : Int) = 0 :=
  client_server_agree.2.2 ⟨2 ^ 64 - 1, 2 ^ 32 - 1, 0⟩ (by decide) (by decide) (by decide)

/-! ## C++ to C++ -/

namespace Cpp

/-- What the constructors of a class build. A type without a length has no value. -/
def TlvClass.WellFormed (c : TlvClass) (t : Tlv) : Prop :=
  0 < t.type ∧ t.type < 256 ∧ t.length = c.typeToLength t.type ∧
    t.value.map List.length = if t.length = 0 then none else some t.length

instance (c : TlvClass) (t : Tlv) : Decidable (c.WellFormed t) :=
  inferInstanceAs (Decidable (0 < t.type ∧ t.type < 256 ∧ t.length = c.typeToLength t.type ∧
    t.value.map List.length = if t.length = 0 then none else some t.length))

theorem Tlv.valueFromBson_toBson {t : Tlv} (v : List Byte) (hv : t.value.getD [] = v)
    (hlen : v.length = t.length) (order : ByteOrder) : valueFromBson (t.toBson order) order = some v := by
  have hget : (t.toBson order).get "value" = some (.binary (t.netValue order)) := rfl
  rw [valueFromBson_eq hget, netValue_eq hv hlen, ByteOrder.swap_swap]

theorem Tlv.init_value {t : Tlv}
    (hval : t.value.map List.length = if t.length = 0 then none else some t.length) :
    (t.value.getD []).length = t.length ∧ init t.type t.length (some (t.value.getD [])) = t := by
  obtain ⟨type, length, value⟩ := t
  dsimp only at hval ⊢
  cases value with
  | none =>
    by_cases h : length = 0
    · simp [init, h]
    · simp [h] at hval
  | some v =>
    by_cases h : length = 0
    · simp [h] at hval
    · rw [if_neg h, Option.map_some, Option.some.injEq] at hval
      simp [init, h, hval]

theorem TlvClass.fromBson_toBson {c : TlvClass} {t : Tlv} (h : c.WellFormed t) :
    c.fromBson (c.toBson t) = some t := by
  obtain ⟨hpos, hlt, hlen, hval⟩ := h
  obtain ⟨hlength, hinit⟩ := Tlv.init_value hval
  have htype : Tlv.typeFromBson (c.toBson t) = t.type := typeFromBson_dict hlt _
  have hvalue := Tlv.valueFromBson_toBson _ rfl hlength (c.typeToByteOrder t.type)
  unfold TlvClass.fromBson
  simp only [htype]
  rw [if_neg (by omega), TlvClass.toBson, hvalue, ← hlen]
  exact congrArg some hinit

theorem TlvClass.toVector_toBson {c : TlvClass} {l : List Tlv} (h : ∀ t ∈ l, c.WellFormed t) :
    c.toVector (l.map c.toBson) = some l := by
  have hobj : (l.map c.toBson).all Bson.isObject := by simp [TlvClass.toBson, Tlv.toBson, Bson.isObject]
  have hback : l.filterMap (c.fromBson ∘ c.toBson) = l.filterMap some :=
    List.filterMap_congr fun t ht => fromBson_toBson (h t ht)
  unfold TlvClass.toVector
  rw [if_pos hobj, List.filterMap_map, hback, List.filterMap_some]

/-- Only the digit 5 is the character of a number that begins with it. -/
theorem stringTo8_toText (n : UInt8) : stringTo8 (toText n.toNat) = some n ↔ n = 53 := by
  have hall : ∀ k : Fin 256, stringTo8 (toText k) = some (UInt8.ofNat k) ↔
    UInt8.ofNat k = 53 := by decide +kernel
  have hn := hall ⟨n.toNat, n.toNat_lt⟩
  rwa [UInt8.ofNat_toNat] at hn

/-- The lists have elements as `make_match` and its siblings build them. -/
def Message.WellFormed : Message → Prop
  | .routeMod m => (∀ t ∈ m.matchList, matchClass.WellFormed t) ∧
    (∀ t ∈ m.actions, actionClass.WellFormed t) ∧
      ∀ t ∈ m.options, optionClass.WellFormed t
  | _ => True

theorem PortRegister.fromBson_toBson (m : PortRegister) : fromBson m.toBson = some m := by
  simp [fromBson, toBson]

theorem PortConfig.fromBson_toBson (m : PortConfig) : fromBson m.toBson = some m := by
  simp [fromBson, toBson]

theorem DatapathPortRegister.fromBson_toBson (m : DatapathPortRegister) : fromBson m.toBson = some m := by
  simp [fromBson, toBson]

theorem DatapathDown.fromBson_toBson (m : DatapathDown) : fromBson m.toBson = some m := by
  simp [fromBson, toBson]

theorem VirtualPlaneMap.fromBson_toBson (m : VirtualPlaneMap) : fromBson m.toBson = some m := by
  simp [fromBson, toBson]

theorem DataPlaneMap.fromBson_toBson (m : DataPlaneMap) : fromBson m.toBson = some m := by
  simp [fromBson, toBson]

theorem RouteMod.fromBson_toBson {m : RouteMod} (h : (Message.routeMod m).WellFormed) :
    fromBson m.toBson = (stringTo8 (toText m.mod.toNat)).map fun mod => { m with mod := mod } := by
  obtain ⟨hm, ha, ho⟩ := h
  have hmatches : arrayField m.toBson "matches" = some (m.matchList.map matchClass.toBson) := rfl
  have hactions : arrayField m.toBson "actions" = some (m.actions.map actionClass.toBson) := rfl
  have hoptions : arrayField m.toBson "options" = some (m.options.map optionClass.toBson) := rfl
  unfold fromBson
  rw [hmatches, hactions, hoptions, Option.bind_some, Option.bind_some, Option.bind_some,
    TlvClass.toVector_toBson hm, TlvClass.toVector_toBson ha, TlvClass.toVector_toBson ho]
  cases hmod : stringTo8 (toText m.mod.toNat) with
  | none => simp [toBson, hmod]
  | some mod => simp [toBson, hmod]

theorem Message.fromBson_routeMod {m : RouteMod} (h : (Message.routeMod m).WellFormed) :
    fromBson (Message.routeMod m).getType (Message.routeMod m).toBson =
      (stringTo8 (toText m.mod.toNat)).map fun mod => .routeMod { m with mod := mod } := by
  have hclass : fromBson ROUTE_MOD m.toBson = (RouteMod.fromBson m.toBson).map .routeMod := rfl
  simp only [getType, toBson]
  rw [hclass, RouteMod.fromBson_toBson h, Option.map_map]
  rfl

/-- Every message survives, a RouteMod only if its `mod` is the character that its number begins with. -/
theorem cpp_round_trip_iff (m : Message) (h : m.WellFormed) :
    Message.fromBson m.getType m.toBson = some m ↔ ∀ rm, m = .routeMod rm → rm.mod = 53 := by
  have hsome : ∀ {α : Type} {r : Option α} {x : α} (f : α → Message), r = some x →
    r.map f = some (f x) := by
    rintro α _ x f rfl
    rfl
  cases m with
  | portRegister m => exact iff_of_true (hsome _ m.fromBson_toBson) (by simp)
  | portConfig m => exact iff_of_true (hsome _ m.fromBson_toBson) (by simp)
  | datapathPortRegister m => exact iff_of_true (hsome _ m.fromBson_toBson) (by simp)
  | datapathDown m => exact iff_of_true (hsome _ m.fromBson_toBson) (by simp)
  | virtualPlaneMap m => exact iff_of_true (hsome _ m.fromBson_toBson) (by simp)
  | dataPlaneMap m => exact iff_of_true (hsome _ m.fromBson_toBson) (by simp)
  | routeMod m =>
    rw [Message.fromBson_routeMod h]
    constructor
    · intro hm rm hrm
      obtain rfl := Message.routeMod.inj hrm
      obtain ⟨mod, hmod, heq⟩ := Option.map_eq_some_iff.mp hm
      have hsame : mod = m.mod := congrArg RouteMod.mod (Message.routeMod.inj heq)
      rw [hsame] at hmod
      exact (stringTo8_toText m.mod).mp hmod
    · intro hmod
      rw [(stringTo8_toText m.mod).mpr (hmod m rfl)]
      rfl

/-- A route to a neighbour, with the `mod` that survives. -/
def routeMod53 : Message :=
  .routeMod ⟨53, 1, 2, 0, 0, [ofMatch (.ethernet 0x020000000001), ofMatch (.ethertype 0x0800)],
    [ofAction (.setEthDst 0x020000000002), ofAction (.output 2)],
      [ofOption (.priority 0x5018), ofOption (.ctId 7)]⟩

theorem cpp_round_trip_53 :
    routeMod53.WellFormed ∧ Message.fromBson routeMod53.getType routeMod53.toBson = some routeMod53 := by
  have hwf : routeMod53.WellFormed := by
    refine ⟨?_, ?_, ?_⟩
    · decide +kernel
    · decide +kernel
    · decide +kernel
  refine ⟨hwf, (cpp_round_trip_iff routeMod53 hwf).mpr ?_⟩
  rintro rm ⟨⟩
  rfl

def addMod : Message := .routeMod ⟨0, 1, 2, 0, 0, [], [], []⟩

/-- It comes back with the character `0` as its `mod`. -/
theorem cpp_add_lost : addMod.WellFormed ∧
    Message.fromBson addMod.getType addMod.toBson = some (.routeMod ⟨48, 1, 2, 0, 0, [], [], []⟩) ∧
    Message.fromBson addMod.getType addMod.toBson ≠ some addMod := by
  have hwf : addMod.WellFormed := by simp [addMod, Message.WellFormed]
  have hread : Message.fromBson addMod.getType addMod.toBson =
    some (.routeMod ⟨48, 1, 2, 0, 0, [], [], []⟩) := by
    have hchar : stringTo8 (toText (0 : UInt8).toNat) = some 48 := by decide
    have hadd := Message.fromBson_routeMod hwf
    rw [hchar] at hadd
    exact hadd
  refine ⟨hwf, hread, ?_⟩
  rw [hread]
  simp [addMod]

end Cpp

end RouteFlow
