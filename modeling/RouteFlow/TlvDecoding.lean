import RouteFlow.TlvAgree

/-!
# What the C++ decoders accept

`from_BSON` of Match, Action and Option, for a type of any number and a value of any length. The length of
the new TLV comes from its type alone.
-/

namespace RouteFlow.Cpp

open Bytes

/-- The document has the two fields of a TLV. -/
structure TlvFields (bson : Bson) (type : Int) (value : List Byte) : Prop where
  type : bson.get "type" = some (.int type)
  value : bson.get "value" = some (.binary value)

namespace Tlv

theorem netValue_init (t : Nat) (order : ByteOrder) (value : List Byte) :
    (init t value.length (some (order.swap value))).netValue order = value := by
  have hlen : value.length = 0 ∨ 0 < value.length := Nat.eq_zero_or_pos _
  rcases hlen with hlen | hlen
  · obtain rfl : value = [] := List.length_eq_zero_iff.mp hlen
    cases order <;> rfl
  · have hinit : init t value.length (some (order.swap value)) =
      ⟨t, value.length, some (order.swap value)⟩ := by
      rw [init, if_neg (by simp; rintro rfl; simp at hlen)]
    rw [hinit, netValue_eq (v := order.swap value) rfl (order.length_swap value), ByteOrder.swap_swap]

theorem length_init (t len : Nat) (value : List Byte) : (init t len (some value)).length = len := by
  unfold init
  split
  · rename_i hor
    rcases hor with h0 | hnone
    · exact h0.symm
    · cases hnone
  · rfl

theorem value_init (t len : Nat) (value : List Byte) :
    (init t len (some value)).length = 0 ∨ (init t len (some value)).value = some value := by
  unfold init
  split
  · exact Or.inl rfl
  · exact Or.inr rfl

theorem type_init (t len : Nat) (value : Option (List Byte)) : (init t len value).type = t := by
  unfold init
  split <;> rfl

theorem length_netValue {tlv : Tlv} {v : List Byte} (hv : tlv.length = 0 ∨ tlv.value = some v)
    (order : ByteOrder) (hle : tlv.length ≤ v.length) : (tlv.netValue order).length = tlv.length := by
  have htake : ((tlv.value.getD []).take tlv.length).length = tlv.length := by
    rcases hv with h0 | hv
    · simp [h0]
    · simp [hv, hle]
  unfold netValue
  cases order with
  | network => exact htake
  | host =>
    dsimp only
    split
    · rename_i h2
      rw [h2, length_toLe]
    · rename_i h4
      rw [h4, length_toLe]
    · rename_i h8
      rw [h8, length_toLe]
    · exact htake

end Tlv

namespace TlvClass

variable (c : TlvClass)

/-- The document is refused, or the TLV reads no byte that is not there and is sent with the same fields. -/
def DecodesWell (bson : Bson) (type : Int) (value : List Byte) : Prop :=
  ∀ tlv, c.fromBson bson = some tlv → tlv.length ≤ value.length ∧ TlvFields (c.toBson tlv) type value

/-- The type is lost in the cast to 8 bits, or is kept by it and has the length of the value. -/
def Acceptable (type : Int) (value : List Byte) : Prop :=
  type % 256 = 0 ∨ (0 < type ∧ type < 256 ∧ value.length = c.typeToLength type.toNat)

instance (type : Int) (value : List Byte) : Decidable (c.Acceptable type value) :=
  inferInstanceAs (Decidable (_ ∨ _))

variable {c} {bson : Bson} {type : Int} {value : List Byte} (h : TlvFields bson type value)

include h in
theorem fromBson_eq : c.fromBson bson =
    if type % 256 = 0 then none
    else some (Tlv.init (type % 256).toNat (c.typeToLength (type % 256).toNat)
      (some ((c.typeToByteOrder (type % 256).toNat).swap value))) := by
  have htype : Tlv.typeFromBson bson = (type % 256).toNat := by simp only [Tlv.typeFromBson, h.type]
  have hzero : (type % 256).toNat = 0 ↔ type % 256 = 0 := by omega
  unfold fromBson
  simp only [htype, hzero, Tlv.valueFromBson_eq h.value]

include h in
theorem decodesWell_iff : c.DecodesWell bson type value ↔ c.Acceptable type value := by
  unfold DecodesWell Acceptable
  rw [fromBson_eq h]
  by_cases hzero : type % 256 = 0
  · simp [hzero]
  · simp only [hzero, if_false, Option.some.injEq, forall_eq', false_or]
    generalize hk : (type % 256).toNat = k
    rw [Tlv.length_init]
    constructor
    · rintro ⟨hle, hfields⟩
      have htype : (k : Int) = type := by
        have := hfields.type
        simp only [toBson, Tlv.toBson, Bson.get_cons, Tlv.type_init] at this
        simpa using this
      have hvalue : (Tlv.init k (c.typeToLength k) (some ((c.typeToByteOrder k).swap value))).netValue
          (c.typeToByteOrder k) = value := by
        have := hfields.value
        simp only [toBson, Tlv.toBson, Bson.get_cons, Tlv.type_init] at this
        simpa using this
      refine ⟨by omega, by omega, ?_⟩
      have hlen := Tlv.length_netValue (v := (c.typeToByteOrder k).swap value)
        (Tlv.value_init k (c.typeToLength k) _)
        (c.typeToByteOrder k) (by rw [Tlv.length_init, ByteOrder.length_swap]; exact hle)
      rw [hvalue, Tlv.length_init] at hlen
      rw [hlen, ← htype]
      rfl
    · rintro ⟨hpos, hlt, hlen⟩
      have hk' : type = k := by omega
      have hlen' : c.typeToLength k = value.length := by
        rw [hlen, hk']
        rfl
      refine ⟨hlen'.le, ⟨?_, ?_⟩⟩
      · simp only [toBson, Tlv.toBson, Bson.get_cons, Tlv.type_init]
        simp [hk']
      · simp only [toBson, Tlv.toBson, Bson.get_cons, Tlv.type_init]
        rw [hlen', Tlv.netValue_init]
        simp

end TlvClass

/-- All three classes take a document well exactly if its type fits in a byte and its value has the length
of the type, or if the type is 0 after the cast. -/
theorem tlv_decoding_iff : ∀ c ∈ [matchClass, actionClass, optionClass], ∀ (bson : Bson) (type : Int)
    (value : List Byte), TlvFields bson type value →
    (c.DecodesWell bson type value ↔ c.Acceptable type value) := by
  intro c _ bson type value h
  exact TlvClass.decodesWell_iff h

/-- An output to port 2, whole and with a byte missing. -/
theorem tlv_decoding_iff_output :
    actionClass.DecodesWell (Py.tlvToDict RFAT_OUTPUT [0, 0, 0, 2]) RFAT_OUTPUT [0, 0, 0, 2] ∧
      ¬ actionClass.DecodesWell (Py.tlvToDict RFAT_OUTPUT [0, 0, 2]) RFAT_OUTPUT [0, 0, 2] := by
  constructor
  · exact (tlv_decoding_iff actionClass (by simp) _ _ _ ⟨rfl, rfl⟩).mpr (by decide)
  · rw [tlv_decoding_iff actionClass (by simp) _ _ _ ⟨rfl, rfl⟩]
    decide

/-- The port number 3 in two bytes makes a TLV of four. -/
theorem short_value_accepted :
    let bson := Py.tlvToDict RFMT_IN_PORT [0, 3]
    TlvFields bson RFMT_IN_PORT [0, 3] ∧ matchClass.fromBson bson = some ⟨RFMT_IN_PORT, 4, some [3, 0]⟩ ∧
      ¬ matchClass.DecodesWell bson RFMT_IN_PORT [0, 3] := by
  intro bson
  have hread : matchClass.fromBson bson = some ⟨RFMT_IN_PORT, 4, some [3, 0]⟩ := by decide
  refine ⟨⟨rfl, rfl⟩, hread, fun hwell => ?_⟩
  have hle := (hwell _ hread).1
  simp at hle

end RouteFlow.Cpp
