import RouteFlow.TlvAgree

/-!
# Numbers of a fixed length

`int_to_bin` fills a number up to its length with zeros, and leaves a longer one as it is.
-/

namespace RouteFlow

open Bytes

namespace Py

/-- How many bytes the digits of a number take. -/
def byteCount (num : Nat) : Nat := ((Nat.toDigits 16 num).length + 1) / 2

theorem lt_byteCount (num : Nat) : num < 256 ^ byteCount num := by
  have hpos : 0 < (Nat.toDigits 16 num).length := List.length_pos_iff.mpr Nat.toDigits_ne_nil
  have hpow : (16 : Nat) ^ (2 * byteCount num) = 256 ^ byteCount num := by
    rw [pow_mul]
    norm_num
  rw [← hpow, ← Nat.length_toDigits_le_iff (by decide) (by unfold byteCount; omega)]
  unfold byteCount
  omega

theorem le_byteCount {k num : Nat} (hk : 0 < k) : byteCount num ≤ k ↔ num < 256 ^ k := by
  have hpow : (16 : Nat) ^ (2 * k) = 256 ^ k := by
    rw [pow_mul]
    norm_num
  rw [← hpow, ← Nat.length_toDigits_le_iff (by decide) (by omega)]
  unfold byteCount
  omega

theorem intToBin_short {k num : Nat} (h : k ≤ byteCount num) :
    intToBin num (8 * k) = intToBin num (8 * byteCount num) := by
  have hfill : ∀ t : Text, 2 * byteCount num = t.length →
    zeroFill (2 * k) t = zeroFill (2 * byteCount num) t := by
    intro t ht
    unfold zeroFill
    rw [show 2 * k - t.length = 0 by omega, show 2 * byteCount num - t.length = 0 by omega]
  unfold intToBin hexIntExtend
  rw [hex_digits, show 8 * k / 4 = 2 * k by omega, show 8 * byteCount num / 4 = 2 * byteCount num by omega]
  dsimp only
  rw [hfill]
  split
  · unfold byteCount
    omega
  · rw [List.length_cons]
    unfold byteCount
    omega

theorem intToBin_max {k num : Nat} (hk : 0 < k) :
    intToBin num (8 * k) = .ok (toBe (max k (byteCount num)) num) := by
  rcases le_total k (byteCount num) with h | h
  · rw [intToBin_short h, max_eq_right h, intToBin_eq (by omega) (lt_byteCount num)]
  · rw [max_eq_left h, intToBin_eq hk ((le_byteCount hk).mp h)]

theorem binToInt_intToBin {k num : Nat} (hk : 0 < k) {bytes : List Byte}
    (h : intToBin num (8 * k) = .ok bytes) :
    binToInt bytes = .ok num := by
  have hlt : num < 256 ^ max k (byteCount num) :=
    (lt_byteCount num).trans_le (Nat.pow_le_pow_right (by decide) (le_max_right _ _))
  rw [intToBin_max hk] at h
  rw [← Except.ok.inj h, binToInt_toBe (by omega) hlt]

theorem length_intToBin {k num : Nat} (hk : 0 < k) {bytes : List Byte}
    (h : intToBin num (8 * k) = .ok bytes) :
    bytes.length ≤ k ↔ num < 2 ^ (8 * k) := by
  have hpow : (2 : Nat) ^ (8 * k) = 256 ^ k := by
    rw [pow_mul]
    norm_num
  rw [intToBin_max hk] at h
  rw [← Except.ok.inj h, length_toBe, hpow, ← le_byteCount hk]
  exact max_le_iff.trans (and_iff_right le_rfl)

/-- Packing raises, or makes the bytes of the number in network order, as many as the length says. They
belong to no other number. -/
def Packs (num length : Nat) : Prop :=
  ∀ bytes, intToBin num length = .ok bytes → bytes.length = length / 8 ∧ bytes = toBe (length / 8) num ∧
    binToInt bytes = .ok num ∧ ∀ other, intToBin other length = .ok bytes → other = num

theorem packs_iff {num length : Nat} (hpos : 0 < length) (hdvd : 8 ∣ length) :
    Packs num length ↔ num < 2 ^ length := by
  obtain ⟨k, rfl⟩ := hdvd
  have hk : 0 < k := by omega
  have hdiv : 8 * k / 8 = k := by omega
  unfold Packs
  rw [hdiv, intToBin_max hk]
  constructor
  · intro h
    have hlen := (h _ rfl).1
    exact (length_intToBin hk (intToBin_max hk)).mp hlen.le
  · rintro h bytes hbytes
    have hbytes' : intToBin num (8 * k) = .ok bytes := by rw [intToBin_max hk, hbytes]
    have hle := (length_intToBin hk hbytes').mpr h
    rw [← Except.ok.inj hbytes, length_toBe] at hle
    have hmax : max k (byteCount num) = k := le_antisymm hle (le_max_left _ _)
    rw [hmax] at hbytes
    obtain rfl := Except.ok.inj hbytes
    refine ⟨length_toBe k num, rfl, binToInt_intToBin hk hbytes', fun other hother => ?_⟩
    have hback := (binToInt_intToBin hk hother).symm.trans (binToInt_intToBin hk hbytes')
    exact Except.ok.inj hback

/-! ## The values of TLVs -/

/-- The value goes into `len` bytes: a number by its size, an address by its digits. -/
def Value.Fits (len : Nat) : Value → Prop
  | .int n => n < 2 ^ (8 * len)
  | .text t => (t.filter fun c => c != ':').length ≤ 2 * len
  | .texts _ _ | .none => True

theorem length_toBin {k : Nat} (hk : 0 < k) {value : Value} {bytes : List Byte}
    (h : value.toBin (8 * k) = .ok bytes) :
    bytes.length ≤ k ↔ value.Fits k := by
  cases value with
  | int n => exact length_intToBin hk h
  | text t => cases h
  | texts a b => cases h
  | none => cases h

theorem length_etherToBin {value : Value} {bytes : List Byte} (h : value.etherToBin = .ok bytes) (k : Nat) :
    bytes.length ≤ k ↔ value.Fits k := by
  cases value with
  | text t =>
    simp only [Value.etherToBin, etherToBin, a2bHex] at h
    split at h
    · rename_i b hb
      obtain rfl := Except.ok.inj h
      rw [Value.Fits, length_ofHex hb]
      omega
    · cases h
  | int n => cases h
  | texts a b => cases h
  | none => cases h

end Py

/-- `inet_pton` returns a whole address. -/
def Inet.Sized (inet : Inet) : Prop :=
  ∀ v t bytes, inet.pton v t = some bytes → bytes.length = IPVersion.length v

theorem Py.length_inetToBin {inet : Inet} (hi : inet.Sized) {v : IPVersion} {value : Py.Value}
    {bytes : List Byte} (h : value.inetToBin inet v = .ok bytes) :
    bytes.length ≤ 2 * v.length ↔ value.Fits (2 * v.length) := by
  have hpton : ∀ t b, Py.inetPton inet v t = .ok b → b.length = v.length := by
    intro t b hb
    unfold Py.inetPton at hb
    split at hb
    · rename_i b' hb'
      obtain rfl := Except.ok.inj hb
      exact hi v t b' hb'
    · cases hb
  cases value with
  | texts a b =>
    simp only [Py.Value.inetToBin, bind_eq_ok] at h
    obtain ⟨x, hx, y, hy, h⟩ := h
    obtain rfl := Except.ok.inj h
    rw [List.length_append, hpton a x hx, hpton b y hy]
    exact iff_of_true (by omega) trivial
  | int n => cases h
  | text t => cases h
  | none => cases h

namespace TlvCodec

variable {α : Type} (c : TlvCodec α)

/-- A TLV of this type that Python makes is no longer than the length that C++ gives the type, exactly if its
value fits or the type has none. -/
def LengthKept (type : Nat) : Prop :=
  ∀ value bytes, c.typeToBin type value = .ok (some bytes) →
    (bytes.length ≤ c.cpp.typeToLength type ↔ c.cpp.typeToLength type = 0 ∨
      value.Fits (c.cpp.typeToLength type))

variable {c} {type : Nat}

theorem lengthKept_of {len : Nat} (hpos : 0 < len) (hlen : c.cpp.typeToLength type = len)
    {toBin : Py.Value → Except PyErr (List Byte)} (hbin : ∀ v, c.typeToBin type v = (toBin v).map some)
    (hfits : ∀ v bytes, toBin v = .ok bytes → (bytes.length ≤ len ↔ v.Fits len)) : c.LengthKept type := by
  intro value bytes h
  rw [hlen, or_iff_right (by omega)]
  apply hfits value bytes
  rw [hbin] at h
  cases hv : toBin value with
  | error e =>
    rw [hv] at h
    cases h
  | ok b =>
    rw [hv] at h
    rw [Option.some.inj (Except.ok.inj h)]

theorem lengthKept_uint {k : Nat} (hk : 0 < k) (hlen : c.cpp.typeToLength type = k)
    (hbin : ∀ v, c.typeToBin type v = (v.toBin (8 * k)).map some) : c.LengthKept type :=
  lengthKept_of hk hlen hbin fun _ _ h => Py.length_toBin hk h

theorem lengthKept_none (hlen : c.cpp.typeToLength type = 0)
    (hbin : ∀ v, c.typeToBin type v = .ok (some [])) : c.LengthKept type := by
  intro value bytes h
  obtain rfl : [] = bytes := Option.some.inj (Except.ok.inj ((hbin value).symm.trans h))
  rw [hlen]
  exact iff_of_true le_rfl (Or.inl rfl)

theorem lengthKept_unknown (h : ∀ v, c.typeToBin type v = .ok none) : c.LengthKept type := by
  intro value bytes hbytes
  cases (h value).symm.trans hbytes

end TlvCodec

open TlvCodec

theorem match_lengthKept {inet : Inet} (hi : inet.Sized) (type : Nat) :
    (matchCodec inet).LengthKept type := by
  match type with
  | RFMT_IPV4 =>
    exact lengthKept_of (by decide : 0 < 8) rfl (fun _ => rfl) fun _ _ h => Py.length_inetToBin hi h
  | RFMT_IPV6 =>
    exact lengthKept_of (by decide : 0 < 32) rfl (fun _ => rfl) fun _ _ h => Py.length_inetToBin hi h
  | RFMT_ETHERNET =>
    exact lengthKept_of (by decide : 0 < 6) rfl (fun _ => rfl) fun _ _ h => Py.length_etherToBin h 6
  | RFMT_MPLS | RFMT_IN_PORT => exact lengthKept_uint (by decide : 0 < 4) rfl fun _ => rfl
  | RFMT_VLAN_ID | RFMT_ETHERTYPE | RFMT_TP_SRC | RFMT_TP_DST =>
    exact lengthKept_uint (by decide : 0 < 2) rfl fun _ => rfl
  | RFMT_NW_PROTO => exact lengthKept_uint (by decide : 0 < 1) rfl fun _ => rfl
  | 0 => exact lengthKept_unknown fun _ => rfl
  | n + 11 => exact lengthKept_unknown fun _ => rfl

theorem action_lengthKept (type : Nat) : actionCodec.LengthKept type := by
  by_cases htype : type ∈ [RFAT_OUTPUT, RFAT_SET_ETH_SRC, RFAT_SET_ETH_DST, RFAT_PUSH_MPLS, RFAT_POP_MPLS,
      RFAT_SWAP_MPLS, RFAT_SET_VLAN_ID, RFAT_STRIP_VLAN_DEFERRED, RFAT_SWAP_VLAN_ID, RFAT_GROUP, RFAT_GOTO,
      RFAT_STRIP_VLAN, RFAT_DROP, RFAT_SFLOW]
  · simp only [List.mem_cons, List.not_mem_nil, or_false] at htype
    rcases htype with rfl | rfl | rfl | rfl | rfl | rfl | rfl | rfl | rfl | rfl | rfl | rfl | rfl | rfl
    all_goals first
      | exact lengthKept_uint (by decide : 0 < 4) rfl fun _ => rfl
      | exact lengthKept_of (by decide : 0 < 6) rfl (fun _ => rfl) fun _ _ h => Py.length_etherToBin h 6
      | exact lengthKept_none rfl fun _ => rfl
  · apply lengthKept_unknown
    intro v
    simp only [List.mem_cons, List.not_mem_nil, or_false, not_or] at htype
    simp only [actionCodec]
    unfold Py.actionTypeToBin
    split <;> simp_all

theorem option_lengthKept (type : Nat) : optionCodec.LengthKept type := by
  by_cases htype : type ∈ [RFOT_PRIORITY, RFOT_IDLE_TIMEOUT, RFOT_HARD_TIMEOUT, RFOT_CT_ID]
  · simp only [List.mem_cons, List.not_mem_nil, or_false] at htype
    rcases htype with rfl | rfl | rfl | rfl
    · exact lengthKept_uint (by decide : 0 < 2) rfl fun _ => rfl
    · exact lengthKept_uint (by decide : 0 < 2) rfl fun _ => rfl
    · exact lengthKept_uint (by decide : 0 < 2) rfl fun _ => rfl
    · exact lengthKept_uint (by decide : 0 < 8) rfl fun _ => rfl
  · apply lengthKept_unknown
    intro v
    simp only [List.mem_cons, List.not_mem_nil, or_false, not_or] at htype
    simp only [optionCodec]
    unfold Py.optionTypeToBin
    split <;> simp_all

/-- A number is packed into its length exactly if it is below the power of two, and a TLV is no longer than
C++ takes it to be exactly if its value fits. -/
theorem packing_iff (inet : Inet) (hi : inet.Sized) :
    (∀ num length, 0 < length → 8 ∣ length → (Py.Packs num length ↔ num < 2 ^ length)) ∧
      ∀ type, (matchCodec inet).LengthKept type ∧ actionCodec.LengthKept type ∧ optionCodec.LengthKept type :=
  ⟨fun _ _ hpos hdvd => Py.packs_iff hpos hdvd,
    fun type => ⟨match_lengthKept hi type, action_lengthKept type, option_lengthKept type⟩⟩

/-- `plainInet` for whole addresses only. -/
def wholeInet : Inet where
  ntop := plainInet.ntop
  pton v t := (plainInet.pton v t).filter fun bytes => bytes.length = v.length

theorem wholeInet_sized : wholeInet.Sized := by
  intro v t bytes h
  have hb := (Option.filter_eq_some_iff.mp h).2
  exact of_decide_eq_true hb

/-- The largest port number is packed, and 10.0.0.1 has the length of an address with its mask. -/
theorem packing_iff_ports : Py.Packs (2 ^ 32 - 1) 32 ∧
    wholeInet.pton .ipv4 "10.0.0.1".toList = some [10, 0, 0, 1] ∧
      (matchCodec wholeInet).LengthKept RFMT_IPV4 ∧ (matchCodec wholeInet).LengthKept RFMT_IN_PORT := by
  obtain ⟨hpack, hlength⟩ := packing_iff wholeInet wholeInet_sized
  exact ⟨(hpack _ 32 (by decide) (by decide)).mpr (by decide), by decide, (hlength _).1, (hlength _).1⟩

/-- 2^32 takes five bytes, where the length of a port is four. -/
theorem packing_too_long :
    Py.intToBin (2 ^ 32) 32 = .ok [1, 0, 0, 0, 0] ∧ ¬ Py.Packs (2 ^ 32) 32 ∧
      actionCodec.typeToBin RFAT_OUTPUT (.int (2 ^ 32)) = .ok (some [1, 0, 0, 0, 0]) ∧
      Cpp.actionClass.typeToLength RFAT_OUTPUT = 4 := by
  have hbin : Py.intToBin (2 ^ 32) 32 = .ok [1, 0, 0, 0, 0] := by decide
  refine ⟨hbin, fun h => ?_, ?_, rfl⟩
  · have hlen := (h _ hbin).1
    simp at hlen
  · simp only [actionCodec, Py.actionTypeToBin, Py.Value.toBin, hbin]
    rfl

end RouteFlow
