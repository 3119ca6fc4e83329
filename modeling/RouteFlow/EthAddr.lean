import RouteFlow.Tlv

/-!
# Addresses as text

The tables keep the address of a port as text. Clients write theirs, and those of links come from
`islconf.csv` as they are there. `ether_to_bin` takes any even number of hexadecimal digits. Nobody
calls it before a RouteMod needs the address, and there it raises for every other text.
-/

namespace RouteFlow

open Bytes

namespace Py

theorem binToEther_eq (a b c d e f : Byte) : binToEther [a, b, c, d, e, f] =
    toHex [a] ++ ':' :: toHex [b] ++ ':' :: toHex [c] ++ ':' :: toHex [d] ++ ':' :: toHex [e] ++ ':' ::
    toHex [f] := rfl

theorem filter_toHex (l : List Byte) : (toHex l).filter (fun c => c != ':') = toHex l := by
  rw [List.filter_eq_self]
  intro c hc
  obtain ⟨b, -, hb⟩ := List.mem_flatMap.mp hc
  simp only [List.mem_cons, List.not_mem_nil, or_false] at hb
  rcases hb with rfl | rfl
  · simp
  · simp

theorem etherToBin_binToEther {bytes : List Byte} (h : bytes.length = 6) :
    etherToBin (binToEther bytes) = .ok bytes := by
  obtain ⟨a, b, c, d, e, f, rfl⟩ : ∃ a b c d e f, bytes = [a, b, c, d, e, f] := by
    match bytes, h with
    | [a, b, c, d, e, f], _ => exact ⟨a, b, c, d, e, f, rfl⟩
  have hfilter : (binToEther [a, b, c, d, e, f]).filter (fun c => c != ':') = toHex [a, b, c, d, e, f] := by
    rw [binToEther_eq]
    simp only [List.filter_append, List.filter_cons, filter_toHex]
    rfl
  rw [etherToBin, hfilter, a2bHex, ofHex_toHex]

end Py

theorem Mac.length_bytes (m : Mac) : m.bytes.length = 6 := length_toBe 6 _

/-- The text of an address as the clients write it. -/
def Mac.text (m : Mac) : Text := Py.binToEther m.bytes

/-- `ether_to_bin` takes the text. -/
def Readable (t : Text) : Prop := ∃ bytes, Py.etherToBin t = .ok bytes

/-- The text is that of an address, with six bytes. -/
def IsMac (t : Text) : Prop := ∃ m : Mac, Py.etherToBin t = .ok m.bytes

/-- The bytes that `ether_to_bin` makes, as a number. A text that is an address stands for it. -/
def ethMac (t : Text) : Mac :=
  match Py.etherToBin t with
  | .ok bytes => BitVec.ofNat 48 (ofBe bytes)
  | .error _ => 0

theorem ethMac_eq {t : Text} {m : Mac} (h : Py.etherToBin t = .ok m.bytes) : ethMac t = m := by
  unfold ethMac
  rw [h]
  dsimp only
  rw [Mac.bytes, ofBe_toBe m.isLt, BitVec.ofNat_toNat, BitVec.setWidth_eq]

theorem etherToBin_text (m : Mac) :
    Py.etherToBin m.text = .ok m.bytes := Py.etherToBin_binToEther m.length_bytes

@[simp] theorem ethMac_text (m : Mac) : ethMac m.text = m := ethMac_eq (etherToBin_text m)

@[simp] theorem isMac_text (m : Mac) : IsMac m.text := ⟨m, etherToBin_text m⟩

theorem IsMac.readable {t : Text} (h : IsMac t) : Readable t := by
  obtain ⟨m, hm⟩ := h
  exact ⟨m.bytes, hm⟩

/-- `Match.ETHERNET(addr)`. `ether_to_bin(None)` has no `replace`. -/
def Match.ETHERNET : Option Text → Except PyErr Match
  | some t => (Py.etherToBin t).map fun _ => .ethernet (ethMac t)
  | none => .error .attributeError

/-- `Action.SET_ETH_SRC(addr)` -/
def Action.SET_ETH_SRC : Option Text → Except PyErr Action
  | some t => (Py.etherToBin t).map fun _ => .setEthSrc (ethMac t)
  | none => .error .attributeError

/-- `Action.SET_ETH_DST(addr)` -/
def Action.SET_ETH_DST : Option Text → Except PyErr Action
  | some t => (Py.etherToBin t).map fun _ => .setEthDst (ethMac t)
  | none => .error .attributeError

section Reading

variable {t : Text}

theorem Match.ETHERNET_readable (h : Readable t) : Match.ETHERNET (some t) = .ok (.ethernet (ethMac t)) := by
  obtain ⟨bytes, hbytes⟩ := h
  rw [Match.ETHERNET, hbytes]
  rfl

theorem Match.ETHERNET_ok {a : Option Text} {mac : Match} (h : Match.ETHERNET a = .ok mac) :
    ∃ m, mac = .ethernet m := by
  unfold Match.ETHERNET at h
  split at h
  · rename_i t
    cases ht : Py.etherToBin t with
    | error e =>
      rw [ht] at h
      cases h
    | ok bytes =>
      rw [ht] at h
      exact ⟨_, (Except.ok.inj h).symm⟩
  · cases h

theorem Action.SET_ETH_SRC_readable (h : Readable t) :
    Action.SET_ETH_SRC (some t) = .ok (.setEthSrc (ethMac t)) := by
  obtain ⟨bytes, hbytes⟩ := h
  rw [Action.SET_ETH_SRC, hbytes]
  rfl

theorem Action.SET_ETH_DST_readable (h : Readable t) :
    Action.SET_ETH_DST (some t) = .ok (.setEthDst (ethMac t)) := by
  obtain ⟨bytes, hbytes⟩ := h
  rw [Action.SET_ETH_DST, hbytes]
  rfl

theorem etherToBin_error (h : ¬ Readable t) : ∃ e, Py.etherToBin t = .error e := by
  cases ht : Py.etherToBin t with
  | error e => exact ⟨e, rfl⟩
  | ok bytes => exact absurd ⟨bytes, ht⟩ h

theorem Match.ETHERNET_error (h : ¬ Readable t) : ∃ e, Match.ETHERNET (some t) = .error e := by
  obtain ⟨e, he⟩ := etherToBin_error h
  exact ⟨e, by rw [Match.ETHERNET, he]; rfl⟩

theorem Action.SET_ETH_SRC_error (h : ¬ Readable t) : ∃ e, Action.SET_ETH_SRC (some t) = .error e := by
  obtain ⟨e, he⟩ := etherToBin_error h
  exact ⟨e, by rw [Action.SET_ETH_SRC, he]; rfl⟩

theorem Action.SET_ETH_DST_error (h : ¬ Readable t) : ∃ e, Action.SET_ETH_DST (some t) = .error e := by
  obtain ⟨e, he⟩ := etherToBin_error h
  exact ⟨e, by rw [Action.SET_ETH_DST, he]; rfl⟩

end Reading

end RouteFlow
