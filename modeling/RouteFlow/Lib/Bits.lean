import Mathlib.Data.BitVec
import Mathlib.Tactic

/-!
# Bits of a byte string

Bit 0 is the first bit of the first byte, as addresses count them.
-/

namespace RouteFlow.Bits

/-- Bits past the end are zero. -/
def bit (l : List (BitVec 8)) (i : Nat) : Bool := (l.getD (i / 8) 0).getMsbD (i % 8)

theorem bit_eq_false {l : List (BitVec 8)} {i : Nat} (h : 8 * l.length ≤ i) : bit l i = false := by
  have hnone : l[i / 8]? = none := List.getElem?_eq_none (by omega)
  simp [bit, List.getD, hnone]

theorem bit_cons_lt (b : BitVec 8) (l : List (BitVec 8)) {i : Nat} (h : i < 8) :
    bit (b :: l) i = b.getMsbD i := by
  have hd : i / 8 = 0 := by omega
  have hm : i % 8 = i := by omega
  simp [bit, hd, hm]

theorem bit_cons_add (b : BitVec 8) (l : List (BitVec 8)) (i : Nat) : bit (b :: l) (i + 8) = bit l i := by
  have hd : (i + 8) / 8 = i / 8 + 1 := by omega
  have hm : (i + 8) % 8 = i % 8 := by omega
  simp [bit, hd, hm]

theorem byte_ext {a b : BitVec 8} (h : ∀ i < 8, a.getMsbD i = b.getMsbD i) : a = b := by
  apply BitVec.eq_of_getMsbD_eq
  exact h

theorem ext_bit {l k : List (BitVec 8)} (hlen : l.length = k.length)
    (h : ∀ i < 8 * l.length, bit l i = bit k i) : l = k := by
  induction l generalizing k with
  | nil => exact (List.length_eq_zero_iff.mp hlen.symm).symm
  | cons b l ih =>
    rcases k with _ | ⟨c, k⟩
    · simp at hlen
    have hlen' : l.length = k.length := by simpa using hlen
    have hhead : b = c := by
      apply byte_ext
      intro i hi
      have := h i (by simp; omega)
      rwa [bit_cons_lt b l hi, bit_cons_lt c k hi] at this
    have htail : l = k := by
      apply ih hlen'
      intro i hi
      have := h (i + 8) (by simp; omega)
      rwa [bit_cons_add, bit_cons_add] at this
    rw [hhead, htail]

theorem bit_zipWith_and {l k : List (BitVec 8)} (hlen : l.length = k.length) (i : Nat) :
    bit (List.zipWith (· &&& ·) l k) i = (bit l i && bit k i) := by
  induction l generalizing k i with
  | nil =>
    obtain rfl := List.length_eq_zero_iff.mp hlen.symm
    simp [bit]
  | cons b l ih =>
    rcases k with _ | ⟨c, k⟩
    · simp at hlen
    rw [List.zipWith_cons_cons]
    by_cases hi : i < 8
    · rw [bit_cons_lt _ _ hi, bit_cons_lt _ _ hi, bit_cons_lt _ _ hi, BitVec.getMsbD_and]
    · obtain ⟨j, rfl⟩ : ∃ j, i = j + 8 := ⟨i - 8, by omega⟩
      rw [bit_cons_add, bit_cons_add, bit_cons_add, ih (by simpa using hlen)]

/-- Under a mask whose ones are its first `n` bits, two strings are the same when their first `n` bits
are. -/
theorem zipWith_and_eq_iff {l k mask : List (BitVec 8)} {n : Nat} (hl : l.length = mask.length)
    (hk : k.length = mask.length) (hn : n ≤ 8 * mask.length)
    (hmask : ∀ i < 8 * mask.length, bit mask i = decide (i < n)) :
    List.zipWith (· &&& ·) l mask = List.zipWith (· &&& ·) k mask ↔ ∀ i < n, bit l i = bit k i := by
  constructor
  · intro h i hi
    have := congrArg (fun x => bit x i) h
    simpa only [bit_zipWith_and hl, bit_zipWith_and hk, hmask i (by omega), hi, decide_true,
      Bool.and_true] using this
  · intro h
    apply ext_bit (by simp [hl, hk])
    intro i hi
    have hi' : i < 8 * mask.length := by simpa [hl] using hi
    rw [bit_zipWith_and hl, bit_zipWith_and hk, hmask i hi']
    by_cases hin : i < n
    · rw [h i hin]
    · simp [hin]

end RouteFlow.Bits
