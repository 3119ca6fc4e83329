import Mathlib.Data.BitVec
import Mathlib.Data.Nat.Basic
import Mathlib.Tactic.Ring

/-!
# Numbers as bytes and as text

A number in a fixed number of bytes, most significant one first, and in digits with leading zeros.
Bytes are written as two hexadecimal digits each.
-/

namespace RouteFlow.Bytes

/-! ## Bytes -/

/-- The last `k` bytes of a number, in network order. -/
def toBe : Nat → Nat → List (BitVec 8)
  | 0, _ => []
  | k + 1, n => toBe k (n / 256) ++ [BitVec.ofNat 8 n]

/-- The number that the bytes are, with the highest one first. -/
def ofBe (l : List (BitVec 8)) : Nat := l.foldl (fun n b => 256 * n + b.toNat) 0

/-- The same bytes as a little-endian host keeps them. -/
def toLe (k n : Nat) : List (BitVec 8) := (toBe k n).reverse

def ofLe (l : List (BitVec 8)) : Nat := ofBe l.reverse

@[simp] theorem length_toBe (k n : Nat) : (toBe k n).length = k := by
  induction k generalizing n with
  | zero => rfl
  | succ k ih => simp [toBe, ih]

@[simp] theorem length_toLe (k n : Nat) : (toLe k n).length = k := by simp [toLe]

theorem ofBe_concat (l : List (BitVec 8)) (b : BitVec 8) : ofBe (l ++ [b]) = 256 * ofBe l + b.toNat := by
  simp [ofBe, List.foldl_append]

theorem ofBe_toBe {k n : Nat} (h : n < 256 ^ k) : ofBe (toBe k n) = n := by
  induction k generalizing n with
  | zero =>
    have : n = 0 := by simpa using h
    subst this
    rfl
  | succ k ih =>
    have hdiv : n / 256 < 256 ^ k := by
      rw [Nat.div_lt_iff_lt_mul (by decide), ← pow_succ]
      exact h
    rw [toBe, ofBe_concat, ih hdiv, BitVec.toNat_ofNat]
    omega

theorem ofBe_lt (l : List (BitVec 8)) : ofBe l < 256 ^ l.length := by
  induction l using List.reverseRecOn with
  | nil => simp [ofBe]
  | append_singleton l b ih =>
    rw [ofBe_concat, List.length_append, List.length_singleton, pow_succ]
    have := b.isLt
    omega

theorem toBe_ofBe (l : List (BitVec 8)) : toBe l.length (ofBe l) = l := by
  induction l using List.reverseRecOn with
  | nil => rfl
  | append_singleton l b ih =>
    have hb := b.isLt
    have hdiv : (256 * ofBe l + b.toNat) / 256 = ofBe l := by omega
    rw [List.length_append, List.length_singleton, toBe, ofBe_concat, hdiv, ih]
    congr 2
    apply BitVec.eq_of_toNat_eq
    rw [BitVec.toNat_ofNat]
    omega

theorem toLe_ofLe (l : List (BitVec 8)) : toLe l.length (ofLe l) = l := by
  have := toBe_ofBe l.reverse
  rw [List.length_reverse] at this
  rw [toLe, ofLe, this, List.reverse_reverse]

theorem ofLe_toLe {k n : Nat} (h : n < 256 ^ k) : ofLe (toLe k n) = n := by
  rw [ofLe, toLe, List.reverse_reverse, ofBe_toBe h]

theorem toBe_ofLe (l : List (BitVec 8)) : toBe l.length (ofLe l) = l.reverse := by
  have := toBe_ofBe l.reverse
  rw [List.length_reverse] at this
  exact this

theorem ofBe_append (l m : List (BitVec 8)) : ofBe (l ++ m) = 256 ^ m.length * ofBe l + ofBe m := by
  induction m using List.reverseRecOn with
  | nil => simp [ofBe]
  | append_singleton m b ih =>
    rw [← List.append_assoc, ofBe_concat, ofBe_concat, ih, List.length_append,
      List.length_singleton, pow_succ]
    ring

theorem ofLe_append (l m : List (BitVec 8)) : ofLe (l ++ m) = ofLe l + 256 ^ l.length * ofLe m := by
  rw [ofLe, List.reverse_append, ofBe_append, List.length_reverse]
  exact Nat.add_comm _ _

theorem toBe_add (j k n : Nat) : toBe (j + k) n = toBe j (n / 256 ^ k) ++ toBe k n := by
  induction k generalizing n with
  | zero => simp [toBe]
  | succ k ih =>
    rw [← Nat.add_assoc, toBe, ih, toBe, List.append_assoc, Nat.div_div_eq_div_mul, pow_succ,
      Nat.mul_comm (256 ^ k)]

theorem toBe_mod (k n : Nat) : toBe k (n % 256 ^ k) = toBe k n := by
  induction k generalizing n with
  | zero => rfl
  | succ k ih =>
    have hdiv : n % 256 ^ (k + 1) / 256 = n / 256 % 256 ^ k := by
      rw [pow_succ', Nat.mod_mul_right_div_self]
    have hlow : BitVec.ofNat 8 (n % 256 ^ (k + 1)) = BitVec.ofNat 8 n := by
      apply BitVec.eq_of_toNat_eq
      rw [BitVec.toNat_ofNat, BitVec.toNat_ofNat]
      exact Nat.mod_mod_of_dvd n ⟨256 ^ k, pow_succ' 256 k⟩
    rw [toBe, toBe, hdiv, hlow, ih]

/-! ## Digits -/

def padDigits (b : Nat) : Nat → Nat → List Char
  | 0, _ => []
  | m + 1, n => padDigits b m (n / b) ++ [(n % b).digitChar]

def zeroFill (m : Nat) (t : List Char) : List Char := List.replicate (m - t.length) '0' ++ t

theorem padDigits_zero (b m : Nat) : padDigits b m 0 = List.replicate m '0' := by
  induction m with
  | zero => rfl
  | succ m ih => simp [padDigits, ih, List.replicate_succ']

theorem zeroFill_toDigits {b m n : Nat} (hb : 1 < b) (hm : 0 < m) (h : n < b ^ m) :
    zeroFill m (Nat.toDigits b n) = padDigits b m n := by
  induction m generalizing n with
  | zero => omega
  | succ m ih =>
    by_cases hn : n < b
    · rw [Nat.toDigits_of_lt_base hn, padDigits, Nat.div_eq_of_lt hn, Nat.mod_eq_of_lt hn, padDigits_zero]
      simp [zeroFill]
    · have hdiv : n / b < b ^ m := by
        rw [Nat.div_lt_iff_lt_mul (by omega), ← pow_succ]
        exact h
      have hm' : 0 < m := by
        by_contra h0
        have : m = 0 := by omega
        subst this
        simp at h
        omega
      rw [Nat.toDigits_of_base_le hb (by omega), padDigits, ← ih hm' hdiv, zeroFill, zeroFill,
        List.length_append]
      simp

/-! ## Hexadecimal -/

def hexVal (c : Char) : Option Nat :=
  if '0' ≤ c ∧ c ≤ '9' then some (c.toNat - '0'.toNat)
  else if 'a' ≤ c ∧ c ≤ 'f' then some (c.toNat - 'a'.toNat + 10)
  else if 'A' ≤ c ∧ c ≤ 'F' then some (c.toNat - 'A'.toNat + 10)
  else none

def toHex (l : List (BitVec 8)) : List Char :=
  l.flatMap fun b => [(b.toNat / 16).digitChar, (b.toNat % 16).digitChar]

/-- The bytes that pairs of hexadecimal digits stand for. -/
def ofHex : List Char → Option (List (BitVec 8))
  | [] => some []
  | [_] => none
  | a :: b :: rest => do
    let x ← hexVal a
    let y ← hexVal b
    return BitVec.ofNat 8 (16 * x + y) :: (← ofHex rest)

theorem hexVal_digitChar : ∀ d < 16, hexVal d.digitChar = some d := by decide

theorem ofHex_toHex (l : List (BitVec 8)) : ofHex (toHex l) = some l := by
  induction l with
  | nil => rfl
  | cons b rest ih =>
    have hb := b.isLt
    have hbyte : BitVec.ofNat 8 (16 * (b.toNat / 16) + b.toNat % 16) = b := by
      rw [Nat.div_add_mod]
      simp
    have hcons : toHex (b :: rest) = (b.toNat / 16).digitChar :: (b.toNat % 16).digitChar :: toHex rest := rfl
    rw [hcons, ofHex, hexVal_digitChar _ (by omega), hexVal_digitChar _ (by omega), ih]
    simp [hbyte]

theorem length_ofHex {t : List Char} {l : List (BitVec 8)} (h : ofHex t = some l) :
    t.length = 2 * l.length := by
  induction t using ofHex.induct generalizing l with
  | case1 =>
    obtain rfl : [] = l := Option.some.inj h
    rfl
  | case2 c => cases h
  | case3 a b rest ih =>
    simp only [ofHex, Option.bind_eq_bind, Option.bind_eq_some_iff, Option.pure_def, Option.some.injEq] at h
    obtain ⟨x, -, y, -, l', hl', rfl⟩ := h
    rw [List.length_cons, List.length_cons, List.length_cons, ih hl']
    omega

theorem hexVal_of_ofHex {t : List Char} {l : List (BitVec 8)} (h : ofHex t = some l) :
    ∀ c ∈ t, (hexVal c).isSome := by
  induction t using ofHex.induct generalizing l with
  | case1 => nofun
  | case2 c => cases h
  | case3 a b rest ih =>
    simp only [ofHex, Option.bind_eq_bind, Option.bind_eq_some_iff, Option.pure_def, Option.some.injEq] at h
    obtain ⟨x, hx, y, hy, l', hl', -⟩ := h
    intro c hc
    rcases List.mem_cons.mp hc with rfl | hc
    · exact Option.isSome_of_eq_some hx
    rcases List.mem_cons.mp hc with rfl | hc
    · exact Option.isSome_of_eq_some hy
    · exact ih hl' c hc

theorem toHex_toBe (k n : Nat) : toHex (toBe k n) = padDigits 16 (2 * k) n := by
  induction k generalizing n with
  | zero => rfl
  | succ k ih =>
    have hhigh : (BitVec.ofNat 8 n).toNat / 16 = n / 16 % 16 := by
      rw [BitVec.toNat_ofNat]
      omega
    have hlow : (BitVec.ofNat 8 n).toNat % 16 = n % 16 := by
      rw [BitVec.toNat_ofNat]
      omega
    have hdiv : n / 16 / 16 = n / 256 := by omega
    have hlast : toHex [BitVec.ofNat 8 n] = [(n / 16 % 16).digitChar, (n % 16).digitChar] := by
      rw [← hhigh, ← hlow]
      rfl
    have happend : toHex (toBe (k + 1) n) = toHex (toBe k (n / 256)) ++ toHex [BitVec.ofNat 8 n] := by
      rw [toBe, toHex, List.flatMap_append]
      rfl
    have hpad : padDigits 16 (2 * (k + 1)) n = padDigits 16 (2 * k)
      (n / 16 / 16) ++ [(n / 16 % 16).digitChar] ++
        [(n % 16).digitChar] := rfl
    rw [happend, ih, hlast, hpad, hdiv, List.append_assoc]
    rfl

/-! ## Numerals -/

def digitVal (b : Nat) (c : Char) : Option Nat := (hexVal c).filter fun d => d < b

def numeral (b : Nat) (t : List Char) : Option Nat :=
  t.foldlM (fun n c => (digitVal b c).map fun d => b * n + d) 0

/-- Reads as many digits as there are, and at least one. -/
def scan (b : Nat) (t : List Char) : Option (Nat × List Char) :=
  match t.takeWhile fun c => (digitVal b c).isSome with
  | [] => none
  | ds => (numeral b ds).map fun n => (n, t.dropWhile fun c => (digitVal b c).isSome)

section Numerals

variable {b : Nat} (hb : 1 < b) (hb' : b ≤ 16)

include hb' in
theorem digitVal_digitChar {d : Nat} (h : d < b) : digitVal b d.digitChar = some d := by
  simp [digitVal, hexVal_digitChar d (by omega), h]

theorem numeral_concat (t : List Char) (c : Char) :
    numeral b (t ++ [c]) = (numeral b t).bind fun n => (digitVal b c).map fun d => b * n + d := by
  simp [numeral, List.foldlM_append]

theorem numeral_toHex (l : List (BitVec 8)) : numeral 16 (toHex l) = some (ofBe l) := by
  induction l using List.reverseRecOn with
  | nil => rfl
  | append_singleton l b ih =>
    have hb := b.isLt
    have happend : toHex (l ++ [b]) = (toHex l ++ [(b.toNat / 16).digitChar]) ++
      [(b.toNat % 16).digitChar] := by
      simp [toHex]
    rw [happend, numeral_concat, numeral_concat, ih, digitVal_digitChar (by omega) (by omega),
      digitVal_digitChar (by omega) (by omega), ofBe_concat]
    simp only [Option.bind_some, Option.map_some, Option.some.injEq]
    omega

include hb hb' in
theorem numeral_toDigits (n : Nat) : numeral b (Nat.toDigits b n) = some n := by
  induction n using Nat.strong_induction_on with
  | _ n ih =>
    by_cases hn : n < b
    · rw [Nat.toDigits_of_lt_base hn]
      simp [numeral, digitVal_digitChar hb' hn]
    · rw [Nat.toDigits_of_base_le hb (by omega), numeral_concat, ih (n / b) (Nat.div_lt_self (by omega) hb),
        digitVal_digitChar hb' (Nat.mod_lt _ (by omega))]
      simp [Nat.div_add_mod]

include hb hb' in
theorem isDigit_of_mem_toDigits {n : Nat} {c : Char} (hc : c ∈ Nat.toDigits b n) : (digitVal b c).isSome := by
  induction n using Nat.strong_induction_on with
  | _ n ih =>
    by_cases hn : n < b
    · rw [Nat.toDigits_of_lt_base hn, List.mem_singleton] at hc
      rw [hc, digitVal_digitChar hb' hn]
      rfl
    · rw [Nat.toDigits_of_base_le hb (by omega), List.mem_append, List.mem_singleton] at hc
      rcases hc with hc | hc
      · exact ih (n / b) (Nat.div_lt_self (by omega) hb) hc
      · rw [hc, digitVal_digitChar hb' (Nat.mod_lt _ (by omega))]
        rfl

theorem scan_of_digits {t rest : List Char} {n : Nat} (ht : t ≠ []) (hd : ∀ c ∈ t, (digitVal b c).isSome)
    (hn : numeral b t = some n) (hrest : ∀ c ∈ rest.head?, digitVal b c = none) :
    scan b (t ++ rest) = some (n, rest) := by
  have hstop : rest.takeWhile (fun c => (digitVal b c).isSome) = [] ∧
      rest.dropWhile (fun c => (digitVal b c).isSome) = rest := by
    cases rest with
    | nil => exact ⟨rfl, rfl⟩
    | cons c rest =>
      have hc := hrest c rfl
      simp [hc]
  have htake : (t ++ rest).takeWhile (fun c => (digitVal b c).isSome) = t := by
    rw [List.takeWhile_append_of_pos hd, hstop.1, List.append_nil]
  have hdrop : (t ++ rest).dropWhile (fun c => (digitVal b c).isSome) = rest := by
    rw [List.dropWhile_append_of_pos hd, hstop.2]
  unfold scan
  rw [htake, hdrop]
  cases t with
  | nil => exact absurd rfl ht
  | cons c t => simp only [hn, Option.map_some]

include hb hb' in
theorem scan_toDigits (n : Nat) {rest : List Char} (hrest : ∀ c ∈ rest.head?, digitVal b c = none) :
    scan b (Nat.toDigits b n ++ rest) = some (n, rest) :=
  scan_of_digits Nat.toDigits_ne_nil (fun _ hc => isDigit_of_mem_toDigits hb hb' hc)
    (numeral_toDigits hb hb' n) hrest

end Numerals

/-! ## Lists of numerals -/

def numerals (sep : Char) (b : Nat) (ns : List Nat) : List Char := [sep].intercalate (ns.map (Nat.toDigits b))

def ofNumerals (sep : Char) (b : Nat) (t : List Char) : Option (List Nat) := (t.splitOn sep).mapM (numeral b)

theorem ofNumerals_numerals {b : Nat} (hb : 1 < b) (hb' : b ≤ 16) {sep : Char} (hsep : digitVal b sep = none)
    {ns : List Nat} (hne : ns ≠ []) : ofNumerals sep b (numerals sep b ns) = some ns := by
  have hno : ∀ l ∈ ns.map (Nat.toDigits b), sep ∉ l := by
    intro l hl hmem
    obtain ⟨n, -, rfl⟩ := List.mem_map.mp hl
    have := isDigit_of_mem_toDigits hb hb' hmem
    rw [hsep] at this
    cases this
  have hmap : (ns.map (Nat.toDigits b)).mapM (numeral b) = some ns := by
    clear hne hno
    induction ns with
    | nil => rfl
    | cons n rest ih => simp [numeral_toDigits hb hb', ih]
  rw [ofNumerals, numerals, List.splitOn_intercalate sep hno (by simpa using hne), hmap]

end RouteFlow.Bytes
