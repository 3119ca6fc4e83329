import Mathlib.Tactic

/-!
# Numbers that stand for contents

Whoever needs a content asks for a number by its key. A new key gets the next number, which is defined to
stand for the content. A key that is known gets its number again, and the content is not looked at.
-/

namespace RouteFlow.Naming

variable {κ α : Type} [DecidableEq κ]

structure Names (κ : Type) where
  last : Nat
  number : κ → Option Nat

def start (last : Nat) : Names κ := ⟨last, fun _ => none⟩

/-- The numbers after the key has been asked for. -/
def Names.after (t : Names κ) (k : κ) : Names κ :=
  match t.number k with
  | some _ => t
  | none => ⟨t.last + 1, Function.update t.number k (some (t.last + 1))⟩

/-- The number that is defined for the content, if the key is new. -/
def Names.defines (t : Names κ) (k : κ) (a : α) : List (Nat × α) :=
  match t.number k with
  | some _ => []
  | none => [(t.last + 1, a)]

/-- What holds after the items of `h` have been asked for and `d` has been defined. -/
structure Consistent (h : List (κ × α)) (t : Names κ) (d : List (Nat × α)) : Prop where
  known : ∀ k, (t.number k).isSome ↔ ∃ a, (k, a) ∈ h
  bounded : ∀ k n, t.number k = some n → n ≤ t.last
  injective : ∀ j k n, t.number j = some n → t.number k = some n → j = k
  defined : ∀ k n, t.number k = some n → ∃ a, (n, a) ∈ d
  origin : ∀ n a, (n, a) ∈ d → ∃ k, t.number k = some n ∧ (k, a) ∈ h
  once : ∀ n a b, (n, a) ∈ d → (n, b) ∈ d → a = b

omit [DecidableEq κ] in
theorem consistent_start (last : Nat) : Consistent ([] : List (κ × α)) (start last) [] where
  known := by simp [start]
  bounded := by simp [start]
  injective := by simp [start]
  defined := by simp [start]
  origin := by simp
  once := by simp

variable {h : List (κ × α)} {t : Names κ} {d : List (Nat × α)}

theorem Names.after_keeps {j : κ} {n : Nat} (hj : t.number j = some n) (k : κ) :
    (t.after k).number j = some n := by
  unfold after
  cases hk : t.number k with
  | some m => exact hj
  | none =>
    have hne : j ≠ k := by
      rintro rfl
      rw [hj] at hk
      cases hk
    simp [hne, hj]

omit [DecidableEq κ] in
theorem Consistent.again (hc : Consistent h t d) {k : κ} {n : Nat} (hk : t.number k = some n) (a : α) :
    Consistent (h ++ [(k, a)]) t d := by
  have hsome : ∃ b, (k, b) ∈ h := (hc.known k).mp (by simp [hk])
  refine ⟨fun j => ?_, hc.bounded, hc.injective, hc.defined, ?_, hc.once⟩
  · rw [hc.known j]
    constructor
    · rintro ⟨b, hb⟩
      exact ⟨b, List.mem_append_left _ hb⟩
    · rintro ⟨b, hb⟩
      rcases List.mem_append.mp hb with hb | hb
      · exact ⟨b, hb⟩
      · obtain ⟨rfl, rfl⟩ := Prod.mk.inj (List.mem_singleton.mp hb)
        exact hsome
  · intro m b hb
    obtain ⟨j, hj, hmem⟩ := hc.origin m b hb
    exact ⟨j, hj, List.mem_append_left _ hmem⟩

theorem Consistent.fresh (hc : Consistent h t d) {k : κ} (hk : t.number k = none) (a : α) :
    Consistent (h ++ [(k, a)]) ⟨t.last + 1, Function.update t.number k (some (t.last + 1))⟩
      (d ++ [(t.last + 1, a)]) := by
  -- The number is new: all that were given out are smaller.
  have hfresh : ∀ j n, t.number j = some n → n ≠ t.last + 1 := by
    intro j n hj
    have := hc.bounded j n hj
    omega
  have hnew : ∀ j n, Function.update t.number k (some (t.last + 1)) j = some n ↔
      (j = k ∧ n = t.last + 1) ∨ (j ≠ k ∧ t.number j = some n) := by
    intro j n
    by_cases hjk : j = k
    · subst hjk
      simp [eq_comm]
    · simp [hjk]
  refine ⟨fun j => ?_, ?_, ?_, ?_, ?_, ?_⟩
  · by_cases hjk : j = k
    · subst hjk
      simp
    · simp [hjk, hc.known j]
  · intro j n hj
    rcases (hnew j n).mp hj with ⟨-, rfl⟩ | ⟨-, hj⟩
    · exact le_rfl
    · exact (hc.bounded j n hj).trans (Nat.le_succ _)
  · intro i j n hi hj
    rcases (hnew i n).mp hi with ⟨hik, hin⟩ | ⟨-, hi'⟩
    · rcases (hnew j n).mp hj with ⟨hjk, -⟩ | ⟨-, hj'⟩
      · exact hik.trans hjk.symm
      · exact absurd hin (hfresh j n hj')
    · rcases (hnew j n).mp hj with ⟨-, hjn⟩ | ⟨-, hj'⟩
      · exact absurd hjn (hfresh i n hi')
      · exact hc.injective i j n hi' hj'
  · intro j n hj
    rcases (hnew j n).mp hj with ⟨-, rfl⟩ | ⟨-, hj⟩
    · exact ⟨a, by simp⟩
    · obtain ⟨b, hb⟩ := hc.defined j n hj
      exact ⟨b, List.mem_append_left _ hb⟩
  · intro n b hb
    rcases List.mem_append.mp hb with hb | hb
    · obtain ⟨j, hj, hmem⟩ := hc.origin n b hb
      have hjk : j ≠ k := by
        rintro rfl
        rw [hk] at hj
        cases hj
      exact ⟨j, (hnew j n).mpr (Or.inr ⟨hjk, hj⟩), List.mem_append_left _ hmem⟩
    · obtain ⟨rfl, rfl⟩ := Prod.mk.inj (List.mem_singleton.mp hb)
      exact ⟨k, (hnew k _).mpr (Or.inl ⟨rfl, rfl⟩), by simp⟩
  · intro n b c hb hcm
    have hold : ∀ x, (n, x) ∈ d → n ≠ t.last + 1 := by
      intro x hx
      obtain ⟨j, hj, -⟩ := hc.origin n x hx
      exact hfresh j n hj
    rcases List.mem_append.mp hb with hb' | hb'
    · rcases List.mem_append.mp hcm with hc' | hc'
      · exact hc.once n b c hb' hc'
      · exact absurd (Prod.mk.inj (List.mem_singleton.mp hc')).1 (hold b hb')
    · rcases List.mem_append.mp hcm with hc' | hc'
      · exact absurd (Prod.mk.inj (List.mem_singleton.mp hb')).1 (hold c hc')
      · rw [(Prod.mk.inj (List.mem_singleton.mp hb')).2, (Prod.mk.inj (List.mem_singleton.mp hc')).2]

theorem Consistent.ask (hc : Consistent h t d) (k : κ) (a : α) :
    Consistent (h ++ [(k, a)]) (t.after k) (d ++ t.defines k a) := by
  unfold Names.after Names.defines
  cases hk : t.number k with
  | some n =>
    rw [List.append_nil]
    exact hc.again hk a
  | none => exact hc.fresh hk a

omit [DecidableEq κ] in
/-- Every number stands for what each of its askers had in mind exactly if the key decides the content. -/
theorem Consistent.stands_iff (hc : Consistent h t d) :
    (∀ k a n b, (k, a) ∈ h → t.number k = some n → (n, b) ∈ d → b = a) ↔
      ∀ k a b, (k, a) ∈ h → (k, b) ∈ h → a = b := by
  constructor
  · intro hall k a b ha hb
    obtain ⟨n, hn⟩ := Option.isSome_iff_exists.mp ((hc.known k).mpr ⟨a, ha⟩)
    obtain ⟨c, hcd⟩ := hc.defined k n hn
    exact (hall k a n c ha hn hcd).symm.trans (hall k b n c hb hn hcd)
  · intro hkey k a n b ha hn hb
    obtain ⟨j, hj, hmem⟩ := hc.origin n b hb
    obtain rfl := hc.injective j k n hj hn
    exact hkey j b a hmem ha

end RouteFlow.Naming
