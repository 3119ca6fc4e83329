import Mathlib.Data.List.AList

/-!
# Handles under keys

A party keeps handles under keys. It gets each one from a pool that it shares with others, and gives it back
under the same number. A ledger has what it got and gave back.
-/

namespace RouteFlow.Handles

/-- The handles that are open: those of the party, and those of all others. -/
structure Pool where
  ours : List Nat
  theirs : List Nat
deriving DecidableEq

namespace Pool

def Free (p : Pool) (n : Nat) : Prop := n ∉ p.ours ∧ n ∉ p.theirs

instance (p : Pool) (n : Nat) : Decidable (p.Free n) := inferInstanceAs (Decidable (_ ∧ _))

def take (p : Pool) (n : Nat) : Pool := { p with ours := n :: p.ours }

/-- The pool does not know who gives a handle back. -/
def close (p : Pool) (n : Nat) : Pool := ⟨p.ours.erase n, p.theirs.erase n⟩

@[simp] theorem take_theirs (p : Pool) (n : Nat) : (p.take n).theirs = p.theirs := rfl

theorem take_close {p : Pool} {n : Nat} (h : p.Free n) : (p.take n).close n = p := by
  obtain ⟨ours, theirs⟩ := p
  have hfree : n ∉ theirs := h.2
  simp [take, close, List.erase_of_not_mem hfree]

end Pool

variable {κ : Type} [DecidableEq κ]

/-- Our open handles are those under the keys, each under one key, and no other party has one of them. -/
structure Kept (m : AList fun _ : κ => Nat) (p : Pool) : Prop where
  mem_ours : ∀ n, n ∈ p.ours ↔ ∃ k, m.lookup k = some n
  inj : ∀ k k' n, m.lookup k = some n → m.lookup k' = some n → k = k'
  nodup : p.ours.Nodup
  apart : ∀ n ∈ p.ours, n ∉ p.theirs

namespace Kept

theorem empty (theirs : List Nat) : Kept (∅ : AList fun _ : κ => Nat) ⟨[], theirs⟩ :=
  ⟨by simp, by simp, List.nodup_nil, by simp⟩

variable {m : AList fun _ : κ => Nat} {p : Pool}

theorem take (h : Kept m p) {k : κ} (hk : k ∉ m) {n : Nat} (hn : p.Free n) :
    Kept (m.insert k n) (p.take n) := by
  have hold : ∀ k', m.lookup k' ≠ some n := fun k' hk' => hn.1 ((h.mem_ours n).mpr ⟨k', hk'⟩)
  have hlookup : ∀ k' x, (m.insert k n).lookup k' = some x ↔ (k' = k ∧ x = n) ∨ m.lookup k' = some x := by
    intro k' x
    by_cases heq : k' = k
    · subst heq
      simp [AList.lookup_insert, AList.lookup_eq_none.mpr hk, eq_comm]
    · simp [AList.lookup_insert_ne heq, heq]
  refine ⟨?_, ?_, List.nodup_cons.mpr ⟨hn.1, h.nodup⟩, ?_⟩
  · intro x
    simp only [Pool.take, List.mem_cons, h.mem_ours x, hlookup]
    constructor
    · rintro (rfl | ⟨k', hk'⟩)
      · exact ⟨k, Or.inl ⟨rfl, rfl⟩⟩
      · exact ⟨k', Or.inr hk'⟩
    · rintro ⟨k', ⟨-, rfl⟩ | hk'⟩
      · exact Or.inl rfl
      · exact Or.inr ⟨k', hk'⟩
  · intro a b x ha hb
    rcases (hlookup a x).mp ha with ⟨rfl, rfl⟩ | ha'
    · rcases (hlookup b x).mp hb with ⟨rfl, -⟩ | hb'
      · rfl
      · exact absurd hb' (hold b)
    · rcases (hlookup b x).mp hb with ⟨-, rfl⟩ | hb'
      · exact absurd ha' (hold a)
      · exact h.inj a b x ha' hb'
  · intro x hx
    rcases List.mem_cons.mp hx with rfl | hx
    · exact hn.2
    · exact h.apart x hx

theorem close (h : Kept m p) {k : κ} {n : Nat} (hk : m.lookup k = some n) : Kept (m.erase k) (p.close n) := by
  have hlookup : ∀ k' x, (m.erase k).lookup k' = some x ↔ k' ≠ k ∧ m.lookup k' = some x := by
    intro k' x
    by_cases heq : k' = k
    · subst heq
      simp [AList.lookup_erase]
    · simp [AList.lookup_erase_ne heq, heq]
  refine ⟨?_, ?_, h.nodup.erase n, ?_⟩
  · intro x
    simp only [Pool.close, h.nodup.mem_erase_iff, h.mem_ours x, hlookup]
    constructor
    · rintro ⟨hne, k', hk'⟩
      refine ⟨k', ?_, hk'⟩
      rintro rfl
      exact hne (Option.some.inj (hk'.symm.trans hk))
    · rintro ⟨k', hne, hk'⟩
      refine ⟨?_, k', hk'⟩
      rintro rfl
      exact hne (h.inj k' k x hk' hk)
  · intro a b x ha hb
    exact h.inj a b x ((hlookup a x).mp ha).2 ((hlookup b x).mp hb).2
  · intro x hx
    exact fun hx' => h.apart x (List.mem_of_mem_erase hx) (List.mem_of_mem_erase hx')

theorem close_theirs (h : Kept m p) {k : κ} {n : Nat} (hk : m.lookup k = some n) :
    (p.close n).theirs = p.theirs :=
  List.erase_of_not_mem (h.apart n ((h.mem_ours n).mpr ⟨k, hk⟩))

theorem elsewhere (h : Kept m p) {theirs : List Nat} (ht : ∀ n ∈ theirs, n ∉ p.ours) :
    Kept m { p with theirs := theirs } :=
  ⟨h.mem_ours, h.inj, h.nodup, fun n hn hn' => ht n hn' hn⟩

end Kept

/-! ## The ledger -/

inductive Posting (κ : Type) where
  | opened (k : κ) | closed (k : κ)
deriving DecidableEq

/-- Each handle that was got under `k` was given back, but for the one that is kept. -/
def Balanced (m : AList fun _ : κ => Nat) (ledger : List (Posting κ)) : Prop :=
  ∀ k, ledger.count (.opened k) = ledger.count (.closed k) + if k ∈ m then 1 else 0

namespace Balanced

theorem empty : Balanced (∅ : AList fun _ : κ => Nat) [] := by
  intro k
  simp [AList.notMem_empty]

variable {m : AList fun _ : κ => Nat} {ledger : List (Posting κ)}

theorem take (h : Balanced m ledger) {k : κ} (hk : k ∉ m) (n : Nat) :
    Balanced (m.insert k n) (ledger ++ [.opened k]) := by
  intro k'
  have hold := h k'
  by_cases heq : k' = k
  · subst heq
    rw [if_neg hk] at hold
    simp [List.count_append, hold]
  · have hne : ¬ k = k' := fun e => heq e.symm
    simp [List.count_append, hold, heq, hne]

theorem close (h : Balanced m ledger) {k : κ} (hk : k ∈ m) :
    Balanced (m.erase k) (ledger ++ [.closed k]) := by
  intro k'
  have hold := h k'
  by_cases heq : k' = k
  · subst heq
    rw [if_pos hk] at hold
    simp [List.count_append, hold]
  · have hne : ¬ k = k' := fun e => heq e.symm
    simp [List.count_append, hold, heq, hne]

end Balanced

end RouteFlow.Handles
