import Mathlib.Tactic

/-!
# Streams that are read in pieces

A read returns what it is asked for or less. How much less is not up to the reader, but it is something as
long as there is anything left.
-/

namespace RouteFlow

/-- What is still to come, and how much the next reads return at most. -/
structure Source (β : Type) where
  incoming : List β
  sizes : List Nat

namespace Source

variable {β : Type}

def chunk (s : Source β) (n : Nat) : Nat := min n (max 1 (s.sizes.headD n))

/-- What one call of `read` returns, and the rest. -/
def read (s : Source β) (n : Nat) : List β × Source β :=
  (s.incoming.take (s.chunk n), ⟨s.incoming.drop (s.chunk n), s.sizes.tail⟩)

variable (s : Source β) (n : Nat)

theorem chunk_le : s.chunk n ≤ n := min_le_left _ _

theorem chunk_pos (hn : 0 < n) : 0 < s.chunk n := lt_min hn (lt_max_of_lt_left Nat.one_pos)

theorem read_append : (s.read n).1 ++ (s.read n).2.incoming = s.incoming := List.take_append_drop _ _

theorem length_read_le : (s.read n).1.length ≤ n := by
  have h := s.chunk_le n
  simp only [read, List.length_take]
  omega

theorem read_eq_nil (hn : 0 < n) : (s.read n).1 = [] ↔ s.incoming = [] := by
  have h := s.chunk_pos n hn
  simp only [read, List.take_eq_nil_iff]
  constructor
  · rintro (h0 | hnil)
    · omega
    · exact hnil
  · exact Or.inr

theorem length_read_lt (h : (s.read n).1 ≠ []) : (s.read n).2.incoming.length < s.incoming.length := by
  have hpos : 0 < (s.read n).1.length := List.length_pos_iff.mpr h
  rw [← s.read_append n, List.length_append]
  omega

end Source

end RouteFlow
