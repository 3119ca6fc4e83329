import Mathlib.Logic.Relation
import RouteFlow.Lib.Rules

/-!
# Networks of rules

Nodes with prioritised rules, and cables between their ports. A packet is at a port of a node. The best
rules there say what is sent on, and the cables where that comes in.
-/

namespace RouteFlow.Wires

open Rules

structure Rule (π : Type) where
  applies : π → Prop
  prio : Nat
  sends : π → List (Nat × π)

/-- `enter q` puts a packet on the port `q`. -/
structure Net (ν π : Type) where
  rules : ν → List (Rule π)
  cable : ν → Nat → ν → Nat → Prop
  enter : Nat → π → π

namespace Net

variable {ν π : Type} (N : Net ν π)

/-- No rule that applies goes before this one. -/
def Rules (n : ν) (pkt : π) (r : Rule π) : Prop := Best (fun r => r.applies pkt) Rule.prio (N.rules n) r

/-- The packet that leaves `n` by the port `q` comes in as `b`. -/
def Crosses (n : ν) (q : Nat) (pkt : π) (b : ν × π) : Prop := ∃ q', N.cable n q b.1 q' ∧ b.2 = N.enter q' pkt

/-- The packet is sent out of the port `q`, as `pkt'`, and nothing else is sent. -/
def Hop (n : ν) (pkt : π) (q : Nat) (pkt' : π) : Prop :=
  (∃ r, N.Rules n pkt r) ∧ ∀ r, N.Rules n pkt r → r.sends pkt = [(q, pkt')]

def Step (a b : ν × π) : Prop := ∃ q pkt, N.Hop a.1 a.2 q pkt ∧ N.Crosses a.1 q pkt b

/-- The packet goes from node to node, and nowhere else. -/
def Travels : ν × π → ν × π → Prop := Relation.ReflTransGen N.Step

/-- Some copy of the packet leaves the network, by a port that has no cable. -/
inductive Emerges : ν × π → ν × π → Prop
  | out {n : ν} {pkt pkt' : π} {r : Rule π} {q : Nat} : N.Rules n pkt r → (q, pkt') ∈ r.sends pkt →
      (∀ b, ¬ N.Crosses n q pkt' b) → Emerges (n, pkt) (n, N.enter q pkt')
  | cross {n : ν} {pkt pkt' : π} {r : Rule π} {q : Nat} {b c : ν × π} : N.Rules n pkt r →
      (q, pkt') ∈ r.sends pkt → N.Crosses n q pkt' b → Emerges b c → Emerges (n, pkt) c

variable {N}

theorem hop_of_top {n : ν} {pkt pkt' : π} {q : Nat} {r : Rule π} (hr : r ∈ N.rules n) (ha : r.applies pkt)
    (hmax : ∀ s ∈ N.rules n, s.applies pkt → s.prio ≤ r.prio)
    (hsame : ∀ s ∈ N.rules n, s.applies pkt → r.prio ≤ s.prio → s.sends pkt = [(q, pkt')]) :
    N.Hop n pkt q pkt' :=
  ⟨⟨r, hr, ha, hmax⟩, fun s hs => hsame s hs.1 hs.2.1 (hs.2.2 r hr ha)⟩

theorem Hop.emerges {n : ν} {pkt pkt' : π} {q : Nat} (h : N.Hop n pkt q pkt')
    (hno : ∀ b, ¬ N.Crosses n q pkt' b) (c : ν × π) : N.Emerges (n, pkt) c ↔ c = (n, N.enter q pkt') := by
  obtain ⟨⟨r, hr⟩, hall⟩ := h
  constructor
  · intro he
    cases he with
    | out hs hm _ =>
      rw [hall _ hs, List.mem_singleton, Prod.mk.injEq] at hm
      rw [hm.1, hm.2]
    | cross hs hm hc _ =>
      rw [hall _ hs, List.mem_singleton, Prod.mk.injEq] at hm
      rw [hm.1, hm.2] at hc
      exact absurd hc (hno _)
  · rintro rfl
    exact .out hr (by rw [hall r hr]; exact List.mem_singleton_self _) hno

section Cables

variable (hcable : ∀ n q b q' c q'', N.cable n q b q' → N.cable n q c q'' → b = c ∧ q' = q'')

include hcable

/-- When each port has one cable at most, a packet that takes a step emerges where it does afterwards. -/
theorem Step.emerges {a b : ν × π} (h : N.Step a b) (c : ν × π) : N.Emerges a c ↔ N.Emerges b c := by
  obtain ⟨q, pkt, ⟨⟨r, hr⟩, hall⟩, q', hq', hb⟩ := h
  constructor
  · intro he
    cases he with
    | out hs hm hno =>
      rw [hall _ hs, List.mem_singleton, Prod.mk.injEq] at hm
      rw [hm.1, hm.2] at hno
      exact absurd ⟨q', hq', hb⟩ (hno b)
    | @cross _ _ _ s _ b' _ hs hm hc he =>
      rw [hall _ hs, List.mem_singleton, Prod.mk.injEq] at hm
      rw [hm.1, hm.2] at hc
      obtain ⟨q'', hq'', hb'⟩ := hc
      obtain ⟨h₁, h₂⟩ := hcable _ _ _ _ _ _ hq'' hq'
      have : b' = b := Prod.ext h₁ (by rw [hb', hb, h₂])
      rwa [this] at he
  · exact .cross hr (by rw [hall r hr]; exact List.mem_singleton_self _) ⟨q', hq', hb⟩

theorem Travels.emerges {a b : ν × π} (h : N.Travels a b) (c : ν × π) : N.Emerges a c ↔ N.Emerges b c := by
  induction h with
  | refl => rfl
  | tail _ hs ih => exact ih.trans (hs.emerges hcable c)

end Cables

end Net

end RouteFlow.Wires
