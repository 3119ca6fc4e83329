import RouteFlow.Lib.Network
import RouteFlow.Lib.Tables

/-!
# Networks of switches with tables

What a node may send is a relation here. So a switch can have tables: of the best rules of a table a packet
takes any, and the rule may send it on to another table.
-/

namespace RouteFlow.Wires

open Rules

/-! ## Tables -/

/-- How a switch reads its rules. -/
structure Reading (ρ π : Type) where
  applies : π → ρ → Prop
  prio : ρ → Nat
  table : ρ → Nat
  onward : ρ → Option Nat
  sends : ρ → π → List (Nat × π)

namespace Reading

variable {ρ π : Type} (R : Reading ρ π) (rules : List ρ) (pkt : π)

def Best (t : Nat) (r : ρ) : Prop := BestIn (R.applies pkt) R.prio R.table rules t r

/-- What may be sent for a packet that is in table `t`. -/
inductive Handles : Nat → List (Nat × π) → Prop
  | miss {t : Nat} (none_best : ∀ r, ¬ R.Best rules pkt t r) : Handles t []
  | last {t : Nat} {r : ρ} (best : R.Best rules pkt t r) (stops : R.onward r = none) :
    Handles t (R.sends r pkt)
  | goto {t t' : Nat} {r : ρ} {out : List (Nat × π)} (best : R.Best rules pkt t r)
    (goes : R.onward r = some t') (rest : Handles t' out) :
    Handles t (R.sends r pkt ++ out)

/-- This is sent, and nothing else. -/
def Sends (t : Nat) (out : List (Nat × π)) : Prop :=
  (∃ o, R.Handles rules pkt t o) ∧ ∀ o, R.Handles rules pkt t o → o = out

variable {R rules pkt} {P : ρ → Prop} {t : Nat} {out : List (Nat × π)}

theorem sends_of_best (hsome : ∃ r, R.Best rules pkt t r)
    (hall : ∀ r, R.Best rules pkt t r → R.onward r = none ∧ R.sends r pkt = out) :
    R.Sends rules pkt t out := by
  obtain ⟨r, hr⟩ := hsome
  refine ⟨⟨_, .last hr (hall r hr).1⟩, fun o ho => ?_⟩
  cases ho with
  | miss hnone => exact absurd hr (hnone r)
  | last hbest _ => exact (hall _ hbest).2
  | goto hbest hgoes _ =>
    rw [(hall _ hbest).1] at hgoes
    cases hgoes

/-- The rule sends the packet out, or to a table that does. -/
def Ends (R : Reading ρ π) (rules : List ρ) (pkt : π) (out : List (Nat × π)) (r : ρ) : Prop :=
  (R.onward r = none ∧ R.sends r pkt = out) ∨
    (R.sends r pkt = [] ∧ ∃ t, R.onward r = some t ∧ R.Sends rules pkt t out)

theorem sends_of_leads (h : Leads (R.applies pkt) R.prio R.table R.onward rules P t)
    (hquiet : ∀ r ∈ rules, (R.onward r).isSome → R.sends r pkt = [])
    (hends : ∀ t r, R.Best rules pkt t r → P r → R.Ends rules pkt out r) : R.Sends rules pkt t out := by
  induction h with
  | @step t hsome hgoes _ ih =>
    -- Every best rule ends the way or leads on to a table that sends `out`.
    have hall : ∀ r, R.Best rules pkt t r → R.Ends rules pkt out r := by
      intro r hr
      by_cases hP : P r
      · exact hends t r hr hP
      · have hon := hgoes r hr hP
        obtain ⟨t', ht'⟩ := Option.isSome_iff_exists.mp hon
        exact Or.inr ⟨hquiet r hr.1 hon, t', ht', ih r t' hr hP ht'⟩
    obtain ⟨r, hr⟩ := hsome
    constructor
    · rcases hall r hr with ⟨hstop, -⟩ | ⟨-, t', ht', ⟨o, ho⟩, -⟩
      · exact ⟨_, .last hr hstop⟩
      · exact ⟨_, .goto hr ht' ho⟩
    · intro o ho
      cases ho with
      | miss hnone => exact absurd hr (hnone r)
      | last hbest hstops =>
        rcases hall _ hbest with ⟨-, hout⟩ | ⟨-, t', ht', -⟩
        · exact hout
        · rw [hstops] at ht'
          cases ht'
      | goto hbest hgo hrest =>
        rcases hall _ hbest with ⟨hstop, -⟩ | ⟨hnil, t', ht', -, hout⟩
        · rw [hstop] at hgo
          cases hgo
        · obtain rfl := Option.some.inj (hgo.symm.trans ht')
          rw [hnil, List.nil_append, hout _ hrest]

end Reading

/-! ## Networks -/

/-- `enter q` puts a packet on the port `q`. -/
structure Fabric (ν π : Type) where
  sends : ν → π → List (Nat × π) → Prop
  cable : ν → Nat → ν → Nat → Prop
  enter : Nat → π → π

namespace Fabric

variable {ν π : Type} (F : Fabric ν π)

/-- The packet that leaves `n` by the port `q` comes in as `b`. -/
def Crosses (n : ν) (q : Nat) (pkt : π) (b : ν × π) : Prop := ∃ q', F.cable n q b.1 q' ∧ b.2 = F.enter q' pkt

/-- The packet is sent out of the port `q`, as `pkt'`, and nothing else is sent. -/
def Hop (n : ν) (pkt : π) (q : Nat) (pkt' : π) : Prop :=
  (∃ out, F.sends n pkt out) ∧ ∀ out, F.sends n pkt out → out = [(q, pkt')]

def Step (a b : ν × π) : Prop := ∃ q pkt, F.Hop a.1 a.2 q pkt ∧ F.Crosses a.1 q pkt b

/-- The packet goes from node to node, and nowhere else. -/
def Travels : ν × π → ν × π → Prop := Relation.ReflTransGen F.Step

/-- Some copy of the packet leaves the network, by a port that has no cable. -/
inductive Emerges : ν × π → ν × π → Prop
  | out {n : ν} {pkt pkt' : π} {sent : List (Nat × π)} {q : Nat} : F.sends n pkt sent → (q, pkt') ∈ sent →
      (∀ b, ¬ F.Crosses n q pkt' b) → Emerges (n, pkt) (n, F.enter q pkt')
  | cross {n : ν} {pkt pkt' : π} {sent : List (Nat × π)} {q : Nat} {b c : ν × π} : F.sends n pkt sent →
      (q, pkt') ∈ sent → F.Crosses n q pkt' b → Emerges b c → Emerges (n, pkt) c

variable {F}

theorem Hop.emerges {n : ν} {pkt pkt' : π} {q : Nat} (h : F.Hop n pkt q pkt')
    (hno : ∀ b, ¬ F.Crosses n q pkt' b) (c : ν × π) : F.Emerges (n, pkt) c ↔ c = (n, F.enter q pkt') := by
  obtain ⟨⟨sent, hsent⟩, hall⟩ := h
  constructor
  · intro he
    cases he with
    | out hs hm _ =>
      rw [hall _ hs, List.mem_singleton, Prod.mk.injEq] at hm
      rw [hm.1, hm.2]
    | cross hs hm hc _ =>
      rw [hall _ hs, List.mem_singleton, Prod.mk.injEq] at hm
      rw [hm.1, hm.2] at hc
      exact absurd hc (hno _)
  · rintro rfl
    exact .out hsent (by rw [hall sent hsent]; exact List.mem_singleton_self _) hno

section Cables

variable (hcable : ∀ n q b q' c q'', F.cable n q b q' → F.cable n q c q'' → b = c ∧ q' = q'')

include hcable

theorem Step.emerges {a b : ν × π} (h : F.Step a b) (c : ν × π) : F.Emerges a c ↔ F.Emerges b c := by
  obtain ⟨q, pkt, ⟨⟨sent, hsent⟩, hall⟩, q', hq', hb⟩ := h
  constructor
  · intro he
    cases he with
    | out hs hm hno =>
      rw [hall _ hs, List.mem_singleton, Prod.mk.injEq] at hm
      rw [hm.1, hm.2] at hno
      exact absurd ⟨q', hq', hb⟩ (hno b)
    | @cross _ _ _ _ _ b' _ hs hm hc he =>
      rw [hall _ hs, List.mem_singleton, Prod.mk.injEq] at hm
      rw [hm.1, hm.2] at hc
      obtain ⟨q'', hq'', hb'⟩ := hc
      obtain ⟨h₁, h₂⟩ := hcable _ _ _ _ _ _ hq'' hq'
      have : b' = b := Prod.ext h₁ (by rw [hb', hb, h₂])
      rwa [this] at he
  · exact .cross hsent (by rw [hall sent hsent]; exact List.mem_singleton_self _) ⟨q', hq', hb⟩

theorem Travels.emerges {a b : ν × π} (h : F.Travels a b) (c : ν × π) : F.Emerges a c ↔ F.Emerges b c := by
  induction h with
  | refl => rfl
  | tail _ hs ih => exact ih.trans (hs.emerges hcable c)

end Cables

end Fabric

/-- What a node with rules of one table sends. -/
def Net.Sends {ν π : Type} (N : Net ν π) (n : ν) (pkt : π) (out : List (Nat × π)) : Prop :=
  (∃ r, N.Rules n pkt r ∧ out = r.sends pkt) ∨ ((∀ r, ¬ N.Rules n pkt r) ∧ out = [])

theorem Fabric.hop_of_net {ν π : Type} {F : Fabric ν π} {N : Net ν π} {n : ν} (hn : F.sends n = N.Sends n)
    {pkt pkt' : π} {q : Nat} (h : N.Hop n pkt q pkt') : F.Hop n pkt q pkt' := by
  obtain ⟨⟨r, hr⟩, hall⟩ := h
  unfold Hop
  rw [hn]
  refine ⟨⟨_, Or.inl ⟨r, hr, rfl⟩⟩, fun out hout => ?_⟩
  rcases hout with ⟨s, hs, rfl⟩ | ⟨hnone, -⟩
  · exact hall s hs
  · exact absurd hr (hnone r)

end RouteFlow.Wires
