import Mathlib.Tactic

/-!
# Rules with priorities

Which rules apply is a predicate. Of those that apply, the ones with the highest priority count.
-/

namespace RouteFlow.Rules

variable {ρ α : Type}

/-- `r` applies, and no rule that applies has a higher priority. -/
def Best (applies : ρ → Prop) (prio : ρ → Nat) (rules : List ρ) (r : ρ) : Prop :=
  r ∈ rules ∧ applies r ∧ ∀ q ∈ rules, applies q → prio q ≤ prio r

/-- When the rules that apply are made from the good ones of `as`, and their priorities compare as
`len` does, the best rules are made from the best of `as`. -/
theorem best_image {applies : ρ → Prop} {prio : ρ → Nat} {rules : List ρ} {good : α → Prop}
    {len : α → Nat} {as : List α} {make : α → ρ}
    (hmem : ∀ q, (q ∈ rules ∧ applies q) ↔ ∃ a ∈ as, good a ∧ q = make a)
    (hprio : ∀ a b, prio (make a) ≤ prio (make b) ↔ len a ≤ len b) (q : ρ) :
    Best applies prio rules q ↔ ∃ a, Best good len as a ∧ q = make a := by
  constructor
  · rintro ⟨hq, happ, hmax⟩
    obtain ⟨a, ha, hgood, rfl⟩ := (hmem q).mp ⟨hq, happ⟩
    refine ⟨a, ⟨ha, hgood, fun b hb hgb => ?_⟩, rfl⟩
    obtain ⟨hbr, hba⟩ := (hmem (make b)).mpr ⟨b, hb, hgb, rfl⟩
    exact (hprio b a).mp (hmax _ hbr hba)
  · rintro ⟨a, ⟨ha, hgood, hmax⟩, rfl⟩
    obtain ⟨har, haa⟩ := (hmem (make a)).mpr ⟨a, ha, hgood, rfl⟩
    refine ⟨har, haa, fun q hq happ => ?_⟩
    obtain ⟨b, hb, hgb, rfl⟩ := (hmem q).mp ⟨hq, happ⟩
    exact (hprio b a).mpr (hmax b hb hgb)

end RouteFlow.Rules
