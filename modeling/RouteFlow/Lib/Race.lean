import Mathlib.Tactic.TypeStar

/-!
# Two threads that look and then act

Each thread reads the shared state once and writes it once, with what it read. A run ends as if one
thread had run after the other, unless both looked before either acted.
-/

namespace RouteFlow.Race

universe u v w

/-- A thread that looks at the state once, and acts on what it saw. -/
structure Thread (σ : Type u) (α : Type v) where
  look : σ → α
  act : α → σ → σ

def Thread.whole {σ : Type u} {α : Type v} (t : Thread σ α) (s : σ) : σ := t.act (t.look s) s

/-- Where such a thread is. -/
inductive Phase (α : Type v) where
  | fresh
  | looked (a : α)
  | done

variable {σ : Type u} {α : Type v} {β : Type w} (A : Thread σ α) (B : Thread σ β)

/-- A thread looks or acts, or does something that the other one cannot see. -/
inductive Step : σ → Phase α → Phase β → σ → Phase α → Phase β → Prop
  | stay {s p q} : Step s p q s p q
  | lookLeft {s q} : Step s .fresh q s (.looked (A.look s)) q
  | actLeft {s a q} : Step s (.looked a) q (A.act a s) .done q
  | lookRight {s p} : Step s p .fresh s p (.looked (B.look s))
  | actRight {s p b} : Step s p (.looked b) (B.act b s) p .done

/-- Who was done before the other looked. -/
inductive Winner where
  | undecided | left | right | neither
deriving DecidableEq

/-- Where a run from `s` can be. -/
inductive Course (s : σ) : Winner → σ → Phase α → Phase β → Prop
  | start : Course s .undecided s .fresh .fresh
  | leftLooked : Course s .undecided s (.looked (A.look s)) .fresh
  | rightLooked : Course s .undecided s .fresh (.looked (B.look s))
  | leftDone : Course s .left (A.whole s) .done .fresh
  | leftNext : Course s .left (A.whole s) .done (.looked (B.look (A.whole s)))
  | leftRight : Course s .left (B.whole (A.whole s)) .done .done
  | rightDone : Course s .right (B.whole s) .fresh .done
  | rightNext : Course s .right (B.whole s) (.looked (A.look (B.whole s))) .done
  | rightLeft : Course s .right (A.whole (B.whole s)) .done .done
  | crossed : Course s .neither s (.looked (A.look s)) (.looked (B.look s))
  | crossedLeft : Course s .neither (A.whole s) .done (.looked (B.look s))
  | crossedRight : Course s .neither (B.whole s) (.looked (A.look s)) .done
  | crossedLeftRight : Course s .neither (B.act (B.look s) (A.whole s)) .done .done
  | crossedRightLeft : Course s .neither (A.act (A.look s) (B.whole s)) .done .done

variable {A B} {s t t' : σ} {x : Winner} {p p' : Phase α} {q q' : Phase β}

theorem Course.step (h : Course A B s x t p q) (hs : Step A B t p q t' p' q') :
    ∃ y, Course A B s y t' p' q' ∧ (y = .left ↔ x = .left ∨ (p' = .done ∧ q' = .fresh)) ∧
      (y = .right ↔ x = .right ∨ (p' = .fresh ∧ q' = .done)) := by
  cases hs with
  | stay => exact ⟨x, h, by cases h <;> simp, by cases h <;> simp⟩
  | lookLeft =>
    cases h with
    | start => exact ⟨_, .leftLooked, by simp, by simp⟩
    | rightLooked => exact ⟨_, .crossed, by simp, by simp⟩
    | rightDone => exact ⟨_, .rightNext, by simp, by simp⟩
  | actLeft =>
    cases h with
    | leftLooked => exact ⟨_, .leftDone, by simp, by simp⟩
    | rightNext => exact ⟨_, .rightLeft, by simp, by simp⟩
    | crossed => exact ⟨_, .crossedLeft, by simp, by simp⟩
    | crossedRight => exact ⟨_, .crossedRightLeft, by simp, by simp⟩
  | lookRight =>
    cases h with
    | start => exact ⟨_, .rightLooked, by simp, by simp⟩
    | leftLooked => exact ⟨_, .crossed, by simp, by simp⟩
    | leftDone => exact ⟨_, .leftNext, by simp, by simp⟩
  | actRight =>
    cases h with
    | rightLooked => exact ⟨_, .rightDone, by simp, by simp⟩
    | leftNext => exact ⟨_, .leftRight, by simp, by simp⟩
    | crossed => exact ⟨_, .crossedRight, by simp, by simp⟩
    | crossedLeft => exact ⟨_, .crossedLeftRight, by simp, by simp⟩

theorem Course.eq_of_fresh (h : Course A B s x t p .fresh) : t = s ∨ t = A.whole s := by
  cases h with
  | start | leftLooked => exact Or.inl rfl
  | leftDone => exact Or.inr rfl

/-- The outcomes of a whole run. -/
theorem Course.outcome (h : Course A B s x t .done .done) :
    (x = .left ∧ t = B.whole (A.whole s)) ∨ (x = .right ∧ t = A.whole (B.whole s)) ∨
      (x = .neither ∧ (t = B.act (B.look s) (A.whole s) ∨ t = A.act (A.look s) (B.whole s))) := by
  cases h with
  | leftRight => exact Or.inl ⟨rfl, rfl⟩
  | rightLeft => exact Or.inr (Or.inl ⟨rfl, rfl⟩)
  | crossedLeftRight => exact Or.inr (Or.inr ⟨rfl, Or.inl rfl⟩)
  | crossedRightLeft => exact Or.inr (Or.inr ⟨rfl, Or.inr rfl⟩)

end RouteFlow.Race
