import RouteFlow.Lib.Run

/-!
# Queues one behind the other

Items enter at the far end and move from queue to queue. On the way an item can get lost, but it cannot be
overtaken.
-/

namespace RouteFlow.Conveyor

universe u v w

variable {α : Type u}

/-- The queues, from the one that items leave to the one that they enter. -/
abbrev Belt (α : Type u) := List (List α)

/-- One step, and what entered in it. It loses something only if `L`. -/
inductive Move (L : Prop) : Belt α → Belt α → List α → Prop
  | stay {b} : Move L b b []
  | enter {q xs} : Move L [q] [q ++ xs] xs
  | advance {p ys q b} : Move L (p :: (ys ++ q) :: b) ((p ++ ys) :: q :: b) []
  | lose {p ys q b} : (ys ≠ [] → L) → Move L (p :: (ys ++ q) :: b) (p :: q :: b) []
  | behind {q b b' xs} : Move L b b' xs → Move L (q :: b) (q :: b') xs
  | trans {b b' b'' xs ys} : Move L b b' xs → Move L b' b'' ys → Move L b b'' (xs ++ ys)

variable {L : Prop} {b b' : Belt α} {xs : List α}

theorem Move.same (h : b' = b) : Move L b b' [] := h ▸ .stay

theorem Move.andThen {b'' : Belt α} (h : Move L b b' []) (h' : Move L b' b'' []) :
    Move L b b'' [] := h.trans h'

theorem Move.sublist (h : Move L b b' xs) : b'.flatten.Sublist (b.flatten ++ xs) := by
  induction h with
  | stay => simp
  | enter => simp
  | advance => simp
  | lose => simp
  | behind _ ih => simpa using ih
  | trans _ _ ih ih' =>
    rw [← List.append_assoc]
    exact ih'.trans (ih.append_right _)

theorem Move.flatten (h : Move L b b' xs) (hL : ¬L) : b'.flatten = b.flatten ++ xs := by
  induction h with
  | stay => simp
  | enter => simp
  | advance => simp
  | lose h =>
    have hys := not_not.mp fun hne => hL (h hne)
    simp [hys]
  | behind _ ih => simp [ih]
  | trans _ _ ih ih' => rw [ih', ih, List.append_assoc]

/-! Whoever looks at some of the items sees the head of a queue or does not. -/

theorem filterMap_cons {β : Type v} (f : β → Option α) (x : β) (l : List β) :
    (x :: l).filterMap f = (f x).toList ++ l.filterMap f := by
  cases h : f x <;> simp [h]

theorem filterMap_snoc {β : Type v} (f : β → Option α) (x : β) (l : List β) :
    (l ++ [x]).filterMap f = l.filterMap f ++ (f x).toList := by
  cases h : f x <;> simp [h]

section Runs

variable {σ : Type v} {ε : Type w} {step : σ → ε → σ} {view : σ → Belt α} {enters : ε → List α}
  {C L : σ → ε → Prop}
  {I : σ → Prop} {s : σ} (hI : ∀ s e, C s e → I s → I (step s e))
  (hmove : ∀ s e, C s e → I s → Move (L s e) (view s) (view (step s e)) (enters e)) (hs : I s)
  (hview : (view s).flatten = []) {es : List ε}
include hI hmove hs hview

end Runs

end RouteFlow.Conveyor
