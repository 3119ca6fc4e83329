import Mathlib.Data.List.Induction

/-!
# Runs of a step function

A run is a list of events. Some properties talk about the states of a run, some about
the events and the states that meet them, and some about the history so far.
-/

namespace RouteFlow.Run

universe u v w

variable {σ : Type u} {ε : Type v} (step : σ → ε → σ)

/-- The state after the events. -/
def run (s : σ) (es : List ε) : σ := es.foldl step s

/-- Each event of the run meets `C` in the state it arrives in. -/
def Along (C : σ → ε → Prop) : σ → List ε → Prop
  | _, [] => True
  | s, e :: es => C s e ∧ Along C (step s e) es

instance decidableAlong (C : σ → ε → Prop) [∀ s e, Decidable (C s e)] : (s : σ) → (es : List ε) →
    Decidable (Along step C s es)
  | _, [] => isTrue trivial
  | s, e :: es => @instDecidableAnd _ _ _ (decidableAlong C (step s e) es)

/-- `P` holds in every state of the run, the first and the last included. -/
def Always (P : σ → Prop) : σ → List ε → Prop
  | s, [] => P s
  | s, e :: es => P s ∧ Always P (step s e) es

@[simp] theorem run_nil (s : σ) : run step s [] = s := rfl

@[simp] theorem run_cons (s : σ) (e : ε) (es : List ε) :
    run step s (e :: es) = run step (step s e) es := rfl

theorem run_append (s : σ) (es fs : List ε) : run step s (es ++ fs) = run step (run step s es) fs :=
  List.foldl_append

@[simp] theorem run_snoc (s : σ) (es : List ε) (e : ε) :
    run step s (es ++ [e]) = step (run step s es) e := run_append step s es [e]

theorem along_append (C : σ → ε → Prop) (s : σ) (es fs : List ε) :
    Along step C s (es ++ fs) ↔ Along step C s es ∧ Along step C (run step s es) fs := by
  induction es generalizing s with
  | nil => simp [Along]
  | cons e es ih => simp [Along, ih, and_assoc]

theorem along_true (s : σ) (es : List ε) : Along step (fun _ _ => True) s es := by
  induction es generalizing s with
  | nil => trivial
  | cons e es ih => exact ⟨trivial, ih _⟩

variable {step}

theorem Along.mono {C D : σ → ε → Prop} (h : ∀ s e, C s e → D s e) {s : σ} {es : List ε}
    (hc : Along step C s es) : Along step D s es := by
  induction es generalizing s with
  | nil => trivial
  | cons e es ih => exact ⟨h s e hc.1, ih hc.2⟩

/-- The invariant rule: what holds at the start and survives each event holds at the end. -/
theorem invariant {C : σ → ε → Prop} {I : σ → Prop} (hstep : ∀ s e, C s e → I s → I (step s e))
    {s : σ} {es : List ε} (hs : I s) (hc : Along step C s es) : I (run step s es) := by
  induction es generalizing s with
  | nil => exact hs
  | cons e es ih => exact ih (hstep s e hc.1 hs) hc.2

theorem always_of_invariant {C : σ → ε → Prop} {I P : σ → Prop}
    (hstep : ∀ s e, C s e → I s → I (step s e)) (hP : ∀ s, I s → P s) {s : σ} {es : List ε} (hs : I s)
    (hc : Along step C s es) : Always step P s es := by
  induction es generalizing s with
  | nil => exact hP s hs
  | cons e es ih => exact ⟨hP s hs, ih (hstep s e hc.1 hs) hc.2⟩

theorem Always.last {P : σ → Prop} {s : σ} {es : List ε} (h : Always step P s es) : P (run step s es) := by
  induction es generalizing s with
  | nil => exact h
  | cons e es ih => exact ih h.2

/-- What each event meets, given what holds when it arrives. -/
theorem Along.of_invariant {C D : σ → ε → Prop} {I : σ → Prop}
    (hstep : ∀ s e, C s e → I s → I (step s e)) (hD : ∀ s e, C s e → I s → D s e) {s : σ} {es : List ε}
    (hs : I s) (hc : Along step C s es) :
    Along step D s es := by
  induction es generalizing s with
  | nil => trivial
  | cons e es ih => exact ⟨hD s e hc.1 hs, ih (hstep s e hc.1 hs) hc.2⟩

/-- The same for a property of the state and the history that led to it. -/
theorem history_invariant {C : σ → ε → Prop} {I : List ε → σ → Prop} {s : σ} (hs : I [] s)
    (hstep : ∀ es t e, C t e → I es t → I (es ++ [e]) (step t e)) (es : List ε)
    (hc : Along step C s es) : I es (run step s es) := by
  induction es using List.reverseRecOn with
  | nil => exact hs
  | append_singleton es e ih =>
    rw [along_append] at hc
    rw [run_snoc]
    exact hstep es _ e hc.2.1 (ih hc.1)

/-- When each event keeps `P` exactly if it meets `C`, a run keeps `P` throughout exactly if all of
its events meet `C`. `I` is what the events keep in any case. -/
theorem always_iff_along {C : σ → ε → Prop} {I P : σ → Prop} (hI : ∀ s e, I s → I (step s e))
    (hstep : ∀ s e, I s → P s → (P (step s e) ↔ C s e)) {s : σ} (hi : I s) (hs : P s) (es : List ε) :
    Always step P s es ↔ Along step C s es := by
  induction es generalizing s with
  | nil => simp [Always, Along, hs]
  | cons e es ih =>
    simp only [Always, Along, hs, true_and]
    constructor
    · intro h
      have hp : P (step s e) := by
        cases es with
        | nil => exact h
        | cons _ _ => exact h.1
      exact ⟨(hstep s e hi hs).mp hp, (ih (hI s e hi) hp).mp h⟩
    · rintro ⟨hc, h⟩
      have hp := (hstep s e hi hs).mpr hc
      exact (ih (hI s e hi) hp).mpr h

/-! ## Conditions on the history -/

/-- Each event meets `C`, given the events before it. -/
def Throughout (C : List ε → ε → Prop) (h : List ε) : Prop :=
  ∀ before e after, h = before ++ e :: after → C before e

theorem Throughout.snoc {C : List ε → ε → Prop} {h : List ε} {e : ε} (hc : Throughout C (h ++ [e])) :
    Throughout C h ∧ C h e := by
  constructor
  · rintro before x after rfl
    exact hc before x (after ++ [e]) (by simp)
  · exact hc h e [] rfl

theorem Throughout.push {C : List ε → ε → Prop} {h : List ε} {e : ε} (hc : Throughout C h) (he : C h e) :
    Throughout C (h ++ [e]) := by
  intro before x after heq
  rcases List.eq_nil_or_concat after with rfl | ⟨after', y, rfl⟩
  · obtain ⟨hh, hx⟩ := List.append_inj' heq rfl
    rw [← hh, ← List.singleton_inj.mp hx]
    exact he
  · have heq' : h ++ [e] = (before ++ x :: after') ++ [y] := by simpa using heq
    exact hc before x after' (List.append_inj' heq' rfl).1

theorem Throughout.append {C : List ε → ε → Prop} {h more : List ε} (hc : Throughout C h)
    (hm : ∀ e ∈ more, ∀ before, C before e) : Throughout C (h ++ more) := by
  induction more using List.reverseRecOn with
  | nil => simpa using hc
  | append_singleton more e ih =>
    rw [← List.append_assoc]
    exact (ih fun x hx => hm x (by simp [hx])).push (hm e (by simp) _)

theorem Throughout.induction {C : List ε → ε → Prop} {I : List ε → Prop} (h0 : I [])
    (hstep : ∀ h e, Throughout C h → C h e → I h → I (h ++ [e])) (h : List ε) (hc : Throughout C h) :
    I h := by
  induction h using List.reverseRecOn with
  | nil => exact h0
  | append_singleton h e ih =>
    obtain ⟨hh, he⟩ := hc.snoc
    exact hstep h e hh he (ih hh)

/-! ## Since -/

/-- Some event of the history is `on`, and none after it is `off`. -/
def Since (on off : ε → Prop) (h : List ε) : Prop :=
  ∃ before e after, h = before ++ e :: after ∧ on e ∧ ∀ x ∈ after, ¬ off x

variable {on off : ε → Prop}

@[simp] theorem not_since_nil : ¬ Since on off ([] : List ε) := by
  rintro ⟨before, e, after, h, -⟩
  simp at h

theorem since_snoc (h : List ε) (e : ε) :
    Since on off (h ++ [e]) ↔ on e ∨ (Since on off h ∧ ¬ off e) := by
  constructor
  · rintro ⟨before, x, after, heq, hx, hafter⟩
    rcases List.eq_nil_or_concat after with rfl | ⟨after', y, rfl⟩
    · obtain ⟨_, he⟩ := List.append_inj' heq rfl
      exact Or.inl (by rw [List.singleton_inj.mp he]; exact hx)
    · have heq' : h ++ [e] = (before ++ x :: after') ++ [y] := by simpa using heq
      obtain ⟨hh, he⟩ := List.append_inj' heq' rfl
      rw [List.singleton_inj.mp he]
      exact Or.inr ⟨⟨before, x, after', hh, hx, fun z hz => hafter z (by simp [hz])⟩, hafter y (by simp)⟩
  · rintro (he | ⟨⟨before, x, after, rfl, hx, hafter⟩, he⟩)
    · exact ⟨h, e, [], rfl, he, by simp⟩
    · refine ⟨before, x, after ++ [e], by simp, hx, ?_⟩
      intro z hz
      rcases List.mem_append.mp hz with hz | hz
      · exact hafter z hz
      · rw [List.mem_singleton.mp hz]; exact he

theorem Since.asymm {on' : ε → Prop} (hsub : ∀ e, on e → on' e)
    (hdisj : ∀ e, on e → ¬ off e) {h : List ε} (hon : Since on off h) : ¬ Since off on' h := by
  induction h using List.reverseRecOn with
  | nil => exact absurd hon not_since_nil
  | append_singleton h e ih =>
    rw [since_snoc] at hon ⊢
    rintro (he | ⟨hoff, he⟩)
    · rcases hon with hon | ⟨-, hno⟩
      · exact hdisj e hon he
      · exact hno he
    · rcases hon with hon | ⟨hon, -⟩
      · exact he (hsub e hon)
      · exact ih hon hoff

theorem since_filterMap {β : Type w} {f : ε → Option β} {on' off' : β → Prop}
    (hon : ∀ e, on e ↔ ∃ y ∈ f e, on' y) (hoff : ∀ e, off e ↔ ∃ y ∈ f e, off' y) (h : List ε) :
    Since on off h ↔ Since on' off' (h.filterMap f) := by
  induction h using List.reverseRecOn with
  | nil => simp
  | append_singleton h e ih =>
    rw [since_snoc, List.filterMap_append, ih, hon, hoff]
    cases hf : f e with
    | none => simp [hf]
    | some y => simp [hf, since_snoc]

end RouteFlow.Run
