import Mathlib.Data.List.Nodup
import Mathlib.Logic.Function.Basic
import Mathlib.Tactic.TypeStar
import RouteFlow.Lib.Run

/-!
# Monitors

Data behind a mutex, with one condition variable. A method runs under the mutex: it completes, or it sleeps
until it is woken up and then starts over. Threads move one at a time, in any order, and a thread can wake up
without having been notified.
-/

namespace RouteFlow.Monitor

universe u v w x

/-- What a completed method leaves behind. It notifies after it gave the mutex back. -/
structure Outcome (σ : Type u) (ρ : Type v) where
  data : σ
  result : ρ
  notify : Bool

/-- Where a thread is in its call. -/
inductive Place (μ : Type w) where
  | outside
  | locking (m : μ)
  | locked (m : μ)
  | unlocking (notify : Bool)
  | notifying
  | asleep (m : μ)

structure Call (τ : Type x) (μ : Type w) (ρ : Type v) where
  thread : τ
  method : μ
  result : ρ
deriving DecidableEq

/-- `completed` is in the order in which the methods had the data for themselves. The code keeps no such
log. -/
structure State (σ : Type u) (τ : Type x) (μ : Type w) (ρ : Type v) where
  data : σ
  mutex : Option τ := none
  waiting : List τ := []
  place : τ → Place μ := fun _ => .outside
  completed : List (Call τ μ ρ) := []

inductive Event (τ : Type x) (μ : Type w) where
  | call (t : τ) (m : μ)
  -- `pick` says which of the waiting threads a notification is for.
  | move (t : τ) (pick : Nat)
  | spurious (t : τ)

variable {σ : Type u} {ρ : Type v} {μ : Type w} {τ : Type x} [DecidableEq τ]

namespace State

variable (s : State σ τ μ ρ)

def goto (t : τ) (p : Place μ) : State σ τ μ ρ := { s with place := Function.update s.place t p }

def wake (t : τ) : State σ τ μ ρ :=
  match s.place t with
  | .asleep m => { s.goto t (.locking m) with waiting := s.waiting.erase t }
  | _ => s

def wakeOne (pick : Nat) : State σ τ μ ρ :=
  match s.waiting[pick % s.waiting.length]? with
  | some t => s.wake t
  | none => s

end State

section Steps

variable (body : μ → σ → Option (Outcome σ ρ))

def move (s : State σ τ μ ρ) (t : τ) (pick : Nat) : State σ τ μ ρ :=
  match s.place t with
  | .outside => s
  | .locking m =>
    match s.mutex with
    | none => { s.goto t (.locked m) with mutex := some t }
    | some _ => s
  | .locked m =>
    match body m s.data with
    | some o =>
      { s.goto t (.unlocking o.notify) with
        data := o.data
        completed := s.completed ++ [⟨t, m, o.result⟩] }
    -- Going to sleep gives the mutex back in the same step.
    | none => { s.goto t (.asleep m) with mutex := none, waiting := s.waiting ++ [t] }
  | .unlocking notify => { s.goto t (if notify then .notifying else .outside) with mutex := none }
  | .notifying => (s.goto t .outside).wakeOne pick
  | .asleep _ => s

def step (s : State σ τ μ ρ) : Event τ μ → State σ τ μ ρ
  | .call t m =>
    match s.place t with
    | .outside => s.goto t (.locking m)
    | _ => s
  | .move t pick => move body s t pick
  | .spurious t => s.wake t

/-- What a step can change. -/
inductive Change (s : State σ τ μ ρ) : Event τ μ → State σ τ μ ρ → Prop
  | stay {e} : Change s e s
  | call {t m} : s.place t = .outside → Change s (.call t m) (s.goto t (.locking m))
  | lock {t m pick} : s.place t = .locking m → s.mutex = none →
    Change s (.move t pick) { s.goto t (.locked m) with mutex := some t }
  | complete {t m o pick} : s.place t = .locked m → body m s.data = some o →
    Change s (.move t pick) { s.goto t (.unlocking o.notify) with
      data := o.data
      completed := s.completed ++ [⟨t, m, o.result⟩] }
  | sleep {t m pick} : s.place t = .locked m → body m s.data = none →
    Change s (.move t pick) { s.goto t (.asleep m) with mutex := none, waiting := s.waiting ++ [t] }
  | unlock {t n pick} : s.place t = .unlocking n →
    Change s (.move t pick) { s.goto t (if n then .notifying else .outside) with mutex := none }
  | notifyNobody {t pick} : s.place t = .notifying → s.waiting = [] →
    Change s (.move t pick) (s.goto t .outside)
  | notify {t u m pick} : s.place t = .notifying → s.place u = .asleep m →
    Change s (.move t pick) { (s.goto t .outside).goto u (.locking m) with waiting := s.waiting.erase u }
  | spurious {u m} : s.place u = .asleep m →
    Change s (.spurious u) { s.goto u (.locking m) with waiting := s.waiting.erase u }

end Steps

/-! ## Mutual exclusion -/

def Place.Holds : Place μ → Prop
  | .locked _ | .unlocking _ => True
  | _ => False

/-- The calls, one after the other, take the data from `d` to `e` with these results. -/
inductive Serial (body : μ → σ → Option (Outcome σ ρ)) (d : σ) : List (Call τ μ ρ) → σ → Prop
  | start : Serial body d [] d
  | next {h e t m o} : Serial body d h e → body m e = some o → Serial body d (h ++ [⟨t, m, o.result⟩]) o.data

section Serial

variable {body : μ → σ → Option (Outcome σ ρ)} {d e : σ} {h h' : List (Call τ μ ρ)}

omit [DecidableEq τ]

theorem Serial.snoc {c : Call τ μ ρ} (hs : Serial body d (h ++ [c]) e) :
    ∃ x o, Serial body d h x ∧ body c.method x = some o ∧ c.result = o.result ∧ e = o.data := by
  generalize hl : h ++ [c] = l at hs
  cases hs with
  | start => simp at hl
  | next hs hb =>
    obtain ⟨rfl, hc⟩ := List.append_inj' hl rfl
    cases List.singleton_inj.mp hc
    exact ⟨_, _, hs, hb, rfl, rfl⟩

theorem Serial.split (hs : Serial body d (h ++ h') e) : ∃ x, Serial body d h x ∧ Serial body x h' e := by
  induction h' using List.reverseRecOn generalizing e with
  | nil => exact ⟨e, by simpa using hs, .start⟩
  | append_singleton h' c ih =>
    rw [← List.append_assoc] at hs
    obtain ⟨y, o, hy, hb, hr, rfl⟩ := hs.snoc
    obtain ⟨x, hx, hxy⟩ := ih hy
    refine ⟨x, hx, ?_⟩
    have := hxy.next (t := c.thread) hb
    rwa [← hr] at this

theorem Serial.keeps {P : σ → Prop} (hs : Serial body d h e) (hd : P d)
    (hP : ∀ c ∈ h, ∀ x o, P x → body c.method x = some o → P o.data) : P e := by
  induction hs with
  | start => exact hd
  | @next h x t m o _ hb ih =>
    exact hP ⟨t, m, o.result⟩ (by simp) x o (ih fun c hc => hP c (by simp [hc])) hb

end Serial

structure Sound (body : μ → σ → Option (Outcome σ ρ)) (d : σ) (s : State σ τ μ ρ) : Prop where
  mutex : ∀ t, s.mutex = some t ↔ (s.place t).Holds
  waiting : ∀ t, t ∈ s.waiting ↔ ∃ m, s.place t = .asleep m
  nodup : s.waiting.Nodup
  serial : Serial body d s.completed s.data

variable {body : μ → σ → Option (Outcome σ ρ)} {s s' : State σ τ μ ρ} {d : σ}

theorem wake_change {t u : τ} {m : μ} (hu : s.place u = .asleep m) (ht : t ≠ u) :
    (s.goto t .outside).wake u =
      { (s.goto t .outside).goto u (.locking m) with waiting := s.waiting.erase u } := by
  simp [State.wake, State.goto, Function.update_of_ne (Ne.symm ht), hu]

theorem step_cases (hs : Sound body d s) (e : Event τ μ) : Change body s e (step body s e) := by
  cases e with
  | call t m =>
    simp only [step]
    split
    · next h => exact .call h
    · exact .stay
  | spurious t =>
    simp only [step, State.wake]
    split
    · next m h => exact .spurious h
    · exact .stay
  | move t pick =>
    simp only [step, move]
    split
    · exact .stay
    · next m h =>
      split
      · next hm => exact .lock h hm
      · exact .stay
    · next m h =>
      split
      · next o hb => exact .complete h hb
      · next hb => exact .sleep h hb
    · next n h => exact .unlock h
    · next h =>
      unfold State.wakeOne
      simp only [State.goto]
      split
      · next u hu =>
        obtain ⟨m, hm⟩ := (hs.waiting u).mp (List.mem_of_getElem? hu)
        have hne : t ≠ u := by
          rintro rfl
          rw [h] at hm
          cases hm
        have := wake_change (s := s) hm hne
        rw [State.goto] at this
        rw [this]
        exact .notify h hm
      · next hnone =>
        refine .notifyNobody h (List.length_eq_zero_iff.mp ?_)
        rw [List.getElem?_eq_none_iff] at hnone
        by_contra hpos
        exact absurd (Nat.mod_lt pick (Nat.pos_of_ne_zero hpos)) (by omega)
    · exact .stay

section Preservation

variable (hs : Sound body d s) {t u : τ} {m : μ}
include hs

theorem Sound.lock (ht : s.place t = .locking m) (hm : s.mutex = none) :
    Sound body d { s.goto t (.locked m) with mutex := some t } := by
  refine ⟨fun u => ?_, fun u => ?_, hs.nodup, hs.serial⟩
  · by_cases hu : u = t
    · simp [hu, State.goto, Place.Holds]
    · have h := hs.mutex u
      simp only [hm, reduceCtorEq, false_iff] at h
      simp [State.goto, hu, Ne.symm hu, h]
  · by_cases hu : u = t
    · simp [hu, State.goto, hs.waiting, ht]
    · simp [State.goto, hu, hs.waiting]

theorem Sound.goto {p : Place μ} (h1 : ¬(s.place t).Holds) (h2 : ∀ m, s.place t ≠ .asleep m) (h3 : ¬p.Holds)
    (h4 : ∀ m, p ≠ .asleep m) : Sound body d (s.goto t p) := by
  refine ⟨fun u => ?_, fun u => ?_, hs.nodup, hs.serial⟩
  · by_cases hu : u = t
    · simp [hu, State.goto, hs.mutex, h1, h3]
    · simp [State.goto, hu, hs.mutex]
  · by_cases hu : u = t
    · simp [hu, State.goto, hs.waiting, h2, h4]
    · simp [State.goto, hu, hs.waiting]

theorem Sound.unlock {n : Bool} (ht : s.place t = .unlocking n) :
    Sound body d { s.goto t (if n then .notifying else .outside) with mutex := none } := by
  have hm : s.mutex = some t := (hs.mutex t).mpr (by simp [ht, Place.Holds])
  refine ⟨fun u => ?_, fun u => ?_, hs.nodup, hs.serial⟩
  · by_cases hu : u = t
    · cases n <;> simp [hu, State.goto, Place.Holds]
    · have h := hs.mutex u
      simp only [hm, Option.some.injEq, Ne.symm hu, false_iff] at h
      simp [State.goto, hu, h]
  · by_cases hu : u = t
    · cases n <;> simp [hu, State.goto, hs.waiting, ht]
    · simp [State.goto, hu, hs.waiting]

theorem Sound.complete {o : Outcome σ ρ} (ht : s.place t = .locked m) (hb : body m s.data = some o) :
    Sound body d { s.goto t (.unlocking o.notify) with
      data := o.data
      completed := s.completed ++ [⟨t, m, o.result⟩] } := by
  have hm : s.mutex = some t := (hs.mutex t).mpr (by simp [ht, Place.Holds])
  refine ⟨fun u => ?_, fun u => ?_, hs.nodup, .next hs.serial hb⟩
  · by_cases hu : u = t
    · simp [hu, State.goto, hm, Place.Holds]
    · simp [State.goto, hu, hs.mutex]
  · by_cases hu : u = t
    · simp [hu, State.goto, hs.waiting, ht]
    · simp [State.goto, hu, hs.waiting]

theorem Sound.sleep (ht : s.place t = .locked m) :
    Sound body d { s.goto t (.asleep m) with mutex := none, waiting := s.waiting ++ [t] } := by
  have hm : s.mutex = some t := (hs.mutex t).mpr (by simp [ht, Place.Holds])
  have hw : t ∉ s.waiting := by simp [hs.waiting, ht]
  refine ⟨fun u => ?_, fun u => ?_, ?_, hs.serial⟩
  · by_cases hu : u = t
    · simp [hu, State.goto, Place.Holds]
    · have h := hs.mutex u
      simp only [hm, Option.some.injEq, Ne.symm hu, false_iff] at h
      simp [State.goto, hu, h]
  · by_cases hu : u = t
    · simp [hu, State.goto]
    · simp [State.goto, hu, hs.waiting]
  · exact hs.nodup.append (List.nodup_singleton t) (by simpa using hw)

theorem Sound.wake (hu : s.place u = .asleep m) :
    Sound body d { s.goto u (.locking m) with waiting := s.waiting.erase u } := by
  refine ⟨fun v => ?_, fun v => ?_, hs.nodup.erase u, hs.serial⟩
  · by_cases hv : v = u
    · simp [hv, State.goto, hs.mutex, hu, Place.Holds]
    · simp [State.goto, hv, hs.mutex]
  · rw [hs.nodup.mem_erase_iff]
    by_cases hv : v = u
    · simp [hv, State.goto]
    · simp [State.goto, hv, hs.waiting]

theorem Change.sound {e : Event τ μ} (h : Change body s e s') : Sound body d s' := by
  cases h with
  | stay => exact hs
  | call ht => exact hs.goto (by simp [ht, Place.Holds]) (by simp [ht]) (by simp [Place.Holds]) (by simp)
  | lock ht hm => exact hs.lock ht hm
  | complete ht hb => exact hs.complete ht hb
  | sleep ht => exact hs.sleep ht
  | unlock ht => exact hs.unlock ht
  | notifyNobody ht =>
    exact hs.goto (by simp [ht, Place.Holds]) (by simp [ht]) (by simp [Place.Holds]) (by simp)
  | @notify t u m _ ht hu =>
    have hne : u ≠ t := by
      rintro rfl
      rw [ht] at hu
      cases hu
    have h := hs.goto (t := t) (p := .outside) (by simp [ht, Place.Holds]) (by simp [ht])
      (by simp [Place.Holds])
      (by simp)
    exact h.wake (by simpa [State.goto, hne] using hu)
  | spurious hu => exact hs.wake hu

end Preservation

theorem sound_step (hs : Sound body d s) (e : Event τ μ) : Sound body d (step body s e) :=
  (step_cases hs e).sound hs

omit [DecidableEq τ] in
theorem sound_start (d : σ) : Sound body d ({ data := d } : State σ τ μ ρ) where
  mutex := by simp [Place.Holds]
  waiting := by simp
  nodup := List.nodup_nil
  serial := .start

theorem sound_run (es : List (Event τ μ)) :
    Sound body d (Run.run (step body) ({ data := d } : State σ τ μ ρ) es) :=
  Run.invariant (I := Sound body d) (fun _ e _ hs => sound_step hs e) (sound_start d) (Run.along_true _ _ es)

/-! ## Rest -/

theorem wake_place (s : State σ τ μ ρ) (u : τ) {t : τ} (h : ∀ m, s.place t ≠ .asleep m) :
    (s.wake u).place t = s.place t := by
  unfold State.wake
  split
  · next m hu =>
    have hne : t ≠ u := by
      rintro rfl
      exact h m hu
    simp [State.goto, hne]
  · rfl

theorem wakeOne_place (s : State σ τ μ ρ) (pick : Nat) {t : τ} (h : ∀ m, s.place t ≠ .asleep m) :
    (s.wakeOne pick).place t = s.place t := by
  unfold State.wakeOne
  split
  · exact wake_place s _ h
  · rfl

/-- All threads are outside or asleep. -/
def AtRest (s : State σ τ μ ρ) : Prop := ∀ t, s.place t = .outside ∨ ∃ m, s.place t = .asleep m

theorem move_of_holds (s : State σ τ μ ρ) {t : τ} (h : (s.place t).Holds) (pick : Nat) :
    (move body s t pick).place t ≠ s.place t := by
  unfold move
  split <;> rename_i hp <;> simp only [hp, Place.Holds] at h ⊢
  · split <;> simp [State.goto]
  · next n => cases n <;> simp [State.goto]

theorem Sound.moves (hs : Sound body d s) (h : ¬AtRest s) :
    ∃ t, ∀ pick, (move body s t pick).place t ≠ s.place t := by
  simp only [AtRest, not_forall, not_or, not_exists] at h
  obtain ⟨t, ho, ha⟩ := h
  cases hm : s.mutex with
  | some u => exact ⟨u, fun pick => move_of_holds s ((hs.mutex u).mp hm) pick⟩
  | none =>
    refine ⟨t, fun pick => ?_⟩
    have ht : ¬(s.place t).Holds := by
      rw [← hs.mutex t, hm]
      simp
    unfold move
    split <;> rename_i hp <;> simp only [hp, Place.Holds, not_true_eq_false] at ht ⊢
    · exact absurd hp ho
    · simp [hm, State.goto]
    · rw [wakeOne_place _ _ (by simp [State.goto])]
      simp [State.goto]
    · exact absurd hp (ha _)

/-! ## Wakeups

Only one thread may sleep. Then a notification cannot go to the wrong one. -/

/-- The method may have to wait. -/
def CanSleep (body : μ → σ → Option (Outcome σ ρ)) (m : μ) : Prop := ∃ d, body m d = none

/-- Whoever ends what a sleeper waits for notifies. -/
def Notifies (body : μ → σ → Option (Outcome σ ρ)) : Prop :=
  ∀ m n d o, body m d = none → body n d = some o → body m o.data ≠ none → o.notify = true

/-- In a call of `m` that has not completed. -/
inductive Place.In (m : μ) : Place μ → Prop
  | locking : In m (.locking m)
  | locked : In m (.locked m)
  | asleep : In m (.asleep m)

def Place.Due (p : Place μ) : Prop := p = .unlocking true ∨ p = .notifying

/-- Only `c` sleeps. -/
structure Sole (body : μ → σ → Option (Outcome σ ρ)) (c : τ) (s : State σ τ μ ρ) : Prop where
  only : ∀ t m, (s.place t).In m → CanSleep body m → t = c
  sleeps : ∀ t m, s.place t = .asleep m → CanSleep body m

/-- If it could go on, somebody is about to wake it up. -/
structure Awake (body : μ → σ → Option (Outcome σ ρ)) (c : τ) (s : State σ τ μ ρ) :
    Prop extends Sole body c s where
  due : ∀ t m, s.place t = .asleep m → body m s.data ≠ none → ∃ u, (s.place u).Due

/-- Only threads in `C` call what can sleep. -/
def SleepsOnly (body : μ → σ → Option (Outcome σ ρ)) (C : τ → Prop) (_ : State σ τ μ ρ) : Event τ μ →
    Prop
  | .call t m => CanSleep body m → C t
  | _ => True

section Wakeups

variable {c t u : τ} {m : μ} {p : Place μ}

omit [DecidableEq τ] in
theorem Sole.asleep (h1 : Sole body c s) (h : s.place t = .asleep m) : t = c := by
  refine h1.only t m ?_ (h1.sleeps t m h)
  rw [h]
  exact .asleep

theorem Sole.goto (h1 : Sole body c s) (hin : ∀ m, p.In m → CanSleep body m → t = c)
    (hp : ∀ m, p = .asleep m → CanSleep body m) : Sole body c (s.goto t p) := by
  refine ⟨fun v n hv hc => ?_, fun v n hv => ?_⟩
  · by_cases hvt : v = t
    · subst hvt
      exact hin n (by simpa [State.goto] using hv) hc
    · exact h1.only v n (by simpa [State.goto, hvt] using hv) hc
  · by_cases hvt : v = t
    · subst hvt
      exact hp n (by simpa [State.goto] using hv)
    · exact h1.sleeps v n (by simpa [State.goto, hvt] using hv)

theorem Sole.leave (h1 : Sole body c s) : Sole body c (s.goto t .outside) := by
  refine h1.goto (fun m h => ?_) (by simp)
  cases h

theorem Sole.wake (h1 : Sole body c s) (hu : s.place u = .asleep m) :
    Awake body c { s.goto u (.locking m) with waiting := s.waiting.erase u } := by
  have hc := h1.asleep hu
  have h := h1.goto (t := u) (p := .locking m) (fun _ _ _ => hc) (by simp)
  refine ⟨⟨h.only, h.sleeps⟩, fun v n hv => absurd hv fun hv => ?_⟩
  by_cases hvu : v = u
  · simp [hvu, State.goto] at hv
  · exact hvu ((h.asleep hv).trans hc.symm)

variable (ha : Awake body c s)
include ha

theorem Awake.goto (hin : ∀ m, p.In m → CanSleep body m → t = c) (hp : ∀ m, p ≠ .asleep m)
    (hdue : (s.place t).Due → p.Due) : Awake body c (s.goto t p) := by
  refine ⟨ha.toSole.goto hin (fun m h => absurd h (hp m)), fun v n hv hb => ?_⟩
  have hvt : v ≠ t := by
    rintro rfl
    exact hp n (by simpa [State.goto] using hv)
  obtain ⟨w, hw⟩ := ha.due v n (by simpa [State.goto, hvt] using hv) hb
  by_cases hwt : w = t
  · subst hwt
    exact ⟨w, by simpa [State.goto] using hdue hw⟩
  · exact ⟨w, by simpa [State.goto, hwt] using hw⟩

theorem Awake.sleep (ht : s.place t = .locked m) (hb : body m s.data = none) :
    Awake body c { s.goto t (.asleep m) with mutex := none, waiting := s.waiting ++ [t] } := by
  have h := ha.toSole.goto (t := t) (p := .asleep m) ?_ ?_
  · refine ⟨⟨h.only, h.sleeps⟩, fun v n hv hd => ?_⟩
    by_cases hvt : v = t
    · subst hvt
      simp only [State.goto, Function.update_self, Place.asleep.injEq] at hv
      exact absurd (hv ▸ hb) hd
    · obtain ⟨w, hw⟩ := ha.due v n (by simpa [State.goto, hvt] using hv) hd
      refine ⟨w, ?_⟩
      have hwt : w ≠ t := by
        rintro rfl
        simp [ht, Place.Due] at hw
      simpa [State.goto, hwt] using hw
  · intro n hin hc
    cases hin
    exact ha.only t m (by rw [ht]; exact .locked) hc
  · rintro n ⟨⟩
    exact ⟨_, hb⟩

theorem Awake.complete {o : Outcome σ ρ} (hn : Notifies body) (ht : s.place t = .locked m)
    (hb : body m s.data = some o) :
    Awake body c { s.goto t (.unlocking o.notify) with
      data := o.data
      completed := s.completed ++ [⟨t, m, o.result⟩] } := by
  have h : Awake body c (s.goto t (.unlocking o.notify)) := by
    refine ha.goto (fun m h => ?_) (by simp) (by simp [ht, Place.Due])
    cases h
  refine ⟨⟨h.only, h.sleeps⟩, fun v n hv hd => ?_⟩
  by_cases hnone : body n s.data = none
  · exact ⟨t, by simp [State.goto, Place.Due, hn n m _ o hnone hb hd]⟩
  · exact h.due v n hv hnone

theorem Awake.step (hs : Sound body d s) (hn : Notifies body) {e : Event τ μ}
    (he : SleepsOnly body (· = c) s e) : Awake body c (step body s e) := by
  generalize hs' : Monitor.step body s e = s'
  have hch := hs' ▸ step_cases hs e
  cases hch with
  | stay => exact ha
  | call ht =>
    refine ha.goto (fun n hin hc => ?_) (by simp) (by simp [ht, Place.Due])
    cases hin
    exact he hc
  | @lock t m _ ht hm =>
    have h := ha.goto (t := t) (p := .locked m) (fun n hin hc => ?_) (by simp) (by simp [ht, Place.Due])
    · exact ⟨⟨h.only, h.sleeps⟩, h.due⟩
    · cases hin
      exact ha.only t m (by rw [ht]; exact .locking) hc
  | complete ht hb => exact ha.complete hn ht hb
  | sleep ht hb => exact ha.sleep ht hb
  | @unlock t n _ ht =>
    have h := ha.goto (t := t) (p := if n then .notifying else .outside) (fun m hin => ?_)
      (by cases n <;> simp)
      (by cases n <;> simp [ht, Place.Due])
    · exact ⟨⟨h.only, h.sleeps⟩, h.due⟩
    · cases n <;> cases hin
  | @notifyNobody t _ ht hw =>
    refine ⟨ha.toSole.leave, fun v n hv => ?_⟩
    have hvt : v ≠ t := by
      rintro rfl
      simp [State.goto] at hv
    have h := (hs.waiting v).mpr ⟨n, by simpa [State.goto, hvt] using hv⟩
    simp [hw] at h
  | @notify t u m _ ht hu =>
    have hne : u ≠ t := by
      rintro rfl
      rw [ht] at hu
      cases hu
    exact ha.toSole.leave.wake (by simpa [State.goto, hne] using hu)
  | spurious hu => exact ha.toSole.wake hu

end Wakeups

section Sole

variable (hn : Notifies body) {c : τ} {es : List (Event τ μ)}
  (he : Run.Along (step body) (SleepsOnly body (· = c)) ({ data := d } : State σ τ μ ρ) es)
include hn he

theorem awake_run : Awake body c (Run.run (step body) ({ data := d } : State σ τ μ ρ) es) := by
  have h := @Run.invariant _ _ (step body) _ (fun s : State σ τ μ ρ => Sound body d s ∧ Awake body c s)
    (fun s e hc h => ⟨sound_step h.1 e, h.2.step h.1 hn hc⟩) _ _
    ⟨sound_start d, ⟨fun _ _ h => (by cases h), fun _ _ h => (by cases h)⟩, fun _ _ h => (by cases h)⟩ he
  exact h.2

/-- No wakeup is lost: at rest, what a sleeper waits for has not happened. -/
theorem rest_of_sole (hrest : AtRest (Run.run (step body) ({ data := d } : State σ τ μ ρ) es)) {t : τ} {m : μ}
    (ht : (Run.run (step body) ({ data := d } : State σ τ μ ρ) es).place t = .asleep m) :
    body m (Run.run (step body) ({ data := d } : State σ τ μ ρ) es).data = none := by
  by_contra hready
  obtain ⟨u, hu⟩ := (awake_run hn he).due t m ht hready
  rcases hrest u with ho | ⟨n, ha⟩
  · simp [ho, Place.Due] at hu
  · simp [ha, Place.Due] at hu

end Sole

end RouteFlow.Monitor
