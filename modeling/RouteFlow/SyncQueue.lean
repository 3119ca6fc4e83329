import RouteFlow.Lib.Monitor

/-!
# The queues between the threads of a client

`SyncQueue` is a monitor around a list. Its `push` notifies only when the list was empty, and it notifies one
thread: nobody is left behind as long as a single thread waits.
-/

namespace RouteFlow.SyncQueue

open Monitor

variable {T : Type}

inductive Method (T : Type) where
  | empty | size | front | back
  | push (t : T)
  | pop
  | waitAndPop
deriving DecidableEq

inductive Reply (T : Type) where
  | nothing
  | flag (b : Bool)
  | number (n : Nat)
  | item (o : Option T)
deriving DecidableEq

/-- `pop` returns nothing: that what it removed is in the reply is for the log. -/
def body : Method T → List T → Option (Outcome (List T) (Reply T))
  | .empty, queue => some ⟨queue, .flag queue.isEmpty, false⟩
  | .size, queue => some ⟨queue, .number queue.length, false⟩
  | .front, queue => some ⟨queue, .item queue.head?, false⟩
  | .back, queue => some ⟨queue, .item queue.getLast?, false⟩
  | .push t, queue => some ⟨queue ++ [t], .nothing, queue.isEmpty⟩
  -- `pop_front` of an empty list is undefined.
  | .pop, queue => some ⟨queue.tail, .item queue.head?, false⟩
  | .waitAndPop, [] => none
  | .waitAndPop, t :: queue => some ⟨queue, .item (some t), false⟩

abbrev Queue (T : Type) := State (List T) Nat (Method T) (Reply T)

def run (es : List (Event Nat (Method T))) : Queue T := Run.run (step body) { data := [] } es

/-! ## First in, first out -/

def Method.Removes : Method T → Prop
  | .pop | .waitAndPop => True
  | _ => False

def Method.pushes : Method T → Option T
  | .push t => some t
  | _ => none

def removes : Method T → Reply T → Option T
  | .pop, .item o => o
  | .waitAndPop, .item o => o
  | _, _ => none

abbrev Log (T : Type) := List (Call Nat (Method T) (Reply T))

def pushed (log : Log T) : List T := log.filterMap fun c => c.method.pushes

def removed (log : Log T) : List T := log.filterMap fun c => removes c.method c.result

@[simp] theorem pushed_snoc (log : Log T) (c : Call Nat (Method T) (Reply T)) :
    pushed (log ++ [c]) = pushed log ++ c.method.pushes.toList := by
  cases h : c.method.pushes <;> simp [pushed, List.filterMap_append, h]

@[simp] theorem removed_snoc (log : Log T) (c : Call Nat (Method T) (Reply T)) :
    removed (log ++ [c]) = removed log ++ (removes c.method c.result).toList := by
  cases h : removes c.method c.result <;> simp [removed, List.filterMap_append, h]

theorem body_fifo {m : Method T} {queue : List T} {o : Outcome (List T) (Reply T)}
    (h : body m queue = some o) :
    queue ++ m.pushes.toList = (removes m o.result).toList ++ o.data := by
  cases m <;> cases queue <;> simp_all [body, Method.pushes, removes] <;> subst h <;> simp

theorem serial_fifo {log : Log T} {queue : List T} (h : Serial body [] log queue) :
    pushed log = removed log ++ queue := by
  induction h with
  | start => rfl
  | next _ hb ih => rw [pushed_snoc, removed_snoc, ih, List.append_assoc, body_fifo hb, List.append_assoc]

/-! ## Looking, then popping -/

theorem body_head {m : Method T} {x : T} {queue : List T} {o : Outcome (List T) (Reply T)}
    (h : body m (x :: queue) = some o) (hm : ¬m.Removes) : o.data.head? = some x := by
  cases m <;> simp_all [body, Method.Removes] <;> subst h <;> simp

/-- `front` and `pop` lock separately. What others push in between does not matter. -/
theorem pop_removes_front (es : List (Event Nat (Method T))) (c : Nat)
    (honly : ∀ call ∈ (run es).completed, call.method.Removes → call.thread = c)
    {before between after : Log T} {x : T} {r : Reply T}
    (hlog : (run es).completed =
      before ++ ⟨c, .front, .item (some x)⟩ :: between ++ ⟨c, .pop, r⟩ :: after)
    (hbetween : ∀ call ∈ between, call.thread ≠ c) : r = .item (some x) := by
  have hs := (@sound_run _ _ _ _ _ body [] es).serial
  change Serial body [] (run es).completed _ at hs
  have hassoc : (run es).completed =
      (((before ++ [⟨c, .front, .item (some x)⟩]) ++ between) ++ [⟨c, .pop, r⟩]) ++ after := by simp [hlog]
  rw [hassoc] at hs
  obtain ⟨_, hs, _⟩ := hs.split
  obtain ⟨_, o, hs, hpop, hr, _⟩ := hs.snoc
  obtain ⟨_, hs, hmid⟩ := hs.split
  obtain ⟨queue, o', _, hfront, hx, rfl⟩ := hs.snoc
  simp only [body, Option.some.injEq] at hpop hfront
  subst hpop hfront
  simp only [Reply.item.injEq] at hx
  have hkept := hmid.keeps (P := fun queue => queue.head? = some x) hx.symm (by
    intro call hcall queue o hhead hb
    obtain ⟨rest, rfl⟩ := List.head?_eq_some_iff.mp hhead
    refine body_head hb fun hm => hbetween call hcall (honly call ?_ hm)
    simp [hlog, hcall])
  simpa [hkept] using hr

theorem pop_removes_front_seven : ∃ r, (run (T := Nat)
    [.call 1 (.push 7), .move 1 0, .move 1 0, .move 1 0, .move 1 0, .call 0 .front, .move 0 0,
      .move 0 0, .move 0 0, .call 1 (.push 8), .move 1 0, .move 1 0, .move 1 0, .call 0 .pop, .move 0 0,
        .move 0 0, .move 0 0]).completed =
      [⟨1, .push 7, .nothing⟩] ++ ⟨0, .front, .item (some 7)⟩ :: [⟨1, .push 8, .nothing⟩] ++
        ⟨0, .pop, r⟩ :: [] ∧
    r = .item (some 7) := by
  have hlog : (run (T := Nat)
      [.call 1 (.push 7), .move 1 0, .move 1 0, .move 1 0, .move 1 0, .call 0 .front, .move 0 0, .move 0 0,
        .move 0 0, .call 1 (.push 8), .move 1 0, .move 1 0, .move 1 0, .call 0 .pop, .move 0 0, .move 0 0,
        .move 0 0]).completed =
      [⟨1, .push 7, .nothing⟩] ++ ⟨0, .front, .item (some 7)⟩ :: [⟨1, .push 8, .nothing⟩] ++
        ⟨0, .pop, .item (some 7)⟩ :: [] := by decide
  exact ⟨_, hlog, pop_removes_front _ 0 (by simp [hlog, Method.Removes]) hlog (by simp)⟩

/-! ## Wakeups -/

theorem body_eq_none {m : Method T} {queue : List T} :
    body m queue = none ↔ m = .waitAndPop ∧ queue = [] := by
  cases m <;> cases queue <;> simp [body]

theorem notifies : Notifies (body (T := T)) := by
  intro m n queue o hm hn hnot
  obtain ⟨rfl, rfl⟩ := body_eq_none.mp hm
  cases n <;> simp_all [body] <;> subst hn <;> simp_all

theorem canSleep_iff {m : Method T} : CanSleep body m ↔ m = .waitAndPop := by
  simp [CanSleep, body_eq_none]

/-- With one thread that waits, somebody can go on until all that was pushed was taken, in that order. -/
theorem goes_on_or_all_taken (c : Nat) (es : List (Event Nat (Method T)))
    (he : Run.Along (step body) (SleepsOnly body (· = c)) { data := [] } es) :
    pushed (run es).completed = removed (run es).completed ++ (run es).data ∧
      ((∃ t, ∀ pick, (move body (run es) t pick).place t ≠ (run es).place t) ∨
        (∀ t, t ≠ c → (run es).place t = .outside) ∧
          ((run es).place c = .outside ∨ pushed (run es).completed = removed (run es).completed)) := by
  have hsound := @sound_run _ _ _ _ _ body [] es
  have hfifo : pushed (run es).completed = removed (run es).completed ++ (run es).data :=
    serial_fifo hsound.serial
  refine ⟨hfifo, ?_⟩
  by_cases hrest : AtRest (run es)
  · refine .inr ⟨fun t ht => ?_, ?_⟩
    · rcases hrest t with ho | ⟨m, ha⟩
      · exact ho
      · exact absurd ((awake_run notifies he).asleep ha) ht
    · rcases hrest c with ho | ⟨m, ha⟩
      · exact .inl ho
      · have hnil := (body_eq_none.mp (rest_of_sole notifies he hrest ha)).2
        change (run es).data = [] at hnil
        exact .inr (by rw [hfifo, hnil, List.append_nil])
  · exact .inl (hsound.moves hrest)

theorem goes_on_or_all_taken_three :
    let es : List (Event Nat (Method Nat)) :=
      [.call 0 .waitAndPop, .move 0 0, .move 0 0, .call 1 (.push 7), .move 1 0, .move 1 0,
        .move 1 0, .move 1 0]
    Run.Along (step body) (SleepsOnly body (· = 0)) { data := [] } es ∧
      pushed (run es).completed = [7] ∧ removed (run es).completed = [] ∧
      (∃ t, ∀ pick, (move body (run es) t pick).place t ≠ (run es).place t) := by
  have he : Run.Along (step body) (SleepsOnly body (· = 0)) ({ data := [] } : Queue Nat)
      [.call 0 .waitAndPop, .move 0 0, .move 0 0, .call 1 (.push 7), .move 1 0, .move 1 0, .move 1 0,
        .move 1 0] := by
    simp [Run.Along, SleepsOnly, canSleep_iff]
  have h := goes_on_or_all_taken 0 _ he
  refine ⟨he, by decide, by decide, ?_⟩
  rcases h.2 with hgo | ⟨_, hout | hall⟩
  · exact hgo
  · exact absurd hout (by simp [run, Run.run, step, move, body, State.goto, State.wakeOne, State.wake])
  · exact absurd hall (by decide)

/-- Two threads wait, two items come, and only the first one notifies. -/
def stranding (c c' p : Nat) (t t' : T) : List (Event Nat (Method T)) :=
  [.call c .waitAndPop, .move c 0, .move c 0, .call c' .waitAndPop, .move c' 0, .move c' 0,
    .call p (.push t), .move p 0, .move p 0, .move p 0, .move p 0,
    .call p (.push t'), .move p 0, .move p 0, .move p 0, .move c 0, .move c 0, .move c 0]

theorem run_stranding {c c' p : Nat} (h : c ≠ c') (h1 : p ≠ c) (h2 : p ≠ c') (t t' : T) :
    (run (stranding c c' p t t')).data = [t'] ∧
      ∀ u, (run (stranding c c' p t t')).place u = if u = c' then .asleep .waitAndPop else .outside := by
  constructor
  · simp [run, stranding, step, move, body, State.goto, State.wakeOne, State.wake, Run.run, h,
      h.symm, h1, h1.symm, h2]
  · intro u
    simp [run, stranding, step, move, body, State.goto, State.wakeOne, State.wake, Run.run, h,
      h.symm, h1, h1.symm, h2]
    simp only [Function.update_apply]
    grind

theorem stranding_along {C : Nat → Prop} {c c' p : Nat} (hc : C c) (hc' : C c') (t t' : T) :
    Run.Along (step body) (SleepsOnly body C) { data := [] } (stranding c c' p t t') := by
  simp [stranding, Run.Along, SleepsOnly, canSleep_iff, hc, hc']

/-- At rest, whoever still waits waits for an empty queue: this holds in every run exactly if a single thread
waits. -/
theorem nobody_stranded_iff [Inhabited T] (C : Nat → Prop) :
    (∀ es : List (Event Nat (Method T)), Run.Along (step body) (SleepsOnly body C) { data := [] } es →
      AtRest (run es) → ∀ t m, (run es).place t = .asleep m → (run es).data = []) ↔
    ∀ c c', C c → C c' → c = c' := by
  constructor
  · intro h c c' hc hc'
    by_contra hne
    obtain ⟨hdata, hplace⟩ :=
      run_stranding (p := c + c' + 1) hne (by omega) (by omega) (default : T) default
    have hrest : AtRest (run (stranding c c' (c + c' + 1) (default : T) default)) := by
      intro t
      by_cases ht : t = c'
      · exact .inr ⟨.waitAndPop, by simp [hplace, ht]⟩
      · exact .inl (by simp [hplace, ht])
    have hasleep := hplace c'
    rw [if_pos rfl] at hasleep
    have hnil := h _ (stranding_along hc hc' default default) hrest c' _ hasleep
    rw [hdata] at hnil
    cases hnil
  · intro h es he hrest t m ht
    obtain ⟨c, hc⟩ : ∃ c, ∀ t, C t → t = c := by
      by_cases hex : ∃ c, C c
      · obtain ⟨c, hc⟩ := hex
        exact ⟨c, fun t ht => h t c ht hc⟩
      · exact ⟨0, fun t ht => absurd ⟨t, ht⟩ hex⟩
    have hsole : Run.Along (step body) (SleepsOnly body (· = c)) { data := [] } es := by
      refine he.mono fun _ e hs => ?_
      cases e with
      | call t m => exact fun hm => hc t (hs hm)
      | move => trivial
      | spurious => trivial
    exact (body_eq_none.mp (rest_of_sole notifies hsole hrest ht)).2

end RouteFlow.SyncQueue
