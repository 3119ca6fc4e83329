import RouteFlow.Credits

/-!
# Acks for a client that has restarted

A new process starts to count at 0. RFServer and the channels may still hold RouteMods and acks of
the old one, and an ack says only which client it is for.
-/

namespace RouteFlow

open Store Run

/-- What the present process of a client has sent, and what has been acknowledged of that. `pending`
are the RouteMods that are on their way or whose ack is, the oldest first, and whether the present
process sent them. The code keeps nothing of this. -/
structure Ledger where
  sent : Nat := 0
  acked : Nat := 0
  pending : List Bool := []

namespace Ledger

/-- The oldest RouteMod on its way is answered. -/
def ack (l : Ledger) : Ledger :=
  match l.pending with
  | [] => l
  | true :: rest => { l with acked := l.acked + 1, pending := rest }
  | false :: rest => { l with pending := rest }

/-- The server takes RouteMods in turn, and acks keep that order. Those before a RouteMod that the
server takes are the ones with an ack. -/
def step (cfg : Config) (v : Nat) (s : System) (l : Ledger) : Event → Ledger
  | .send w =>
    if w = v ∧ (s.clients v).loop = .pop ∧ (s.clients v).rmQ ≠ [] then
      { l with sent := l.sent + 1, pending := l.pending ++ [true] }
    else l
  | .serverClient o w =>
    if w = v ∧ s.clientListener = true ∧ ((s.toServer v).head?.map Msg.isRouteMod) = some true ∧
        acksQueued (s.serverClient cfg o w).server v = acksQueued s.server v then
      { l with pending := l.pending.eraseIdx (acksQueued s.server v + acksInFlight s.server v) }
    else l
  | .clientRecv w =>
    if w = v ∧ (s.server.toClient v).head?.map PortConfig.isAck = some true then l.ack else l
  | .restart w => if w = v then { pending := l.pending.map fun _ => false } else l
  | _ => l

end Ledger

/-- A run with the ledger of client `v`. -/
def ledgerStep (cfg : Config) (v : Nat) (x : System × Ledger) (e : Event) : System × Ledger :=
  (x.1.step cfg e, x.2.step cfg v x.1 e)

/-- The value that the send loop compares is the number of RouteMods without an ack. -/
def CounterRight (v : Nat) (x : System × Ledger) : Prop :=
  (x.1.clients v).loop = .check → (x.1.clients v).rmOutstanding ≤ max_rm_outstanding + 1 ∧
    ((x.1.clients v).rmOutstanding.toNat : Int) = x.2.sent - x.2.acked

/-- An ack that reaches the client is for a RouteMod of its present process. -/
def OwnAck (v : Nat) (x : System × Ledger) : Event → Prop
  | .clientRecv w => w = v → (x.1.server.toClient v).head?.map PortConfig.isAck = some true →
      x.2.pending.head? = some true
  | _ => True

/-! ## The counter -/

/-- How far the send loop may have run ahead. -/
def SendLoop.room : SendLoop → Nat
  | .check | .count => 2
  | .pop => 1

/-- The send loop has sent a RouteMod that it has not counted yet. -/
def SendLoop.uncounted : SendLoop → Nat
  | .count => 1
  | _ => 0

/-- The counter is what the ledger says, but for a RouteMod that is not counted yet. -/
structure Counting (c : RFClient) (l : Ledger) : Prop where
  pending : l.acked + l.pending.count true ≤ l.sent
  room : l.sent - l.acked ≤ c.loop.room
  counter : c.rmOutstanding + BitVec.ofNat 64 c.loop.uncounted = BitVec.ofNat 64 (l.sent - l.acked)

section Counting

variable {c : RFClient} {l : Ledger}

theorem Counting.check (h : Counting c l) (hc : c.loop = .check) :
    c.rmOutstanding.toNat = l.sent - l.acked ∧ l.sent - l.acked ≤ 2 := by
  have hcount := h.counter
  have hroom := h.room
  rw [hc] at hcount hroom
  simp only [SendLoop.uncounted, SendLoop.room, BitVec.add_zero] at hcount hroom
  rw [hcount, BitVec.toNat_ofNat]
  exact ⟨Nat.mod_eq_of_lt (by omega), hroom⟩

theorem Counting.right {v : Nat} {x : System × Ledger} (h : Counting (x.1.clients v) x.2) :
    CounterRight v x := by
  intro hc
  obtain ⟨heq, hle⟩ := h.check hc
  have hpending := h.pending
  constructor
  · rw [BitVec.le_def, heq]
    exact hle
  · rw [heq]
    omega

theorem Counting.frame (h : Counting c l) {c' : RFClient} (hr : c'.rmOutstanding = c.rmOutstanding)
    (hl : c'.loop = c.loop) : Counting c' l where
  pending := h.pending
  room := by rw [hl]; exact h.room
  counter := by rw [hr, hl]; exact h.counter

theorem Counting.ack (h : Counting c l) (hown : l.pending.head? = some true) {c' : RFClient}
    (hr : c'.rmOutstanding = c.rmOutstanding - 1) (hl : c'.loop = c.loop) : Counting c' l.ack := by
  obtain ⟨rest, hrest⟩ : ∃ rest, l.pending = true :: rest := by
    cases hp : l.pending with
    | nil => simp [hp] at hown
    | cons b rest =>
      rw [hp, List.head?_cons, Option.some.injEq] at hown
      exact ⟨rest, by rw [hown]⟩
  have hack : l.ack = { l with acked := l.acked + 1, pending := rest } := by rw [Ledger.ack, hrest]
  have hpending := h.pending
  rw [hrest, List.count_cons_self] at hpending
  have hroom := h.room
  rw [hack]
  refine ⟨?_, ?_, ?_⟩
  · show l.acked + 1 + rest.count true ≤ l.sent
    omega
  · rw [hl]
    show l.sent - (l.acked + 1) ≤ _
    omega
  · have hcount := h.counter
    rw [hr, hl]
    show _ = BitVec.ofNat 64 (l.sent - (l.acked + 1))
    obtain ⟨n, hn⟩ : ∃ n, l.sent - l.acked = n + 1 := ⟨l.sent - l.acked - 1, by omega⟩
    have hn' : l.sent - (l.acked + 1) = n := by omega
    rw [hn, BitVec.ofNat_add] at hcount
    rw [hn', BitVec.sub_add_comm, hcount]
    exact BitVec.add_sub_cancel _ _

theorem Counting.restart (l : Ledger) (c : RFClient) :
    Counting c.restart { pending := l.pending.map fun _ => false } where
  pending := by simp [List.count_eq_zero]
  room := by simp
  counter := rfl

theorem Counting.lost (h : Counting c l) (i : Nat) :
    Counting c { l with pending := l.pending.eraseIdx i } where
  pending := by
    have := (List.eraseIdx_sublist l.pending i).count_le true
    have := h.pending
    show l.acked + (l.pending.eraseIdx i).count true ≤ l.sent
    omega
  room := h.room
  counter := h.counter

end Counting

section Step

variable {cfg : Config} {v : Nat} {s : System} {l : Ledger}

theorem counting_send (h : Counting (s.clients v) l) (w : Nat) :
    Counting ((s.clientSend w).clients v) (l.step cfg v s (.send w)) := by
  by_cases hw : w = v
  · subst hw
    unfold System.clientSend
    dsimp only
    split
    · rename_i hl
      have hledger : l.step cfg w s (.send w) = l := by simp [Ledger.step, hl]
      rw [hledger]
      split
      · exact h
      · -- The counter is exact here, so the check leaves room for one more.
        rename_i hgt
        obtain ⟨heq, -⟩ := h.check hl
        have hle : (s.clients w).rmOutstanding.toNat ≤ 1 := by
          rw [gt_iff_lt, BitVec.lt_def] at hgt
          exact Nat.le_of_not_lt hgt
        have hcount := h.counter
        rw [hl] at hcount
        simp only [System.setClient, Function.update_self]
        exact ⟨h.pending, by rw [← heq]; exact hle, hcount⟩
    · rename_i hl
      split
      · rename_i hq
        have hledger : l.step cfg w s (.send w) = l := by simp [Ledger.step, hq]
        rw [hledger]
        exact h
      · rename_i rm rest hq
        have hledger : l.step cfg w s (.send w) =
          { l with sent := l.sent + 1, pending := l.pending ++ [true] } := by
          simp [Ledger.step, hl, hq]
        have hpending := h.pending
        have hroom := h.room
        have hcount := h.counter
        rw [hl] at hroom hcount
        rw [hledger]
        simp only [System.setClient, System.sendServer, Function.update_self]
        refine ⟨?_, ?_, ?_⟩
        · simp only [List.count_append, List.count_singleton_self]
          omega
        · simp only [SendLoop.room] at hroom ⊢
          omega
        · have hn : l.sent + 1 - l.acked = (l.sent - l.acked) + 1 := by omega
          simp only [SendLoop.uncounted, BitVec.add_zero] at hcount ⊢
          rw [hn, BitVec.ofNat_add, hcount]
    · rename_i hl
      have hledger : l.step cfg w s (.send w) = l := by simp [Ledger.step, hl]
      have hroom := h.room
      have hcount := h.counter
      rw [hl] at hroom hcount
      rw [hledger]
      simp only [System.setClient, Function.update_self]
      refine ⟨h.pending, hroom, ?_⟩
      simp only [SendLoop.uncounted, BitVec.add_zero] at hcount ⊢
      exact hcount
  · have hledger : l.step cfg v s (.send w) = l := by simp [Ledger.step, hw]
    rw [hledger, clientSend_other hw]
    exact h

theorem RFClient.process_counter (v : Nat) (c : RFClient) (m : PortConfig) :
    (c.process v m).loop = c.loop ∧
      (c.process v m).rmOutstanding = if m.isAck then c.rmOutstanding - 1 else c.rmOutstanding := by
  unfold RFClient.process PortConfig.isAck
  cases m.operationId <;> exact ⟨rfl, rfl⟩

theorem counting_clientRecv (h : Counting (s.clients v) l) (w : Nat)
    (hown : OwnAck v (s, l) (.clientRecv w)) :
    Counting ((s.clientRecv w).clients v) (l.step cfg v s (.clientRecv w)) := by
  by_cases hw : w = v
  · subst hw
    cases hq : s.server.toClient w with
    | nil =>
      have hledger : l.step cfg w s (.clientRecv w) = l := by simp [Ledger.step, hq]
      rw [hledger]
      simp only [System.clientRecv, hq]
      exact h
    | cons m rest =>
      have hclient : (s.clientRecv w).clients w = (s.clients w).process w m := by
        simp [System.clientRecv, hq, System.setClient]
      obtain ⟨hloop, hcounter⟩ := RFClient.process_counter w (s.clients w) m
      rw [hclient]
      cases hack : m.isAck with
      | true =>
        have hledger : l.step cfg w s (.clientRecv w) = l.ack := by simp [Ledger.step, hq, hack]
        rw [hack, if_pos rfl] at hcounter
        rw [hledger]
        exact h.ack (hown rfl (by simp [hq, hack])) hcounter hloop
      | false =>
        have hledger : l.step cfg w s (.clientRecv w) = l := by simp [Ledger.step, hq, hack]
        rw [hack, if_neg (by simp)] at hcounter
        rw [hledger]
        exact h.frame hcounter hloop
  · have hledger : l.step cfg v s (.clientRecv w) = l := by simp [Ledger.step, hw]
    rw [hledger, clientRecv_other hw]
    exact h

theorem Counting.step (h : Counting (s.clients v) l) (e : Event) (hown : OwnAck v (s, l) e) :
    Counting ((s.step cfg e).clients v) (l.step cfg v s e) := by
  cases e with
  | send w => exact counting_send h w
  | serverClient o w =>
    have hsame : (s.step cfg (.serverClient o w)).clients v = s.clients v :=
      step_clients (Option.some_ne_none v).symm
    rw [hsame]
    simp only [Ledger.step]
    split
    · exact h.lost _
    · exact h
  | clientRecv w => exact counting_clientRecv h w hown
  | restart w =>
    by_cases hw : w = v
    · subst hw
      simp only [Ledger.step, if_true, System.step, System.restart, System.setClient, System.sendServer,
        Function.update_self]
      exact .restart l _
    · have hsame : (s.step cfg (.restart w)).clients v = s.clients v := setClient_other hw _
      simp only [Ledger.step, hw, if_false, hsame]
      exact h
  | push w rm =>
    by_cases hw : w = v
    · subst hw
      simp only [System.step, System.setClient, Function.update_self]
      exact h.frame rfl rfl
    · have hsame : (s.step cfg (.push w rm)).clients v = s.clients v := setClient_other hw _
      rw [hsame]
      exact h
  | serverProxy | proxyRecv | mapSend | mapDeliver | dpWorker | dpUp | dpDown =>
    rw [step_clients]
    · exact h
    · exact (Option.some_ne_none v).symm

end Step

/-- As long as no ack of an older process comes in, the counter is what it should be. -/
theorem counter_right (cfg : Config) (ifaces : Nat → List Interface) (v : Nat) (es : List Event)
    (h : Along (ledgerStep cfg v) (OwnAck v) (System.init ifaces, {}) es) :
    Always (ledgerStep cfg v) (CounterRight v) (System.init ifaces, {}) es := by
  refine always_of_invariant (I := fun x : System × Ledger => Counting (x.1.clients v) x.2) ?_
    (fun x hx => hx.right) ⟨Nat.le_refl 0, Nat.zero_le _, rfl⟩ h
  rintro ⟨s, l⟩ e hown hx
  exact hx.step e hown

/-! ## What the ledger lists -/

/-- There is an item for each RouteMod and each ack that is on its way. -/
def Ledger.Complete (v : Nat) (s : System) (l : Ledger) : Prop :=
  l.pending.length = rmInFlight s v + acksQueued s.server v + acksInFlight s.server v

section Complete

variable {cfg : Config} {v : Nat} {s : System} {l : Ledger}

theorem complete_iff : l.Complete v s ↔
    (l.pending.length : Int) + unaccounted v s = (s.clients v).sent - (s.clients v).acked := by
  unfold Ledger.Complete unaccounted
  omega

theorem serverClient_lost_iff (h : WellFormed s) (o : Order) (w : Nat) :
    (w = v ∧ s.clientListener = true ∧ ((s.toServer v).head?.map Msg.isRouteMod) = some true ∧
      acksQueued (s.serverClient cfg o w).server v = acksQueued s.server v) ↔
      ¬ RouteModHandled cfg v s (.serverClient o w) := by
  constructor
  · rintro ⟨rfl, hl, hhead, hq⟩ hh
    cases hts : s.toServer w with
    | nil => simp [hts] at hhead
    | cons msg rest =>
      cases msg with
      | routeMod rm =>
        have hid : rm.id = w := h.fromClient w (.routeMod rm) (by simp [hts])
        have hyes := (@registerRouteMod_acks cfg o _ h.rf h.isl rm w).2.1 (hh rfl hl rm rest hts)
        simp only [System.serverClient, hl, hts, Server.process, hyes, hid, if_true] at hq
        omega
      | _ => simp [hts, Msg.isRouteMod] at hhead
  · intro hh
    simp only [RouteModHandled, not_forall] at hh
    obtain ⟨rfl, hl, rm, rest, hts, hno⟩ := hh
    have hsame := (@registerRouteMod_acks cfg o _ h.rf h.isl rm w).2.2 hno
    refine ⟨rfl, hl, by simp [hts, Msg.isRouteMod], ?_⟩
    simp only [System.serverClient, hl, hts, Server.process, hsame]

theorem clientSend_sent (w : Nat) :
    ((s.clientSend w).clients v).acked = (s.clients v).acked ∧ ((s.clientSend w).clients v).sent =
      (s.clients v).sent + if w = v ∧ (s.clients v).loop = .pop ∧ (s.clients v).rmQ ≠ [] then 1 else 0 := by
  unfold System.clientSend
  dsimp only
  by_cases hw : w = v
  · subst hw
    split
    · rename_i hl
      split <;> simp [System.setClient, hl]
    · rename_i hl
      split
      · rename_i hq
        simp [hq]
      · rename_i rm rest hq
        simp [System.setClient, System.sendServer, hl, hq]
    · rename_i hl
      simp [System.setClient, hl]
  · simp only [hw, false_and, if_false, Nat.add_zero]
    have hsame := @clientSend_other s v w hw
    exact ⟨congrArg RFClient.acked hsame, congrArg RFClient.sent hsame⟩

theorem clientRecv_acked (w : Nat) :
    ((s.clientRecv w).clients v).sent = (s.clients v).sent ∧ ((s.clientRecv w).clients v).acked =
      (s.clients v).acked +
        if w = v ∧ (s.server.toClient v).head?.map PortConfig.isAck = some true then 1 else 0 := by
  unfold System.clientRecv
  by_cases hw : w = v
  · subst hw
    split
    · rename_i hq
      simp [hq]
    · rename_i m rest hq
      simp only [System.setClient, Function.update_self, hq, List.head?_cons, Option.map_some,
        Option.some.injEq, true_and]
      unfold RFClient.process PortConfig.isAck
      cases m.operationId <;> exact ⟨rfl, rfl⟩
  · simp only [hw, false_and, if_false, Nat.add_zero]
    have hsame := @clientRecv_other s v w hw
    exact ⟨congrArg RFClient.sent hsame, congrArg RFClient.acked hsame⟩

theorem Ledger.ack_length (l : Ledger) : l.ack.pending.length = l.pending.length - 1 := by
  unfold Ledger.ack
  split <;> simp_all

theorem Ledger.Complete.step (h : WellFormed s) (hc : l.Complete v s) (e : Event) :
    (l.step cfg v s e).Complete v (s.step cfg e) := by
  obtain ⟨hyes, hno⟩ := @unaccounted_step cfg _ h v e
  -- A step that leaves the ledger alone has to leave the counters alone too.
  have frame : RouteModHandled cfg v s e → l.step cfg v s e = l →
      ((s.step cfg e).clients v).sent = (s.clients v).sent →
      ((s.step cfg e).clients v).acked = (s.clients v).acked →
        (l.step cfg v s e).Complete v (s.step cfg e) := by
    intro hh hl hs ha
    rw [complete_iff, hl, hs, ha, hyes hh]
    exact complete_iff.mp hc
  cases e with
  | send w =>
    obtain ⟨ha, hs⟩ := @clientSend_sent v s w
    have hc' := complete_iff.mp hc
    rw [complete_iff, hyes trivial]
    simp only [System.step, ha, hs, Ledger.step]
    split
    · simp only [List.length_append, List.length_singleton]
      omega
    · simpa using hc'
  | serverClient o w =>
    have hsame : (s.step cfg (.serverClient o w)).clients v = s.clients v :=
      step_clients (Option.some_ne_none v).symm
    by_cases hlost : RouteModHandled cfg v s (.serverClient o w)
    · refine frame hlost ?_ (by rw [hsame]) (by rw [hsame])
      exact if_neg fun hl => (serverClient_lost_iff h o w).mp hl hlost
    · have hcond := (serverClient_lost_iff h o w).mpr hlost
      obtain ⟨rfl, -, hhead, -⟩ := id hcond
      have hrm : 0 < rmInFlight s w := by
        cases hts : s.toServer w with
        | nil => simp [hts] at hhead
        | cons msg rest =>
          rw [hts, List.head?_cons, Option.map_some, Option.some.injEq] at hhead
          simp [rmInFlight, hts, hhead]
      have hledger : l.step cfg w s (.serverClient o w) =
          { l with pending := l.pending.eraseIdx (acksQueued s.server w + acksInFlight s.server w) } :=
            if_pos hcond
      have hc' := complete_iff.mp hc
      unfold Ledger.Complete at hc
      rw [complete_iff, hno hlost, hsame, hledger, List.length_eraseIdx_of_lt (by omega)]
      omega
  | clientRecv w =>
    obtain ⟨hs, ha⟩ := @clientRecv_acked v s w
    have hc' := complete_iff.mp hc
    rw [complete_iff, hyes trivial]
    simp only [System.step, ha, hs, Ledger.step]
    split
    · rename_i hack
      have hflight : 0 < acksInFlight s.server v := by
        cases htc : s.server.toClient v with
        | nil => simp [htc] at hack
        | cons m rest =>
          rw [htc, List.head?_cons, Option.map_some, Option.some.injEq] at hack
          simp [acksInFlight, htc, hack.2]
      unfold Ledger.Complete at hc
      rw [Ledger.ack_length]
      omega
    · simpa using hc'
  | restart w =>
    have hc' := complete_iff.mp hc
    rw [complete_iff, hyes trivial]
    by_cases hw : w = v
    · subst hw
      simpa [System.step, System.restart, System.setClient, System.sendServer, RFClient.restart,
        Ledger.step] using hc'
    · have hsame : (s.step cfg (.restart w)).clients v = s.clients v := setClient_other hw _
      rw [hsame, Ledger.step, if_neg hw]
      exact hc'
  | push w rm =>
    by_cases hw : w = v
    · subst hw
      refine frame trivial rfl ?_ ?_ <;> simp [System.step, System.setClient]
    · have hsame : (s.step cfg (.push w rm)).clients v = s.clients v := setClient_other hw _
      exact frame trivial rfl (by rw [hsame]) (by rw [hsame])
  | serverProxy | proxyRecv | mapSend | mapDeliver | dpWorker | dpUp | dpDown =>
    have hclient := (Option.some_ne_none v).symm
    exact frame trivial rfl (congrArg RFClient.sent (step_clients hclient))
      (congrArg RFClient.acked (step_clients hclient))

/-- The client restarts while nothing of it is on its way. -/
def QuietRestart (v : Nat) (x : System × Ledger) : Event → Prop
  | .restart w => w = v → rmInFlight x.1 v = 0 ∧ acksQueued x.1.server v = 0 ∧ acksInFlight x.1.server v = 0
  | _ => True

/-- The ledger is complete and all that it lists is the present process's own. -/
structure AllOwn (v : Nat) (x : System × Ledger) : Prop where
  wf : WellFormed x.1
  complete : x.2.Complete v x.1
  own : ∀ b ∈ x.2.pending, b = true

theorem AllOwn.step {x : System × Ledger} (h : AllOwn v x) (e : Event) (hq : QuietRestart v x e) :
    AllOwn v (ledgerStep cfg v x e) := by
  refine ⟨h.wf.step e, h.complete.step h.wf e, ?_⟩
  have hown := h.own
  simp only [ledgerStep]
  cases e with
  | send w =>
    simp only [Ledger.step]
    split
    · intro b hb
      rcases List.mem_append.mp hb with hb | hb
      · exact hown b hb
      · exact List.mem_singleton.mp hb
    · exact hown
  | serverClient o w =>
    simp only [Ledger.step]
    split
    · exact fun b hb => hown b (List.mem_of_mem_eraseIdx hb)
    · exact hown
  | clientRecv w =>
    simp only [Ledger.step]
    split
    · unfold Ledger.ack
      split
      · exact hown
      · rename_i hp
        exact fun b hb => hown b (by rw [hp]; exact List.mem_cons_of_mem _ hb)
      · rename_i hp
        exact fun b hb => hown b (by rw [hp]; exact List.mem_cons_of_mem _ hb)
    · exact hown
  | restart w =>
    simp only [Ledger.step]
    split
    · rename_i hw
      obtain ⟨h1, h2, h3⟩ := hq hw
      have hnil : x.2.pending = [] := by
        have := h.complete
        rw [Ledger.Complete, h1, h2, h3] at this
        exact List.length_eq_zero_iff.mp this
      simp [hnil]
    · exact hown
  | push _ _ | serverProxy _ _ | dpWorker | proxyRecv _ | dpUp _ _ _ | dpDown _ _ | mapSend _ _
  | mapDeliver _ _ _ => exact hown

theorem AllOwn.ownAck {x : System × Ledger} (h : AllOwn v x) (e : Event) : OwnAck v x e := by
  cases e with
  | clientRecv w =>
    rintro rfl hhead
    have hflight : 0 < acksInFlight x.1.server w := by
      cases htc : x.1.server.toClient w with
      | nil => simp [htc] at hhead
      | cons m rest =>
        rw [htc, List.head?_cons, Option.map_some, Option.some.injEq] at hhead
        simp [acksInFlight, htc, hhead]
    have hlen := h.complete
    unfold Ledger.Complete at hlen
    cases hp : x.2.pending with
    | nil =>
      rw [hp, List.length_nil] at hlen
      omega
    | cons b rest => rw [List.head?_cons, h.own b (by rw [hp]; exact List.mem_cons_self)]
  | _ => trivial

end Complete

/-- A client that restarts only while nothing of it is on its way gets no ack of an older process. -/
theorem own_acks_of_quiet_restarts (cfg : Config) (ifaces : Nat → List Interface) (v : Nat) (es : List Event)
    (h : Along (ledgerStep cfg v) (QuietRestart v) (System.init ifaces, {}) es) :
    Along (ledgerStep cfg v) (OwnAck v) (System.init ifaces, {}) es := by
  refine Along.of_invariant (I := AllOwn v) (fun x e hq hx => hx.step e hq) (fun x e _ hx => hx.ownAck e) ?_ h
  refine ⟨init_wellFormed ifaces, ?_, by simp⟩
  simp [Ledger.Complete, rmInFlight, acksQueued, acksInFlight, System.init, Server.init]

/-! ## A run of each kind -/

/-- The client's port has its datapath, whose first answer is on its way, and RFServer takes a RouteMod. -/
def oneRouteMod : List Event :=
  let o := Order.insertion
  [.restart 1, .serverClient o 1, .dpUp 0 5 3, .serverProxy o 0, .dpUp 0 5 3, .serverProxy o 0, .dpWorker,
    .proxyRecv 0, .push 1 { mod := .add, vmPort := 1 }, .send 1, .send 1, .send 1, .serverClient o 1]

theorem counter_right_oneRouteMod :
    let es := oneRouteMod ++ [.serverProxy Order.insertion 0, .clientRecv 1]
    Always (ledgerStep oneLine 1) (CounterRight 1) (System.init oneVm, {}) es ∧
      ((run (ledgerStep oneLine 1) (System.init oneVm, {}) es).1.clients 1).rmOutstanding = 0 := by
  refine ⟨counter_right oneLine oneVm 1 _ (own_acks_of_quiet_restarts oneLine oneVm 1 _ ?_),
    by decide +kernel⟩
  simp only [oneRouteMod, List.cons_append, List.nil_append, Along, QuietRestart, and_true]
  exact fun _ => by decide +kernel

/-- The client restarts before the ack comes. It counts down from 0, and sends no more. -/
theorem counter_wraps :
    let es := oneRouteMod ++ [.restart 1, .serverProxy Order.insertion 0, .clientRecv 1]
    let x := run (ledgerStep oneLine 1) (System.init oneVm, {}) es
    (x.1.clients 1).rmOutstanding.toNat = 2 ^ 64 - 1 ∧ ¬ CounterRight 1 x := by
  intro es x
  have hcount : (x.1.clients 1).rmOutstanding.toNat = 2 ^ 64 - 1 := by decide +kernel
  refine ⟨hcount, fun h => ?_⟩
  have hle := (h (by decide +kernel)).1
  rw [BitVec.le_def, hcount] at hle
  exact absurd hle (by decide)

end RouteFlow
