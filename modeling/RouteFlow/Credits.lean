import RouteFlow.Channels

/-!
# Acks

The client sends at most two RouteMods ahead of the acks. An ack waits in `ack_q` until RFProxy
answers some RouteMod.
-/

namespace RouteFlow

open Store Run

/-! ## Credits -/

/-- The RouteMods of the client that RFServer has not taken. -/
def rmInFlight (s : System) (v : Nat) : Nat := (s.toServer v).countP Msg.isRouteMod

/-- RouteMods without an ack, less those that can be accounted for. -/
def unaccounted (v : Nat) (s : System) : Int :=
  ((s.clients v).sent - (s.clients v).acked) -
    (rmInFlight s v + acksQueued s.server v + acksInFlight s.server v)

/-- Each RouteMod that the client waits for is on its way, or its ack is. -/
def Conserved (v : Nat) (s : System) : Prop :=
  ((s.clients v).sent : Int) - (s.clients v).acked =
    rmInFlight s v + acksQueued s.server v + acksInFlight s.server v

theorem conserved_iff (v : Nat) (s : System) : Conserved v s ↔ unaccounted v s = 0 := by
  unfold Conserved unaccounted
  omega

/-- A RouteMod of the client that the server takes reaches the end of its handler. -/
def RouteModHandled (cfg : Config) (v : Nat) (s : System) : Event → Prop
  | .serverClient o w => w = v → s.clientListener = true → ∀ rm rest, s.toServer v = .routeMod rm :: rest →
      Handled cfg o s.server rm
  | _ => True

section Balance

variable {cfg : Config} {s : System} (v : Nat)

theorem unaccounted_send (w : Nat) : unaccounted v (s.clientSend w) = unaccounted v s := by
  unfold System.clientSend
  dsimp only
  by_cases hw : v = w
  · subst hw
    split
    · split
      · rfl
      · simp [unaccounted, System.setClient, rmInFlight]
    · split
      · rfl
      · simp [unaccounted, System.setClient, System.sendServer, rmInFlight, List.countP_append,
          Msg.isRouteMod]
        omega
    · simp [unaccounted, System.setClient, rmInFlight]
  · split
    · split
      · rfl
      · simp [unaccounted, System.setClient, rmInFlight, hw]
    · split
      · rfl
      · simp [unaccounted, System.setClient, System.sendServer, rmInFlight, hw]
    · simp [unaccounted, System.setClient, rmInFlight, hw]

theorem unaccounted_clientRecv (w : Nat) : unaccounted v (s.clientRecv w) = unaccounted v s := by
  unfold System.clientRecv
  split
  · rfl
  · rename_i config rest hq
    by_cases hw : v = w
    · subst hw
      have hsent : ((s.clients v).process v config).sent = (s.clients v).sent := by
        unfold RFClient.process
        split <;> rfl
      have hacked : ((s.clients v).process v config).acked =
          (s.clients v).acked + if config.isAck then 1 else 0 := by
        unfold RFClient.process PortConfig.isAck
        cases config.operationId <;> rfl
      simp only [unaccounted, System.setClient, Function.update_self, rmInFlight, acksQueued,
        acksInFlight, hsent, hacked, hq, List.countP_cons]
      split <;> omega
    · simp [unaccounted, System.setClient, rmInFlight, acksQueued, acksInFlight, hw]

theorem unaccounted_restart (w : Nat) : unaccounted v (s.restart w) = unaccounted v s := by
  have hregs : ((s.clients w).restart.portRegisters w).countP Msg.isRouteMod = 0 := by
    rw [List.countP_eq_zero]
    intro m hm
    obtain ⟨iface, -, rfl⟩ := List.mem_map.mp hm
    simp [Msg.isRouteMod]
  unfold System.restart
  by_cases hw : v = w
  · subst hw
    have hs : (s.clients v).restart.sent = (s.clients v).sent := rfl
    have ha : (s.clients v).restart.acked = (s.clients v).acked := rfl
    simp only [unaccounted, System.setClient, System.sendServer, rmInFlight, Function.update_self,
      List.countP_append, hregs, hs, ha, Nat.add_zero]
  · simp [unaccounted, System.setClient, System.sendServer, rmInFlight, hw]

theorem unaccounted_serverProxy (h : WellFormed s) (o : Order) (i : Nat) :
    unaccounted v (s.serverProxy cfg o i) = unaccounted v s := by
  unfold System.serverProxy
  split
  · rename_i msg _ hm
    have hmem := List.mem_of_getElem? hm
    by_cases hre : msg = .routeModReply
    · subst hre
      obtain ⟨hq, hf⟩ := sendRoutemodAcks_acks s.server h.acks v
      simp only [unaccounted, Server.process, rmInFlight, hq, hf]
      omega
    · have hq := Quiet.process cfg o s.server (fun rm he => h.fromProxy (.routeMod rm) (he ▸ hmem)) hre
      simp only [unaccounted, rmInFlight, (hq.acks v).1, (hq.acks v).2]
  · rfl

theorem unaccounted_serverClient (h : WellFormed s) (o : Order) (w : Nat) :
    (RouteModHandled cfg v s (.serverClient o w) → unaccounted v (s.serverClient cfg o w) = unaccounted v s) ∧
    (¬ RouteModHandled cfg v s (.serverClient o w) →
      unaccounted v (s.serverClient cfg o w) = unaccounted v s + 1) := by
  unfold System.serverClient
  split
  · rename_i msg rest hl hq
    have hmem : msg ∈ s.toServer w := by rw [hq]; exact List.mem_cons_self
    by_cases hrm : ∃ rm, msg = .routeMod rm
    · obtain ⟨rm, rfl⟩ := hrm
      have hid : rm.id = w := h.fromClient w (.routeMod rm) hmem
      obtain ⟨hf, hyes, hno⟩ := @registerRouteMod_acks cfg o _ h.rf h.isl rm v
      by_cases hw : w = v
      · subst hw
        have hcond : RouteModHandled cfg w s (.serverClient o w) ↔ Handled cfg o s.server rm := by
          simp only [RouteModHandled, hl, hq, true_imp_iff, List.cons.injEq, Msg.routeMod.injEq]
          constructor
          · intro hh; exact hh rm rest ⟨rfl, rfl⟩
          · rintro hh rm' rest' ⟨rfl, rfl⟩; exact hh
        rw [hcond]
        simp only [unaccounted, rmInFlight, Server.process, Function.update_self, hq, List.countP_cons,
          Msg.isRouteMod, hf, if_true]
        constructor
        · intro hh
          rw [hyes hh, hid]
          simp only [if_true]
          omega
        · intro hh
          rw [hno hh]
          omega
      · have hcond : RouteModHandled cfg v s (.serverClient o w) := fun heq => absurd heq hw
        refine ⟨fun _ => ?_, fun hno => absurd hcond hno⟩
        have hqueued : acksQueued (Server.registerRouteMod cfg o s.server rm).1 v =
          acksQueued s.server v := by
          by_cases hh : Handled cfg o s.server rm
          · rw [hyes hh, hid, if_neg hw, Nat.add_zero]
          · exact hno hh
        have hwv : v ≠ w := fun he => hw he.symm
        simp [unaccounted, rmInFlight, Server.process, hwv, hf, hqueued]
    · have hre : msg ≠ .routeModReply := fun he => h.fromClient w .routeModReply (he ▸ hmem)
      have hquiet := Quiet.process cfg o s.server (fun rm he => hrm ⟨rm, he⟩) hre
      have hcond : RouteModHandled cfg v s (.serverClient o w) := by
        rintro rfl - rm rest' heq
        rw [hq] at heq
        exact absurd ⟨rm, (List.cons.inj heq).1⟩ hrm
      refine ⟨fun _ => ?_, fun hno => absurd hcond hno⟩
      by_cases hw : w = v
      · subst hw
        have hnot : msg.isRouteMod = false := by
          cases msg with
          | routeMod rm => exact absurd ⟨rm, rfl⟩ hrm
          | _ => rfl
        simp [unaccounted, rmInFlight, hq, hnot, (hquiet.acks w).1, (hquiet.acks w).2]
      · have hwv : v ≠ w := fun he => hw he.symm
        simp [unaccounted, rmInFlight, hwv, (hquiet.acks v).1, (hquiet.acks v).2]
  · rename_i hno
    refine ⟨fun _ => rfl, fun hh => absurd ?_ hh⟩
    rintro rfl hl rm rest hq
    exact absurd hq (hno _ _ hl)

end Balance

theorem unaccounted_step {cfg : Config} {s : System} (h : WellFormed s) (v : Nat) (e : Event) :
    (RouteModHandled cfg v s e → unaccounted v (s.step cfg e) = unaccounted v s) ∧
    (¬ RouteModHandled cfg v s e → unaccounted v (s.step cfg e) = unaccounted v s + 1) := by
  have same : ∀ {P : Prop}, unaccounted v (s.step cfg e) = unaccounted v s → P → (P →
      unaccounted v (s.step cfg e) = unaccounted v s) ∧
        (¬ P → unaccounted v (s.step cfg e) = unaccounted v s + 1) :=
    fun heq hp => ⟨fun _ => heq, fun hno => absurd hp hno⟩
  cases e with
  | serverClient o w => exact unaccounted_serverClient v h o w
  | send w => exact same (unaccounted_send v w) trivial
  | serverProxy o i => exact same (unaccounted_serverProxy v h o i) trivial
  | clientRecv w => exact same (unaccounted_clientRecv v w) trivial
  | restart w => exact same (unaccounted_restart v w) trivial
  | push w rm =>
    refine same ?_ trivial
    by_cases hw : v = w
    · subst hw
      simp [System.step, unaccounted, System.setClient, rmInFlight]
    · simp [System.step, unaccounted, System.setClient, rmInFlight, hw]
  | dpWorker =>
    refine same ?_ trivial
    obtain ⟨-, -, h3, h4⟩ := dpWorker_frame s.server
    simp [System.step, unaccounted, rmInFlight, acksQueued, acksInFlight, h3, h4]
  | proxyRecv i =>
    refine same ?_ trivial
    simp only [System.step, System.proxyRecv]
    split
    · rfl
    · split <;> rfl
  | dpUp c d p | dpDown c d => exact same rfl trivial
  | mapSend w iface =>
    refine same ?_ trivial
    simp only [System.step, System.mapSend]
    split <;> rfl
  | mapDeliver i vs vp =>
    refine same ?_ trivial
    simp only [System.step, System.mapDeliver]
    split <;> rfl

/-- The account of a client is right throughout a run exactly if each of its RouteMods that the
server takes reaches the end of the handler. -/
theorem credits_conserved_iff (cfg : Config) (ifaces : Nat → List Interface) (v : Nat) (es : List Event) :
    Always (System.step cfg) (Conserved v) (System.init ifaces) es ↔
      Along (System.step cfg) (RouteModHandled cfg v) (System.init ifaces) es := by
  refine always_iff_along (I := WellFormed) (fun s e h => h.step e) ?_ (init_wellFormed ifaces) ?_ es
  · intro s e h hcons
    obtain ⟨hyes, hno⟩ := @unaccounted_step cfg _ h v e
    rw [conserved_iff] at hcons ⊢
    constructor
    · intro hz
      by_contra hc
      have := hno hc
      omega
    · intro hc
      rw [hyes hc, hcons]
  · simp [Conserved, System.init, RFClient.restart, rmInFlight, acksQueued, acksInFlight, Server.init]

def oneVm (v : Nat) : List Interface :=
  if v = 1 then [{ port := 1, name := "eth1", hwaddress := 7, physical := true }] else []

/-- The client sends a RouteMod for a port that has no datapath. The server takes it, and no ack
follows. -/
theorem credits_not_conserved :
    ¬ Conserved 1 (run (System.step oneLine) (System.init oneVm)
      [.restart 1, .serverClient Order.insertion 1, .push 1 { mod := .add, vmPort := 1 }, .send 1, .send 1,
        .serverClient Order.insertion 1]) := by
  unfold Conserved
  decide

/-! ## Acks find a reply -/

/-- A RouteMod is with the server, with RFProxy or answered, and so a reply will come. -/
def ReplyPending (s : System) : Prop :=
  s.server.dpQ ≠ [] ∨ (∃ c rm, (c, ProxyMsg.routeMod rm) ∈ s.server.toProxy) ∨
    Msg.routeModReply ∈ s.fromProxy

/-- Acks are in `ack_q` only while RFProxy has something to answer. -/
def NoneStranded (s : System) : Prop := s.server.ackQ ≠ [] → ReplyPending s

/-- A RouteMod that the server handles makes a RouteMod for some datapath, unless one is pending. -/
def RouteModEmits (cfg : Config) (s : System) : Event → Prop
  | .serverClient o v => s.clientListener = true → ∀ rm rest, s.toServer v = .routeMod rm :: rest →
      Handled cfg o s.server rm → Emits cfg o s.server rm ∨ ReplyPending s
  | _ => True

section Pending

variable {cfg : Config} {s : System}

theorem ReplyPending.quiet {srv : Server} (hq : Quiet s.server srv) {msgs : List Msg}
    (hm : Msg.routeModReply ∈ s.fromProxy → Msg.routeModReply ∈ msgs) (h : ReplyPending s) :
    srv.dpQ ≠ [] ∨ (∃ c rm, (c, ProxyMsg.routeMod rm) ∈ srv.toProxy) ∨ Msg.routeModReply ∈ msgs := by
  obtain ⟨d, hd⟩ := hq.dpQ
  obtain ⟨p, hp⟩ := hq.toProxy
  rcases h with h | ⟨c, rm, h⟩ | h
  · left
    rw [hd]
    simp [h]
  · exact Or.inr (Or.inl ⟨c, rm, by rw [hp]; exact List.mem_append_left _ h⟩)
  · exact Or.inr (Or.inr (hm h))

theorem mem_eraseIdx_of_ne {α : Type} {l : List α} {i : Nat} {x y : α} (hx : x ∈ l) (hi : l[i]? = some y)
    (hne : x ≠ y) : x ∈ l.eraseIdx i := by
  rw [List.mem_eraseIdx_iff_getElem?]
  obtain ⟨j, hj⟩ := List.mem_iff_getElem?.mp hx
  refine ⟨j, ?_, hj⟩
  rintro rfl
  rw [hi, Option.some.injEq] at hj
  exact hne hj.symm

theorem noneStranded_serverProxy (h : WellFormed s) (hn : NoneStranded s) (o : Order) (i : Nat) :
    NoneStranded (s.serverProxy cfg o i) := by
  unfold System.serverProxy
  split
  · rename_i msg _ hm
    have hmem := List.mem_of_getElem? hm
    by_cases hre : msg = .routeModReply
    · subst hre
      intro hne
      simp [Server.process, Server.sendRoutemodAcks] at hne
    · have hq := Quiet.process cfg o s.server (fun rm he => h.fromProxy (.routeMod rm) (he ▸ hmem)) hre
      intro hne
      rw [hq.ackQ] at hne
      exact (hn hne).quiet hq fun hrep => mem_eraseIdx_of_ne hrep hm fun he => hre he.symm
  · exact hn

theorem noneStranded_serverClient (h : WellFormed s) (hn : NoneStranded s) (o : Order) (v : Nat) :
    NoneStranded (s.serverClient cfg o v) ↔ RouteModEmits cfg s (.serverClient o v) := by
  unfold System.serverClient
  split
  · rename_i msg rest hl hq
    have hmem : msg ∈ s.toServer v := by rw [hq]; exact List.mem_cons_self
    by_cases hrm : ∃ rm, msg = .routeMod rm
    · obtain ⟨rm, rfl⟩ := hrm
      have hcond : RouteModEmits cfg s (.serverClient o v) ↔
          (Handled cfg o s.server rm → Emits cfg o s.server rm ∨ ReplyPending s) := by
        simp only [RouteModEmits, hl, hq, true_imp_iff, List.cons.injEq, Msg.routeMod.injEq]
        constructor
        · intro hh; exact hh rm rest ⟨rfl, rfl⟩
        · rintro hh rm' rest' ⟨rfl, rfl⟩; exact hh
      rw [hcond]
      by_cases hh : Handled cfg o s.server rm
      · obtain ⟨trs, c, rms, heq, hne⟩ := registerRouteMod_handled h.rf h.isl hh
        have hack : s.server.ackQ ++ [routemodAck rm] ≠ [] := by simp
        simp only [NoneStranded, ReplyPending, Server.process, heq, hh, true_imp_iff, hack, not_false_eq_true,
          ← hne, ne_eq, List.append_eq_nil_iff, List.map_eq_nil_iff, not_and_or, or_assoc]
        exact or_left_comm
      · obtain ⟨trs, e, heq⟩ := registerRouteMod_not_handled h.rf h.isl hh
        simp only [hh, false_imp_iff, iff_true]
        intro hne
        simp only [Server.process, heq] at hne
        simpa only [ReplyPending, Server.process, heq] using hn hne
    · have hre : msg ≠ .routeModReply := fun he => h.fromClient v .routeModReply (he ▸ hmem)
      have hquiet := Quiet.process cfg o s.server (fun rm he => hrm ⟨rm, he⟩) hre
      have hcond : RouteModEmits cfg s (.serverClient o v) := by
        intro _ rm rest' heq
        rw [hq] at heq
        exact absurd ⟨rm, (List.cons.inj heq).1⟩ hrm
      refine iff_of_true (fun hne => ?_) hcond
      rw [hquiet.ackQ] at hne
      exact (hn hne).quiet hquiet id
  · rename_i hno
    refine iff_of_true hn ?_
    rintro hl rm rest hq
    exact absurd hq (hno _ _ hl)

theorem noneStranded_dpWorker (hn : NoneStranded s) :
    NoneStranded { s with server := s.server.dpWorker } := by
  intro hne
  obtain ⟨-, -, hack, -⟩ := dpWorker_frame s.server
  rw [hack] at hne
  have hp := hn hne
  unfold ReplyPending Server.dpWorker
  dsimp only
  split
  · exact hp
  · rename_i c rm rest hq
    exact Or.inr (Or.inl ⟨c, rm, by simp [Server.sendProxy]⟩)

theorem noneStranded_proxyRecv (hn : NoneStranded s) (i : Nat) : NoneStranded (s.proxyRecv i) := by
  unfold System.proxyRecv
  split
  · exact hn
  · rename_i c msg hm
    dsimp only
    split
    · intro _
      exact Or.inr (Or.inr (by simp))
    · rename_i dpm
      intro hne
      rcases hn hne with h | ⟨c', rm, h⟩ | h
      · exact Or.inl h
      · exact Or.inr (Or.inl ⟨c', rm, mem_eraseIdx_of_ne h hm (by simp)⟩)
      · exact Or.inr (Or.inr h)

end Pending

theorem noneStranded_step {cfg : Config} {s : System} (h : WellFormed s) (hn : NoneStranded s) (e : Event) :
    NoneStranded (s.step cfg e) ↔ RouteModEmits cfg s e := by
  -- A step that leaves the server alone and takes nothing from RFProxy.
  have frame : ∀ {s' : System}, s'.server.ackQ = s.server.ackQ → s'.server.dpQ = s.server.dpQ →
      s'.server.toProxy = s.server.toProxy → (∀ m ∈ s.fromProxy, m ∈ s'.fromProxy) → NoneStranded s' := by
    intro s' h1 h2 h3 h4 hne
    rw [h1] at hne
    rcases hn hne with hp | ⟨c, rm, hp⟩ | hp
    · exact Or.inl (by rw [h2]; exact hp)
    · exact Or.inr (Or.inl ⟨c, rm, by rw [h3]; exact hp⟩)
    · exact Or.inr (Or.inr (h4 _ hp))
  cases e with
  | serverClient o v => exact noneStranded_serverClient h hn o v
  | serverProxy o i => exact iff_of_true (noneStranded_serverProxy h hn o i) trivial
  | dpWorker => exact iff_of_true (noneStranded_dpWorker hn) trivial
  | proxyRecv i => exact iff_of_true (noneStranded_proxyRecv hn i) trivial
  | push v rm => exact iff_of_true (frame rfl rfl rfl fun _ hm => hm) trivial
  | restart v => exact iff_of_true (frame rfl rfl rfl fun _ hm => hm) trivial
  | dpUp c d p => exact iff_of_true (frame rfl rfl rfl fun _ hm => List.mem_append_left _ hm) trivial
  | dpDown c d => exact iff_of_true (frame rfl rfl rfl fun _ hm => List.mem_append_left _ hm) trivial
  | send v =>
    refine iff_of_true ?_ trivial
    simp only [System.step, System.clientSend]
    split
    · split
      · exact hn
      · exact frame rfl rfl rfl fun _ hm => hm
    · split
      · exact hn
      · exact frame rfl rfl rfl fun _ hm => hm
    · exact frame rfl rfl rfl fun _ hm => hm
  | mapSend v iface =>
    refine iff_of_true ?_ trivial
    simp only [System.step, System.mapSend]
    split
    · exact frame rfl rfl rfl fun _ hm => hm
    · exact hn
  | mapDeliver i vs vp =>
    refine iff_of_true ?_ trivial
    simp only [System.step, System.mapDeliver]
    split
    · exact hn
    · exact frame rfl rfl rfl fun _ hm => List.mem_append_left _ hm
  | clientRecv v =>
    refine iff_of_true ?_ trivial
    simp only [System.step, System.clientRecv]
    split
    · exact hn
    · exact frame rfl rfl rfl fun _ hm => hm

/-- No ack is stranded in a run exactly if each RouteMod that is handled while nothing is pending
makes a RouteMod for some datapath. -/
theorem acks_not_stranded_iff (cfg : Config) (ifaces : Nat → List Interface) (es : List Event) :
    Always (System.step cfg) NoneStranded (System.init ifaces) es ↔
      Along (System.step cfg) (RouteModEmits cfg) (System.init ifaces) es := by
  refine always_iff_along (I := WellFormed) (fun s e h => h.step e) ?_ (init_wellFormed ifaces) ?_ es
  · intro s e h hn
    exact noneStranded_step h hn e
  · simp [NoneStranded, System.init, Server.init]

/-- The datapath has one port. Its translator is there and its port is mapped, and a route out of that
port makes no flow. -/
theorem ack_stranded :
    let o := Order.insertion
    let es : List Event :=
      [.restart 1, .serverClient o 1, .dpUp 0 5 3, .serverProxy o 0, .dpUp 0 5 3, .serverProxy o 0,
        .mapSend 1 { port := 1, name := "eth1", hwaddress := 7, physical := true }, .mapDeliver 0 0 1,
        .serverProxy o 0, .clientRecv 1, .dpWorker, .dpWorker, .dpWorker, .dpWorker, .dpWorker, .dpWorker,
        .proxyRecv 0, .proxyRecv 0, .proxyRecv 0, .proxyRecv 0, .proxyRecv 0, .proxyRecv 0, .proxyRecv 0,
        .serverProxy o 0, .serverProxy o 0, .serverProxy o 0, .serverProxy o 0, .serverProxy o 0,
        .serverProxy o 0, .push 1 { mod := .add, vmPort := 1 }, .send 1, .send 1, .serverClient o 1]
    ¬ NoneStranded (run (System.step oneLine) (System.init oneVm) es) := by
  intro o es hn
  obtain ⟨hack, hdp, hproxy, hreply⟩ : (run (System.step oneLine) (System.init oneVm) es).server.ackQ ≠ [] ∧
      (run (System.step oneLine) (System.init oneVm) es).server.dpQ = [] ∧
      (run (System.step oneLine) (System.init oneVm) es).server.toProxy = [] ∧
      (run (System.step oneLine) (System.init oneVm) es).fromProxy = [] := by decide +kernel
  rcases hn hack with h | ⟨c, rm, h⟩ | h
  · exact h hdp
  · rw [hproxy] at h
    cases h
  · rw [hreply] at h
    cases h

end RouteFlow
