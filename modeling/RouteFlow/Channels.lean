import RouteFlow.RouteMods
import RouteFlow.System

/-!
# What is in the channels

Which messages each party puts in a channel, and what a handler does to the queues of the server.
-/

namespace RouteFlow

open Store

/-! ## The queues of the server -/

/-- Nothing leaves a queue, and no ack joins one. -/
structure Quiet (s s' : Server) : Prop where
  ackQ : s'.ackQ = s.ackQ
  dpQ : ∃ l, s'.dpQ = s.dpQ ++ l
  toProxy : ∃ l, s'.toProxy = s.toProxy ++ l
  toClient : ∀ v, ∃ l, s'.toClient v = s.toClient v ++ l ∧ ∀ m ∈ l, m.operationId ≠ .routemodAck

namespace Quiet

theorem refl (s : Server) : Quiet s s :=
  ⟨rfl, ⟨[], by simp⟩, ⟨[], by simp⟩, fun _ => ⟨[], by simp⟩⟩

theorem trans {s t u : Server} (h : Quiet s t) (h' : Quiet t u) : Quiet s u := by
  obtain ⟨ha, ⟨d, hd⟩, ⟨p, hp⟩, hc⟩ := h
  obtain ⟨ha', ⟨d', hd'⟩, ⟨p', hp'⟩, hc'⟩ := h'
  refine ⟨ha'.trans ha, ⟨d ++ d', by rw [hd', hd, List.append_assoc]⟩,
    ⟨p ++ p', by rw [hp', hp, List.append_assoc]⟩, fun v => ?_⟩
  obtain ⟨l, hl, hno⟩ := hc v
  obtain ⟨l', hl', hno'⟩ := hc' v
  refine ⟨l ++ l', by rw [hl', hl, List.append_assoc], fun m hm => ?_⟩
  rcases List.mem_append.mp hm with hm | hm
  · exact hno m hm
  · exact hno' m hm

theorem of_eq {s s' : Server} (h1 : s'.ackQ = s.ackQ) (h2 : s'.dpQ = s.dpQ) (h3 : s'.toProxy = s.toProxy)
    (h4 : s'.toClient = s.toClient) : Quiet s s' :=
  ⟨h1, ⟨[], by simp [h2]⟩, ⟨[], by simp [h3]⟩, fun _ => ⟨[], by simp [h4]⟩⟩

theorem sendClient (s : Server) (v : Nat) (m : PortConfig) (hm : m.operationId ≠ .routemodAck) :
    Quiet s (s.sendClient v m) := by
  refine ⟨rfl, ⟨[], by simp [Server.sendClient]⟩, ⟨[], by simp [Server.sendClient]⟩, fun w => ?_⟩
  by_cases hw : w = v
  · subst hw
    exact ⟨[m], by simp [Server.sendClient], by simpa using hm⟩
  · exact ⟨[], by simp [Server.sendClient, hw], by simp⟩

theorem sendProxy (s : Server) (c : Nat) (m : ProxyMsg) : Quiet s (s.sendProxy c m) :=
  ⟨rfl, ⟨[], by simp [Server.sendProxy]⟩, ⟨[(c, m)], rfl⟩, fun _ => ⟨[], by simp [Server.sendProxy]⟩⟩

theorem sendRouteMods (s : Server) (c : Nat) (rms : List RouteMod) : Quiet s (s.sendRouteMods c rms) := by
  rw [Server.sendRouteMods_eq]
  exact ⟨rfl, ⟨_, rfl⟩, ⟨[], by simp⟩, fun _ => ⟨[], by simp⟩⟩

theorem foldl {α : Type} (f : Server → α → Server) (h : ∀ s x, Quiet s (f s x)) (l : List α) (s : Server) :
    Quiet s (l.foldl f s) := by
  induction l generalizing s with
  | nil => exact refl s
  | cons x rest ih => exact (h s x).trans (ih (f s x))

variable (cfg : Config) (o : Order) (s : Server)

theorem registerVmPort (v p : Nat) (m : Mac) : Quiet s (Server.registerVmPort cfg o s v p m).1 := by
  unfold Server.registerVmPort
  split
  · exact of_eq rfl rfl rfl rfl
  · split
    · exact of_eq rfl rfl rfl rfl
    · split
      · split <;> exact of_eq rfl rfl rfl rfl
      · exact refl s

theorem configDp (c d : Nat) : Quiet s (Server.configDp cfg o s c d).1 := by
  unfold Server.configDp
  split
  · exact refl s
  · split
    · split
      · exact refl s
      · dsimp only
        split
        · exact of_eq rfl rfl rfl rfl
        · refine trans ?_ (sendRouteMods _ _ _)
          exact of_eq rfl rfl rfl rfl
    · exact refl s

theorem registerIslLine (c d p : Nat) (conf : RFISLConfEntry) :
    Quiet s (Server.registerIslLine o c d p s conf) := by
  unfold Server.registerIslLine
  dsimp only
  split
  · exact of_eq rfl rfl rfl rfl
  · split
    · split <;> exact of_eq rfl rfl rfl rfl
    · exact refl s

theorem enterDpPort (c d p : Nat) : Quiet s (Server.enterDpPort cfg o s c d p).1 := by
  unfold Server.enterDpPort
  split
  · split
    · exact of_eq rfl rfl rfl rfl
    · exact foldl _ (fun s conf => registerIslLine o s c d p conf) _ s
  · split
    · exact of_eq rfl rfl rfl rfl
    · split
      · split <;> exact of_eq rfl rfl rfl rfl
      · exact refl s

theorem registerDpPort (c d p : Nat) : Quiet s (Server.registerDpPort cfg o s c d p).1 := by
  have h := configDp cfg o s c d
  unfold Server.registerDpPort
  split
  · rename_i s' e hc
    simpa only [hc] using h
  · rename_i s' hc
    simpa only [hc] using h
  · rename_i s' hc
    simp only [hc] at h
    exact h.trans (enterDpPort cfg o s' c d p)

theorem resetVmPort (v p : Option Nat) : Quiet s (s.resetVmPort v p) := by
  cases v with
  | none => exact refl s
  | some v => exact sendClient s v _ (by simp)

theorem setDpPortDown (c d p : Option Nat) : Quiet s (s.setDpPortDown o c d p) := by
  unfold Server.setDpPortDown
  split
  · exact refl s
  · refine trans ?_ (resetVmPort _ _ _)
    exact of_eq rfl rfl rfl rfl

theorem setDpDown (c d : Nat) : Quiet s (Server.setDpDown o s c d) := by
  refine (foldl (fun s (r : Row RFEntry) => s.setDpPortDown o r.val.ctId r.val.dpId r.val.dpPort)
    (fun s r => setDpPortDown o s _ _ _) (RFTable.getDpEntries o s.rftable c d) s).trans ?_
  exact of_eq rfl rfl rfl rfl

theorem mapPort (v p vs vp : Nat) : Quiet s (Server.mapPort o s v p vs vp) := by
  unfold Server.mapPort
  split
  · exact refl s
  · split
    · refine trans (trans ?_ (sendProxy _ _ _)) (sendClient _ v ⟨v, p, .mapSuccess⟩ (by simp))
      exact of_eq rfl rfl rfl rfl
    · exact refl s

theorem process {msg : Msg} (h : ∀ rm, msg ≠ .routeMod rm) (h' : msg ≠ .routeModReply) :
    Quiet s (Server.process cfg o s msg).1 := by
  cases msg with
  | portRegister v p m => exact registerVmPort cfg o s v p m
  | routeMod rm => exact absurd rfl (h rm)
  | datapathPortRegister c d p => exact registerDpPort cfg o s c d p
  | datapathDown c d => exact setDpDown o s c d
  | virtualPlaneMap v p vs vp => exact mapPort o s v p vs vp
  | routeModReply => exact absurd rfl h'

end Quiet

/-! ## What the server owes a client -/

/-- The message is an ack for a RouteMod. -/
def PortConfig.isAck (m : PortConfig) : Bool := m.operationId == .routemodAck

/-- The acks for the client in `ack_q`. -/
def acksQueued (s : Server) (v : Nat) : Nat := s.ackQ.countP fun a => a.1 == v

/-- The acks on their way to the client. -/
def acksInFlight (s : Server) (v : Nat) : Nat := (s.toClient v).countP PortConfig.isAck

/-- Nothing but acks is in `ack_q`. -/
def AcksOnly (s : Server) : Prop := ∀ a ∈ s.ackQ, a.2.isAck = true

theorem Quiet.acks {s s' : Server} (h : Quiet s s') (v : Nat) :
    acksQueued s' v = acksQueued s v ∧ acksInFlight s' v = acksInFlight s v := by
  obtain ⟨l, hl, hno⟩ := h.toClient v
  refine ⟨by rw [acksQueued, h.ackQ]; rfl, ?_⟩
  have : l.countP PortConfig.isAck = 0 := by
    rw [List.countP_eq_zero]
    intro m hm
    simpa [PortConfig.isAck] using hno m hm
  rw [acksInFlight, hl, List.countP_append, this]
  rfl

theorem sendAll_acks (acks : List (Nat × PortConfig)) (s : Server)
    (ha : ∀ a ∈ acks, a.2.isAck = true) (v : Nat) :
    acksInFlight (acks.foldl (fun s (a : Nat × PortConfig) => s.sendClient a.1 a.2) s) v =
      acksInFlight s v + acks.countP fun a => a.1 == v := by
  induction acks generalizing s with
  | nil => rfl
  | cons a rest ih =>
    rw [List.foldl_cons, ih _ fun x hx => ha x (List.mem_cons_of_mem _ hx), List.countP_cons]
    have hack := ha a List.mem_cons_self
    by_cases hv : a.1 = v
    · subst hv
      simp [acksInFlight, Server.sendClient, List.countP_append, hack]
      omega
    · have hv' : v ≠ a.1 := fun h => hv h.symm
      simp [acksInFlight, Server.sendClient, hv, hv']

theorem sendRoutemodAcks_acks (s : Server) (ha : AcksOnly s) (v : Nat) :
    acksQueued s.sendRoutemodAcks v = 0 ∧
      acksInFlight s.sendRoutemodAcks v = acksInFlight s v + acksQueued s v := by
  refine ⟨rfl, ?_⟩
  exact sendAll_acks s.ackQ s ha v

section Process

variable {cfg : Config} {o : Order} {s : Server} (hs : RFShaped s.rftable) (hi : IslShaped s.isltable)
include hs hi

theorem registerRouteMod_acks (rm : RouteMod) (v : Nat) :
    let s' := (Server.registerRouteMod cfg o s rm).1
    acksInFlight s' v = acksInFlight s v ∧
      (Handled cfg o s rm → acksQueued s' v = acksQueued s v + if rm.id = v then 1 else 0) ∧
      (¬ Handled cfg o s rm → acksQueued s' v = acksQueued s v) := by
  intro s'
  by_cases h : Handled cfg o s rm
  · obtain ⟨trs, c, rms, heq, -⟩ := registerRouteMod_handled hs hi h
    simp only [s', heq]
    refine ⟨rfl, fun _ => ?_, fun hno => absurd h hno⟩
    simp [acksQueued, List.countP_append, List.countP_cons, routemodAck]
  · obtain ⟨trs, e, heq⟩ := registerRouteMod_not_handled hs hi h
    simp only [s', heq]
    exact ⟨rfl, fun hh => absurd hh h, fun _ => rfl⟩

theorem process_acksOnly (ha : AcksOnly s) (msg : Msg) : AcksOnly (Server.process cfg o s msg).1 := by
  by_cases hrm : ∃ rm, msg = .routeMod rm
  · obtain ⟨rm, rfl⟩ := hrm
    by_cases h : Handled cfg o s rm
    · obtain ⟨trs, c, rms, heq, -⟩ := registerRouteMod_handled hs hi h
      simp only [Server.process, heq]
      intro a hmem
      rcases List.mem_append.mp hmem with hmem | hmem
      · exact ha a hmem
      · rw [List.mem_singleton.mp hmem]
        rfl
    · obtain ⟨trs, e, heq⟩ := registerRouteMod_not_handled hs hi h
      simp only [Server.process, heq]
      exact ha
  · by_cases hre : msg = .routeModReply
    · subst hre
      intro a hmem
      simp [Server.process, Server.sendRoutemodAcks] at hmem
    · have hq := Quiet.process cfg o s (fun rm h => hrm ⟨rm, h⟩) hre
      intro a hmem
      rw [hq.ackQ] at hmem
      exact ha a hmem

end Process

/-! ## Well-formed systems -/

def Msg.isRouteMod : Msg → Bool
  | .routeMod _ => true
  | _ => false

/-- What the client `v` may send. -/
def Msg.FromClient (v : Nat) : Msg → Prop
  | .portRegister w _ _ => w = v
  | .routeMod rm => rm.id = v
  | _ => False

/-- What RFProxy may send. -/
def Msg.FromProxy : Msg → Prop
  | .portRegister _ _ _ | .routeMod _ => False
  | _ => True

/-- What every reachable state of the system has. -/
structure WellFormed (s : System) : Prop where
  rf : RFShaped s.server.rftable
  isl : IslShaped s.server.isltable
  acks : AcksOnly s.server
  rmQ : ∀ v, ∀ rm ∈ (s.clients v).rmQ, rm.id = v
  fromClient : ∀ v, ∀ m ∈ s.toServer v, m.FromClient v
  fromProxy : ∀ m ∈ s.fromProxy, m.FromProxy

@[simp] theorem RouteMod.addMatch_id (rm : RouteMod) (m : Match) : (rm.addMatch m).id = rm.id := rfl
@[simp] theorem RouteMod.addOption_id (rm : RouteMod) (x : RFOption) : (rm.addOption x).id = rm.id := rfl

theorem controllerRouteMod_id (vmId port vlan : Nat) (matchMac : Bool) (hw : Mac) (matchIP : Bool)
    (ip : IPAddress) : (controllerRouteMod vmId port vlan matchMac hw matchIP ip).id = vmId := by
  unfold controllerRouteMod
  cases matchMac <;> cases matchIP <;> cases ip.version <;> by_cases hv : vlan = 0 <;> simp [hv]

theorem interfaceToControllerRouteMods_id (vmId : Nat) (iface : Interface) :
    ∀ rm ∈ interfaceToControllerRouteMods vmId iface, rm.id = vmId := by
  intro rm hrm
  obtain ⟨ip, -, hrm⟩ := List.mem_flatMap.mp hrm
  unfold addressRouteMods at hrm
  cases hv : ip.version <;> simp only [hv, List.mem_append, List.mem_cons, List.not_mem_nil, or_false] at hrm
  all_goals
    rcases hrm with (rfl | rfl) | rfl | rfl | rfl | rfl <;> simp [controllerRouteMod_id]

theorem RFClient.process_rmQ (v : Nat) (c : RFClient) (m : PortConfig) (h : ∀ rm ∈ c.rmQ, rm.id = v) :
    ∀ rm ∈ (c.process v m).rmQ, rm.id = v := by
  unfold RFClient.process
  cases m.operationId with
  | mapSuccess =>
    intro rm hrm
    rcases List.mem_append.mp hrm with hrm | hrm
    · exact h rm hrm
    · obtain ⟨iface, -, hrm⟩ := List.mem_flatMap.mp hrm
      exact interfaceToControllerRouteMods_id v iface rm hrm
  | mapRequest | reset | routemodAck => exact h

theorem init_wellFormed (ifaces : Nat → List Interface) : WellFormed (System.init ifaces) where
  rf := init_shaped
  isl := init_islShaped
  acks := by simp [AcksOnly, System.init, Server.init]
  rmQ := by simp [System.init, RFClient.restart]
  fromClient := by simp [System.init]
  fromProxy := by simp [System.init]

theorem dpWorker_frame (srv : Server) : srv.dpWorker.rftable = srv.rftable ∧
    srv.dpWorker.isltable = srv.isltable ∧ srv.dpWorker.ackQ = srv.ackQ ∧
    srv.dpWorker.toClient = srv.toClient := by
  unfold Server.dpWorker
  split <;> exact ⟨rfl, rfl, rfl, rfl⟩

/-! ## The clients -/

/-- The client whose own step it is. -/
def Event.client : Event → Option Nat
  | .push v _ | .send v | .clientRecv v | .restart v => some v
  | _ => none

theorem setClient_other {s : System} {v w : Nat} (hw : w ≠ v) (c : RFClient) :
    (s.setClient w c).clients v = s.clients v := by
  have hvw : v ≠ w := fun he => hw he.symm
  simp [System.setClient, hvw]

theorem clientSend_other {s : System} {v w : Nat} (hw : w ≠ v) :
    (s.clientSend w).clients v = s.clients v := by
  unfold System.clientSend
  dsimp only
  split
  · split
    · rfl
    · exact setClient_other hw _
  · split
    · rfl
    · exact setClient_other hw _
  · exact setClient_other hw _

theorem clientRecv_other {s : System} {v w : Nat} (hw : w ≠ v) :
    (s.clientRecv w).clients v = s.clients v := by
  unfold System.clientRecv
  split
  · rfl
  · exact setClient_other hw _

theorem step_clients {cfg : Config} {s : System} {e : Event} {v : Nat} (he : e.client ≠ some v) :
    (s.step cfg e).clients v = s.clients v := by
  have hother : ∀ w, e.client = some w → w ≠ v := by
    rintro w hw rfl
    exact he hw
  cases e with
  | push w rm => exact setClient_other (hother w rfl) _
  | send w => exact clientSend_other (hother w rfl)
  | clientRecv w => exact clientRecv_other (hother w rfl)
  | restart w => exact setClient_other (hother w rfl) _
  | serverClient o w =>
    unfold System.step System.serverClient
    dsimp only
    split <;> rfl
  | serverProxy o i =>
    unfold System.step System.serverProxy
    dsimp only
    split <;> rfl
  | proxyRecv i =>
    unfold System.step System.proxyRecv
    dsimp only
    split
    · rfl
    · split <;> rfl
  | mapSend w iface =>
    unfold System.step System.mapSend
    dsimp only
    split <;> rfl
  | mapDeliver i vs vp =>
    unfold System.step System.mapDeliver
    dsimp only
    split <;> rfl
  | dpWorker | dpUp _ _ _ | dpDown _ _ => rfl

namespace WellFormed

variable {cfg : Config} {s : System} (h : WellFormed s)
include h

theorem setClient (v : Nat) (c : RFClient) (hc : ∀ rm ∈ c.rmQ, rm.id = v) : WellFormed (s.setClient v c) where
  rf := h.rf
  isl := h.isl
  acks := h.acks
  rmQ := by
    intro w rm hrm
    by_cases hw : w = v
    · subst hw
      simp only [System.setClient, Function.update_self] at hrm
      exact hc rm hrm
    · simp only [System.setClient, ne_eq, hw, not_false_eq_true, Function.update_of_ne] at hrm
      exact h.rmQ w rm hrm
  fromClient := h.fromClient
  fromProxy := h.fromProxy

theorem sendServer (v : Nat) (msgs : List Msg) (hm : ∀ m ∈ msgs, m.FromClient v) :
    WellFormed (s.sendServer v msgs) where
  rf := h.rf
  isl := h.isl
  acks := h.acks
  rmQ := h.rmQ
  fromClient := by
    intro w m hmem
    by_cases hw : w = v
    · subst hw
      simp only [System.sendServer, Function.update_self, List.mem_append] at hmem
      exact hmem.elim (h.fromClient w m) (hm m)
    · simp only [System.sendServer, ne_eq, hw, not_false_eq_true, Function.update_of_ne] at hmem
      exact h.fromClient w m hmem
  fromProxy := h.fromProxy

theorem setServer {srv : Server} (hr : RFShaped srv.rftable) (hl : IslShaped srv.isltable)
    (ha : AcksOnly srv) :
    WellFormed { s with server := srv } :=
  { h with rf := hr, isl := hl, acks := ha }

theorem appendProxy (msgs : List Msg) (hm : ∀ m ∈ msgs, m.FromProxy) :
    WellFormed { s with fromProxy := s.fromProxy ++ msgs } :=
  { h with fromProxy := fun m hmem => (List.mem_append.mp hmem).elim (h.fromProxy m) (hm m) }

theorem step_serverClient (o : Order) (v : Nat) : WellFormed (s.serverClient cfg o v) := by
  unfold System.serverClient
  split
  · rename_i msg rest _ hq
    refine ⟨step_shaped h.rf (o, msg), step_islShaped h.isl (o, msg), process_acksOnly h.rf h.isl h.acks msg,
      h.rmQ, ?_, h.fromProxy⟩
    intro w m hmem
    by_cases hw : w = v
    · subst hw
      simp only [Function.update_self] at hmem
      exact h.fromClient w m (by rw [hq]; exact List.mem_cons_of_mem _ hmem)
    · simp only [ne_eq, hw, not_false_eq_true, Function.update_of_ne] at hmem
      exact h.fromClient w m hmem
  · exact h

theorem step_serverProxy (o : Order) (i : Nat) : WellFormed (s.serverProxy cfg o i) := by
  unfold System.serverProxy
  split
  · rename_i msg _ hm
    exact ⟨step_shaped h.rf (o, msg), step_islShaped h.isl (o, msg), process_acksOnly h.rf h.isl h.acks msg,
      h.rmQ, h.fromClient, fun m hmem => h.fromProxy m (List.mem_of_mem_eraseIdx hmem)⟩
  · exact h

theorem step_send (v : Nat) : WellFormed (s.clientSend v) := by
  unfold System.clientSend
  dsimp only
  split
  · split
    · exact h
    · exact h.setClient v _ (h.rmQ v)
  · split
    · exact h
    · rename_i rm rest hq
      have hid : ∀ x ∈ rm :: rest, x.id = v := fun x hx => h.rmQ v x (hq ▸ hx)
      refine (h.setClient v _ fun x hx => hid x (List.mem_cons_of_mem _ hx)).sendServer v _ fun m hm => ?_
      rw [List.mem_singleton.mp hm]
      exact hid rm List.mem_cons_self
  · exact h.setClient v _ (h.rmQ v)

theorem step_proxyRecv (i : Nat) : WellFormed (s.proxyRecv i) := by
  unfold System.proxyRecv
  split
  · exact h
  · dsimp only
    split
    · have hs : WellFormed { s with server := { s.server with toProxy := s.server.toProxy.eraseIdx i } } :=
        h.setServer h.rf h.isl h.acks
      exact hs.appendProxy _ (by simp [Msg.FromProxy])
    · exact h.setServer h.rf h.isl h.acks

theorem step_clientRecv (v : Nat) : WellFormed (s.clientRecv v) := by
  unfold System.clientRecv
  split
  · exact h
  · rename_i config rest hq
    have hsrv : WellFormed { s with server :=
        { s.server with toClient := Function.update s.server.toClient v rest } } :=
          h.setServer h.rf h.isl h.acks
    exact hsrv.setClient v _ (RFClient.process_rmQ v _ _ (h.rmQ v))

theorem step_restart (v : Nat) : WellFormed (s.restart v) := by
  unfold System.restart
  refine (h.setClient v _ (by simp [RFClient.restart])).sendServer v _ fun m hm => ?_
  obtain ⟨iface, -, rfl⟩ := List.mem_map.mp hm
  rfl

theorem step (e : Event) : WellFormed (s.step cfg e) := by
  cases e with
  | push v rm =>
    refine h.setClient v _ fun x hx => ?_
    rcases List.mem_append.mp hx with hx | hx
    · exact h.rmQ v x hx
    · rw [List.mem_singleton.mp hx]
      rfl
  | send v => exact h.step_send v
  | serverClient o v => exact h.step_serverClient o v
  | serverProxy o i => exact h.step_serverProxy o i
  | dpWorker =>
    obtain ⟨h1, h2, h3, -⟩ := dpWorker_frame s.server
    refine h.setServer (by rw [h1]; exact h.rf) (by rw [h2]; exact h.isl) fun a ha => h.acks a ?_
    rw [h3] at ha
    exact ha
  | proxyRecv i => exact h.step_proxyRecv i
  | dpUp c d p => exact h.appendProxy [.datapathPortRegister c d p] (by simp [Msg.FromProxy])
  | dpDown c d => exact h.appendProxy [.datapathDown c d] (by simp [Msg.FromProxy])
  | mapSend v iface =>
    simp only [System.step, System.mapSend]
    split
    · exact { h with }
    · exact h
  | mapDeliver i vs vp =>
    simp only [System.step, System.mapDeliver]
    split
    · exact h
    · rename_i v p _
      exact { h.appendProxy [.virtualPlaneMap v p vs vp] (by simp [Msg.FromProxy]) with }
  | clientRecv v => exact h.step_clientRecv v
  | restart v => exact h.step_restart v

end WellFormed

end RouteFlow
