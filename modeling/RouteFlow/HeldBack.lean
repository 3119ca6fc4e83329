import RouteFlow.SentOnce

/-!
# RouteMods that are held back

The resolver thread beside the interfaces of the client. A route and a neighbour carry a copy of their
interface from the time of the netlink event. What is for an inactive copy is held back, and released when
the interface itself comes up.
-/

namespace RouteFlow

open FlowTable

/-! ## The threads of the client -/

/-- A map by name. -/
structure IfacesMap where
  ifaces : List Interface
  nodup : (ifaces.map Interface.name).Nodup

namespace IfacesMap

theorem setActive_names (active : Bool) (vmPort : Nat) (ifaces : List Interface) :
    (RFClient.setActive active vmPort ifaces).map Interface.name = ifaces.map Interface.name := by
  unfold RFClient.setActive
  rw [List.map_map]
  apply List.map_congr_left
  intro iface _
  dsimp only [Function.comp_apply]
  split <;> rfl

/-- The map keeps its names. -/
def setActive (active : Bool) (vmPort : Nat) (m : IfacesMap) : IfacesMap where
  ifaces := RFClient.setActive active vmPort m.ifaces
  nodup := by
    rw [setActive_names]
    exact m.nodup

theorem eq_of_name {m : IfacesMap} {a b : Interface} (ha : a ∈ m.ifaces) (hb : b ∈ m.ifaces)
    (h : a.name = b.name) :
    a = b := List.inj_on_of_nodup_map m.nodup ha hb h

end IfacesMap

/-- `valid` is whether the state of the neighbour has NUD_VALID. -/
structure RtnlNeigh where
  dst : IPAddress
  lladdr : Option Mac
  intf : String
  valid : Bool := true

/-- The checks of `updateHostTable`. -/
def FlowTable.neighbour (ifaces : List Interface) (neigh : RtnlNeigh)
    (action : NlAction) : Option HostEntry := do
  if action ≠ .new then none
  if neigh.valid = false then none
  if neigh.intf = DEFAULT_RFCLIENT_INTERFACE then none
  let interface ← ifaces.find? fun iface => iface.name = neigh.intf
  let hwaddress ← neigh.lladdr
  return ⟨neigh.dst, hwaddress, interface⟩

/-- A call that was held back, and whether it was for a route. -/
structure Held where
  call : HwCall
  forRoute : Bool

/-- The entry of `cachedRm` that the call leaves. -/
def Held.cached (h : Held) : String × CachedRM :=
  (h.call.localIface.name, ⟨h.call.mod, h.call.addr, h.call.mask, h.call.gateway⟩)

/-- A call for an inactive copy of its interface is held back. -/
def Held.ofNote : Note → Option Held
  | .route c => if c.localIface.active then none else some ⟨c, true⟩
  | .host c => if c.localIface.active then none else some ⟨c, false⟩
  | _ => none

/-- The call is an RMT_ADD of the route under `k`. -/
def Held.Adds (inet : Inet) (h : Held) (k : Text) : Prop :=
  h.forRoute = true ∧ h.call.mod = .add ∧ h.call.key inet = k

/-- `held` tells whose the entries of `cachedRm` are. The code keeps no such list. -/
structure ClientThreads where
  ifacesMap : IfacesMap
  thread : ResolverThread := {}
  held : List Held := []

namespace ClientThreads

abbrev ft (c : ClientThreads) : FlowTable := c.thread.ft

section Steps

variable (vmId : Nat) (inet : Inet)

/-- A step of the resolver or netlink thread. What it logs tells what was held back. -/
def threadStep (c : ClientThreads) (a : ResolverThread.Act) : ClientThreads :=
  let thread := c.thread.step vmId inet a
  { c with thread := thread, held := c.held ++ (thread.log.drop c.thread.log.length).filterMap Held.ofNote }

/-- One round of `sendAllInterfaceToControllerRouteMods`. -/
def announce (ft : FlowTable) (iface : Interface) : FlowTable :=
  notifyPortUp vmId { ft with rmQ := ft.rmQ ++ interfaceToControllerRouteMods vmId iface } iface

/-- The interfaces that come up, already active. -/
def comingUp (c : ClientThreads) (vmPort : Nat) : List Interface :=
  (c.ifacesMap.ifaces.filter fun iface => iface.port = vmPort).map fun iface => { iface with active := true }

/-- `PCT_MAP_SUCCESS`: the interfaces of the port come up, and each one releases what was held back for it. -/
def mapSuccess (c : ClientThreads) (vmPort : Nat) : ClientThreads where
  ifacesMap := c.ifacesMap.setActive true vmPort
  thread := { c.thread with ft := (c.comingUp vmPort).foldl (announce vmId) c.ft }
  held := c.held.filter fun h => h.call.localIface.name ∉ (c.comingUp vmPort).map Interface.name

/-- Netlink events, looks of the resolver, and what RFServer tells the client. -/
inductive Act where
  | route (route : RtnlRoute) (action : NlAction)
  | neigh (neigh : RtnlNeigh) (action : NlAction)
  | look
  | mapSuccess (vmPort : Nat)
  | reset (vmPort : Nat)

def step (c : ClientThreads) : Act → ClientThreads
  | .route route action =>
    match updateRouteTable c.ifacesMap.ifaces route action with
    | some pr => c.threadStep vmId inet (.route pr)
    | none => c
  | .neigh neigh action =>
    match neighbour c.ifacesMap.ifaces neigh action with
    | some hentry => c.threadStep vmId inet (.host hentry)
    | none => c
  | .look => c.threadStep vmId inet .look
  | .mapSuccess vmPort => c.mapSuccess vmId vmPort
  | .reset vmPort => { c with ifacesMap := c.ifacesMap.setActive false vmPort }

end Steps

variable {vmId : Nat} {inet : Inet}

/-! ## Coming up -/

/-- What `notify_port_up` releases. -/
def release (vmId : Nat) (iface : Interface) (c : String × CachedRM) : RouteMod :=
  sendToHw vmId c.2.mod c.2.addr c.2.mask iface c.2.gateway

theorem handOver_active {ft : FlowTable} {c : HwCall} (h : c.localIface.active = true) :
    ft.handOver vmId c = { ft with
      calls := ft.calls ++ [c]
      rmQ := ft.rmQ ++ [sendToHw vmId c.mod c.addr c.mask c.localIface c.gateway] } := if_pos h

theorem handOver_inactive {ft : FlowTable} {c : HwCall} (h : c.localIface.active = false) :
    ft.handOver vmId c = { ft with
      calls := ft.calls ++ [c]
      cachedRm := ft.cachedRm ++ [(c.localIface.name, ⟨c.mod, c.addr, c.mask, c.gateway⟩)] } :=
  if_neg (by rw [h]; exact Bool.false_ne_true)

/-- What happens to the queue and to what is held back, with the routes and hosts as they were. -/
structure Releases (ft ft' : FlowTable) (kept : List (String × CachedRM)) (rms : List RouteMod) : Prop where
  routes : SameRoutes ft ft'
  cached : ft'.cachedRm = kept
  queued : ft'.rmQ = ft.rmQ ++ rms

theorem handOver_releases {iface : Interface} (h : iface.active = true) (mine : List (String × CachedRM))
    (ft : FlowTable) :
    Releases ft
      (mine.foldl (fun ft c => ft.handOver vmId ⟨c.2.mod, c.2.addr, c.2.mask, iface, c.2.gateway⟩) ft)
      ft.cachedRm (mine.map (release vmId iface)) := by
  induction mine generalizing ft with
  | nil => exact ⟨.refl ft, rfl, (List.append_nil _).symm⟩
  | cons c rest ih =>
    rw [List.foldl_cons, handOver_active h]
    obtain ⟨hroutes, hcached, hqueued⟩ := ih _
    refine ⟨⟨hroutes.table, hroutes.unresolved, hroutes.pending⟩, hcached, ?_⟩
    rw [hqueued, List.map_cons, List.append_assoc]
    rfl

theorem announce_releases {u : Interface} (h : u.active = true) (ft : FlowTable) :
    ∃ rms, Releases ft (announce vmId ft u) (ft.cachedRm.filter fun c => c.1 ≠ u.name) rms ∧
      ∀ c ∈ ft.cachedRm, c.1 = u.name → release vmId u c ∈ rms := by
  obtain ⟨hroutes, hcached, hqueued⟩ := @handOver_releases vmId u h (ft.cachedRm.filter fun c => c.1 = u.name)
    { ft with
      rmQ := ft.rmQ ++ interfaceToControllerRouteMods vmId u
      cachedRm := ft.cachedRm.filter fun c => c.1 ≠ u.name }
  rw [List.append_assoc] at hqueued
  refine ⟨_, ⟨⟨hroutes.table, hroutes.unresolved, hroutes.pending⟩, hcached, hqueued⟩, ?_⟩
  intro c hc hname
  refine List.mem_append_right _ (List.mem_map_of_mem ?_)
  exact List.mem_filter.mpr ⟨hc, by simpa using hname⟩

theorem announceAll_releases {ups : List Interface} (hactive : ∀ u ∈ ups, u.active = true)
    (hnodup : (ups.map Interface.name).Nodup) (ft : FlowTable) :
    ∃ rms, Releases ft (ups.foldl (announce vmId) ft)
      (ft.cachedRm.filter fun c => c.1 ∉ ups.map Interface.name) rms ∧
      ∀ u ∈ ups, ∀ c ∈ ft.cachedRm, c.1 = u.name → release vmId u c ∈ rms := by
  induction ups generalizing ft with
  | nil => exact ⟨[], ⟨.refl ft, by simp, by simp⟩, by simp⟩
  | cons u ups ih =>
    obtain ⟨hu, hups⟩ := List.forall_mem_cons.mp hactive
    obtain ⟨hfresh, hnodup⟩ := List.nodup_cons.mp hnodup
    obtain ⟨rms₁, hfirst, hmine⟩ := @announce_releases vmId u hu ft
    obtain ⟨rms₂, hrest, hall⟩ := ih hups hnodup (announce vmId ft u)
    refine ⟨rms₁ ++ rms₂, ⟨hfirst.routes.trans hrest.routes, ?_, ?_⟩, ?_⟩
    · rw [List.foldl_cons, hrest.cached, hfirst.cached, List.filter_filter]
      apply List.filter_congr
      intro c _
      rw [← Bool.decide_and, decide_eq_decide, List.map_cons, List.mem_cons, not_or]
      exact and_comm
    · rw [List.foldl_cons, hrest.queued, hfirst.queued, List.append_assoc]
    · intro v hv c hc hname
      rcases List.mem_cons.mp hv with rfl | hv
      · exact List.mem_append_left _ (hmine c hc hname)
      · -- It has another name, so the first interface leaves it.
        refine List.mem_append_right _ (hall v hv c ?_ hname)
        rw [hfirst.cached]
        refine List.mem_filter.mpr ⟨hc, ?_⟩
        have hne : c.1 ≠ u.name := by
          rw [hname]
          intro heq
          exact hfresh (heq ▸ List.mem_map_of_mem hv)
        simpa using hne

theorem comingUp_names (c : ClientThreads) (vmPort : Nat) :
    (c.comingUp vmPort).map Interface.name =
      (c.ifacesMap.ifaces.filter fun iface => iface.port = vmPort).map Interface.name := by
  unfold comingUp
  rw [List.map_map]
  rfl

theorem mapSuccess_releases (c : ClientThreads) (vmPort : Nat) :
    ∃ rms, Releases c.ft (c.mapSuccess vmId vmPort).ft
        (c.ft.cachedRm.filter fun e => e.1 ∉ (c.comingUp vmPort).map Interface.name) rms ∧
      ∀ u ∈ c.comingUp vmPort, ∀ e ∈ c.ft.cachedRm, e.1 = u.name → release vmId u e ∈ rms := by
  apply announceAll_releases
  · intro u hu
    obtain ⟨iface, -, rfl⟩ := List.mem_map.mp hu
    rfl
  · rw [comingUp_names]
    exact c.ifacesMap.nodup.sublist (List.filter_sublist.map _)

/-! ## What should hold -/

/-- `held` lists whose the entries of `cachedRm` are. -/
def Recorded (c : ClientThreads) : Prop := c.ft.cachedRm = c.held.map Held.cached

/-- Nothing is held back for an interface that is active, and an interface that comes up releases all
that is held back for it. -/
structure Unstranded (vmId : Nat) (c : ClientThreads) : Prop where
  recorded : c.ft.cachedRm = c.held.map Held.cached
  inactive : ∀ e ∈ c.ft.cachedRm, ∀ iface ∈ c.ifacesMap.ifaces, iface.name = e.1 → iface.active = false
  released : ∀ iface ∈ c.ifacesMap.ifaces, ∀ e ∈ c.ft.cachedRm, iface.name = e.1 →
    release vmId { iface with active := true } e ∈ (c.mapSuccess vmId iface.port).ft.rmQ

/-- No route is held back that has been deleted. -/
def Standing (inet : Inet) (c : ClientThreads) : Prop :=
  ∀ h ∈ c.held, ∀ k, h.Adds inet k → k ∈ c.ft.routeTable

/-- A route that is sent with an inactive copy of its interface is for an interface that is inactive now. -/
def Fresh (inet : Inet) (c : ClientThreads) : Act → Prop
  | .look =>
    match c.thread.place with
    | .send _ re | .resend _ re _ _ => c.ft.findHost inet re.gateway ≠ MAC_ADDR_NONE →
    re.interface.active = false →
        ∀ iface ∈ c.ifacesMap.ifaces, iface.name = re.interface.name → iface.active = false
    | _ => True
  | _ => True

/-- A route that is deleted is not held back. -/
def Unheld (inet : Inet) (c : ClientThreads) : Act → Prop
  | .look => c.thread.place = .drain → ∀ pr ∈ c.ft.pendingRoutes.head?, pr.type = .delete →
      ∀ h ∈ c.held, ¬ h.Adds inet (pr.rentry.toString inet)
  | _ => True

theorem released_always (c : ClientThreads) {iface : Interface} (hi : iface ∈ c.ifacesMap.ifaces)
    {e : String × CachedRM} (he : e ∈ c.ft.cachedRm) (hname : iface.name = e.1) :
    release vmId { iface with active := true } e ∈ (c.mapSuccess vmId iface.port).ft.rmQ := by
  obtain ⟨rms, hrel, hall⟩ := @mapSuccess_releases vmId c iface.port
  rw [hrel.queued]
  refine List.mem_append_right _ (hall _ (List.mem_map_of_mem ?_) e he hname.symm)
  exact List.mem_filter.mpr ⟨hi, by simp⟩

/-! ## Looks -/

/-- What a look can do to the routes and to what is held back. -/
inductive LookEffect (inet : Inet) (c c' : ClientThreads) : Prop where
  | quiet : Fresh inet c .look → (Standing inet c → Unheld inet c .look) → c'.held = c.held →
      c'.ft.cachedRm = c.ft.cachedRm → (∀ k ∈ c.ft.routeTable, k ∈ c'.ft.routeTable) → LookEffect inet c c'
  | erased (key : Text) : Fresh inet c .look → (Unheld inet c .look ↔ ∀ h ∈ c.held, ¬ h.Adds inet key) →
      c'.held = c.held → c'.ft.cachedRm = c.ft.cachedRm → c'.ft.routeTable = c.ft.routeTable.erase key →
      LookEffect inet c c'
  | kept (call : HwCall) : Unheld inet c .look →
      (Fresh inet c .look ↔
        ∀ iface ∈ c.ifacesMap.ifaces, iface.name = call.localIface.name → iface.active = false) →
      (call.mod = .add → call.key inet ∈ c.ft.routeTable) →
      c'.held = c.held ++ [⟨call, true⟩] → c'.ft.cachedRm = c.ft.cachedRm ++ [Held.cached ⟨call, true⟩] →
      c'.ft.routeTable = c.ft.routeTable → LookEffect inet c c'

theorem threadStep_held {c : ClientThreads} {a : ResolverThread.Act} {notes : List Note}
    (h : (c.thread.step vmId inet a).log = c.thread.log ++ notes) :
    (c.threadStep vmId inet a).held = c.held ++ notes.filterMap Held.ofNote := by
  unfold threadStep
  dsimp only
  rw [h, List.drop_left]

theorem send_effect {c : ClientThreads} {mod : RouteModType} {re : RouteEntry} {place : Place}
    (hfresh : Fresh inet c .look ↔
      (c.ft.findHost inet re.gateway ≠ MAC_ADDR_NONE → re.interface.active = false →
      ∀ iface ∈ c.ifacesMap.ifaces, iface.name = re.interface.name → iface.active = false))
    (hunheld : Unheld inet c .look) (hmem : mod = .add → re.toString inet ∈ c.ft.routeTable)
    (hlook : c.thread.look vmId inet =
      { c.thread.noting .route (·.sendRouteToHw vmId inet mod re) with place := place }) :
    LookEffect inet c (c.step vmId inet .look) := by
  have hsame := @sendRouteToHw_sameRoutes inet vmId c.ft mod re
  have hft : (c.step vmId inet .look).ft = c.ft.sendRouteToHw vmId inet mod re :=
    congrArg ResolverThread.ft hlook
  have htable : (c.step vmId inet .look).ft.routeTable = c.ft.routeTable := by rw [hft, hsame.table]
  by_cases hknown : ResolverThread.Known inet c.ft re.gateway
  · have hlog : (c.thread.step vmId inet .look).log = c.thread.log ++
        [.route ⟨mod, re.address, re.netmask, re.interface, c.ft.findHost inet re.gateway⟩] :=
      (congrArg ResolverThread.log hlook).trans (ResolverThread.noting_send_known hknown mod)
    have hheld := threadStep_held hlog
    rw [ResolverThread.sendRouteToHw_known hknown] at hft
    cases hactive : re.interface.active with
    | true =>
      refine .quiet ?_ (fun _ => hunheld) ?_ ?_ (fun k hk => by rw [htable]; exact hk)
      · rw [hfresh, hactive]
        exact fun _ hno => nomatch hno
      · simp only [List.filterMap_cons, Held.ofNote, hactive, if_true, List.filterMap_nil,
          List.append_nil] at hheld
        exact hheld
      · rw [hft, handOver_active hactive]
    | false =>
      refine .kept ⟨mod, re.address, re.netmask, re.interface, c.ft.findHost inet re.gateway⟩ hunheld ?_
        hmem ?_ ?_ htable
      · rw [hfresh]
        exact ⟨fun h => h hknown hactive, fun h _ _ => h⟩
      · simp only [List.filterMap_cons, Held.ofNote, hactive, Bool.false_eq_true, if_false,
          List.filterMap_nil] at hheld
        exact hheld
      · rw [hft, handOver_inactive hactive]
        rfl
  · refine .quiet ?_ (fun _ => hunheld) ?_ ?_ (fun k hk => by rw [htable]; exact hk)
    · rw [hfresh]
      exact fun hk => absurd hk hknown
    · have hlog : (c.thread.step vmId inet .look).log = c.thread.log ++ [] := by
        refine (congrArg ResolverThread.log hlook).trans ?_
        rw [ResolverThread.noting_send_unknown hknown, List.append_nil]
      exact (threadStep_held hlog).trans (List.append_nil _)
    · rw [hft, ResolverThread.sendRouteToHw_unknown (not_not.mp hknown)]

theorem move_effect {c : ClientThreads} {t : ResolverThread} (hlook : c.thread.look vmId inet = t)
    (hfresh : Fresh inet c .look) (hunheld : Standing inet c → Unheld inet c .look)
    (hlog : t.log = c.thread.log) (hcached : t.ft.cachedRm = c.ft.cachedRm)
    (htable : t.ft.routeTable = c.ft.routeTable) :
    LookEffect inet c (c.step vmId inet .look) := by
  subst hlook
  refine .quiet hfresh hunheld ?_ hcached fun k hk => ?_
  · have hlog' : (c.thread.step vmId inet .look).log = c.thread.log ++ [] :=
      hlog.trans (List.append_nil _).symm
    exact (threadStep_held hlog').trans (List.append_nil _)
  · show k ∈ (c.thread.look vmId inet).ft.routeTable
    rw [htable]
    exact hk

theorem fresh_at {c : ClientThreads} {place : Place} (hplace : c.thread.place = place) :
    Fresh inet c .look ↔ Fresh inet { c with thread := { c.thread with place := place } } .look := by
  subst hplace
  rfl

theorem unheld_at {c : ClientThreads} (hplace : c.thread.place ≠ .drain) : Unheld inet c .look :=
  fun hdrain => absurd hdrain hplace

theorem take_effect {c : ClientThreads} {pr : PendingRoute} {rest : List PendingRoute}
    (hplace : c.thread.place = .drain) (hpending : c.ft.pendingRoutes = pr :: rest) :
    LookEffect inet c (c.step vmId inet .look) := by
  have hfresh : Fresh inet c .look := (fresh_at hplace).mpr trivial
  have hunheld : Unheld inet c .look ↔
      (pr.type = .delete → ∀ h ∈ c.held, ¬ h.Adds inet (pr.rentry.toString inet)) := by
    unfold Unheld
    dsimp only
    rw [hplace, hpending]
    simp
  have hlook := @ResolverThread.look_drain_cons vmId inet _ _ _ hplace hpending
  obtain ⟨type, re⟩ := pr
  cases type with
  | add =>
    have hother := hunheld.mpr nofun
    unfold ResolverThread.take at hlook
    dsimp only at hlook
    split at hlook
    · exact move_effect hlook hfresh (fun _ => hother) rfl rfl rfl
    · have hlog : (c.thread.step vmId inet .look).log = c.thread.log ++ [.inserted (re.toString inet)] :=
        congrArg ResolverThread.log hlook
      have hcached := congrArg (fun t : ResolverThread => t.ft.cachedRm) hlook
      have htable := congrArg (fun t : ResolverThread => t.ft.routeTable) hlook
      refine .quiet hfresh (fun _ => hother) ((threadStep_held hlog).trans (List.append_nil _)) hcached ?_
      intro k hk
      show k ∈ (c.thread.look vmId inet).ft.routeTable
      rw [htable]
      exact (AList.mem_insert _).mpr (Or.inr hk)
  | delete =>
    unfold ResolverThread.take at hlook
    dsimp only at hlook
    split at hlook
    · have hlog : (c.thread.step vmId inet .look).log = c.thread.log ++ [.erased (re.toString inet)] :=
        congrArg ResolverThread.log hlook
      have hcached := congrArg (fun t : ResolverThread => t.ft.cachedRm) hlook
      have htable := congrArg (fun t : ResolverThread => t.ft.routeTable) hlook
      refine .erased (re.toString inet) hfresh ?_ ((threadStep_held hlog).trans (List.append_nil _))
        hcached htable
      rw [hunheld]
      exact ⟨fun h => h rfl, fun h _ => h⟩
    · rename_i hmem
      refine move_effect hlook hfresh (fun hstanding => hunheld.mpr fun _ h hh hadds => ?_) rfl rfl rfl
      exact hmem (hstanding h hh _ hadds)
  | controller | addGroup | deleteGroup | unknown =>
    exact move_effect hlook hfresh (fun _ => hunheld.mpr nofun) rfl rfl rfl

theorem look_effect {c : ClientThreads} (hp : ResolverThread.Placed inet c.thread) :
    LookEffect inet c (c.step vmId inet .look) := by
  cases hplace : c.thread.place with
  | drain =>
    cases hpending : c.ft.pendingRoutes with
    | nil =>
      refine move_effect (ResolverThread.look_drain_nil hplace hpending) ((fresh_at hplace).mpr trivial)
        ?_ rfl rfl rfl
      intro _ _ pr hpr
      rw [hpending] at hpr
      cases hpr
    | cons pr rest => exact take_effect hplace hpending
  | check re =>
    have hfresh : Fresh inet c .look := (fresh_at hplace).mpr trivial
    have hunheld : Unheld inet c .look := unheld_at (by rw [hplace]; exact nofun)
    have hlook := @ResolverThread.look_check_eq vmId inet _ _ hplace
    split at hlook
    · exact move_effect hlook hfresh (fun _ => hunheld) rfl rfl rfl
    · exact move_effect hlook hfresh (fun _ => hunheld) rfl rfl rfl
  | send mod re =>
    have hmem : mod = .add → re.toString inet ∈ c.ft.routeTable := by
      rintro rfl
      exact mem_of_lookup (hp.at_place hplace).1
    exact send_effect (fresh_at hplace) (unheld_at (by rw [hplace]; exact nofun)) hmem
      (ResolverThread.look_send_eq hplace)
  | sweep todo resolved =>
    have hfresh : Fresh inet c .look := (fresh_at hplace).mpr trivial
    have hunheld : Unheld inet c .look := unheld_at (by rw [hplace]; exact nofun)
    cases todo with
    | nil => exact move_effect (ResolverThread.look_sweep_nil hplace) hfresh (fun _ => hunheld) rfl rfl rfl
    | cons key todo =>
      obtain ⟨-, htodo⟩ := hp.at_place hplace
      have hmem := hp.listed.mem_table key (htodo key List.mem_cons_self)
      obtain ⟨e, he⟩ := exists_lookup hmem
      exact move_effect (ResolverThread.look_sweep_cons hplace hmem he) hfresh (fun _ => hunheld) rfl rfl rfl
  | resend key re todo resolved =>
    obtain ⟨hlookup, -, -⟩ := hp.at_place hplace
    have hmem : RouteModType.add = .add → re.toString inet ∈ c.ft.routeTable := by
      intro _
      rw [hp.keyed key re hlookup]
      exact mem_of_lookup hlookup
    exact send_effect (fresh_at hplace) (unheld_at (by rw [hplace]; exact nofun)) hmem
      (ResolverThread.look_resend_eq hplace)

/-! ## Steps -/

theorem Recorded.frame {c c' : ClientThreads} (h : Recorded c) (hheld : c'.held = c.held)
    (hcached : c'.ft.cachedRm = c.ft.cachedRm) : Recorded c' := by
  unfold Recorded
  rw [hcached, hheld]
  exact h

theorem Recorded.keep {c c' : ClientThreads} {held : Held} (h : Recorded c)
    (hheld : c'.held = c.held ++ [held]) (hcached : c'.ft.cachedRm = c.ft.cachedRm ++ [held.cached]) :
    Recorded c' := by
  unfold Recorded
  rw [hcached, hheld, h, List.map_append]
  rfl

theorem Unstranded.frame {c c' : ClientThreads} (h : Unstranded vmId c)
    (hifaces : ∀ iface ∈ c'.ifacesMap.ifaces, ∃ iface' ∈ c.ifacesMap.ifaces,
      iface'.name = iface.name ∧ (iface'.active = false → iface.active = false))
    (hheld : c'.held = c.held) (hcached : c'.ft.cachedRm = c.ft.cachedRm) : Unstranded vmId c' where
  recorded := Recorded.frame h.recorded hheld hcached
  inactive := by
    rw [hcached]
    intro e he iface hi hname
    obtain ⟨iface', hi', hname', hdown⟩ := hifaces iface hi
    exact hdown (h.inactive e he iface' hi' (hname'.trans hname))
  released := fun iface hi e he hname => released_always c' hi he hname

theorem Standing.frame {c c' : ClientThreads} (h : Standing inet c) (hheld : ∀ held ∈ c'.held, held ∈ c.held)
    (htable : ∀ k ∈ c.ft.routeTable, k ∈ c'.ft.routeTable) : Standing inet c' :=
  fun held hh k hadds => htable k (h held (hheld held hh) k hadds)

theorem Unstranded.keep_iff {c c' : ClientThreads} {held : Held} (h : Unstranded vmId c)
    (hifaces : c'.ifacesMap = c.ifacesMap) (hheld : c'.held = c.held ++ [held])
    (hcached : c'.ft.cachedRm = c.ft.cachedRm ++ [held.cached]) :
    Unstranded vmId c' ↔
      ∀ iface ∈ c.ifacesMap.ifaces, iface.name = held.call.localIface.name → iface.active = false := by
  constructor
  · intro h' iface hi hname
    refine h'.inactive held.cached ?_ iface ?_ hname
    · rw [hcached]
      exact List.mem_append_right _ List.mem_cons_self
    · rw [hifaces]
      exact hi
  · intro hdown
    refine ⟨Recorded.keep h.recorded hheld hcached, ?_,
      fun iface hi e he hname => released_always c' hi he hname⟩
    · rw [hcached, hifaces]
      intro e he iface hi hname
      rcases List.mem_append.mp he with he | he
      · exact h.inactive e he iface hi hname
      · rw [List.mem_singleton.mp he] at hname
        exact hdown iface hi hname

theorem Standing.keep {c c' : ClientThreads} {held : Held} (h : Standing inet c)
    (hheld : c'.held = c.held ++ [held]) (htable : c'.ft.routeTable = c.ft.routeTable)
    (hmem : ∀ k, held.Adds inet k → k ∈ c.ft.routeTable) : Standing inet c' := by
  unfold Standing
  rw [hheld, htable]
  intro h' hh' k hk
  rcases List.mem_append.mp hh' with hh' | hh'
  · exact h h' hh' k hk
  · rw [List.mem_singleton.mp hh'] at hk
    exact hmem k hk

theorem look_unstranded {c : ClientThreads} (hp : ResolverThread.Placed inet c.thread)
    (h : Unstranded vmId c) :
    Unstranded vmId (c.step vmId inet .look) ↔ Fresh inet c .look := by
  have hifaces : (c.step vmId inet .look).ifacesMap = c.ifacesMap := rfl
  have hsame : ∀ iface ∈ c.ifacesMap.ifaces, ∃ iface' ∈ c.ifacesMap.ifaces,
      iface'.name = iface.name ∧ (iface'.active = false → iface.active = false) :=
    fun iface hi => ⟨iface, hi, rfl, id⟩
  cases @look_effect vmId inet c hp with
  | quiet hfresh _ hheld hcached _ => exact iff_of_true (h.frame hsame hheld hcached) hfresh
  | erased key hfresh _ hheld hcached _ => exact iff_of_true (h.frame hsame hheld hcached) hfresh
  | kept call _ hfresh _ hheld hcached _ =>
    rw [hfresh]
    exact h.keep_iff hifaces hheld hcached

theorem look_standing {c : ClientThreads} (hp : ResolverThread.Placed inet c.thread) (h : Standing inet c) :
    Standing inet (c.step vmId inet .look) ↔ Unheld inet c .look := by
  cases @look_effect vmId inet c hp with
  | quiet _ hunheld hheld _ htable =>
    refine iff_of_true (h.frame ?_ htable) (hunheld h)
    rw [hheld]
    exact fun held hh => hh
  | erased key _ hunheld hheld _ htable =>
    rw [hunheld]
    constructor
    · intro h' held hh hadds
      have hin := h' held (by rw [hheld]; exact hh) key hadds
      rw [htable, AList.mem_erase] at hin
      exact hin.1 rfl
    · intro hno
      unfold Standing
      rw [hheld, htable]
      intro held hh k hadds
      refine AList.mem_erase.mpr ⟨?_, h held hh k hadds⟩
      rintro rfl
      exact hno held hh hadds
  | kept call hunheld _ hmem hheld _ htable =>
    refine iff_of_true (h.keep hheld htable ?_) hunheld
    rintro k ⟨-, hadd, rfl⟩
    exact hmem hadd

theorem neighbour_mem {ifaces : List Interface} {neigh : RtnlNeigh} {action : NlAction} {hentry : HostEntry}
    (h : neighbour ifaces neigh action = some hentry) : hentry.interface ∈ ifaces := by
  unfold neighbour at h
  simp only [Option.bind_eq_bind, Option.pure_def] at h
  split at h
  · cases h
  split at h
  · cases h
  split at h
  · cases h
  obtain ⟨iface, hfind, h⟩ := Option.bind_eq_some_iff.mp h
  obtain ⟨mac, -, h⟩ := Option.bind_eq_some_iff.mp h
  cases h
  exact List.mem_of_find?_eq_some hfind

theorem host_effect {c : ClientThreads} {c' : ClientThreads} {hentry : HostEntry}
    (hc' : c.threadStep vmId inet (.host hentry) = c') :
    c'.ft.routeTable = c.ft.routeTable ∧
      (c'.held = c.held ∧ c'.ft.cachedRm = c.ft.cachedRm ∨
      ∃ call : HwCall, call.localIface = hentry.interface ∧ hentry.interface.active = false ∧
        c'.held = c.held ++ [⟨call, false⟩] ∧
        c'.ft.cachedRm = c.ft.cachedRm ++ [Held.cached ⟨call, false⟩]) := by
  subst hc'
  refine ⟨(@updateHostTable_sameRoutes inet vmId c.ft hentry).table, ?_⟩
  obtain ⟨call, hiface, hcalls, hcached⟩ : ∃ call : HwCall, call.localIface = hentry.interface ∧
      (c.ft.updateHostTable vmId inet hentry).calls = c.ft.calls ++ [call] ∧
      (c.ft.updateHostTable vmId inet hentry).cachedRm = (c.ft.handOver vmId call).cachedRm :=
    ⟨_, rfl, ResolverThread.handOver_calls c.ft _, rfl⟩
  have hlog : (c.thread.step vmId inet (.host hentry)).log = c.thread.log ++ [.host call] :=
    @ResolverThread.noting_log c.thread (·.updateHostTable vmId inet hentry) _ hcalls .host
  have hheld := threadStep_held hlog
  cases hactive : call.localIface.active with
  | true =>
    simp only [List.filterMap_cons, Held.ofNote, hactive, if_true, List.filterMap_nil, List.append_nil]
      at hheld
    rw [handOver_active hactive] at hcached
    exact Or.inl ⟨hheld, hcached⟩
  | false =>
    simp only [List.filterMap_cons, Held.ofNote, hactive, Bool.false_eq_true, if_false,
      List.filterMap_nil] at hheld
    rw [handOver_inactive hactive] at hcached
    rw [hiface] at hactive
    exact Or.inr ⟨call, hiface, hactive, hheld, hcached⟩

theorem host_unstranded {c : ClientThreads} (h : Unstranded vmId c) {hentry : HostEntry}
    (hin : hentry.interface ∈ c.ifacesMap.ifaces) :
    Unstranded vmId (c.threadStep vmId inet (.host hentry)) := by
  have hifaces : (c.threadStep vmId inet (.host hentry)).ifacesMap = c.ifacesMap := rfl
  rcases (@host_effect vmId inet c _ hentry rfl).2 with
    ⟨hheld, hcached⟩ | ⟨call, hiface, hdown, hheld, hcached⟩
  · exact h.frame (fun iface hi => ⟨iface, hi, rfl, id⟩) hheld hcached
  · refine (h.keep_iff hifaces hheld hcached).mpr ?_
    intro iface hi hname
    dsimp only at hname
    rw [hiface] at hname
    rw [IfacesMap.eq_of_name hi hin hname]
    exact hdown

theorem host_standing {c : ClientThreads} (h : Standing inet c) (hentry : HostEntry) :
    Standing inet (c.threadStep vmId inet (.host hentry)) := by
  obtain ⟨htable, ⟨hheld, -⟩ | ⟨call, -, -, hheld, -⟩⟩ := @host_effect vmId inet c _ hentry rfl
  · refine h.frame (fun held hh => by rw [← hheld]; exact hh) (fun k hk => by rw [htable]; exact hk)
  · exact h.keep hheld htable fun k hk => nomatch hk.1

theorem route_held (c : ClientThreads) (pr : PendingRoute) :
    (c.threadStep vmId inet (.route pr)).held = c.held := by
  have hlog : (c.thread.step vmId inet (.route pr)).log = c.thread.log ++ [] := (List.append_nil _).symm
  exact (threadStep_held hlog).trans (List.append_nil _)

theorem setActive_mem {active : Bool} {vmPort : Nat} {ifaces : List Interface} {iface : Interface}
    (h : iface ∈ RFClient.setActive active vmPort ifaces) :
    ∃ iface' ∈ ifaces, iface'.name = iface.name ∧ iface'.port = iface.port ∧
      iface.active = if iface.port = vmPort then active else iface'.active := by
  obtain ⟨iface', hi', rfl⟩ := List.mem_map.mp h
  refine ⟨iface', hi', ?_⟩
  by_cases hport : iface'.port = vmPort
  · simp [hport]
  · simp [hport]

theorem reset_unstranded {c : ClientThreads} (h : Unstranded vmId c) (vmPort : Nat) :
    Unstranded vmId (c.step vmId inet (.reset vmPort)) := by
  refine h.frame ?_ rfl rfl
  intro iface hi
  obtain ⟨iface', hi', hname, -, hactive⟩ := setActive_mem hi
  refine ⟨iface', hi', hname, fun hdown => ?_⟩
  rw [hactive, hdown, ite_self]

theorem mapSuccess_recorded {c : ClientThreads} (h : Recorded c) (vmPort : Nat) :
    Recorded (c.mapSuccess vmId vmPort) := by
  obtain ⟨rms, hrel, -⟩ := @mapSuccess_releases vmId c vmPort
  refine hrel.cached.trans ?_
  rw [h, List.filter_map]
  rfl

theorem mapSuccess_unstranded {c : ClientThreads} (h : Unstranded vmId c) (vmPort : Nat) :
    Unstranded vmId (c.mapSuccess vmId vmPort) := by
  obtain ⟨rms, hrel, -⟩ := @mapSuccess_releases vmId c vmPort
  refine ⟨mapSuccess_recorded h.recorded vmPort, ?_, fun iface hi e he hname => released_always _ hi he hname⟩
  · rw [hrel.cached]
    intro e he iface hi hname
    obtain ⟨he, hother⟩ := List.mem_filter.mp he
    obtain ⟨iface', hi', hname', hport, hactive⟩ := setActive_mem hi
    rw [hactive, if_neg, h.inactive e he iface' hi' (hname'.trans hname)]
    -- Whoever came up has nothing left.
    intro hup
    rw [comingUp_names] at hother
    refine of_decide_eq_true hother ?_
    rw [← hname, ← hname']
    exact List.mem_map_of_mem (List.mem_filter.mpr ⟨hi', by simpa [hport] using hup⟩)

theorem mapSuccess_standing {c : ClientThreads} (h : Standing inet c) (vmPort : Nat) :
    Standing inet (c.mapSuccess vmId vmPort) := by
  obtain ⟨rms, hrel, -⟩ := @mapSuccess_releases vmId c vmPort
  refine h.frame (fun held hh => (List.mem_filter.mp hh).1) fun k hk => ?_
  rw [hrel.routes.table]
  exact hk

theorem step_recorded {c : ClientThreads} (hp : ResolverThread.Placed inet c.thread)
    (h : Recorded c) (a : Act) :
    Recorded (c.step vmId inet a) := by
  cases a with
  | route route action =>
    unfold step
    dsimp only
    split
    · exact h.frame (route_held c _) rfl
    · exact h
  | neigh neigh action =>
    unfold step
    dsimp only
    split
    · rename_i hentry hn
      rcases (@host_effect vmId inet c _ hentry rfl).2 with ⟨hheld, hcached⟩ | ⟨call, -, -, hheld, hcached⟩
      · exact h.frame hheld hcached
      · exact h.keep hheld hcached
    · exact h
  | look =>
    cases @look_effect vmId inet c hp with
    | quiet _ _ hheld hcached _ => exact h.frame hheld hcached
    | erased key _ _ hheld hcached _ => exact h.frame hheld hcached
    | kept call _ _ _ hheld hcached _ => exact h.keep hheld hcached
  | mapSuccess vmPort => exact mapSuccess_recorded h vmPort
  | reset vmPort => exact h

theorem step_unstranded {c : ClientThreads} (hp : ResolverThread.Placed inet c.thread) (h : Unstranded vmId c)
    (a : Act) : Unstranded vmId (c.step vmId inet a) ↔ Fresh inet c a := by
  cases a with
  | route route action =>
    refine iff_of_true ?_ trivial
    unfold step
    dsimp only
    split
    · exact h.frame (fun iface hi => ⟨iface, hi, rfl, id⟩) (route_held c _) rfl
    · exact h
  | neigh neigh action =>
    refine iff_of_true ?_ trivial
    unfold step
    dsimp only
    split
    · rename_i hentry hn
      exact host_unstranded h (neighbour_mem hn)
    · exact h
  | look => exact look_unstranded hp h
  | mapSuccess vmPort => exact iff_of_true (mapSuccess_unstranded h vmPort) trivial
  | reset vmPort => exact iff_of_true (reset_unstranded h vmPort) trivial

theorem step_standing {c : ClientThreads} (hp : ResolverThread.Placed inet c.thread) (h : Standing inet c)
    (a : Act) : Standing inet (c.step vmId inet a) ↔ Unheld inet c a := by
  cases a with
  | route route action =>
    refine iff_of_true ?_ trivial
    unfold step
    dsimp only
    split
    · exact h.frame (fun held hh => by rw [← route_held c _]; exact hh) fun k hk => hk
    · exact h
  | neigh neigh action =>
    refine iff_of_true ?_ trivial
    unfold step
    dsimp only
    split
    · exact host_standing h _
    · exact h
  | look => exact look_standing hp h
  | mapSuccess vmPort => exact iff_of_true (mapSuccess_standing h vmPort) trivial
  | reset vmPort => exact iff_of_true h trivial

theorem threadStep_placed {c : ClientThreads} (hp : ResolverThread.Placed inet c.thread)
    (a : ResolverThread.Act) :
    ResolverThread.Placed inet (c.threadStep vmId inet a).thread := by
  show ResolverThread.Placed inet (c.thread.step vmId inet a)
  exact ResolverThread.step_placed a hp

theorem step_placed {c : ClientThreads} (a : Act) (hp : ResolverThread.Placed inet c.thread) :
    ResolverThread.Placed inet (c.step vmId inet a).thread := by
  cases a with
  | route route action =>
    unfold step
    dsimp only
    split
    · exact threadStep_placed hp _
    · exact hp
  | neigh neigh action =>
    unfold step
    dsimp only
    split
    · exact threadStep_placed hp _
    · exact hp
  | look => exact threadStep_placed hp _
  | mapSuccess vmPort =>
    obtain ⟨rms, hrel, -⟩ := @mapSuccess_releases vmId c vmPort
    exact hp.frame hrel.routes.table hrel.routes.unresolved
      (hp.place.congr hrel.routes.table hrel.routes.unresolved rfl)
  | reset vmPort => exact hp

/-! ## Runs -/

/-- In every run, what is kept in `cached_rm` is what `held` says. -/
theorem run_recorded (vmId : Nat) (inet : Inet) (ifacesMap : IfacesMap) (acts : List Act) :
    Recorded (Run.run (step vmId inet) { ifacesMap := ifacesMap } acts) := by
  have hinit : Recorded { ifacesMap := ifacesMap } := rfl
  refine (Run.invariant (C := fun _ _ => True)
    (I := fun c => ResolverThread.Placed inet c.thread ∧ Recorded c)
    (fun c a _ h => ?_) ⟨ResolverThread.placed_init, hinit⟩ (Run.along_true _ _ acts)).2
  exact ⟨step_placed a h.1, step_recorded h.1 h.2 a⟩

/-- Nothing is stranded in a run exactly if no route is sent with an inactive copy of an interface that
has come up, and no deleted route is held back exactly if none is deleted while it is held back. -/
theorem held_back_iff (vmId : Nat) (inet : Inet) (ifacesMap : IfacesMap) (acts : List Act) :
    (Run.Always (step vmId inet) (Unstranded vmId) { ifacesMap := ifacesMap } acts ↔
      Run.Along (step vmId inet) (Fresh inet) { ifacesMap := ifacesMap } acts) ∧
    (Run.Always (step vmId inet) (Standing inet) { ifacesMap := ifacesMap } acts ↔
      Run.Along (step vmId inet) (Unheld inet) { ifacesMap := ifacesMap } acts) := by
  constructor
  · refine Run.always_iff_along (fun c a => step_placed a) (fun c a hp h => step_unstranded hp h a)
      ResolverThread.placed_init ?_ acts
    exact ⟨rfl, by simp, by simp⟩
  · refine Run.always_iff_along (fun c a => step_placed a) (fun c a hp h => step_standing hp h a)
      ResolverThread.placed_init ?_ acts
    exact fun held hh => nomatch hh

def eth1Down : ClientThreads where
  ifacesMap := ⟨[{ FlowTable.eth1 with active := false }], by decide⟩

/-- The interface comes up and the gateway is heard of after the route. -/
def upTooEarly : List Act :=
  [.route (prefixVia 1) .new, .look, .look, .mapSuccess 1,
    .neigh { dst := ResolverThread.viaAddress, lladdr := some 0x020000000002, intf := "eth1" } .new,
    .look, .look, .look]

/-- Then the route goes. -/
def goneLater : List Act := upTooEarly ++ [.look, .route (prefixVia 1) .del, .look, .look]

/-- The route is held back for an interface that is active already. It is deleted, and sent when the interface
comes up the next time. -/
theorem route_stranded :
    ¬ Run.Always (step 1 plainInet) (Unstranded 1) eth1Down upTooEarly ∧
    ¬ Run.Always (step 1 plainInet) (Standing plainInet) eth1Down goneLater ∧
    let c := Run.run (step 1 plainInet) eth1Down (goneLater ++ [.reset 1, .mapSuccess 1])
    c.ft.routeTable.keys = [] ∧ c.ft.rmQ.map RouteMod.mod = [.add, .delete, .add] := by
  refine ⟨?_, ?_, by decide +kernel, by decide +kernel⟩
  · intro h
    have hheld : ∃ e ∈ (Run.run (step 1 plainInet) eth1Down upTooEarly).ft.cachedRm,
      e.1 = "eth1" := by decide +kernel
    have hup : ∃ iface ∈ (Run.run (step 1 plainInet) eth1Down upTooEarly).ifacesMap.ifaces,
        iface.name = "eth1" ∧ iface.active = true := by decide +kernel
    obtain ⟨e, he, hname⟩ := hheld
    obtain ⟨iface, hi, hname', hactive⟩ := hup
    have hdown := h.last.inactive e he iface hi (hname'.trans hname.symm)
    rw [hactive] at hdown
    cases hdown
  · intro h
    have hheld : ∃ held ∈ (Run.run (step 1 plainInet) eth1Down goneLater).held,
        held.forRoute = true ∧ held.call.mod = .add := by decide +kernel
    have hkeys : (Run.run (step 1 plainInet) eth1Down goneLater).ft.routeTable.keys = [] := by decide +kernel
    obtain ⟨held, hh, hroute, hadd⟩ := hheld
    have hmem := h.last held hh _ ⟨hroute, hadd, rfl⟩
    rw [AList.mem_keys, hkeys] at hmem
    cases hmem

end ClientThreads

end RouteFlow
