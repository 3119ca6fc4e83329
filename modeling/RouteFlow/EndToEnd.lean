import RouteFlow.Announcements
import RouteFlow.Emission

/-!
# From the kernels to the switches

Several clients, each with the datapaths of its own. The RouteMods of a client arrive in their order,
between all that other parties send. Then the flows of its datapaths are for the routes and neighbours
that it has.
-/

namespace RouteFlow

open Store Run Replay FlowTable

/-! ## Who owns a datapath -/

/-- Each datapath, with all that it is linked to, is for the ports of one client. -/
structure Config.OwnedBy (cfg : Config) (owner : Nat → Nat) : Prop extends cfg.DistinctEnds where
  ports : ∀ v x, cfg.Joins v x → owner x.dpId = v.vmId
  links : ∀ a b, cfg.Linked a b → owner a.dpId = owner b.dpId

/-- The links that are up are between datapaths of one client. -/
structure OwnedState (cfg : Config) (owner : Nat → Nat) (s : Server) : Prop extends RouteState cfg s where
  links : ∀ a b, IslUp s.isltable a b → owner a.dpId = owner b.dpId

section Owners

variable {cfg : Config} {owner : Nat → Nat}

theorem run_ownedState (hc : cfg.AllDefault) (ho : cfg.OwnedBy owner) (h : History) :
    OwnedState cfg owner (run (Server.step cfg) Server.init h) := by
  have hs := run_routeState hc h
  obtain ⟨up, hl⟩ := run_linking_some ho.toDistinctEnds h
  refine ⟨hs, fun a b hab => ?_⟩
  obtain ⟨sh, hsh, hn, hf⟩ := (islUp_iff hs.isl).mp hab
  exact ho.links a b (hl.linked sh hsh a b hn hf)

theorem OwnedState.serves {s : Server} (hs : OwnedState cfg owner s) (ho : cfg.OwnedBy owner) {v : VmPort}
    {x : DpPort} (hp : Placed s.rftable v x) {d p : Nat} {m : Mac} (h : Serves s.rftable s.isltable x d p m) :
    owner d = v.vmId := by
  obtain ⟨sh, hsh, hvm, hdp⟩ := (placed_iff hs.rf).mp hp
  have hx : owner x.dpId = v.vmId := ho.ports v x (hs.joins sh hsh v x hvm hdp)
  cases h with
  | here _ _ => exact hx
  | there hl _ hd _ _ => rw [hs.links _ _ hl, hd, hx]

end Owners

/-! ## Histories -/

/-- The client added the prefix through the port, and did not delete it since. -/
def LiveOn (r : Prefix) (v : VmPort) (h : History) : Prop :=
  Since (fun e => e.2.IsRoute .add r v) (fun e => ∃ port, e.2.IsRoute .delete r ⟨v.vmId, port⟩) h

/-- No datapath goes down. The RouteMods for prefixes do not raise, and no other port of the client has
the prefix. -/
structure SidedRoute (cfg : Config) (s : Server) (h : History) (e : Order × Msg) : Prop where
  no_down : ∀ c d, e.2 ≠ .datapathDown c d
  routes : ∀ rm, e.2 = .routeMod rm → rm.mod = .controller ∨
    ((Server.process cfg e.1 s e.2).2 = .ok () ∧ ∃ mod r v, (mod = .add ∨ mod = .delete) ∧
      e.2.IsRoute mod r v ∧ ∀ w, w.vmId = v.vmId → LiveOn r w h → w = v)

/-- Each message of the history is so when it arrives. -/
def SidedRoutes (cfg : Config) (h : History) : Prop :=
  Throughout (fun before e => SidedRoute cfg (run (Server.step cfg) Server.init before) before e) h

/-- Each flow for a prefix belongs to a client that has it, and deleting it now would find the flow. -/
def Attributed (h : History) (s : Server) : Prop :=
  ∀ k ∈ flowSet s.dpQ, (∀ x ∈ k.matchList, x.isIp = false) ∨ ∃ r v x d p m,
    k = routeKey r x.ctId d p m ∧ LiveOn r v h ∧ Placed s.rftable v x ∧ Serves s.rftable s.isltable x d p m

/-- What a message does to the flows, if it is a RouteMod for a prefix, one for the controller, or none. -/
inductive FlowEffect (cfg : Config) (s : Server) (h : History) (e : Order × Msg) :
    List (Nat × RouteMod) → Prop
  | add {r : Prefix} {v : VmPort} {x : DpPort} {more : List (Nat × RouteMod)} : e.2.IsRoute .add r v →
      Placed s.rftable v x → (∀ y ∈ more, y.2.mod = .add) → (∀ k, (∃ y ∈ more, flowKey y = k) ↔
        ∃ d p m, Serves s.rftable s.isltable x d p m ∧ routeKey r x.ctId d p m = k) →
        FlowEffect cfg s h e more
  | delete {r : Prefix} {v : VmPort} {x : DpPort} {more : List (Nat × RouteMod)} : e.2.IsRoute .delete r v →
      (∀ w, w.vmId = v.vmId → LiveOn r w h → w = v) → Placed s.rftable v x →
      (∀ y ∈ more, y.2.mod = .delete) → (∀ k, (∃ y ∈ more, flowKey y = k) ↔
        ∃ d p m, Serves s.rftable s.isltable x d p m ∧ routeKey r x.ctId d p m = k) →
        FlowEffect cfg s h e more
  | other {more : List (Nat × RouteMod)} : (∀ r v, ¬e.2.IsRoute .delete r v) →
      (∀ y ∈ more, y.2.mod = .controller ∨ y.2.NoIp) → FlowEffect cfg s h e more

section Steps

variable {cfg : Config} {owner : Nat → Nat} {h : History} {s : Server} {e : Order × Msg}

theorem controller_step (hs : RouteState cfg s) {rm : RouteMod} (hmsg : e.2 = .routeMod rm)
    (hmod : rm.mod = .controller) :
    ∃ more, (s.step cfg e).dpQ = s.dpQ ++ more ∧ ∀ y ∈ more, y.2.mod = .controller := by
  obtain ⟨o, msg⟩ := e
  obtain rfl : msg = .routeMod rm := hmsg
  rcases registerRouteMod_queue hs.rf hs.isl cfg o rm with ⟨row, x, tr, hrow, hx, htr, htrans⟩ | ⟨-, hq⟩
  · refine ⟨_, (registerRouteMod_attributed hs.rf hs.isl hrow hx htr htrans).2, fun y hy => ?_⟩
    obtain ⟨z, hz, rfl⟩ := List.mem_map.mp hy
    obtain ⟨⟨-, hz⟩, -⟩ := mem_attributed hs.rf rfl hs.isl hs.keyed hx htr rm hz
    exact hz.trans hmod
  · exact ⟨[], by simp [Server.step, Server.process, hq], by simp⟩

theorem Msg.IsRoute.mod_eq {msg : Msg} {mod : RouteModType} {r : Prefix} {v : VmPort}
    (h : msg.IsRoute mod r v) {rm : RouteMod} (hmsg : msg = .routeMod rm) :
    rm.mod = mod ∧ rm.id = v.vmId := by
  obtain ⟨dest, iface, gateway, -, -, heq⟩ := h
  rw [hmsg, Msg.routeMod.injEq, Destination.routeMod_eq] at heq
  obtain ⟨hmod, hid, -⟩ := sendToHw_fields v.vmId mod dest.toPrefix iface gateway
  rw [heq]
  exact ⟨hmod, hid⟩

theorem sided_effect (hc : cfg.AllDefault) (hs : RouteState cfg s) (he : SidedRoute cfg s h e) :
    ∃ more, (s.step cfg e).dpQ = s.dpQ ++ more ∧ FlowEffect cfg s h e more := by
  by_cases hrm : ∃ rm, e.2 = .routeMod rm
  · obtain ⟨rm, hrm⟩ := hrm
    rcases he.routes rm hrm with hctl | ⟨hok, mod, r, v, hmod, hroute, hside⟩
    · obtain ⟨more, hq, hall⟩ := controller_step hs hrm hctl
      refine ⟨more, hq, .other (fun r v hroute => ?_) fun y hy => Or.inl (hall y hy)⟩
      rw [(hroute.mod_eq hrm).1] at hctl
      cases hctl
    · obtain ⟨x, more, hp, hq, hall, hkeys⟩ := hs.route_step hmod hroute hok
      rcases hmod with rfl | rfl
      · exact ⟨more, hq, .add hroute hp hall hkeys⟩
      · exact ⟨more, hq, .delete hroute hside hp hall hkeys⟩
  · obtain ⟨more, hq, hnoip⟩ := other_step hc s fun rm hm => hrm ⟨rm, hm⟩
    refine ⟨more, hq, .other (fun r v hroute => ?_) fun y hy => Or.inr (hnoip y hy)⟩
    obtain ⟨_, _, _, _, _, hmsg⟩ := hroute
    exact hrm ⟨_, hmsg⟩

theorem mem_flowSet_aside {dpQ more : List (Nat × RouteMod)}
    (h : ∀ y ∈ more, y.2.mod = .controller ∨ y.2.NoIp) {k : FlowKey}
    (hk : ∃ x ∈ k.matchList, x.isIp = true) : k ∈ flowSet (dpQ ++ more) ↔ k ∈ flowSet dpQ := by
  rw [flowSet, List.map_append]
  apply mem_replay_other
  intro u hu hkey
  obtain ⟨y, hy, rfl⟩ := List.mem_map.mp hu
  rcases h y hy with hctl | hnoip
  · simp [flowUpdate, hctl, Update.key] at hkey
  · obtain ⟨x, hx, hip⟩ := hk
    rw [← flowUpdate_key hkey] at hx
    rw [hnoip x hx] at hip
    cases hip

variable (hc : cfg.AllDefault) (hs : OwnedState cfg owner s) (he : SidedRoute cfg s h e)

include hc hs he in
theorem Attributed.step (hv : cfg.DistinctVmPorts) (ha : Attributed h s) :
    Attributed (h ++ [e]) (s.step cfg e) := by
  intro k hk
  by_cases hip : ∀ x ∈ k.matchList, x.isIp = false
  · exact Or.inl hip
  -- What holds of the flows that were there before, unless the message deletes their prefix.
  have old : k ∈ flowSet s.dpQ → (∀ r v x d p m, k = routeKey r x.ctId d p m → LiveOn r v h →
      Placed s.rftable v x → Serves s.rftable s.isltable x d p m →
      ¬∃ port, e.2.IsRoute .delete r ⟨v.vmId, port⟩) →
      ∃ r v x d p m, k = routeKey r x.ctId d p m ∧ LiveOn r v (h ++ [e]) ∧ Placed (s.step cfg e).rftable v x ∧
        Serves (s.step cfg e).rftable (s.step cfg e).isltable x d p m := by
    intro hold hno
    obtain ⟨r, v, x, d, p, m, hk, hl, hp, hserves⟩ := (ha k hold).resolve_left hip
    exact ⟨r, v, x, d, p, m, hk, (since_snoc h e).mpr (Or.inr ⟨hl, hno r v x d p m hk hl hp hserves⟩),
      placed_step hs.rf he.no_down hp, serves_step hs.rf hs.isl he.no_down hserves⟩
  refine Or.inr ?_
  obtain ⟨more, hq, heff⟩ := sided_effect hc hs.toRouteState he
  rw [hq] at hk
  cases heff with
  | @add r v x _ hroute hp hall hkeys =>
    rw [mem_flowSet_adds hall, hkeys] at hk
    rcases hk with hk | ⟨d, p, m, hserves, rfl⟩
    · refine old hk fun r' w y d p m _ _ _ _ => ?_
      rintro ⟨port, hdel⟩
      cases (hroute.unique hdel).1
    · exact ⟨r, v, x, d, p, m, rfl, (since_snoc h e).mpr (Or.inl hroute),
        placed_step hs.rf he.no_down hp, serves_step hs.rf hs.isl he.no_down hserves⟩
  | @delete r v x _ hroute hside hp hall hkeys =>
    rw [mem_flowSet_deletes hall, hkeys] at hk
    refine old hk.1 fun r' w y d p m hkey hl hpy hserves => ?_
    -- A flow of the deleted prefix would be among those that the deletion found.
    rintro ⟨port, hdel⟩
    obtain ⟨-, rfl, hvm⟩ := hroute.unique hdel
    obtain rfl : w = v := hside w (by rw [hvm]) hl
    obtain rfl : y = x := hs.placed_unique hv hpy hp
    exact hk.2 ⟨d, p, m, hserves, hkey.symm⟩
  | other hno hall =>
    push Not at hip
    rw [mem_flowSet_aside hall (hip.imp fun x hx => ⟨hx.1, by simpa using hx.2⟩)] at hk
    refine old hk fun r v _ _ _ _ _ _ _ _ => ?_
    rintro ⟨port, hdel⟩
    exact hno _ _ hdel

include hc hs he in
theorem routeKey_stays (ho : cfg.OwnedBy owner) {r : Prefix} {c d p : Nat} {m : Mac}
    (hno : ¬∃ port, e.2.IsRoute .delete r ⟨owner d, port⟩) (hk : routeKey r c d p m ∈ flowSet s.dpQ) :
    routeKey r c d p m ∈ flowSet (s.step cfg e).dpQ := by
  obtain ⟨more, hq, heff⟩ := sided_effect hc hs.toRouteState he
  rw [hq]
  cases heff with
  | add _ _ hall _ =>
    rw [mem_flowSet_adds hall]
    exact Or.inl hk
  | @delete q v x _ hroute _ hp hall hkeys =>
    rw [mem_flowSet_deletes hall, hkeys]
    refine ⟨hk, ?_⟩
    rintro ⟨d', p', m', hserves, heq⟩
    have hfor : (routeKey q x.ctId d' p' m').IsFor r := by
      rw [heq]
      exact routeKey_isFor.mpr rfl
    obtain rfl := routeKey_isFor.mp hfor
    have hd : d' = d := congrArg FlowKey.dpId heq
    have howner : owner d = v.vmId := hd ▸ hs.serves ho hp hserves
    exact hno ⟨v.vmPort, howner ▸ hroute⟩
  | other _ hall =>
    rw [mem_flowSet_aside hall]
    · exact hk
    · exact ⟨_, List.mem_cons_self, rfl⟩

end Steps

section Runs

variable {cfg : Config} {owner : Nat → Nat} (hc : cfg.AllDefault) (ho : cfg.OwnedBy owner)

include hc ho in
theorem attributed_run (hv : cfg.DistinctVmPorts) (h : History) (hp : SidedRoutes cfg h) :
    Attributed h (run (Server.step cfg) Server.init h) := by
  refine Throughout.induction (I := fun h => Attributed h (run (Server.step cfg) Server.init h)) ?_ ?_ h hp
  · intro k hk
    simp [flowSet, replay, Server.init] at hk
  · intro h e _ he ha
    rw [run_snoc]
    exact ha.step hc (run_ownedState hc ho h) he hv

include hc ho in
theorem routeKey_stays_run {r : Prefix} {c d p : Nat} {m : Mac} {h : History} (after : History)
    (hp : SidedRoutes cfg (h ++ after)) (hno : ∀ x ∈ after, ¬∃ port, x.2.IsRoute .delete r ⟨owner d, port⟩)
    (hk : routeKey r c d p m ∈ flowSet (run (Server.step cfg) Server.init h).dpQ) :
    routeKey r c d p m ∈ flowSet (run (Server.step cfg) Server.init (h ++ after)).dpQ := by
  induction after using List.reverseRecOn with
  | nil => simpa using hk
  | append_singleton after e ih =>
    rw [← List.append_assoc] at hp ⊢
    obtain ⟨hp', he⟩ := hp.snoc
    rw [run_snoc]
    exact routeKey_stays hc (run_ownedState hc ho _) he ho (hno e (by simp))
      (ih hp' fun x hx => hno x (by simp [hx]))

/-- `r` was added through `v` and not deleted since. What it got then, it still has. -/
def FlowsKept (cfg : Config) (r : Prefix) (v : VmPort) (h : History) : Prop :=
  LiveOn r v h ∧ ∀ before e after, h = before ++ e :: after → e.2.IsRoute .add r v →
    (∀ x ∈ after, ¬∃ port, x.2.IsRoute .delete r ⟨v.vmId, port⟩) →
    ∃ x, Placed (run (Server.step cfg) Server.init before).rftable v x ∧
      ∀ d p m, Serves (run (Server.step cfg) Server.init before).rftable
          (run (Server.step cfg) Server.init before).isltable x d p m →
        routeKey r x.ctId d p m ∈ flowSet (run (Server.step cfg) Server.init h).dpQ

include hc ho in
theorem flowsKept_of_live {r : Prefix} {v : VmPort} {h : History} (hp : SidedRoutes cfg h)
    (hl : LiveOn r v h) :
    FlowsKept cfg r v h := by
  refine ⟨hl, ?_⟩
  rintro before e after rfl hadd hafter
  have he := hp before e after rfl
  have hs := run_ownedState hc ho before
  obtain ⟨more, hq, heff⟩ := sided_effect hc hs.toRouteState he
  obtain ⟨rm, hrm⟩ : ∃ rm, e.2 = .routeMod rm := by
    obtain ⟨_, _, _, _, _, hmsg⟩ := hadd
    exact ⟨_, hmsg⟩
  rcases he.routes rm hrm with hctl | ⟨hok, -⟩
  · rw [(hadd.mod_eq hrm).1] at hctl
    cases hctl
  obtain ⟨x, more, hplaced, hq, hall, hkeys⟩ := hs.route_step (Or.inl rfl) hadd hok
  refine ⟨x, hplaced, fun d p m hserves => ?_⟩
  have hnow : routeKey r x.ctId d p m ∈ flowSet (run (Server.step cfg) Server.init (before ++ [e])).dpQ := by
    rw [run_snoc, hq, mem_flowSet_adds hall, hkeys]
    exact Or.inr ⟨d, p, m, hserves, rfl⟩
  have howner := hs.serves ho hplaced hserves
  have happ : before ++ e :: after = before ++ [e] ++ after := by simp
  rw [happ] at hp ⊢
  exact routeKey_stays_run hc ho after hp (by rwa [howner]) hnow

end Runs

/-! ## The RouteMods of a client -/

/-- What the flow table of a client sends, which is not for the controller. -/
def Msg.routeModOf (vmId : Nat) : Msg → Option RouteMod
  | .routeMod rm => if rm.id = vmId ∧ rm.mod ≠ .controller then some rm else none
  | _ => none

/-- The RouteMods of the client that have arrived. -/
def routeModsOf (vmId : Nat) (h : History) : List RouteMod := h.filterMap fun e => e.2.routeModOf vmId

theorem routeModOf_eq {vmId : Nat} {msg : Msg} {rm : RouteMod} :
    msg.routeModOf vmId = some rm ↔ msg = .routeMod rm ∧ rm.id = vmId ∧ rm.mod ≠ .controller := by
  cases msg with
  | routeMod rm' =>
    simp only [Msg.routeModOf, Option.ite_none_right_eq_some, Option.some.injEq, Msg.routeMod.injEq]
    constructor
    · rintro ⟨h, rfl⟩
      exact ⟨rfl, h⟩
    · rintro ⟨rfl, h⟩
      exact ⟨h, rfl⟩
  | _ => simp [Msg.routeModOf]

section Link

variable {vmId : Nat}

theorem HwCall.isRoute {c : HwCall} {r : Prefix} (hr : c.IsFor r) :
    (Msg.routeMod (c.routeMod vmId)).IsRoute c.mod r ⟨vmId, c.localIface.port⟩ := by
  refine ⟨.route r, c.localIface, c.gateway, rfl, rfl, ?_⟩
  unfold HwCall.routeMod
  rw [hr.1, hr.2]
  rfl

theorem isRoute_iff {c : HwCall} {q : Prefix} (hq : c.IsFor q) {mod : RouteModType} {r : Prefix}
    {v : VmPort} :
    (Msg.routeMod (c.routeMod vmId)).IsRoute mod r v ↔ c.mod = mod ∧ c.IsFor r ∧
    v = ⟨vmId, c.localIface.port⟩ := by
  constructor
  · intro h
    obtain ⟨hmod, rfl, hv⟩ := (HwCall.isRoute hq).unique h
    exact ⟨hmod, hq, hv.symm⟩
  · rintro ⟨rfl, hr, rfl⟩
    exact HwCall.isRoute hr

theorem isRoute_routeModOf {mod : RouteModType} (hmod : mod ≠ .controller) {r : Prefix}
    {v : VmPort} {msg : Msg} :
    msg.IsRoute mod r v ↔ ∃ rm ∈ msg.routeModOf v.vmId, (Msg.routeMod rm).IsRoute mod r v := by
  constructor
  · intro h
    obtain ⟨_, _, _, _, _, hmsg⟩ := id h
    obtain ⟨hm, hid⟩ := h.mod_eq hmsg
    exact ⟨_, routeModOf_eq.mpr ⟨hmsg, hid, by rwa [hm]⟩, hmsg ▸ h⟩
  · rintro ⟨rm, hrm, h⟩
    rwa [(routeModOf_eq.mp hrm).1]

/-- What is live on a client, the client announced in the calls that have arrived. -/
theorem liveOn_iff {h : History} {calls : List HwCall}
    (hrms : routeModsOf vmId h = calls.map (·.routeMod vmId)) (hfor : ∀ c ∈ calls, ∃ q, c.IsFor q)
    {r : Prefix} {port : Nat} :
    LiveOn r ⟨vmId, port⟩ h ↔ Announced r port calls := by
  have hseen : LiveOn r ⟨vmId, port⟩ h ↔ Since (fun rm => (Msg.routeMod rm).IsRoute .add r ⟨vmId, port⟩)
      (fun rm => ∃ port, (Msg.routeMod rm).IsRoute .delete r ⟨vmId, port⟩) (routeModsOf vmId h) := by
    apply since_filterMap
    · exact fun e => isRoute_routeModOf (by simp)
    · intro e
      constructor
      · rintro ⟨w, hw⟩
        obtain ⟨rm, hrm, hroute⟩ := (isRoute_routeModOf (by simp)).mp hw
        exact ⟨rm, hrm, w, hroute⟩
      · rintro ⟨rm, hrm, w, hroute⟩
        exact ⟨w, (isRoute_routeModOf (by simp)).mpr ⟨rm, hrm, hroute⟩⟩
  rw [hseen, hrms]
  clear hseen hrms
  induction calls using List.reverseRecOn with
  | nil => simp [Announced]
  | append_singleton calls c ih =>
    obtain ⟨q, hq⟩ := hfor c (by simp)
    have hold := ih fun c' hc' => hfor c' (by simp [hc'])
    rw [List.map_append, List.map_singleton, since_snoc]
    refine (or_congr ?_ (and_congr hold (not_congr ?_))).trans (since_snoc calls c).symm
    · rw [isRoute_iff hq, VmPort.mk.injEq, eq_comm (a := port)]
      simp
    · simp [isRoute_iff hq]

theorem sided_isFor {calls : List HwCall} (hs : Throughout Sided calls) : ∀ c ∈ calls, ∃ q, c.IsFor q := by
  intro c hc
  obtain ⟨before, after, rfl⟩ := List.append_of_mem hc
  obtain ⟨q, hq, -⟩ := hs before c after rfl
  exact ⟨q, hq⟩

end Link

/-! ## All together -/

/-- No datapath goes down, and the server accepts the RouteMods for prefixes. -/
def Accepted (cfg : Config) (h : History) : Prop :=
  Throughout (fun before e => (∀ c d, e.2 ≠ .datapathDown c d) ∧
    ∀ rm, e.2 = .routeMod rm → rm.mod = .controller ∨
      (Server.process cfg e.1 (run (Server.step cfg) Server.init before) e.2).2 = .ok ()) h

section Clients

variable {cfg : Config} {inet : Inet} {ports : Nat → IPAddress → Option Nat}
  {acts : Nat → List ResolverThread.Act}
  (hi : inet.Textual) (hk : ∀ vm, Along (ResolverThread.step vm inet)
    (ResolverThread.Kernel inet (ports vm)) {} (acts vm))
  {h : History} (hin : ∀ vm, routeModsOf vm h <+: (ResolverThread.run vm inet (acts vm)).ft.rmQ)

include hi hk hin in
theorem sidedRoutes_of_clients (hok : Accepted cfg h) : SidedRoutes cfg h := by
  rintro before e after rfl
  obtain ⟨hdown, hacc⟩ := hok before e after rfl
  refine ⟨hdown, fun rm hrm => (hacc rm hrm).elim Or.inl fun hok => ?_⟩
  by_cases hctl : rm.mod = .controller
  · exact Or.inl hctl
  obtain ⟨-, -, ht⟩ := ResolverThread.run_told hi (hk rm.id)
  have hof : e.2.routeModOf rm.id = some rm := routeModOf_eq.mpr ⟨hrm, rfl, hctl⟩
  have hcons : routeModsOf rm.id (e :: after) = rm :: routeModsOf rm.id after := List.filterMap_cons_some hof
  have hsplit : routeModsOf rm.id (before ++ e :: after) =
      routeModsOf rm.id before ++ rm :: routeModsOf rm.id after := by
    rw [← hcons]
    exact List.filterMap_append
  obtain ⟨rest, hrest⟩ := hin rm.id
  rw [ResolverThread.run_rmQ hi (hk rm.id), hsplit, List.append_assoc, eq_comm, List.map_eq_append_iff]
    at hrest
  obtain ⟨calls, calls', hcalls, hbefore, hnow⟩ := hrest
  rw [List.cons_append, List.map_eq_cons_iff] at hnow
  obtain ⟨c, calls'', rfl, hc, -⟩ := hnow
  have hall := ht.sided
  rw [hcalls] at hall
  obtain ⟨r, hr, hmod, hside⟩ := hall calls c calls'' rfl
  have hfor : ∀ c' ∈ calls, ∃ q, c'.IsFor q :=
    fun c' hc' => sided_isFor hall c' (List.mem_append_left _ hc')
  refine Or.inr ⟨hok, c.mod, r, ⟨rm.id, c.localIface.port⟩, hmod, ?_, ?_⟩
  · have hroute := @HwCall.isRoute rm.id c r hr
    rw [hc] at hroute
    rwa [hrm]
  · rintro ⟨vm, port⟩ hvm hl
    obtain rfl : vm = rm.id := hvm
    rw [hside port ((liveOn_iff hbefore.symm hfor).mp hl)]

end Clients

/-- When all RouteMods of a client have arrived, and its resolver is at rest, the flows on its datapaths
are for what its kernel has, whatever the other clients are doing. -/
theorem flows_follow_kernel (cfg : Config) (owner : Nat → Nat) (hv : cfg.DistinctVmPorts)
    (hc : cfg.AllDefault) (ho : cfg.OwnedBy owner) (inet : Inet) (hi : inet.Textual)
    (ports : Nat → IPAddress → Option Nat) (acts : Nat → List ResolverThread.Act)
    (hk : ∀ vm, Along (ResolverThread.step vm inet) (ResolverThread.Kernel inet (ports vm)) {} (acts vm))
    (h : History) (hin : ∀ vm, routeModsOf vm h <+: (ResolverThread.run vm inet (acts vm)).ft.rmQ)
    (hok : Accepted cfg h) (vm : Nat)
    (hall : routeModsOf vm h = (ResolverThread.run vm inet (acts vm)).ft.rmQ)
    (hdrain : (ResolverThread.run vm inet (acts vm)).place = .drain) (r : Prefix) :
    let ft := (ResolverThread.run vm inet (acts vm)).ft
    let s := run (Server.step cfg) Server.init h
    (∀ k ∈ flowSet s.dpQ, k.IsFor r → owner k.dpId = vm → ∃ port x p m, k = routeKey r x.ctId k.dpId p m ∧
      ResolverThread.Forwards inet ft r port ∧ Placed s.rftable ⟨vm, port⟩ x ∧
        Serves s.rftable s.isltable x k.dpId p m) ∧
    ∀ port, ResolverThread.Forwards inet ft r port → FlowsKept cfg r ⟨vm, port⟩ h := by
  intro ft s
  have hp := sidedRoutes_of_clients hi hk hin hok
  obtain ⟨-, -, ht⟩ := ResolverThread.run_told hi (hk vm)
  have hlive : ∀ port, LiveOn r ⟨vm, port⟩ h ↔ ResolverThread.Forwards inet ft r port := by
    intro port
    rw [← ResolverThread.announced_iff hi (hk vm) hdrain]
    exact liveOn_iff (hall.trans (ResolverThread.run_rmQ hi (hk vm))) (sided_isFor ht.sided)
  constructor
  · intro k hk' hfor hown
    rcases attributed_run hc ho hv h hp k hk' with hip | ⟨q, v, x, d, p, m, rfl, hl, hplaced, hserves⟩
    · exact absurd (hip _ hfor) (by simp [Match.isIp])
    · obtain rfl := routeKey_isFor.mp hfor
      have hvm : owner d = v.vmId := (run_ownedState hc ho h).serves ho hplaced hserves
      obtain ⟨v, port⟩ := v
      obtain rfl : v = vm := hvm.symm.trans hown
      exact ⟨port, x, p, m, rfl, (hlive port).mp hl, hplaced, hserves⟩
  · intro port hfwd
    exact flowsKept_of_live hc ho hp ((hlive port).mpr hfwd)

/-! ## One client -/

def firstUp : Interface := { firstClient with active := true }

def tenOneEntry : RouteEntry := ⟨(prefixVia 1).dst, tenOne.toPrefix.addr, .ofPrefixLen .ipv4 16, firstUp⟩

/-- The gateway is there before the route. -/
def gatewayFirst (vm : Nat) : List ResolverThread.Act :=
  if vm = 1 then [.host ⟨tenOne.toPrefix.addr, 0x31, firstUp⟩, .route ⟨.add, tenOneEntry⟩, .look, .look,
    .look] else []

def gatewayFirstHistory : History :=
  clientsUp ++ [addTenOne] ++
    [(.insertion, .routeMod (sendToHw 1 .add tenOneEntry.address tenOneEntry.netmask firstUp 0x31))]

def tenOnePrefix : Prefix where
  addr := tenOneEntry.address
  len := 16
  len_le := by decide
  masked := by
    intro i hi
    by_cases h : i < 32
    · revert hi
      revert i
      decide
    · exact Bits.bit_eq_false (by simp [tenOneEntry, prefixVia]; omega)

def onePorts (vm : Nat) (a : IPAddress) : Option Nat :=
  if vm = 1 ∧ a = tenOne.toPrefix.addr then some 1 else none

theorem gatewayFirst_kernel (vm : Nat) : Along (ResolverThread.step vm plainInet)
    (ResolverThread.Kernel plainInet (onePorts vm)) {} (gatewayFirst vm) := by
  unfold gatewayFirst
  split
  · rename_i hvm
    subst hvm
    refine ⟨⟨by decide, rfl, by decide⟩, ⟨rfl, tenOnePrefix, ⟨rfl, rfl⟩, ?_⟩, ?_, ?_, ?_, trivial⟩
    · rintro ⟨a, ha, hport⟩
      have hlen : (16 : Nat) = 8 * a.version.length := congrArg Prefix.len ha
      cases hv : a.version <;> rw [hv] at hlen <;> cases hlen
    · intro _ pr hpr hdel
      obtain rfl : ⟨.add, tenOneEntry⟩ = pr := Option.some.inj hpr
      cases hdel
    · intro hplace
      exact absurd hplace (by decide +kernel)
    · intro hplace
      exact absurd hplace (by decide +kernel)
  · trivial

theorem gatewayFirst_accepted : Accepted onePlace gatewayFirstHistory := by
  have hup : Accepted onePlace clientsUp := by
    refine @Throughout.append _ _ [] clientsUp ?_ ?_
    · rintro before e after heq
      simp at heq
    · intro e he before
      have hquiet := clientsUp_quiet e he
      constructor
      · rintro c d heq
        simp [heq, Msg.isQuiet] at hquiet
      · rintro rm heq
        simp [heq, Msg.isQuiet] at hquiet
  refine (hup.push ⟨by simp [addTenOne], fun _ _ => Or.inr (by decide +kernel)⟩).push
    ⟨by simp, fun _ _ => Or.inr (by decide +kernel)⟩

theorem gatewayFirst_arrived (vm : Nat) :
    routeModsOf vm gatewayFirstHistory = (ResolverThread.run vm plainInet (gatewayFirst vm)).ft.rmQ := by
  by_cases hvm : vm = 1
  · subst hvm
    decide +kernel
  · have hempty : (ResolverThread.run vm plainInet (gatewayFirst vm)).ft.rmQ = [] := by
      simp [gatewayFirst, hvm, ResolverThread.run, Run.run]
    rw [hempty]
    apply List.filterMap_eq_nil_iff.mpr
    intro e he
    have hid : ∀ rm, e.2 = .routeMod rm → rm.id = 1 := by
      revert he
      revert e
      simp [gatewayFirstHistory, clientsUp, addTenOne]
      decide
    rw [Option.eq_none_iff_forall_ne_some]
    intro rm hrm
    obtain ⟨hmsg, hid', -⟩ := routeModOf_eq.mp hrm
    exact hvm (hid'.symm.trans (hid rm hmsg))

theorem flows_follow_kernel_tenOne :
    ResolverThread.Forwards plainInet (ResolverThread.run 1 plainInet (gatewayFirst 1)).ft tenOnePrefix 1 ∧
      FlowsKept onePlace tenOnePrefix ⟨1, 1⟩ gatewayFirstHistory := by
  have hv : onePlace.DistinctVmPorts := by
    simp [Config.DistinctVmPorts, onePlace, memoryTable, Table.add, Table.empty, RFConfigEntry.vm]
  have ho : onePlace.OwnedBy fun _ => 1 := by
    refine ⟨⟨by decide, by decide⟩, ?_, fun _ _ _ => rfl⟩
    rintro v x ⟨c, hc, rfl, -⟩
    revert c
    decide
  have hfwd : ResolverThread.Forwards plainInet (ResolverThread.run 1 plainInet (gatewayFirst 1)).ft
    tenOnePrefix 1 :=
    Or.inl ⟨tenOneEntry, by decide +kernel, by decide +kernel, rfl⟩
  have h := flows_follow_kernel onePlace (fun _ => 1) hv ⟨rfl, rfl⟩ ho plainInet plainInet_textual
    onePorts gatewayFirst
    gatewayFirst_kernel gatewayFirstHistory (fun vm => gatewayFirst_arrived vm ▸ List.prefix_rfl)
    gatewayFirst_accepted 1 (gatewayFirst_arrived 1) (by decide +kernel) tenOnePrefix
  exact ⟨hfwd, h.2 1 hfwd⟩

end RouteFlow
