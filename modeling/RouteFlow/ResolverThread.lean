import RouteFlow.LiveRoutes

/-!
# The resolver thread

`GWResolverCb` one look at a time. The netlink thread can run between any two looks at the queue of pending
routes or at the host table, and so between the two that each route gets before it is handed over.
-/

namespace RouteFlow

open FlowTable

/-- Where the resolver is before its next look. -/
inductive Place where
  -- At the queue.
  | drain
  -- The route is in the table, and its gateway is looked up.
  | check (re : RouteEntry)
  -- In `sendToHw`, where it is looked up again.
  | send (mod : RouteModType) (re : RouteEntry)
  -- In the loop over `unresolvedRoutes`.
  | sweep (todo resolved : List Text)
  -- In `sendToHw` out of that loop.
  | resend (key : Text) (re : RouteEntry) (todo resolved : List Text)
deriving DecidableEq

/-- What happened to the routes. `route` and `host` tell who made a call of the last `sendToHw`. -/
inductive Note where
  | inserted (key : Text) | erased (key : Text)
  | route (c : HwCall) | host (c : HwCall)

/-- The code keeps no such log. -/
structure ResolverThread where
  ft : FlowTable := {}
  place : Place := .drain
  log : List Note := []

namespace ResolverThread

/-- Does `f` and notes the calls that it makes. -/
def noting (s : ResolverThread) (note : HwCall → Note) (f : FlowTable → FlowTable) : ResolverThread :=
  { s with ft := f s.ft, log := s.log ++ ((f s.ft).calls.drop s.ft.calls.length).map note }

section Steps

variable (vmId : Nat) (inet : Inet)

/-- The route that was popped, up to the first look at the host table. -/
def take (s : ResolverThread) (pr : PendingRoute) : ResolverThread :=
  let re := pr.rentry
  let reKey := re.toString inet
  match pr.type with
  | .add =>
    if reKey ∈ s.ft.routeTable then s
    else
      { ft := { s.ft with routeTable := s.ft.routeTable.insert reKey re }
        place := .check re
        log := s.log ++ [.inserted reKey] }
  | .delete =>
    if reKey ∈ s.ft.routeTable then
      { ft := { s.ft with
          routeTable := s.ft.routeTable.erase reKey
          unresolvedRoutes := s.ft.unresolvedRoutes.erase reKey }
        place := .send .delete re
        log := s.log ++ [.erased reKey] }
    else s
  | _ => s

/-- One look of the resolver at the queue or at the tables. -/
def look (s : ResolverThread) : ResolverThread :=
  match s.place with
  | .drain =>
    match s.ft.pendingRoutes with
    | [] => { s with ft := { s.ft with resolver := .retry }, place := .sweep s.ft.unresolvedRoutes [] }
    | pr :: rest => take inet { s with ft := { s.ft with pendingRoutes := rest } } pr
  | .check re =>
    if s.ft.findHost inet re.gateway = MAC_ADDR_NONE then
      { s with
        ft := { s.ft with unresolvedRoutes := insertKey (re.toString inet) s.ft.unresolvedRoutes }
        place := .drain }
    else { s with place := .send .add re }
  | .send mod re => { s.noting .route (·.sendRouteToHw vmId inet mod re) with place := .drain }
  | .sweep [] resolved =>
    { s with
      ft := { s.ft with unresolvedRoutes := s.ft.unresolvedRoutes.diff resolved, resolver := .drain }
      place := .drain }
  | .sweep (key :: todo) resolved =>
    let ft := s.ft.openRoute key
    let re := (ft.routeTable.lookup key).getD blankRoute
    if ft.findHost inet re.gateway = MAC_ADDR_NONE then { s with ft := ft, place := .sweep todo resolved }
    else { s with ft := ft, place := .resend key re todo resolved }
  | .resend key re todo resolved =>
    { s.noting .route (·.sendRouteToHw vmId inet .add re) with place := .sweep todo (resolved ++ [key]) }

/-- The netlink thread stores a route or a host, or the resolver takes a look. -/
inductive Act where
  | route (pr : PendingRoute)
  | host (hentry : HostEntry)
  | look

def step (s : ResolverThread) : Act → ResolverThread
  | .route pr => { s with ft := { s.ft with pendingRoutes := s.ft.pendingRoutes ++ [pr] } }
  | .host hentry => s.noting .host (·.updateHostTable vmId inet hentry)
  | .look => s.look vmId inet

def run (acts : List Act) : ResolverThread := Run.run (step vmId inet) {} acts

end Steps

/-! ## Without interruption -/

variable {vmId : Nat} {inet : Inet}

theorem handOver_calls (ft : FlowTable) (c : HwCall) : (ft.handOver vmId c).calls = ft.calls ++ [c] := by
  unfold handOver
  split <;> rfl

theorem handOver_resolver (ft : FlowTable) (c : HwCall) : (ft.handOver vmId c).resolver = ft.resolver := by
  unfold handOver
  split <;> rfl

/-- The thread is where `FlowTable.resolve` begins. -/
structure Matches (ft : FlowTable) (s : ResolverThread) : Prop where
  ft_eq : s.ft = ft
  place_eq : s.place = match ft.resolver with
    | .drain => .drain
    | .retry => .sweep ft.unresolvedRoutes []

def looks (vmId : Nat) (inet : Inet) (n : Nat) (s : ResolverThread) : ResolverThread :=
  Run.run (step vmId inet) s (List.replicate n .look)

theorem looks_succ (n : Nat) (s : ResolverThread) :
    looks vmId inet (n + 1) s = looks vmId inet n (s.look vmId inet) := rfl

theorem looks_add (m n : Nat) (s : ResolverThread) :
    looks vmId inet (m + n) s = looks vmId inet n (looks vmId inet m s) := by
  unfold looks
  rw [List.replicate_add, Run.run_append]

theorem sendRouteToHw_known {ft : FlowTable} {re : RouteEntry}
    (h : ft.findHost inet re.gateway ≠ MAC_ADDR_NONE) (mod : RouteModType) :
    ft.sendRouteToHw vmId inet mod re =
      ft.handOver vmId ⟨mod, re.address, re.netmask, re.interface, ft.findHost inet re.gateway⟩ := if_neg h

theorem sendRouteToHw_unknown {ft : FlowTable} {re : RouteEntry}
    (h : ft.findHost inet re.gateway = MAC_ADDR_NONE) (mod : RouteModType) :
    ft.sendRouteToHw vmId inet mod re = ft := if_pos h

theorem sendRouteToHw_resolver (ft : FlowTable) (mod : RouteModType) (re : RouteEntry) :
    (ft.sendRouteToHw vmId inet mod re).resolver = ft.resolver := by
  by_cases h : ft.findHost inet re.gateway = MAC_ADDR_NONE
  · rw [sendRouteToHw_unknown h]
  · rw [sendRouteToHw_known h, handOver_resolver]

theorem look_drain_nil {s : ResolverThread} (hplace : s.place = .drain) (hpending : s.ft.pendingRoutes = []) :
    s.look vmId inet =
      { s with ft := { s.ft with resolver := .retry }, place := .sweep s.ft.unresolvedRoutes [] } := by
  obtain ⟨ft, place, log⟩ := s
  obtain rfl : place = .drain := hplace
  simp only at hpending
  simp [look, hpending]

theorem look_drain_cons {s : ResolverThread} {pr : PendingRoute} {rest : List PendingRoute}
    (hplace : s.place = .drain) (hpending : s.ft.pendingRoutes = pr :: rest) :
    s.look vmId inet = take inet { s with ft := { s.ft with pendingRoutes := rest } } pr := by
  obtain ⟨ft, place, log⟩ := s
  obtain rfl : place = .drain := hplace
  simp only at hpending
  simp [look, hpending]

theorem look_check_eq {s : ResolverThread} {re : RouteEntry} (hplace : s.place = .check re) :
    s.look vmId inet =
      if s.ft.findHost inet re.gateway = MAC_ADDR_NONE then
        { s with
          ft := { s.ft with unresolvedRoutes := insertKey (re.toString inet) s.ft.unresolvedRoutes }
          place := .drain }
      else { s with place := .send .add re } := by
  unfold look
  rw [hplace]

theorem look_send_eq {s : ResolverThread} {mod : RouteModType} {re : RouteEntry}
    (hplace : s.place = .send mod re) :
    s.look vmId inet = { s.noting .route (·.sendRouteToHw vmId inet mod re) with place := .drain } := by
  unfold look
  rw [hplace]

theorem look_resend_eq {s : ResolverThread} {key : Text} {re : RouteEntry} {todo resolved : List Text}
    (hplace : s.place = .resend key re todo resolved) :
    s.look vmId inet =
      { s.noting .route (·.sendRouteToHw vmId inet .add re) with
        place := .sweep todo (resolved ++ [key]) } := by
  unfold look
  rw [hplace]

theorem look_sweep_nil {s : ResolverThread} {resolved : List Text} (hplace : s.place = .sweep [] resolved) :
    s.look vmId inet = { s with
      ft := { s.ft with unresolvedRoutes := s.ft.unresolvedRoutes.diff resolved, resolver := .drain }
      place := .drain } := by
  unfold look
  rw [hplace]

theorem look_sweep_cons {s : ResolverThread} {key : Text} {todo resolved : List Text} {e : RouteEntry}
    (hplace : s.place = .sweep (key :: todo) resolved) (hmem : key ∈ s.ft.routeTable)
    (he : s.ft.routeTable.lookup key = some e) :
    s.look vmId inet = { s with
      place := if s.ft.findHost inet e.gateway = MAC_ADDR_NONE then .sweep todo resolved
        else .resend key e todo resolved } := by
  unfold look openRoute
  rw [hplace]
  dsimp only
  rw [if_pos hmem, he, Option.getD_some]
  split <;> rfl

theorem handle_looks {s : ResolverThread} {pr : PendingRoute} (hplace : s.place = .drain)
    (hres : s.ft.resolver = .drain) :
    ∃ n, Matches (handle vmId inet s.ft pr) (looks vmId inet n (take inet s pr)) := by
  obtain ⟨type, re⟩ := pr
  have hhere : Matches s.ft s := ⟨rfl, by rw [hplace, hres]⟩
  cases type with
  | add =>
    unfold handle take
    dsimp only
    split
    · exact ⟨0, hhere⟩
    · split
      · rename_i hhost
        refine ⟨1, ?_⟩
        rw [looks_succ, look]
        dsimp only
        rw [if_pos hhost]
        refine ⟨rfl, ?_⟩
        dsimp only
        rw [hres]
        rfl
      · rename_i hhost
        refine ⟨2, ?_⟩
        rw [looks_succ, look]
        dsimp only
        rw [if_neg hhost]
        refine ⟨rfl, ?_⟩
        rw [sendRouteToHw_resolver, hres]
        rfl
  | delete =>
    unfold handle take
    dsimp only
    split
    · refine ⟨1, ?_⟩
      refine ⟨rfl, ?_⟩
      rw [sendRouteToHw_resolver, hres]
      rfl
    · exact ⟨0, hhere⟩
  | controller | addGroup | deleteGroup | unknown => exact ⟨0, hhere⟩

theorem sweep_looks {todo resolved : List Text} {s : ResolverThread}
    (hplace : s.place = .sweep todo resolved) :
    ∃ n, (looks vmId inet n s).ft = (todo.foldl (retryRoute vmId inet) (s.ft, resolved)).1 ∧
      (looks vmId inet n s).place = .sweep [] (todo.foldl (retryRoute vmId inet) (s.ft, resolved)).2 := by
  induction todo generalizing s resolved with
  | nil => exact ⟨0, rfl, hplace⟩
  | cons key todo ih =>
    rw [List.foldl_cons]
    have hlook : ∃ n, (looks vmId inet n s).ft = (retryRoute vmId inet (s.ft, resolved) key).1 ∧
        (looks vmId inet n s).place = .sweep todo (retryRoute vmId inet (s.ft, resolved) key).2 := by
      unfold retryRoute
      dsimp only
      split
      · rename_i hhost
        refine ⟨1, ?_⟩
        rw [looks_succ, look, hplace]
        dsimp only
        rw [if_pos hhost]
        exact ⟨rfl, rfl⟩
      · rename_i hhost
        refine ⟨2, ?_⟩
        rw [looks_succ, look, hplace]
        dsimp only
        rw [if_neg hhost]
        exact ⟨rfl, rfl⟩
    obtain ⟨m, hft, hplace'⟩ := hlook
    obtain ⟨n, hn⟩ := ih hplace'
    refine ⟨m + n, ?_⟩
    rw [looks_add]
    rw [hft] at hn
    exact hn

/-- A step of the resolver is some looks of the thread that nothing comes between. -/
theorem resolve_looks {ft : FlowTable} {s : ResolverThread} (h : Matches ft s) :
    ∃ n, Matches (ft.resolve vmId inet) (looks vmId inet n s) := by
  obtain ⟨rfl, hplace⟩ := h
  unfold resolve
  cases hres : s.ft.resolver with
  | drain =>
    rw [hres] at hplace
    dsimp only at hplace ⊢
    cases hpending : s.ft.pendingRoutes with
    | nil =>
      refine ⟨1, ?_⟩
      rw [looks_succ, look_drain_nil hplace hpending]
      refine ⟨?_, rfl⟩
      show { s.ft with resolver := .retry } = _
      dsimp only
      rw [hpending]
    | cons pr rest =>
      obtain ⟨n, hn⟩ := @handle_looks vmId inet { s with ft := { s.ft with pendingRoutes := rest } }
        pr hplace hres
      refine ⟨n + 1, ?_⟩
      rw [looks_succ, look_drain_cons hplace hpending]
      rw [← hres]
      exact hn
  | retry =>
    rw [hres] at hplace
    dsimp only at hplace ⊢
    obtain ⟨n, hft, hplace'⟩ := @sweep_looks vmId inet _ _ _ hplace
    refine ⟨n + 1, ?_⟩
    rw [looks_add, looks_succ, look_sweep_nil hplace', hft]
    exact ⟨rfl, rfl⟩

/-! ## What only the resolver touches -/

/-- What the resolver relies on where it is. -/
def AtPlace (inet : Inet) (s : ResolverThread) : Prop :=
  match s.place with
  | .drain => True
  | .check re | .send .add re =>
    s.ft.routeTable.lookup (re.toString inet) = some re ∧ re.toString inet ∉ s.ft.unresolvedRoutes
  | .send .delete re => re.toString inet ∉ s.ft.routeTable
  | .send _ _ => False
  | .sweep todo resolved => (resolved ++ todo).Nodup ∧ ∀ k ∈ todo, k ∈ s.ft.unresolvedRoutes
  | .resend key re todo resolved =>
    s.ft.routeTable.lookup key = some re ∧ (resolved ++ key :: todo).Nodup ∧
      ∀ k ∈ key :: todo, k ∈ s.ft.unresolvedRoutes

/-- The invariant: what the resolver is about to do fits the tables. -/
structure Placed (inet : Inet) (s : ResolverThread) : Prop where
  listed : s.ft.Listed
  keyed : ∀ k e, s.ft.routeTable.lookup k = some e → e.toString inet = k
  place : AtPlace inet s

theorem Placed.frame {s s' : ResolverThread} (h : Placed inet s) (hsame : s'.ft.routeTable = s.ft.routeTable)
    (hunresolved : s'.ft.unresolvedRoutes = s.ft.unresolvedRoutes) (hplace : AtPlace inet s') :
    Placed inet s' := by
  refine ⟨⟨?_, ?_⟩, ?_, hplace⟩
  · rw [hunresolved]
    exact h.listed.nodup
  · rw [hunresolved, hsame]
    exact h.listed.mem_table
  · rw [hsame]
    exact h.keyed

theorem AtPlace.congr {s s' : ResolverThread} (h : AtPlace inet s)
    (htable : s'.ft.routeTable = s.ft.routeTable)
    (hunresolved : s'.ft.unresolvedRoutes = s.ft.unresolvedRoutes) (hplace : s'.place = s.place) :
    AtPlace inet s' := by
  unfold AtPlace at h ⊢
  rw [hplace, htable, hunresolved]
  exact h

theorem Placed.at_place {s : ResolverThread} (h : Placed inet s) {place : Place} (hplace : s.place = place) :
    AtPlace inet { s with place := place } := by
  subst hplace
  exact h.place

theorem take_placed {s : ResolverThread} (h : Placed inet s) (pr : PendingRoute) :
    Placed inet (take inet s pr) := by
  unfold take
  dsimp only
  split
  · split
    · exact h
    · rename_i hmem
      refine ⟨⟨h.listed.nodup, ?_⟩, ?_, AList.lookup_insert _, ?_⟩
      · intro k hk
        exact (AList.mem_insert _).mpr (Or.inr (h.listed.mem_table k hk))
      · intro k e he
        by_cases hk : k = pr.rentry.toString inet
        · rw [hk, AList.lookup_insert] at he
          rw [hk, Option.some.inj he]
        · rw [AList.lookup_insert_ne hk] at he
          exact h.keyed k e he
      · intro hin
        exact hmem (h.listed.mem_table _ hin)
  · split
    · refine ⟨⟨h.listed.nodup.erase _, ?_⟩, ?_, ?_⟩
      · intro k hk
        obtain ⟨hne, hin⟩ := h.listed.nodup.mem_erase_iff.mp hk
        exact AList.mem_erase.mpr ⟨hne, h.listed.mem_table k hin⟩
      · intro k e he
        by_cases hk : k = pr.rentry.toString inet
        · rw [hk, AList.lookup_erase] at he
          cases he
        · rw [AList.lookup_erase_ne hk] at he
          exact h.keyed k e he
      · show pr.rentry.toString inet ∉ s.ft.routeTable.erase (pr.rentry.toString inet)
        simp [AList.mem_erase]
    · exact h
  · exact h

theorem look_placed {s : ResolverThread} (h : Placed inet s) : Placed inet (s.look vmId inet) := by
  cases hplace : s.place with
  | drain =>
    cases hpending : s.ft.pendingRoutes with
    | nil =>
      rw [look_drain_nil hplace hpending]
      exact h.frame rfl rfl ⟨h.listed.nodup, fun k hk => hk⟩
    | cons pr rest =>
      rw [look_drain_cons hplace hpending]
      apply take_placed
      exact h.frame rfl rfl (h.place.congr rfl rfl rfl)
  | check re =>
    obtain ⟨hlookup, hno⟩ := h.at_place hplace
    rw [look_check_eq hplace]
    split
    · refine ⟨⟨nodup_insertKey h.listed.nodup, ?_⟩, h.keyed, trivial⟩
      intro k hk
      rcases mem_insertKey.mp hk with rfl | hk
      · exact mem_of_lookup hlookup
      · exact h.listed.mem_table k hk
    · exact h.frame rfl rfl ⟨hlookup, hno⟩
  | send mod re =>
    have hsame := @sendRouteToHw_sameRoutes inet vmId s.ft mod re
    rw [look_send_eq hplace]
    exact h.frame hsame.table hsame.unresolved trivial
  | sweep todo resolved =>
    cases todo with
    | nil =>
      rw [look_sweep_nil hplace]
      refine ⟨⟨h.listed.nodup.diff, ?_⟩, h.keyed, trivial⟩
      intro k hk
      exact h.listed.mem_table k (List.diff_subset _ _ hk)
    | cons key todo =>
      obtain ⟨hnodup, htodo⟩ := h.at_place hplace
      have hmem := h.listed.mem_table key (htodo key List.mem_cons_self)
      obtain ⟨e, he⟩ := exists_lookup hmem
      rw [look_sweep_cons hplace hmem he]
      split
      · refine h.frame rfl rfl ⟨hnodup.sublist ?_, fun k hk => htodo k (List.mem_cons_of_mem _ hk)⟩
        exact (List.sublist_cons_self _ _).append_left _
      · exact h.frame rfl rfl ⟨he, hnodup, htodo⟩
  | resend key re todo resolved =>
    obtain ⟨hlookup, hnodup, htodo⟩ := h.at_place hplace
    have hsame := @sendRouteToHw_sameRoutes inet vmId s.ft .add re
    rw [look_resend_eq hplace]
    refine h.frame hsame.table hsame.unresolved ⟨?_, ?_⟩
    · rw [List.append_assoc]
      exact hnodup
    · intro k hk
      show k ∈ (s.ft.sendRouteToHw vmId inet .add re).unresolvedRoutes
      rw [hsame.unresolved]
      exact htodo k (List.mem_cons_of_mem _ hk)

theorem step_placed {s : ResolverThread} (a : Act) (h : Placed inet s) :
    Placed inet (step vmId inet s a) := by
  cases a with
  | route pr => exact h.frame rfl rfl (h.place.congr rfl rfl rfl)
  | host hentry =>
    have hsame := @updateHostTable_sameRoutes inet vmId s.ft hentry
    exact h.frame hsame.table hsame.unresolved (h.place.congr hsame.table hsame.unresolved rfl)
  | look => exact look_placed h

theorem placed_init : Placed inet {} := ⟨⟨List.nodup_nil, by simp⟩, by simp, trivial⟩

/-! ## Runs -/

/-- What the netlink thread does. -/
def Act.netlink : Act → Option Event
  | .route pr => some (.route pr)
  | .host hentry => some (.host hentry)
  | .look => none

def heard : Event → Option Event
  | .route pr => some (.route pr)
  | .host hentry => some (.host hentry)
  | _ => none

theorem netlink_looks (n : Nat) : (List.replicate n Act.look).filterMap Act.netlink = [] := by
  induction n with
  | zero => rfl
  | succ n ih => exact ih

/-- A run of the table is one of the thread, with the same routes and hosts in the same order. -/
theorem run_looks {evs : List Event} (hno : ∀ e ∈ evs, ∀ iface, e ≠ .portUp iface) :
    ∃ acts, acts.filterMap Act.netlink = evs.filterMap heard ∧
      Matches (FlowTable.run vmId inet evs) (run vmId inet acts) := by
  induction evs using List.reverseRecOn with
  | nil => exact ⟨[], rfl, rfl, rfl⟩
  | append_singleton evs e ih =>
    obtain ⟨acts, hacts, hmatch⟩ := ih fun e' he' => hno e' (List.mem_append_left _ he')
    have hnext : FlowTable.run vmId inet (evs ++ [e]) =
      FlowTable.step vmId inet (FlowTable.run vmId inet evs) e :=
      Run.run_snoc _ _ _ _
    rw [hnext, List.filterMap_append]
    cases e with
    | route pr =>
      refine ⟨acts ++ [.route pr], by rw [List.filterMap_append, hacts]; rfl, ?_⟩
      unfold run
      rw [Run.run_snoc]
      obtain ⟨hft, hplace⟩ := hmatch
      refine ⟨?_, hplace⟩
      rw [← hft]
      rfl
    | host hentry =>
      refine ⟨acts ++ [.host hentry], by rw [List.filterMap_append, hacts]; rfl, ?_⟩
      unfold run
      rw [Run.run_snoc]
      obtain ⟨hft, hplace⟩ := hmatch
      refine ⟨?_, ?_⟩
      · rw [← hft]
        rfl
      · have hunresolved := (@updateHostTable_sameRoutes inet vmId (FlowTable.run vmId inet evs)
          hentry).unresolved
        have hresolver := @handOver_resolver vmId (FlowTable.run vmId inet evs)
        refine Eq.trans hplace ?_
        unfold FlowTable.step
        dsimp only
        rw [hunresolved]
        unfold updateHostTable
        dsimp only
        rw [hresolver]
    | portUp iface => exact absurd rfl (hno _ (by simp) iface)
    | resolver =>
      obtain ⟨n, hn⟩ := @resolve_looks vmId inet _ _ hmatch
      refine ⟨acts ++ List.replicate n .look, by rw [List.filterMap_append, hacts, netlink_looks]; rfl, ?_⟩
      unfold run
      rw [Run.run_append]
      exact hn

end ResolverThread

end RouteFlow
