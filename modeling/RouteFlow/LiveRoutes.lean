import RouteFlow.RouteTable
import RouteFlow.TlvAgree
import RouteFlow.Lib.Keyed
import RouteFlow.Lib.Run

/-!
# The live routes

The route table is a store under the keys of `RouteEntry::toString`, which leave out the gateway. So it has
exactly the live routes if and only if each of them had the last event on its prefix.
-/

namespace RouteFlow

open Bytes

/-! ## Keys -/

/-- What the kernel tells routes apart by. -/
structure Route where
  address : IPAddress
  netmask : IPAddress
  gateway : IPAddress
deriving DecidableEq

/-- What `operator==` compares, but for the interface. -/
def RouteEntry.route (re : RouteEntry) : Route := ⟨re.address, re.netmask, re.gateway⟩

/-- `RouteEntry::toString`, which writes the netmask where the gateway should be. -/
def Route.key (inet : Inet) (r : Route) : Text :=
  r.address.toText inet ++ '/' :: (r.netmask.toText inet ++ (" via ".toList ++ r.netmask.toText inet))

/-- What `inet_ntop` writes: the text of an address has no slash, and a colon exactly if it is an IPv6
address. -/
structure Inet.Textual (inet : Inet) : Prop where
  inverse : inet.Inverse
  no_slash : ∀ v bytes, bytes.length = IPVersion.length v → '/' ∉ inet.ntop v bytes
  colon : ∀ v bytes, bytes.length = IPVersion.length v → (':' ∈ inet.ntop v bytes ↔ v = .ipv6)

variable {inet : Inet}

theorem Inet.Textual.toText_inj (hi : inet.Textual) {a b : IPAddress}
    (h : a.toText inet = b.toText inet) : a = b := by
  unfold IPAddress.toText at h
  have hv : a.version = b.version := by
    have ha := hi.colon a.version a.data a.length_eq
    rw [h, hi.colon b.version b.data b.length_eq] at ha
    cases hav : a.version <;> cases hbv : b.version <;> simp_all
  have hdata : some a.data = some b.data := by
    rw [← hi.inverse a.version a.data a.length_eq, ← hi.inverse b.version b.data b.length_eq, h, hv]
  obtain ⟨va, da, _⟩ := a
  obtain ⟨vb, db, _⟩ := b
  simp_all

theorem slash_inj {a b t u : Text} (ha : '/' ∉ a) (hb : '/' ∉ b) (h : a ++ '/' :: t = b ++ '/' :: u) :
    a = b ∧ t = u := by
  induction a generalizing b with
  | nil =>
    cases b with
    | nil => exact ⟨rfl, (List.cons.inj h).2⟩
    | cons d b =>
      obtain rfl : '/' = d := (List.cons.inj h).1
      exact absurd List.mem_cons_self hb
  | cons c a ih =>
    cases b with
    | nil =>
      obtain rfl : c = '/' := (List.cons.inj h).1
      exact absurd List.mem_cons_self ha
    | cons d b =>
      simp only [List.cons_append, List.cons.injEq] at h
      simp only [List.mem_cons, not_or] at ha hb
      obtain ⟨hab, htu⟩ := ih ha.2 hb.2 h.2
      rw [h.1, hab]
      exact ⟨rfl, htu⟩

theorem Inet.Textual.key_inj (hi : inet.Textual) {r q : Route} :
    r.key inet = q.key inet ↔ r.address = q.address ∧ r.netmask = q.netmask := by
  constructor
  · intro h
    obtain ⟨haddr, hrest⟩ := slash_inj (hi.no_slash _ _ r.address.length_eq)
      (hi.no_slash _ _ q.address.length_eq) h
    -- The netmask stands there twice, so the lengths agree.
    have hlen := congrArg List.length hrest
    simp only [List.length_append] at hlen
    obtain ⟨hmask, -⟩ := List.append_inj hrest (by omega)
    exact ⟨hi.toText_inj haddr, hi.toText_inj hmask⟩
  · rintro ⟨ha, hm⟩
    rw [Route.key, ha, hm, Route.key]

namespace FlowTable

open Keyed

/-! ## Frames -/

/-- The routes are as they were. -/
structure SameRoutes (ft ft' : FlowTable) : Prop where
  table : ft'.routeTable = ft.routeTable
  unresolved : ft'.unresolvedRoutes = ft.unresolvedRoutes
  pending : ft'.pendingRoutes = ft.pendingRoutes

theorem SameRoutes.refl (ft : FlowTable) : SameRoutes ft ft := ⟨rfl, rfl, rfl⟩

theorem SameRoutes.trans {ft ft' ft'' : FlowTable} (h : SameRoutes ft ft') (h' : SameRoutes ft' ft'') :
    SameRoutes ft ft'' :=
  ⟨h'.table.trans h.table, h'.unresolved.trans h.unresolved, h'.pending.trans h.pending⟩

variable (vmId : Nat)

theorem handOver_sameRoutes (ft : FlowTable) (c : HwCall) : SameRoutes ft (ft.handOver vmId c) := by
  unfold handOver
  split
  · exact ⟨rfl, rfl, rfl⟩
  · exact ⟨rfl, rfl, rfl⟩

theorem sendRouteToHw_sameRoutes (ft : FlowTable) (mod : RouteModType) (re : RouteEntry) :
    SameRoutes ft (ft.sendRouteToHw vmId inet mod re) := by
  unfold sendRouteToHw
  dsimp only
  split
  · exact .refl ft
  · exact handOver_sameRoutes vmId ft _

theorem updateHostTable_sameRoutes (ft : FlowTable) (hentry : HostEntry) :
    SameRoutes ft (ft.updateHostTable vmId inet hentry) := by
  have h := handOver_sameRoutes vmId ft
  exact ⟨(h _).table, (h _).unresolved, (h _).pending⟩

theorem notifyPortUp_sameRoutes (ft : FlowTable) (iface : Interface) :
    SameRoutes ft (ft.notifyPortUp vmId iface) := by
  unfold notifyPortUp
  dsimp only
  generalize ft.cachedRm.filter (fun c => c.1 = iface.name) = mine
  have hstart : SameRoutes ft { ft with cachedRm := ft.cachedRm.filter fun c => c.1 ≠ iface.name } :=
    ⟨rfl, rfl, rfl⟩
  revert hstart
  generalize { ft with cachedRm := ft.cachedRm.filter fun c => c.1 ≠ iface.name } = ft'
  intro hstart
  induction mine generalizing ft' with
  | nil => exact hstart
  | cons c rest ih => exact ih _ (hstart.trans (handOver_sameRoutes vmId _ _))

/-! ## The table as a store -/

/-- What a pending route does to the table. Other types do nothing. -/
def op (pr : PendingRoute) : Option (Op RouteEntry) :=
  match pr.type with
  | .add => some (.new pr.rentry)
  | .delete => some (.del pr.rentry)
  | _ => none

def Event.pushed : Event → Option PendingRoute
  | .route pr => some pr
  | _ => none

/-- What was pushed, as operations on the live routes. -/
def routeOps (evs : List Event) : List (Op RouteEntry) := (evs.filterMap Event.pushed).filterMap op

/-- Whoever waits for its gateway is in the table. -/
structure Listed (ft : FlowTable) : Prop where
  nodup : ft.unresolvedRoutes.Nodup
  mem_table : ∀ k ∈ ft.unresolvedRoutes, k ∈ ft.routeTable

theorem SameRoutes.listed {ft ft' : FlowTable} (h : SameRoutes ft ft') (hl : ft.Listed) : ft'.Listed := by
  refine ⟨?_, ?_⟩
  · rw [h.unresolved]
    exact hl.nodup
  · rw [h.unresolved, h.table]
    exact hl.mem_table

theorem mem_of_lookup {t : AList fun _ : Text => RouteEntry} {key : Text} {e : RouteEntry}
    (h : t.lookup key = some e) : key ∈ t := by
  rw [← AList.lookup_isSome, h]
  rfl

theorem exists_lookup {t : AList fun _ : Text => RouteEntry} {key : Text} (h : key ∈ t) :
    ∃ e, t.lookup key = some e := Option.isSome_iff_exists.mp (AList.lookup_isSome.mpr h)

section Lookup

variable {t : AList fun _ : Text => RouteEntry} {key : Text} (k : Text)

theorem lookup_add (re : RouteEntry) : (if key ∈ t then t else t.insert key re).lookup k =
    if key = k then (t.lookup k).or (some re) else t.lookup k := by
  by_cases hk : key = k
  · subst hk
    rw [if_pos rfl]
    by_cases hmem : key ∈ t
    · obtain ⟨e, he⟩ := exists_lookup hmem
      rw [if_pos hmem, he, Option.some_or]
    · rw [if_neg hmem, AList.lookup_insert, AList.lookup_eq_none.mpr hmem, Option.none_or]
  · rw [if_neg hk]
    split
    · rfl
    · rw [AList.lookup_insert_ne (Ne.symm hk)]

theorem lookup_del : (if key ∈ t then t.erase key else t).lookup k = if key = k then none
    else t.lookup k := by
  by_cases hk : key = k
  · subst hk
    rw [if_pos rfl]
    by_cases hmem : key ∈ t
    · rw [if_pos hmem, AList.lookup_erase]
    · rw [if_neg hmem, AList.lookup_eq_none.mpr hmem]
  · rw [if_neg hk]
    split
    · rw [AList.lookup_erase_ne (Ne.symm hk)]
    · rfl

end Lookup

/-- What a round of the loop over `pendingRoutes` can do to the routes. -/
inductive RouteEffect (inet : Inet) (ft : FlowTable) : PendingRoute → FlowTable → Prop where
  | ignored {pr : PendingRoute} : op pr = none → RouteEffect inet ft pr ft
  | taken {re : RouteEntry} : re.toString inet ∈ ft.routeTable → RouteEffect inet ft ⟨.add, re⟩ ft
  | added {re : RouteEntry} {keys : List Text} {ft' : FlowTable} : re.toString inet ∉ ft.routeTable →
      keys = ft.unresolvedRoutes ∨ keys = insertKey (re.toString inet) ft.unresolvedRoutes →
      SameRoutes { ft with
        routeTable := ft.routeTable.insert (re.toString inet) re
        unresolvedRoutes := keys } ft' →
      RouteEffect inet ft ⟨.add, re⟩ ft'
  | gone {re : RouteEntry} : re.toString inet ∉ ft.routeTable → RouteEffect inet ft ⟨.delete, re⟩ ft
  | deleted {re : RouteEntry} {ft' : FlowTable} : re.toString inet ∈ ft.routeTable →
      SameRoutes { ft with
        routeTable := ft.routeTable.erase (re.toString inet)
        unresolvedRoutes := ft.unresolvedRoutes.erase (re.toString inet) } ft' →
      RouteEffect inet ft ⟨.delete, re⟩ ft'

theorem handle_effect (inet : Inet) (ft : FlowTable) (pr : PendingRoute) :
    RouteEffect inet ft pr (handle vmId inet ft pr) := by
  obtain ⟨type, re⟩ := pr
  cases type with
  | add =>
    unfold handle
    dsimp only
    split
    · rename_i hmem
      exact .taken hmem
    · rename_i hmem
      split
      · exact .added hmem (Or.inr rfl) (.refl _)
      · exact .added hmem (Or.inl rfl) (sendRouteToHw_sameRoutes vmId _ .add re)
  | delete =>
    unfold handle
    dsimp only
    split
    · rename_i hmem
      exact .deleted hmem (sendRouteToHw_sameRoutes vmId _ .delete re)
    · rename_i hmem
      exact .gone hmem
  | controller | addGroup | deleteGroup | unknown => exact .ignored rfl

theorem RouteEffect.lookup {ft ft' : FlowTable} {pr : PendingRoute}
    (h : RouteEffect inet ft pr ft') (k : Text) :
    ft'.routeTable.lookup k =
      match op pr with
      | some o => Keyed.apply RouteEntry.route (Route.key inet) (fun k => ft.routeTable.lookup k) o k
      | none => ft.routeTable.lookup k := by
  cases h with
  | ignored hop => rw [hop]
  | @taken re hmem =>
    have hadd := @lookup_add ft.routeTable (re.toString inet) k re
    rw [if_pos hmem] at hadd
    exact hadd
  | @added re keys _ hmem _ hsame =>
    have hadd := @lookup_add ft.routeTable (re.toString inet) k re
    rw [if_neg hmem] at hadd
    rw [hsame.table]
    exact hadd
  | @gone re hmem =>
    have hdel := @lookup_del ft.routeTable (re.toString inet) k
    rw [if_neg hmem] at hdel
    exact hdel
  | @deleted re _ hmem hsame =>
    have hdel := @lookup_del ft.routeTable (re.toString inet) k
    rw [if_pos hmem] at hdel
    rw [hsame.table]
    exact hdel

theorem RouteEffect.pending {ft ft' : FlowTable} {pr : PendingRoute} (h : RouteEffect inet ft pr ft') :
    ft'.pendingRoutes = ft.pendingRoutes := by
  cases h with
  | ignored | taken | gone => rfl
  | added _ _ hsame => rw [hsame.pending]
  | deleted _ hsame => rw [hsame.pending]

theorem mem_insertKey {key k : Text} {keys : List Text} : k ∈ insertKey key keys ↔ k = key ∨ k ∈ keys := by
  unfold insertKey
  split
  · rename_i hmem
    constructor
    · exact Or.inr
    · rintro (rfl | hk)
      · exact hmem
      · exact hk
  · exact List.mem_orderedInsert _

theorem nodup_insertKey {key : Text} {keys : List Text} (h : keys.Nodup) : (insertKey key keys).Nodup := by
  unfold insertKey
  split
  · exact h
  · rename_i hmem
    rw [(List.perm_orderedInsert _ key keys).nodup_iff]
    exact List.nodup_cons.mpr ⟨hmem, h⟩

theorem RouteEffect.listed {ft ft' : FlowTable} {pr : PendingRoute} (h : RouteEffect inet ft pr ft')
    (hl : ft.Listed) : ft'.Listed := by
  cases h with
  | ignored | taken | gone => exact hl
  | added _ hkeys hsame =>
    apply hsame.listed
    rcases hkeys with rfl | rfl
    · refine ⟨hl.nodup, ?_⟩
      intro k hk
      rw [AList.mem_insert]
      exact Or.inr (hl.mem_table k hk)
    · refine ⟨nodup_insertKey hl.nodup, ?_⟩
      intro k hk
      rw [AList.mem_insert]
      exact (mem_insertKey.mp hk).imp id (hl.mem_table k)
  | deleted _ hsame =>
    apply hsame.listed
    refine ⟨hl.nodup.erase _, ?_⟩
    intro k hk
    obtain ⟨hne, hmem⟩ := hl.nodup.mem_erase_iff.mp hk
    rw [AList.mem_erase]
    exact ⟨hne, hl.mem_table k hmem⟩

theorem retry_sameRoutes (inet : Inet) {keys : List Text} {acc : FlowTable × List Text}
    (h : ∀ k ∈ keys, k ∈ acc.1.routeTable) : SameRoutes acc.1 (keys.foldl (retryRoute vmId inet) acc).1 := by
  induction keys generalizing acc with
  | nil => exact .refl _
  | cons key keys ih =>
    obtain ⟨hkey, hkeys⟩ := List.forall_mem_cons.mp h
    have hround : SameRoutes acc.1 (retryRoute vmId inet acc key).1 := by
      unfold retryRoute openRoute
      simp only [if_pos hkey]
      split
      · exact .refl _
      · exact sendRouteToHw_sameRoutes vmId _ .add _
    refine hround.trans (ih ?_)
    rw [hround.table]
    exact hkeys

/-! ## Runs -/

/-- The table has what the operations before those that are still pending have stored. -/
structure Follows (inet : Inet) (ops : List (Op RouteEntry)) (ft : FlowTable) : Prop where
  listed : ft.Listed
  table : ∃ done, ops = done ++ ft.pendingRoutes.filterMap op ∧
    ∀ k, ft.routeTable.lookup k = stored RouteEntry.route (Route.key inet) done k

theorem SameRoutes.follows {ft ft' : FlowTable} (h : SameRoutes ft ft') {ops : List (Op RouteEntry)}
    (hf : Follows inet ops ft) : Follows inet ops ft' := by
  refine ⟨h.listed hf.listed, ?_⟩
  rw [h.pending, h.table]
  exact hf.table

theorem handle_follows {ft : FlowTable} {ops : List (Op RouteEntry)} {pr : PendingRoute}
    {rest : List PendingRoute} (hf : Follows inet ops ft) (hpending : ft.pendingRoutes = pr :: rest) :
    Follows inet ops (handle vmId inet { ft with pendingRoutes := rest } pr) := by
  obtain ⟨done, hops, htable⟩ := hf.table
  have hlookup : (fun k => ft.routeTable.lookup k) = stored RouteEntry.route (Route.key inet) done :=
    funext htable
  have heffect := handle_effect vmId inet { ft with pendingRoutes := rest } pr
  refine ⟨heffect.listed ⟨hf.listed.nodup, hf.listed.mem_table⟩, ?_⟩
  rw [heffect.pending]
  rw [hpending] at hops
  cases ho : op pr with
  | none =>
    rw [List.filterMap_cons_none ho] at hops
    refine ⟨done, hops, ?_⟩
    intro k
    rw [heffect.lookup, ho]
    exact htable k
  | some o =>
    rw [List.filterMap_cons_some ho] at hops
    refine ⟨done ++ [o], by simpa using hops, ?_⟩
    intro k
    rw [heffect.lookup, ho, stored_snoc, ← hlookup]

theorem retryRoutes_follows {ft : FlowTable} {ops : List (Op RouteEntry)} (hf : Follows inet ops ft) :
    Follows inet ops { retryRoutes vmId inet ft with resolver := .drain } := by
  have hsame := @retry_sameRoutes vmId inet ft.unresolvedRoutes (ft, []) hf.listed.mem_table
  unfold retryRoutes
  refine ⟨⟨?_, ?_⟩, ?_⟩
  · dsimp only
    rw [hsame.unresolved]
    exact hf.listed.nodup.diff
  · dsimp only
    intro k hk
    rw [hsame.unresolved] at hk
    rw [hsame.table]
    exact hf.listed.mem_table k (List.diff_subset _ _ hk)
  · dsimp only
    rw [hsame.pending, hsame.table]
    exact hf.table

theorem step_follows {ft : FlowTable} {ops : List (Op RouteEntry)} (hf : Follows inet ops ft) (e : Event) :
    Follows inet (ops ++ routeOps [e]) (step vmId inet ft e) := by
  cases e with
  | route pr =>
    obtain ⟨done, hops, htable⟩ := hf.table
    refine ⟨⟨hf.listed.nodup, hf.listed.mem_table⟩, done, ?_, htable⟩
    rw [hops]
    simp [step, routeOps, Event.pushed]
  | host hentry =>
    rw [show routeOps [.host hentry] = [] from rfl, List.append_nil]
    exact (updateHostTable_sameRoutes vmId ft hentry).follows hf
  | portUp iface =>
    rw [show routeOps [.portUp iface] = [] from rfl, List.append_nil]
    exact (notifyPortUp_sameRoutes vmId ft iface).follows hf
  | resolver =>
    rw [show routeOps [.resolver] = [] from rfl, List.append_nil]
    unfold step resolve
    dsimp only
    split
    · split
      · exact ⟨⟨hf.listed.nodup, hf.listed.mem_table⟩, hf.table⟩
      · rename_i hpending
        exact handle_follows vmId hf hpending
    · exact retryRoutes_follows vmId hf

def run (inet : Inet) (evs : List Event) : FlowTable := Run.run (step vmId inet) {} evs

theorem run_follows (inet : Inet) (evs : List Event) : Follows inet (routeOps evs) (run vmId inet evs) := by
  apply Run.history_invariant (C := fun _ _ => True) _ _ evs (Run.along_true _ _ _)
  · exact ⟨⟨List.nodup_nil, by simp⟩, [], rfl, fun k => by simp [stored]⟩
  · intro es ft e _ hf
    have hsnoc : routeOps (es ++ [e]) = routeOps es ++ routeOps [e] := by simp [routeOps]
    rw [hsnoc]
    exact step_follows vmId hf e

/-! ## Exactly the live routes -/

/-- The table has exactly the live routes. -/
def Exact (ft : FlowTable) (ops : List (Op RouteEntry)) : Prop :=
  ∀ r : Route, (∃ k re, ft.routeTable.lookup k = some re ∧ re.route = r) ↔ Live RouteEntry.route ops r

/-- The last operation on the prefix of each live route is its own. -/
def Unshared (ops : List (Op RouteEntry)) : Prop :=
  ∀ r : Route, Live RouteEntry.route ops r →
    ∀ o, last (fun re => re.address = r.address ∧ re.netmask = r.netmask) ops = some o → o.item.route = r

theorem table_exact_iff (inet : Inet) (hi : inet.Textual) (evs : List Event)
    (hdrained : (run vmId inet evs).pendingRoutes = []) :
    Exact (run vmId inet evs) (routeOps evs) ↔ Unshared (routeOps evs) := by
  obtain ⟨done, hops, htable⟩ := (run_follows vmId inet evs).table
  rw [hdrained, List.filterMap_nil, List.append_nil] at hops
  have hat : ∀ r : Route, lastAt RouteEntry.route (Route.key inet) (r.key inet) (routeOps evs) =
      last (fun re => re.address = r.address ∧ re.netmask = r.netmask) (routeOps evs) := by
    intro r
    simp only [lastAt, hi.key_inj]
    rfl
  unfold Exact Unshared
  simp only [htable, ← hops, ← hat]
  exact stored_iff_live (routeOps evs)

end FlowTable

/-! ## A next hop that changes -/

theorem numerals_chars {b : Nat} (hb : 1 < b) (hb' : b ≤ 16) {sep c : Char} {ns : List Nat}
    (hc : c ∈ numerals sep b ns) : c = sep ∨ (digitVal b c).isSome := by
  unfold numerals at hc
  induction ns with
  | nil => simp at hc
  | cons n ns ih =>
    cases ns with
    | nil =>
      simp only [List.map_cons, List.map_nil, List.intercalate_singleton] at hc
      exact Or.inr (isDigit_of_mem_toDigits hb hb' hc)
    | cons m ns =>
      simp only [List.map_cons, List.intercalate_cons_cons, List.mem_append, List.mem_singleton] at hc
      rcases hc with (hc | hc) | hc
      · exact Or.inr (isDigit_of_mem_toDigits hb hb' hc)
      · exact Or.inl hc
      · exact ih hc

theorem plainInet_textual : plainInet.Textual where
  inverse := plainInet_inverse
  no_slash := by
    rintro (_ | _) bytes - hmem
    · have := numerals_chars (by decide) (by decide) hmem
      revert this
      decide
    · have := numerals_chars (by decide) (by decide) hmem
      revert this
      decide
  colon := by
    rintro (_ | _) bytes hlen
    · refine iff_of_false ?_ (by decide)
      intro hmem
      have := numerals_chars (by decide) (by decide) hmem
      revert this
      decide
    · refine iff_of_true ?_ rfl
      match bytes, hlen with
      | a :: b :: c :: d :: rest, _ => simp [plainInet, groups, numerals, List.intercalate_cons_cons]

namespace FlowTable

open Keyed

def eth1 : Interface := { port := 1, name := "eth1", hwaddress := 0x020000000001, active := true }

/-- 10.1.0.0/16 through 192.168.0.`host`. -/
def prefixVia (host : Byte) : RtnlRoute where
  family := some .ipv4
  nexthops := [⟨some ⟨.ipv4, [192, 168, 0, host], rfl⟩, "eth1"⟩]
  dst := ⟨.ipv4, [10, 1, 0, 0], rfl⟩
  prefixLen := 16

/-- The changes that netlink reports, and looks of the resolver that drain the queue. -/
def netlink (changes : List (RtnlRoute × NlAction)) : List Event :=
  (changes.filterMap fun c => updateRouteTable [eth1] c.1 c.2).map .route ++
    List.replicate changes.length .resolver

/-- The old next hop goes before the new one comes. -/
def breakBeforeMake : List Event := netlink [(prefixVia 1, .new), (prefixVia 1, .del), (prefixVia 2, .new)]

theorem table_exact_breakBeforeMake :
    Proper RouteEntry.route [] (routeOps breakBeforeMake) ∧
      Exact (run 1 plainInet breakBeforeMake) (routeOps breakBeforeMake) := by
  have hdrained : (run 1 plainInet breakBeforeMake).pendingRoutes = [] :=
    List.isEmpty_iff.mp (by decide +kernel)
  have hlast : ∀ x ∈ routeOps breakBeforeMake, Live RouteEntry.route (routeOps breakBeforeMake) x.item.route →
      ∀ o ∈ last (fun re => re.address = x.item.address ∧ re.netmask = x.item.netmask)
        (routeOps breakBeforeMake), o.item.route = x.item.route := by decide +kernel
  refine ⟨by decide +kernel, (table_exact_iff 1 plainInet plainInet_textual breakBeforeMake hdrained).mpr ?_⟩
  intro r hr o ho
  obtain ⟨x, hx, rfl⟩ := hr.mem
  exact hlast x hx hr o ho

/-- The new next hop comes before the old one goes. -/
def makeBeforeBreak : List Event := netlink [(prefixVia 1, .new), (prefixVia 2, .new), (prefixVia 1, .del)]

/-- The table is empty, and the prefix has a live route. -/
theorem live_route_lost :
    Proper RouteEntry.route [] (routeOps makeBeforeBreak) ∧
      (run 1 plainInet makeBeforeBreak).pendingRoutes = [] ∧
      ¬ Exact (run 1 plainInet makeBeforeBreak) (routeOps makeBeforeBreak) := by
  have hkeys : (run 1 plainInet makeBeforeBreak).routeTable.keys = [] := by decide +kernel
  have hlive : ∃ x ∈ routeOps makeBeforeBreak,
    Live RouteEntry.route (routeOps makeBeforeBreak) x.item.route := by
    decide +kernel
  refine ⟨by decide +kernel, List.isEmpty_iff.mp (by decide +kernel), ?_⟩
  intro hexact
  obtain ⟨x, -, hx⟩ := hlive
  obtain ⟨k, re, hlookup, -⟩ := (hexact x.item.route).mpr hx
  have hmem := mem_of_lookup hlookup
  rw [AList.mem_keys, hkeys] at hmem
  cases hmem

end FlowTable

end RouteFlow
