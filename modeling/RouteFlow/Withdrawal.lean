import RouteFlow.Lib.Replay
import RouteFlow.Flows
import RouteFlow.Prefix

/-!
# Routes that are withdrawn

The flows of a route are not remembered. A RouteMod that deletes it makes them again from the tables,
which have grown in the meantime.
-/

namespace RouteFlow

open Store Run Replay

/-! ## The flow set -/

/-- What a switch tells flows apart by. -/
structure FlowKey where
  ctId : Nat
  dpId : Nat
  table : Nat
  matchList : List Match
  priority : Option Nat
deriving DecidableEq

def flowKey (x : Nat × RouteMod) : FlowKey := ⟨x.1, x.2.id, x.2.table, x.2.matchList, x.2.priority⟩

/-- `RMT_ADD` inserts and `RMT_DELETE` removes. -/
def flowUpdate (x : Nat × RouteMod) : Update FlowKey :=
  match x.2.mod with
  | .add => .insert (flowKey x)
  | .delete => .remove (flowKey x)
  | _ => .skip

/-- The flows after all RouteMods that were ever put in `dp_q`. -/
def flowSet (dpQ : List (Nat × RouteMod)) : Finset FlowKey := replay (dpQ.map flowUpdate)

theorem flowUpdate_key {x : Nat × RouteMod} {k : FlowKey} (h : (flowUpdate x).key = some k) :
    flowKey x = k := by
  unfold flowUpdate at h
  split at h
  · exact Option.some.inj h
  · exact Option.some.inj h
  · cases h

section FlowSet

variable {dpQ more : List (Nat × RouteMod)} {k : FlowKey}

theorem mem_flowSet_adds (h : ∀ x ∈ more, x.2.mod = .add) :
    k ∈ flowSet (dpQ ++ more) ↔ k ∈ flowSet dpQ ∨ ∃ x ∈ more, flowKey x = k := by
  have hmap : more.map flowUpdate = (more.map flowKey).map .insert := by
    rw [List.map_map]
    exact List.map_congr_left fun x hx => by simp [flowUpdate, h x hx]
  rw [flowSet, List.map_append, hmap, mem_replay_inserts, List.mem_map]
  rfl

theorem mem_flowSet_deletes (h : ∀ x ∈ more, x.2.mod = .delete) :
    k ∈ flowSet (dpQ ++ more) ↔ k ∈ flowSet dpQ ∧ ¬ ∃ x ∈ more, flowKey x = k := by
  have hmap : more.map flowUpdate = (more.map flowKey).map .remove := by
    rw [List.map_map]
    exact List.map_congr_left fun x hx => by simp [flowUpdate, h x hx]
  rw [flowSet, List.map_append, hmap, mem_replay_removes, List.mem_map]
  rfl

theorem mem_flowSet_other (h : ∀ x ∈ more, flowKey x ≠ k) :
    k ∈ flowSet (dpQ ++ more) ↔ k ∈ flowSet dpQ := by
  rw [flowSet, List.map_append]
  apply mem_replay_other
  intro u hu
  obtain ⟨x, hx, rfl⟩ := List.mem_map.mp hu
  exact fun hk => h x hx (flowUpdate_key hk)

end FlowSet

/-! ## The flows of a prefix -/

/-- The flow of a route for one ingress port. -/
def routeKey (r : Prefix) (c d p : Nat) (m : Mac) : FlowKey :=
  ⟨c, d, 0, [.ip r.addr r.netmask, .ethernet m, .inPort p], some (prefixPriority r.len)⟩

/-- A flow that matches an address prefix. -/
def FlowKey.IsFor (r : Prefix) (k : FlowKey) : Prop := .ip r.addr r.netmask ∈ k.matchList

theorem Prefix.ext_match {r q : Prefix} (ha : r.addr = q.addr) (hm : r.netmask = q.netmask) : r = q := by
  have hlen : r.len = q.len := by rw [← r.netmask_toPrefixLen, ← q.netmask_toPrefixLen, hm]
  obtain ⟨addr, len, _, _⟩ := r
  obtain ⟨addr', len', _, _⟩ := q
  obtain rfl : addr = addr' := ha
  obtain rfl : len = len' := hlen
  rfl

theorem routeKey_isFor {r q : Prefix} {c d p : Nat} {m : Mac} : (routeKey q c d p m).IsFor r ↔ r = q := by
  constructor
  · intro h
    simp only [FlowKey.IsFor, routeKey, List.mem_cons, Match.ip.injEq, reduceCtorEq, List.not_mem_nil,
      or_false] at h
    exact Prefix.ext_match h.1 h.2
  · rintro rfl
    exact List.mem_cons_self

/-- The route has a flow on this datapath for this port: on its own or on a neighbour. -/
inductive Serves (rf : RFTable) (isl : RFISLTable) (x : DpPort) : Nat → Nat → Mac → Prop
  | here {p m} : ActivePort rf isl x.ctId x.dpId p m → x.dpPort ≠ p → Serves rf isl x x.dpId p m
  | there {a b p m} : IslUp isl a b → b.ctId = x.ctId → b.dpId = x.dpId → RfUp rf ⟨a.ctId, a.dpId, p⟩ m →
      a.dpPort ≠ p → Serves rf isl x a.dpId p m

theorem flowKey_portFlow (rm : RouteMod) {r : Prefix} (htable : rm.table = 0)
    (hmatch : rm.matchList = [.ip r.addr r.netmask]) (hopts : rm.options = [.priority (prefixPriority r.len)])
    (c p : Nat) (m : Mac) : flowKey (c, (portFlow rm p m).addOption (.ctId c)) = routeKey r c rm.id p m := by
  simp [flowKey, portFlow, RouteMod.addMatch, RouteMod.addOption, RouteMod.priority, routeKey, htable,
    hmatch, hopts]

theorem flowOf_keys {rm : RouteMod} {r : Prefix} (htable : rm.table = 0)
    (hmatch : rm.matchList = [.ip r.addr r.netmask]) (hopts : rm.options = [.priority (prefixPriority r.len)])
    {rf : RFTable} {isl : RFISLTable} {x : DpPort} {k : FlowKey} :
    (∃ f, FlowOf rf isl x rm f ∧ flowKey (x.ctId, f.addOption (.ctId x.ctId)) = k) ↔
      ∃ d p m, Serves rf isl x d p m ∧ routeKey r x.ctId d p m = k := by
  have hhere : ∀ p m, flowKey (x.ctId,
    (portFlow ((rm.setId x.dpId).addAction (.output x.dpPort)) p m).addOption
      (.ctId x.ctId)) = routeKey r x.ctId x.dpId p m :=
    fun p m => flowKey_portFlow ((rm.setId x.dpId).addAction (.output x.dpPort))
      htable hmatch hopts x.ctId p m
  have hthere : ∀ (a b : IslEnd) p m, flowKey (x.ctId, (portFlow (islRouteMod a.dpId a b rm) p m).addOption
      (.ctId x.ctId)) = routeKey r x.ctId a.dpId p m :=
    fun a b p m => flowKey_portFlow (islRouteMod a.dpId a b rm) rfl hmatch hopts x.ctId p m
  constructor
  · rintro ⟨f, hf, rfl⟩
    cases hf with
    | here hp hne => exact ⟨_, _, _, .here hp hne, (hhere _ _).symm⟩
    | there hl hc hd hp hne => exact ⟨_, _, _, .there hl hc hd hp hne, (hthere _ _ _ _).symm⟩
  · rintro ⟨d, p, m, hs, rfl⟩
    cases hs with
    | here hp hne => exact ⟨_, .here hp hne, hhere _ _⟩
    | there hl hc hd hp hne => exact ⟨_, .there hl hc hd hp hne, hthere _ _ _ _⟩

/-! ## The tables grow -/

def RFShape.Gains (sh sh' : RFShape) : Prop :=
  (∀ v, sh.vm = some v → sh'.vm = some v) ∧ (∀ d, sh.dp = some d → sh'.dp = some d) ∧
    (∀ m, sh.eth = some m → sh'.eth = some m) ∧ (sh.status = .rfentryActive → sh'.status = .rfentryActive)

theorem RFShape.Gains.refl (sh : RFShape) :
    sh.Gains sh := ⟨fun _ h => h, fun _ h => h, fun _ h => h, fun h => h⟩

section Growth

variable {cfg : Config} {o : Order} {s : Server} {msg : Msg} {t' : RFTable}

theorem RfEffect.gains (h : RfEffect cfg o s msg t') (hd : ∀ c d, msg ≠ .datapathDown c d) {sh : RFShape}
    (hsh : sh ∈ s.rftable.shapes) : ∃ sh' ∈ t'.shapes, sh.Gains sh' := by
  have inj := RFShape.entry_injective
  have put : ∀ {q : Row RFEntry} {old new : RFShape}, q ∈ s.rftable.rows → q.val = old.entry →
    old.Gains new →
      ∃ sh' ∈ RFTable.shapes (s.rftable.put q.id new.entry), sh.Gains sh' := by
    intro q old new hq hold hgain
    rcases Table.mem_view_put inj hq hold hsh with rfl | hsh
    · exact ⟨new, Table.mem_view_put_self hq _, hgain⟩
    · exact ⟨sh, hsh, .refl sh⟩
  cases h with
  | vmIdle _ | dpIdle _ _ _ => exact ⟨sh, (Table.mem_view_add inj).mpr (Or.inr hsh), .refl sh⟩
  | vmJoin hp hr =>
    exact put (vmPeer_mem hp).1 hr
      (by simp [RFShape.Gains, RFShape.vm, RFShape.dp, RFShape.eth, RFShape.status])
  | dpJoin _ hp hr =>
    exact put (dpPeer_mem hp).1 hr
      (by simp [RFShape.Gains, RFShape.vm, RFShape.dp, RFShape.eth, RFShape.status])
  | map he hr =>
    exact put (Table.first_some he).1 hr
      (by simp [RFShape.Gains, RFShape.vm, RFShape.dp, RFShape.eth, RFShape.status])
  | down _ => exact absurd rfl (hd _ _)
  | vmKeep | dpStop | dpIsl | dpKeep | mapKeep | routeMod | reply => exact ⟨sh, hsh, .refl sh⟩

/-- The VM port is joined to the datapath port. -/
def Placed (rf : RFTable) (v : VmPort) (x : DpPort) : Prop :=
  ∃ r ∈ rf.rows, r.val.vm = some v ∧ r.val.dp = some x

theorem rfUp_iff {rf : RFTable} (hs : RFShaped rf) {x : DpPort} {m : Mac} :
    RfUp rf x m ↔ ∃ sh ∈ rf.shapes, sh.dp = some x ∧ sh.eth = some m ∧ sh.status = .rfentryActive := by
  constructor
  · rintro ⟨r, hr, hx, hm, hst⟩
    obtain ⟨sh, hsh⟩ := hs r hr
    rw [hsh, RFShape.entry_dp] at hx
    rw [hsh, RFShape.entry_eth] at hm
    rw [hsh, RFShape.entry_status] at hst
    exact ⟨sh, ⟨r, hr, hsh⟩, hx, hm, hst⟩
  · rintro ⟨sh, ⟨r, hr, hsh⟩, hx, hm, hst⟩
    rw [← RFShape.entry_dp, ← hsh] at hx
    rw [← RFShape.entry_eth, ← hsh] at hm
    rw [← RFShape.entry_status, ← hsh] at hst
    exact ⟨r, hr, hx, hm, hst⟩

theorem placed_iff {rf : RFTable} (hs : RFShaped rf) {v : VmPort} {x : DpPort} :
    Placed rf v x ↔ ∃ sh ∈ rf.shapes, sh.vm = some v ∧ sh.dp = some x := by
  constructor
  · rintro ⟨r, hr, hv, hx⟩
    obtain ⟨sh, hsh⟩ := hs r hr
    rw [hsh, RFShape.entry_vm] at hv
    rw [hsh, RFShape.entry_dp] at hx
    exact ⟨sh, ⟨r, hr, hsh⟩, hv, hx⟩
  · rintro ⟨sh, ⟨r, hr, hsh⟩, hv, hx⟩
    rw [← RFShape.entry_vm, ← hsh] at hv
    rw [← RFShape.entry_dp, ← hsh] at hx
    exact ⟨r, hr, hv, hx⟩

variable (hs : RFShaped s.rftable) (hi : IslShaped s.isltable) {e : Order × Msg}
  (hd : ∀ c d, e.2 ≠ .datapathDown c d)

include hs hd in
theorem rfUp_step {x : DpPort} {m : Mac} (h : RfUp s.rftable x m) : RfUp (s.step cfg e).rftable x m := by
  obtain ⟨sh, hsh, hx, hm, hst⟩ := (rfUp_iff hs).mp h
  obtain ⟨sh', hsh', -, hdp, heth, hact⟩ := (step_effect cfg e.1 s hs e.2).gains hd hsh
  exact (rfUp_iff (step_shaped hs e)).mpr ⟨sh', hsh', hdp x hx, heth m hm, hact hst⟩

include hs hd in
theorem placed_step {v : VmPort} {x : DpPort} (h : Placed s.rftable v x) :
    Placed (s.step cfg e).rftable v x := by
  obtain ⟨sh, hsh, hv, hx⟩ := (placed_iff hs).mp h
  obtain ⟨sh', hsh', hvm, hdp, -⟩ := (step_effect cfg e.1 s hs e.2).gains hd hsh
  exact (placed_iff (step_shaped hs e)).mpr ⟨sh', hsh', hvm v hv, hdp x hx⟩

theorem registerIslconf_extends (o : Order) (confs : List RFISLConfEntry) (s : Server)
    (hi : IslShaped s.isltable) (c d p : Nat) {sh : RFISLShape} (hsh : sh ∈ s.isltable.shapes) :
    ∃ sh' ∈ (Server.registerIslconf o s confs c d p).isltable.shapes, sh.Extends sh' := by
  induction confs generalizing s sh with
  | nil => exact ⟨sh, hsh, .refl sh⟩
  | cons conf rest ih =>
    have heff := registerIslLine_effect o s hi c d p conf
    obtain ⟨sh₁, hsh₁, hext₁⟩ := heff.extends hsh
    obtain ⟨sh₂, hsh₂, hext₂⟩ := ih _ (heff.shaped hi) hsh₁
    exact ⟨sh₂, hsh₂, hext₁.trans hext₂⟩

theorem islUp_iff {isl : RFISLTable} (hi : IslShaped isl) {a b : IslEnd} :
    IslUp isl a b ↔ ∃ sh ∈ isl.shapes, sh.near = some a ∧ sh.far = some b := by
  constructor
  · rintro ⟨r, hr, hn, hf⟩
    obtain ⟨sh, hsh⟩ := hi r hr
    rw [hsh, RFISLShape.entry_near] at hn
    rw [hsh, RFISLShape.entry_far] at hf
    exact ⟨sh, ⟨r, hr, hsh⟩, hn, hf⟩
  · rintro ⟨sh, ⟨r, hr, hsh⟩, hn, hf⟩
    rw [← RFISLShape.entry_near, ← hsh] at hn
    rw [← RFISLShape.entry_far, ← hsh] at hf
    exact ⟨r, hr, hn, hf⟩

include hi hd in
theorem islUp_step {a b : IslEnd} (h : IslUp s.isltable a b) : IslUp (s.step cfg e).isltable a b := by
  obtain ⟨sh, hsh, hn, hf⟩ := (islUp_iff hi).mp h
  rw [islUp_iff (step_islShaped hi e)]
  obtain ⟨o, msg⟩ := e
  have he := step_isl cfg o s msg
  revert he
  generalize (s.step cfg (o, msg)).isltable = t
  intro he
  cases he with
  | @register c d p s' ht _ _ =>
    rw [← ht] at hi hsh
    obtain ⟨sh', hsh', hnear, hfar⟩ := registerIslconf_extends o _ s' hi c d p hsh
    exact ⟨sh', hsh', hnear a hn, hfar b hf⟩
  | down => exact absurd rfl (hd _ _)
  | other _ | frame _ _ => exact ⟨sh, hsh, hn, hf⟩

include hs hi hd in
theorem serves_step {x : DpPort} {d p : Nat} {m : Mac} (h : Serves s.rftable s.isltable x d p m) :
    Serves (s.step cfg e).rftable (s.step cfg e).isltable x d p m := by
  cases h with
  | here hp hne =>
    refine .here (hp.imp (rfUp_step hs hd) ?_) hne
    rintro ⟨a, b, hl, ha⟩
    exact ⟨a, b, islUp_step hi hd hl, ha⟩
  | there hl hc hdp hp hne => exact .there (islUp_step hi hd hl) hc hdp (rfUp_step hs hd hp) hne

end Growth

/-! ## The flows of configure_datapath -/

def Match.isIp : Match → Bool
  | .ip _ _ => true
  | _ => false

/-- The RouteMod is not about a prefix. -/
def RouteMod.NoIp (rm : RouteMod) : Prop := ∀ x ∈ rm.matchList, x.isIp = false

section Configure

variable {cfg : Config} {o : Order} {tr : Translator}

theorem tagRules_noIp {mp : Option Nat} {rm : RouteMod} (hrm : rm.NoIp) {ports : List RFConfigEntry}
    {rms : List RouteMod} (h : Translator.tagRules mp rm ports = .ok rms) : ∀ f ∈ rms, f.NoIp := by
  intro f hf x hx
  obtain ⟨port, label, act, rfl⟩ := mem_tagRules h hf
  simp only [RouteMod.addAction, rfactionPushMeta, RouteMod.addMatch, List.mem_append, List.mem_singleton]
    at hx
  rcases hx with hx | rfl
  · exact hrm x hx
  · rfl

theorem handleControllerRouteMod_noIp {rm : RouteMod} (hrm : rm.NoIp) {rms : List RouteMod}
    (h : tr.defaultHandleControllerRouteMod cfg o rm = .ok rms) : ∀ f ∈ rms, f.NoIp := by
  unfold Translator.defaultHandleControllerRouteMod at h
  split at h
  · obtain ⟨mp, -, h⟩ := bind_eq_ok.mp h
    split at h
    · cases h
    · exact tagRules_noIp hrm h
  · cases h
    intro f hf
    rw [List.mem_singleton.mp hf]
    exact hrm

theorem registerFastpaths_noIp {usetables : Bool} {fpTable : Nat} {rms : List RouteMod}
    (h : tr.registerFastpaths cfg o usetables fpTable = .ok rms) : ∀ f ∈ rms, f.NoIp := by
  intro f hf x hx
  have hfast := (Translator.registerFastpaths_byLabel h f hf).2 x hx
  cases x <;> first | rfl | cases hfast

theorem defaultConfigureDatapath_noIp {rms : List RouteMod}
    (h : tr.defaultConfigureDatapath cfg o = .ok rms) :
    ∀ f ∈ rms, f.NoIp := by
  unfold Translator.defaultConfigureDatapath at h
  obtain ⟨ip, hip, h⟩ := bind_eq_ok.mp h
  obtain ⟨ipv6, hipv6, h⟩ := bind_eq_ok.mp h
  obtain ⟨arp, harp, h⟩ := bind_eq_ok.mp h
  have hempty : ∀ rm : RouteMod, rm.matchList = [] → rm.NoIp := by
    intro rm hrm x hx
    rw [hrm] at hx
    cases hx
  have htype : ∀ (rm : RouteMod) t, rm.matchList = [.ethertype t] → rm.NoIp := by
    intro rm t hrm x hx
    rw [hrm] at hx
    rw [List.mem_singleton.mp hx]
    rfl
  obtain ⟨fast, hfast, rfl⟩ : ∃ fast, (∀ f ∈ fast, f.NoIp) ∧
    rms = { mod := .deleteGroup, id := tr.dpId } ::
      { mod := .delete, id := tr.dpId } :: (ip ++ ipv6 ++ [_] ++ arp ++ fast) := by
    dsimp only at h
    split at h
    · obtain ⟨fast, hfast, h⟩ := bind_eq_ok.mp h
      exact ⟨fast, registerFastpaths_noIp hfast, (Except.ok.inj h).symm⟩
    · exact ⟨[], by simp, (Except.ok.inj h).symm⟩
  intro f hf
  simp only [List.mem_cons, List.mem_append, List.not_mem_nil, or_false] at hf
  rcases hf with rfl | rfl | (((hf | hf) | rfl) | hf) | hf
  · exact hempty _ rfl
  · exact hempty _ rfl
  · exact handleControllerRouteMod_noIp (htype _ _ rfl) hip f hf
  · exact handleControllerRouteMod_noIp (htype _ _ rfl) hipv6 f hf
  · exact hempty _ rfl
  · exact handleControllerRouteMod_noIp (htype _ _ rfl) harp f hf
  · exact hfast f hf

end Configure

/-! ## Runs -/

/-- The message is a RouteMod that a client makes for a prefix and one of its ports. -/
def Msg.IsRoute (mod : RouteModType) (r : Prefix) (v : VmPort) (msg : Msg) : Prop :=
  ∃ (dest : Destination) (iface : Interface) (gateway : Mac), dest.toPrefix = r ∧ iface.port = v.vmPort ∧
    msg = .routeMod (dest.routeMod v.vmId mod iface gateway)

/-- The prefix was added through the port and not deleted since. -/
def LiveThrough (r : Prefix) (v : VmPort) (h : History) : Prop :=
  Since (fun e => e.2.IsRoute .add r v) (fun e => ∃ w, e.2.IsRoute .delete r w) h

/-- The last RouteMod for the prefix deleted it. -/
def Withdrawn (r : Prefix) (h : History) : Prop :=
  Since (fun e => ∃ w, e.2.IsRoute .delete r w) (fun e => ∃ w, e.2.IsRoute .add r w) h

/-- No datapath goes down. The RouteMods are for prefixes and do not raise. A prefix is added through
one port at a time, and deleted through the port that it is live through. -/
structure ProperRoute (cfg : Config) (s : Server) (h : History) (e : Order × Msg) : Prop where
  no_down : ∀ c d, e.2 ≠ .datapathDown c d
  routes : ∀ rm, e.2 = .routeMod rm → (Server.process cfg e.1 s e.2).2 = .ok () ∧ ∃ r v,
    (e.2.IsRoute .add r v ∧ ∀ w, LiveThrough r w h → w = v) ∨ (e.2.IsRoute .delete r v ∧ LiveThrough r v h)

/-- All messages of the history are proper when they arrive. -/
def ProperRoutes (cfg : Config) (h : History) : Prop :=
  Throughout (fun before e => ProperRoute cfg (run (Server.step cfg) Server.init before) before e) h

theorem Msg.IsRoute.unique {mod mod' : RouteModType} {r r' : Prefix} {v v' : VmPort} {msg : Msg}
    (h : msg.IsRoute mod r v) (h' : msg.IsRoute mod' r' v') : mod = mod' ∧ r = r' ∧ v = v' := by
  obtain ⟨dest, iface, gateway, rfl, hp, rfl⟩ := h
  obtain ⟨dest', iface', gateway', rfl, hp', heq⟩ := h'
  rw [Msg.routeMod.injEq, Destination.routeMod_eq, Destination.routeMod_eq] at heq
  obtain ⟨hmod, hid, hvp, -⟩ := sendToHw_fields v.vmId mod dest.toPrefix iface gateway
  obtain ⟨hmod', hid', hvp', -⟩ := sendToHw_fields v'.vmId mod' dest'.toPrefix iface' gateway'
  have hmatch := congrArg RouteMod.matchList heq
  rw [sendToHw_matchList, sendToHw_matchList, List.cons.injEq, Match.ip.injEq] at hmatch
  refine ⟨?_, Prefix.ext_match hmatch.1.1 hmatch.1.2, VmPort.ext_iff.mpr ⟨?_, ?_⟩⟩
  · rw [← hmod, ← hmod', heq]
  · rw [← hid, ← hid', heq]
  · rw [← hp, ← hp', ← hvp, ← hvp', heq]

theorem Msg.IsRoute.not_other {mod mod' : RouteModType} {r r' : Prefix} {v : VmPort} {msg : Msg}
    (h : msg.IsRoute mod r v) (hne : mod ≠ mod' ∨ r ≠ r') : ¬ ∃ w, msg.IsRoute mod' r' w := by
  rintro ⟨w, h'⟩
  obtain ⟨hmod, hr, -⟩ := h.unique h'
  exact hne.elim (fun hn => hn hmod) fun hn => hn hr

theorem liveThrough_unique {cfg : Config} {h : History} (hp : ProperRoutes cfg h) :
    ∀ r v w, LiveThrough r v h → LiveThrough r w h → v = w := by
  refine Throughout.induction (I := fun h => ∀ r v w, LiveThrough r v h → LiveThrough r w h → v = w)
    ?_ ?_ h hp
  · intro r v w hv
    exact absurd hv not_since_nil
  · intro h e _ he ih r v w hv hw
    have added : ∀ u u', e.2.IsRoute .add r u → LiveThrough r u' h → u' = u := by
      intro u u' hadd hlive
      obtain ⟨_, _, _, _, _, hmsg⟩ := hadd
      obtain ⟨-, q, z, ⟨hq, hone⟩ | ⟨hq, -⟩⟩ := he.routes _ hmsg
      · obtain ⟨-, rfl, rfl⟩ := hq.unique ⟨_, _, _, ‹_›, ‹_›, hmsg⟩
        exact hone u' hlive
      · obtain ⟨hmod, -⟩ := hq.unique ⟨_, _, _, ‹_›, ‹_›, hmsg⟩
        cases hmod
    rcases (since_snoc h e).mp hv with hv | ⟨hv, -⟩ <;> rcases (since_snoc h e).mp hw with hw | ⟨hw, -⟩
    · exact (hv.unique hw).2.2
    · exact (added v w hv hw).symm
    · exact added w v hw hv
    · exact ih r v w hv hw

/-- Every datapath gets a default translator. -/
def Config.AllDefault (cfg : Config) : Prop := cfg.multitabledps = [] ∧ cfg.satellitedps = []

theorem newTranslator_default {cfg : Config} (hc : cfg.AllDefault) (c d : Nat) :
    (Server.newTranslator cfg c d).kind = .default := by
  simp [Server.newTranslator, hc.1, hc.2]

/-- What every reachable state has, with default translators. -/
structure RouteState (cfg : Config) (s : Server) : Prop where
  rf : RFShaped s.rftable
  isl : IslShaped s.isltable
  keyed : WellKeyed s.routeModTranslator
  default : ∀ d tr, s.routeModTranslator d = some tr → tr.kind = .default
  joins : ∀ sh ∈ s.rftable.shapes, ∀ v d, sh.vm = some v → sh.dp = some d → cfg.Joins v d

theorem run_joins (cfg : Config) (h : History) : ∀ sh ∈ (run (Server.step cfg) Server.init h).rftable.shapes,
    ∀ v d, sh.vm = some v → sh.dp = some d → cfg.Joins v d := by
  refine (invariant (I := fun s : Server => RFShaped s.rftable ∧ ∀ sh ∈ s.rftable.shapes, ∀ v d,
    sh.vm = some v → sh.dp = some d → cfg.Joins v d) ?_ ?_ (along_true _ _ h)).2
  · rintro s e - ⟨hs, hj⟩
    exact ⟨step_shaped hs e, (step_effect cfg e.1 s hs e.2).joined hs hj⟩
  · refine ⟨init_shaped, ?_⟩
    rintro sh ⟨r, hr, -⟩
    simp [Server.init, memoryTable] at hr

theorem run_routeState {cfg : Config} (hc : cfg.AllDefault) (h : History) :
    RouteState cfg (run (Server.step cfg) Server.init h) where
  rf := (run_shaped cfg h).1
  isl := (run_shaped cfg h).2
  keyed := run_wellKeyed cfg h
  default := run_translators (P := fun _ tr => tr.kind = .default)
    ⟨fun c d => newTranslator_default hc c d, fun _ _ _ h => h⟩ h
  joins := run_joins cfg h

section Steps

variable {cfg : Config} {s : Server} {e : Order × Msg} (hs : RouteState cfg s)

include hs in
theorem RouteState.placed_unique (hv : cfg.DistinctVmPorts) {v : VmPort} {x y : DpPort}
    (hx : Placed s.rftable v x) (hy : Placed s.rftable v y) : x = y := by
  obtain ⟨sh, hsh, hvm, hdp⟩ := (placed_iff hs.rf).mp hx
  obtain ⟨sh', hsh', hvm', hdp'⟩ := (placed_iff hs.rf).mp hy
  exact hv.joins_eq (hs.joins sh hsh v x hvm hdp) (hs.joins sh' hsh' v y hvm' hdp')

theorem FlowOf.mod_eq {rf : RFTable} {isl : RFISLTable} {x : DpPort} {rm f : RouteMod}
    (h : FlowOf rf isl x rm f) :
    f.mod = rm.mod := by
  cases h <;> rfl

include hs in
theorem RouteState.around {x : DpPort} {tr : Translator} (htr : s.routeModTranslator x.dpId = some tr)
    (hports : RouteReadable tr s.isltable x)
    (hready : NeighboursReady s.routeModTranslator (remoteLinks o s x)) :
    DefaultAround s x ∧ ReadableAround s.isltable x := by
  have hlink : ∀ a b, IslUp s.isltable a b → b.ctId = x.ctId → b.dpId = x.dpId → ∃ q ∈ remoteLinks o s x,
      q.getStatus = .rfislActive ∧ q.dpId = some a.dpId ∧ q.near = some a ∧ q.far = some b := by
    rintro a b ⟨q, hq, hn, hf⟩ hbc hbd
    obtain ⟨-, had, -⟩ := (RFISLEntry.near_eq_some _ _).mp hn
    obtain ⟨hrc, hri, -⟩ := (RFISLEntry.far_eq_some _ _).mp hf
    rw [hbc] at hrc
    rw [hbd] at hri
    exact ⟨q.val, mem_remoteLinks.mpr ⟨q, hq, ⟨hrc, hri⟩, rfl⟩,
      (islEntry_active_iff (hs.isl q hq) hn).mpr ⟨b, hf⟩, had, hn, hf⟩
  refine ⟨⟨⟨tr, htr, hs.default _ _ htr⟩, fun a b hl hbc hbd => ?_⟩,
    ⟨hports ?_, fun a b hl hbc hbd => ?_⟩⟩
  · obtain ⟨q, hq, hst, had, -⟩ := hlink a b hl hbc hbd
    obtain ⟨tr', htr'⟩ := Option.isSome_iff_exists.mp (hready.translators q hq hst a.dpId had)
    exact ⟨tr', htr', hs.default _ _ htr'⟩
  · simp [hs.default _ _ htr]
  · obtain ⟨q, hq, hst, had, hn, hf⟩ := hlink a b hl hbc hbd
    have hread := hready.linkReadable (fun d tr' htr' => by simp [hs.default d tr' htr']) hq hst had
    exact hread a b hn hf

include hs in
theorem RouteState.route_step {mod : RouteModType} (hmod : mod = .add ∨ mod = .delete)
    {r : Prefix} {v : VmPort} (hmsg : e.2.IsRoute mod r v) (hok : (Server.process cfg e.1 s e.2).2 = .ok ()) :
    ∃ x more, Placed s.rftable v x ∧ (s.step cfg e).dpQ = s.dpQ ++ more ∧ (∀ y ∈ more, y.2.mod = mod) ∧
      ∀ k, (∃ y ∈ more, flowKey y = k) ↔
        ∃ d p m, Serves s.rftable s.isltable x d p m ∧ routeKey r x.ctId d p m = k := by
  obtain ⟨o, msg⟩ := e
  obtain ⟨dest, iface, gateway, rfl, hport, rfl⟩ := hmsg
  rw [Destination.routeMod_eq] at hok ⊢
  obtain ⟨hm, hid, hvp, htable⟩ := sendToHw_fields v.vmId mod dest.toPrefix iface gateway
  have hmatch := sendToHw_matchList v.vmId mod dest.toPrefix iface gateway
  have hopts := sendToHw_options v.vmId mod dest.toPrefix iface gateway
  revert hok hm hid hvp htable hmatch hopts
  generalize FlowTable.sendToHw v.vmId mod dest.toPrefix.addr dest.toPrefix.netmask iface gateway = rm
  intro hok hm hid hvp htable hmatch hopts
  have hhandled : Handled cfg o s rm := by
    by_contra hno
    obtain ⟨trs, e, heq⟩ := registerRouteMod_not_handled hs.rf hs.isl hno
    simp [Server.process, heq] at hok
  obtain ⟨x, tr, htarget, htrans⟩ := hhandled
  obtain ⟨row, hrow, hx, htr⟩ := routeModTarget_eq_some.mp htarget
  obtain ⟨hports, hready⟩ : RouteReadable tr s.isltable x ∧
      NeighboursReady s.routeModTranslator (remoteLinks o s x) := by
    unfold Translates at htrans
    rw [hm] at htrans
    rcases hmod with rfl | rfl <;> exact htrans
  obtain ⟨haround, hread⟩ := hs.around htr hports hready
  obtain ⟨rms, hreg, hmem⟩ := registerRouteMod_default cfg hs.rf hs.isl hs.keyed (hm ▸ hmod)
    hrow hx haround hread
  obtain ⟨hrowm, hvm⟩ := RFTable.getEntryByVmPort_some hrow
  refine ⟨x, rms.map fun f => (x.ctId, f.addOption (.ctId x.ctId)), ⟨row, hrowm, ?_, hx⟩, ?_, ?_, fun k => ?_⟩
  · rw [hvm, hid, hvp, hport]
  · simp only [Server.step, Server.process, hreg]
  · intro y hy
    obtain ⟨f, hf, rfl⟩ := List.mem_map.mp hy
    exact ((hmem f).mp hf).mod_eq.trans hm
  · rw [← flowOf_keys htable hmatch hopts]
    constructor
    · rintro ⟨y, hy, hk⟩
      obtain ⟨f, hf, rfl⟩ := List.mem_map.mp hy
      exact ⟨f, (hmem f).mp hf, hk⟩
    · rintro ⟨f, hf, hk⟩
      exact ⟨_, List.mem_map_of_mem ((hmem f).mpr hf), hk⟩

theorem other_step (hc : cfg.AllDefault) (s : Server) (hmsg : ∀ rm, e.2 ≠ .routeMod rm) :
    ∃ more, (s.step cfg e).dpQ = s.dpQ ++ more ∧ ∀ y ∈ more, y.2.NoIp := by
  rcases process_flows cfg e.1 s hmsg with h | ⟨c, d, p, -, h⟩
  · exact ⟨[], by simp [Server.step, h.2], by simp⟩
  · rcases h.queue with hq | ⟨rms, hrms, hq⟩
    · exact ⟨[], by simp [Server.step, hq], by simp⟩
    · refine ⟨_, hq, fun y hy => ?_⟩
      obtain ⟨f, hf, rfl⟩ := List.mem_map.mp hy
      simp only [Translator.configureDatapath, newTranslator_default hc] at hrms
      exact defaultConfigureDatapath_noIp hrms f hf

end Steps

/-! ## Routes come and go -/

/-- Each flow for a prefix belongs to a route that is live, and deleting the route now would find it. -/
def Accounted (h : History) (s : Server) : Prop :=
  ∀ k ∈ flowSet s.dpQ, (∀ x ∈ k.matchList, x.isIp = false) ∨ ∃ r v x d p m,
    k = routeKey r x.ctId d p m ∧ LiveThrough r v h ∧ Placed s.rftable v x ∧
      Serves s.rftable s.isltable x d p m

section Account

variable {cfg : Config} (hc : cfg.AllDefault) {h : History} {s : Server} {e : Order × Msg}
  (hs : RouteState cfg s)
  (he : ProperRoute cfg s h e)

include hc hs he in
theorem Accounted.step (hv : cfg.DistinctVmPorts)
    (hlive : ∀ r v w, LiveThrough r v h → LiveThrough r w h → v = w)
    (ha : Accounted h s) : Accounted (h ++ [e]) (s.step cfg e) := by
  intro k hk
  -- What holds of the flows that were there before, unless the message deletes their prefix.
  have old : k ∈ flowSet s.dpQ → (∀ r v x d p m, k = routeKey r x.ctId d p m → LiveThrough r v h →
      Placed s.rftable v x → Serves s.rftable s.isltable x d p m → ¬ ∃ w, e.2.IsRoute .delete r w) →
      (∀ x ∈ k.matchList, x.isIp = false) ∨ ∃ r v x d p m, k = routeKey r x.ctId d p m ∧
        LiveThrough r v (h ++ [e]) ∧ Placed (s.step cfg e).rftable v x ∧
        Serves (s.step cfg e).rftable (s.step cfg e).isltable x d p m := by
    intro hold hno
    rcases ha k hold with hip | ⟨r, v, x, d, p, m, hk, hl, hp, hserves⟩
    · exact Or.inl hip
    · exact Or.inr ⟨r, v, x, d, p, m, hk,
        (since_snoc h e).mpr (Or.inr ⟨hl, hno r v x d p m hk hl hp hserves⟩),
        placed_step hs.rf he.no_down hp, serves_step hs.rf hs.isl he.no_down hserves⟩
  by_cases hrm : ∃ rm, e.2 = .routeMod rm
  · obtain ⟨rm, hrm⟩ := hrm
    obtain ⟨hok, r, v, ⟨hroute, -⟩ | ⟨hroute, hvlive⟩⟩ := he.routes rm hrm
    · obtain ⟨x, more, hp, hq, hall, hkeys⟩ := hs.route_step (Or.inl rfl) hroute hok
      rw [hq, mem_flowSet_adds hall, hkeys] at hk
      rcases hk with hk | ⟨d, p, m, hserves, rfl⟩
      · exact old hk fun _ _ _ _ _ _ _ _ _ _ => hroute.not_other (Or.inl (by simp))
      · exact Or.inr ⟨r, v, x, d, p, m, rfl, (since_snoc h e).mpr (Or.inl hroute),
          placed_step hs.rf he.no_down hp, serves_step hs.rf hs.isl he.no_down hserves⟩
    · obtain ⟨x, more, hp, hq, hall, hkeys⟩ := hs.route_step (Or.inr rfl) hroute hok
      rw [hq, mem_flowSet_deletes hall, hkeys] at hk
      refine old hk.1 fun r' w y d p m hkey hl hpy hserves => ?_
      -- A flow of the deleted prefix would be among those that the deletion found.
      apply hroute.not_other
      by_contra hsame
      push Not at hsame
      obtain rfl : r = r' := hsame.2
      obtain rfl : w = v := hlive r w v hl hvlive
      obtain rfl : y = x := hs.placed_unique hv hpy hp
      exact hk.2 ⟨d, p, m, hserves, hkey.symm⟩
  · have hnot : ∀ rm, e.2 ≠ .routeMod rm := fun rm hm => hrm ⟨rm, hm⟩
    obtain ⟨more, hq, hno⟩ := other_step hc s hnot
    rw [hq] at hk
    by_cases hnew : ∃ y ∈ more, flowKey y = k
    · obtain ⟨y, hy, rfl⟩ := hnew
      exact Or.inl (hno y hy)
    · rw [mem_flowSet_other fun y hy hyk => hnew ⟨y, hy, hyk⟩] at hk
      refine old hk fun _ _ _ _ _ _ _ _ _ _ => ?_
      rintro ⟨w, _, _, _, _, _, hmsg⟩
      exact hnot _ hmsg

include hc hs he in
theorem routeKey_kept {r : Prefix} (hno : ¬ ∃ w, e.2.IsRoute .delete r w) {c d p : Nat} {m : Mac}
    (hk : routeKey r c d p m ∈ flowSet s.dpQ) : routeKey r c d p m ∈ flowSet (s.step cfg e).dpQ := by
  by_cases hrm : ∃ rm, e.2 = .routeMod rm
  · obtain ⟨rm, hrm⟩ := hrm
    obtain ⟨hok, q, v, ⟨hroute, -⟩ | ⟨hroute, -⟩⟩ := he.routes rm hrm
    · obtain ⟨x, more, -, hq, hall, -⟩ := hs.route_step (Or.inl rfl) hroute hok
      rw [hq, mem_flowSet_adds hall]
      exact Or.inl hk
    · obtain ⟨x, more, -, hq, hall, hkeys⟩ := hs.route_step (Or.inr rfl) hroute hok
      rw [hq, mem_flowSet_deletes hall, hkeys]
      refine ⟨hk, ?_⟩
      rintro ⟨d', p', m', -, heq⟩
      have hfor : (routeKey q x.ctId d' p' m').IsFor r := by
        rw [heq]
        exact routeKey_isFor.mpr rfl
      obtain rfl := routeKey_isFor.mp hfor
      exact hno ⟨v, hroute⟩
  · obtain ⟨more, hq, hnoip⟩ := other_step hc s fun rm hm => hrm ⟨rm, hm⟩
    rw [hq, mem_flowSet_other]
    · exact hk
    · intro y hy heq
      have hmem : Match.ip r.addr r.netmask ∈ (flowKey y).matchList := by
        rw [heq]
        exact List.mem_cons_self
      exact absurd (hnoip y hy _ hmem) (by simp [Match.isIp])

end Account

theorem accounted_run {cfg : Config} (hv : cfg.DistinctVmPorts) (hc : cfg.AllDefault) (h : History)
    (hp : ProperRoutes cfg h) : Accounted h (run (Server.step cfg) Server.init h) := by
  refine Throughout.induction (I := fun h => Accounted h (run (Server.step cfg) Server.init h)) ?_ ?_ h hp
  · intro k hk
    simp [flowSet, replay, Server.init] at hk
  · intro h e hh he ha
    rw [run_snoc]
    exact ha.step hc (run_routeState hc h) he hv (liveThrough_unique hh)

theorem routeKey_kept_run {cfg : Config} (hc : cfg.AllDefault) {r : Prefix} {c d p : Nat}
    {m : Mac} {h : History} (after : History) (hp : ProperRoutes cfg (h ++ after))
    (hno : ∀ x ∈ after, ¬ ∃ w, x.2.IsRoute .delete r w)
    (hk : routeKey r c d p m ∈ flowSet (run (Server.step cfg) Server.init h).dpQ) :
    routeKey r c d p m ∈ flowSet (run (Server.step cfg) Server.init (h ++ after)).dpQ := by
  induction after using List.reverseRecOn with
  | nil => simpa using hk
  | append_singleton after e ih =>
    rw [← List.append_assoc] at hp ⊢
    obtain ⟨hp', he⟩ := hp.snoc
    rw [run_snoc]
    exact routeKey_kept hc (run_routeState hc _) he (hno e (by simp))
      (ih hp' fun x hx => hno x (by simp [hx]))

/-- With one line for each VM port, a deleted route leaves nothing behind, and all flows of a route that
was added and not deleted since are there. -/
theorem routes_withdrawn (cfg : Config) (hv : cfg.DistinctVmPorts) (hc : cfg.AllDefault) (h : History)
    (hp : ProperRoutes cfg h) (r : Prefix) :
    let flows := flowSet (run (Server.step cfg) Server.init h).dpQ
    (Withdrawn r h → ∀ k ∈ flows, ¬ k.IsFor r) ∧
      ∀ before e after v, h = before ++ e :: after → e.2.IsRoute .add r v →
        (∀ x ∈ after, ¬ ∃ w, x.2.IsRoute .delete r w) →
        let s := run (Server.step cfg) Server.init before
        ∀ y ∈ (s.step cfg e).dpQ.drop s.dpQ.length, flowKey y ∈ flows := by
  intro flows
  constructor
  · intro hw k hk hfor
    rcases accounted_run hv hc h hp k hk with hip | ⟨q, v, x, d, p, m, rfl, hl, -⟩
    · exact absurd (hip _ hfor) (by simp [Match.isIp])
    · obtain rfl := routeKey_isFor.mp hfor
      refine hl.asymm (fun e he => ?_) (fun e he => ?_) hw
      · exact ⟨v, he⟩
      · exact he.not_other (Or.inl (by simp))
  · rintro before e after v rfl hadd hafter s y hy
    have he : ProperRoute cfg s before e := hp before e after rfl
    obtain ⟨_, _, _, _, _, hmsg⟩ := id hadd
    obtain ⟨x, more, -, hq, hall, hkeys⟩ :=
      (run_routeState hc before).route_step (Or.inl rfl) hadd (he.routes _ hmsg).1
    have hq' : (s.step cfg e).dpQ = s.dpQ ++ more := hq
    rw [hq', List.drop_left] at hy
    obtain ⟨d, p, m, -, hk⟩ := (hkeys _).mp ⟨y, hy, rfl⟩
    have hin : routeKey r x.ctId d p m ∈ flowSet (run (Server.step cfg) Server.init (before ++ [e])).dpQ := by
      rw [run_snoc, hq, mem_flowSet_adds hall, hk]
      exact Or.inr ⟨y, hy, rfl⟩
    have happ : before ++ e :: after = before ++ [e] ++ after := by simp
    rw [← hk]
    simp only [flows]
    rw [happ] at hp ⊢
    exact routeKey_kept_run hc after hp hafter hin

/-! ## Two switches, or one -/

section Examples

variable {cfg : Config} {h : History} (hp : ProperRoutes cfg h)

theorem properRoutes_nil : ProperRoutes cfg [] := by
  intro before e after heq
  simp at heq

def Msg.isQuiet : Msg → Bool
  | .routeMod _ | .datapathDown _ _ => false
  | _ => true

include hp in
theorem ProperRoutes.append_quiet (es : History) (hes : ∀ e ∈ es, e.2.isQuiet = true) :
    ProperRoutes cfg (h ++ es) := by
  induction es using List.reverseRecOn with
  | nil => simpa using hp
  | append_singleton es e ih =>
    have he := hes e (by simp)
    rw [← List.append_assoc]
    refine (ih fun x hx => hes x (by simp [hx])).push ⟨?_, ?_⟩
    · intro c d heq
      simp [heq, Msg.isQuiet] at he
    · intro rm heq
      simp [heq, Msg.isQuiet] at he

include hp in
theorem ProperRoutes.append_add {o : Order} {dest : Destination} {iface : Interface}
    {gateway : Mac} {vmId : Nat}
    (hok : (Server.process cfg o (run (Server.step cfg) Server.init h)
      (.routeMod (dest.routeMod vmId .add iface gateway))).2 = .ok ())
    (hnew : ∀ w, ¬ LiveThrough dest.toPrefix w h) :
    ProperRoutes cfg (h ++ [(o, .routeMod (dest.routeMod vmId .add iface gateway))]) := by
  refine hp.push ⟨by simp, fun rm _ => ⟨hok, dest.toPrefix, ⟨vmId, iface.port⟩, Or.inl ⟨?_, ?_⟩⟩⟩
  · exact ⟨dest, iface, gateway, rfl, rfl, rfl⟩
  · exact fun w hw => absurd hw (hnew w)

include hp in
theorem ProperRoutes.append_delete {o : Order} {dest : Destination} {iface : Interface}
    {gateway : Mac} {vmId : Nat}
    (hok : (Server.process cfg o (run (Server.step cfg) Server.init h)
      (.routeMod (dest.routeMod vmId .delete iface gateway))).2 = .ok ())
    (hlive : LiveThrough dest.toPrefix ⟨vmId, iface.port⟩ h) :
    ProperRoutes cfg (h ++ [(o, .routeMod (dest.routeMod vmId .delete iface gateway))]) := by
  refine hp.push ⟨by simp, fun rm _ => ⟨hok, dest.toPrefix, ⟨vmId, iface.port⟩, Or.inr ⟨?_, hlive⟩⟩⟩
  exact ⟨dest, iface, gateway, rfl, rfl, rfl⟩

theorem not_isRoute_of_quiet {msg : Msg} (hq : msg.isQuiet = true) (mod : RouteModType) (r : Prefix)
    (v : VmPort) :
    ¬ msg.IsRoute mod r v := by
  rintro ⟨_, _, _, _, _, rfl⟩
  simp [Msg.isQuiet] at hq

end Examples

def onePlace : Config where
  config := ((memoryTable RFConfigEntry).add ⟨1, 1, 0, 5, 1, none⟩).add ⟨1, 2, 0, 5, 2, none⟩
  islconf := memoryTable RFISLConfEntry
  fpconf := memoryTable RFFPConfEntry
  multitabledps := []
  satellitedps := []

/-- The first of them has a line for datapath 6 too. -/
def twoPlaces : Config :=
  { onePlace with
    config := (((memoryTable RFConfigEntry).add ⟨1, 1, 0, 6, 1, none⟩).add ⟨1, 1, 0, 5, 1, none⟩).add
      ⟨1, 2, 0, 5, 2, none⟩ }

def clientsUp : History :=
  [(.insertion, .portRegister 1 2 0x12), (.insertion, .portRegister 1 1 0x11),
   (.insertion, .datapathPortRegister 0 5 2), (.insertion, .datapathPortRegister 0 5 1),
   (.insertion, .virtualPlaneMap 1 2 7 2), (.insertion, .virtualPlaneMap 1 1 7 1)]

/-- The table grows, the first client registers again, and its other datapath comes up. CPython lists
the row with id 1024 first from then on. -/
def secondPlace : History :=
  (List.range 21).map (fun i => (Order.insertion, Msg.portRegister 2 i 0x20)) ++
    [(.insertion, .portRegister 1 1 0x11), (.insertion, .datapathPortRegister 0 6 2),
     (.rotate 23, .datapathPortRegister 0 6 1)]

def tenOne : Destination := .host ⟨.ipv4, [10, 0, 0, 1], rfl⟩

def firstClient : Interface := { port := 1, name := "eth1", hwaddress := 0x11 }

def addTenOne : Order × Msg := (.insertion, .routeMod (tenOne.routeMod 1 .add firstClient 0x31))

def deleteTenOne (o : Order) : Order × Msg := (o, .routeMod (tenOne.routeMod 1 .delete firstClient 0x31))

theorem clientsUp_quiet : ∀ e ∈ clientsUp, e.2.isQuiet = true := by
  simp [clientsUp, Msg.isQuiet]

theorem secondPlace_quiet : ∀ e ∈ secondPlace, e.2.isQuiet = true := by
  intro e he
  simp only [secondPlace, List.mem_append, List.mem_map, List.mem_cons, List.not_mem_nil, or_false] at he
  rcases he with ⟨i, -, rfl⟩ | rfl | rfl | rfl <;> rfl

theorem tenOne_live (es : History) (hes : ∀ e ∈ es, e.2.isQuiet = true) :
    LiveThrough tenOne.toPrefix ⟨1, 1⟩ (clientsUp ++ [addTenOne] ++ es) := by
  refine ⟨clientsUp, addTenOne, es, by simp, ⟨tenOne, firstClient, 0x31, rfl, rfl, rfl⟩, ?_⟩
  rintro x hx ⟨w, hw⟩
  exact not_isRoute_of_quiet (hes x hx) _ _ _ hw

theorem tenOne_new (w : VmPort) : ¬ LiveThrough tenOne.toPrefix w clientsUp := by
  rintro ⟨before, e, after, heq, he, -⟩
  exact not_isRoute_of_quiet (clientsUp_quiet e (by simp [heq])) _ _ _ he

theorem tenOne_proper {cfg : Config} (es : History) (hes : ∀ e ∈ es, e.2.isQuiet = true) (o : Order)
    (hadd : (Server.process cfg addTenOne.1 (run (Server.step cfg) Server.init clientsUp) addTenOne.2).2 =
      .ok ())
    (hdel : (Server.process cfg o (run (Server.step cfg) Server.init (clientsUp ++ [addTenOne] ++ es))
      (deleteTenOne o).2).2 = .ok ()) :
    ProperRoutes cfg (clientsUp ++ [addTenOne] ++ es ++ [deleteTenOne o]) := by
  have hup : ProperRoutes cfg clientsUp := properRoutes_nil.append_quiet clientsUp clientsUp_quiet
  have hroute : ProperRoutes cfg (clientsUp ++ [addTenOne]) := hup.append_add hadd tenOne_new
  exact (hroute.append_quiet es hes).append_delete hdel (tenOne_live es hes)

theorem tenOne_withdrawn (h : History) (o : Order) : Withdrawn tenOne.toPrefix (h ++ [deleteTenOne o]) :=
  (since_snoc h _).mpr (Or.inl ⟨⟨1, 1⟩, tenOne, firstClient, 0x31, rfl, rfl, rfl⟩)

theorem routes_withdrawn_onePlace :
    let h := clientsUp ++ [addTenOne] ++ [] ++ [deleteTenOne .insertion]
    ∀ k ∈ flowSet (run (Server.step onePlace) Server.init h).dpQ, ¬ k.IsFor tenOne.toPrefix := by
  have hv : onePlace.DistinctVmPorts := by
    simp [Config.DistinctVmPorts, onePlace, memoryTable, Table.add, Table.empty, RFConfigEntry.vm]
  have hp : ProperRoutes onePlace (clientsUp ++ [addTenOne] ++ [] ++ [deleteTenOne .insertion]) :=
    tenOne_proper [] (by simp) .insertion (by decide +kernel) (by decide +kernel)
  exact (routes_withdrawn onePlace hv ⟨rfl, rfl⟩ _ hp tenOne.toPrefix).1 (tenOne_withdrawn _ _)

/-- With two lines for one VM port, the deletion looks for the flows on the wrong datapath. -/
theorem route_left_behind :
    let h := clientsUp ++ [addTenOne] ++ secondPlace ++ [deleteTenOne (.rotate 23)]
    twoPlaces.AllDefault ∧ ProperRoutes twoPlaces h ∧ Withdrawn tenOne.toPrefix h ∧
      ∃ k ∈ flowSet (run (Server.step twoPlaces) Server.init h).dpQ, k.IsFor tenOne.toPrefix := by
  intro h
  refine ⟨⟨rfl, rfl⟩, ?_, tenOne_withdrawn _ _, routeKey tenOne.toPrefix 0 5 2 0x12, by decide +kernel,
    routeKey_isFor.mpr rfl⟩
  exact tenOne_proper secondPlace secondPlace_quiet (.rotate 23) (by decide +kernel) (by decide +kernel)

end RouteFlow
