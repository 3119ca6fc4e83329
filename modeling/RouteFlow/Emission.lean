import RouteFlow.Flows

/-!
# What register_route_mod queues

The RouteMods that one RouteMod of a client turns into, with the datapath that each was computed
for. The queue itself only shows the `dp_id`.
-/

namespace RouteFlow

open Store Run

/-- A datapath and its controller. -/
structure Datapath where
  ctId : Nat
  dpId : Nat
deriving DecidableEq

def DpPort.datapath (x : DpPort) : Datapath := ⟨x.ctId, x.dpId⟩
def IslEnd.datapath (a : IslEnd) : Datapath := ⟨a.ctId, a.dpId⟩

/-- What was computed for the datapath, if it was. -/
def Datapath.tag (d : Datapath) : Except PyErr (List RouteMod) → List (Datapath × RouteMod)
  | .ok rms => rms.map fun f => (d, f)
  | .error _ => []

/-! ## The flows of the neighbours -/

/-- The neighbours' RouteMods, each with the near end of its link. -/
def islFlows (o : Order) (rf : RFTable) (rm : RouteMod) :
    List RFISLEntry → (Nat → Option Translator) → List (Datapath × RouteMod)
  | [], _ => []
  | r :: rest, trs =>
    if r.getStatus = .rfislActive then
      match r.near with
      | none => []
      | some a =>
        match trs a.dpId with
        | none => []
        | some remote =>
          a.datapath.tag (remote.handleIslRouteMod o rf r rm).2 ++
            islFlows o rf rm rest (Function.update trs a.dpId (some (afterIsl remote r)))
    else islFlows o rf rm rest trs

/-- The datapath whose ports the rules for the controller are made from. -/
def controllerDatapath (cfg : Config) (x : DpPort) (tr : Translator) : Datapath :=
  if cfg.fpEnabled = true ∧ tr.kind ≠ .noviFlow then ⟨tr.ctId, tr.dpId⟩ else x.datapath

/-- All that `register_route_mod` computes, with the datapath of each. -/
def attributed (cfg : Config) (o : Order) (s : Server) (entry : RFEntry) (x : DpPort) (tr : Translator)
    (rm : RouteMod) : List (Datapath × RouteMod) :=
  match rm.mod with
  | .controller => (controllerDatapath cfg x tr).tag (tr.handleControllerRouteMod cfg o (rm.setId x.dpId))
  | .add | .delete =>
    match tr.handleRouteMod o s.rftable s.isltable entry (rm.setId x.dpId) with
    | .error _ => []
    | .ok (rm, rms) =>
      x.datapath.tag (.ok rms) ++ islFlows o s.rftable rm (remoteLinks o s x) s.routeModTranslator
  | _ => []

section Neighbours

variable {o : Order} {rf : RFTable} (hs : RFShaped rf)

include hs in
theorem islRouteMods_islFlows (rm : RouteMod) (remotes : List RFISLEntry) (trs : Nat → Option Translator)
    (hl : LinkRows remotes) (ht : NeighboursReady trs remotes) :
    (Server.islRouteMods o rf rm remotes trs).2 = .ok ((islFlows o rf rm remotes trs).map fun y => y.2) := by
  induction remotes generalizing trs with
  | nil => rfl
  | cons r rest ih =>
    have hl' : LinkRows rest := fun q hq => hl q (List.mem_cons_of_mem _ hq)
    unfold Server.islRouteMods islFlows
    by_cases hst : r.getStatus = .rfislActive
    · obtain ⟨a, b, hn, hf⟩ := hl r List.mem_cons_self hst
      have hd : r.dpId = some a.dpId := ((RFISLEntry.near_eq_some _ _).mp hn).2.1
      obtain ⟨tr, htr, hread, ht'⟩ := ht.first hst hd
      obtain ⟨rms, hok, -⟩ := handleIslRouteMod_ok hs (o := o) hn hf hread rm
      have hrest := ih _ hl' ht'
      simp only [hst, if_true, hd, htr, hok, hn, Datapath.tag, List.map_append, List.map_map]
      rw [hrest]
      simp [Except.map, Function.comp_def]
    · simp only [hst, if_false]
      exact ih trs hl' ((neighboursReady_cons_idle hst).mp ht)

end Neighbours

/-! ## The queue -/

section Queue

variable {cfg : Config} {o : Order} {s : Server} (hs : RFShaped s.rftable) (hi : IslShaped s.isltable)

include hs hi in
theorem translate_attributed {entry : RFEntry} {x : DpPort} {tr : Translator} {rm : RouteMod}
    (hx : entry.dp = some x) (h : Translates cfg o s x tr rm) :
    (Server.translate cfg o s entry tr (rm.setId x.dpId)).2 =
      .ok ((attributed cfg o s entry x tr rm).map fun y => y.2) := by
  obtain ⟨hc, hid, -⟩ := (RFEntry.dp_eq_some _ _).mp hx
  have hmod : (rm.setId x.dpId).mod = rm.mod := rfl
  unfold Server.translate attributed
  unfold Translates at h
  rw [hmod]
  cases hm : rm.mod with
  | controller =>
    rw [hm] at h
    obtain ⟨rms, hok, -⟩ := @handleControllerRouteMod_ok _ _ tr (rm.setId x.dpId) h
    simp [hok, Datapath.tag]
  | add | delete =>
    rw [hm] at h
    obtain ⟨hread, ht⟩ := h
    obtain ⟨rm', rms, hok, -⟩ := handleRouteMod_ok hs hi (o := o) hx hread (rm.setId x.dpId)
    have hisl := islRouteMods_islFlows hs (o := o) rm' (remoteLinks o s x) s.routeModTranslator
      (remoteLinks_linkRows hi x) ht
    simp only [remoteLinks] at hisl
    simp only [hok, hc, hid, hisl, remoteLinks]
    simp [Except.map, Datapath.tag]
  | addGroup | deleteGroup | unknown _ => rfl

include hs hi in
theorem registerRouteMod_attributed {row : Row RFEntry} {x : DpPort} {tr : Translator} {rm : RouteMod}
    (hrow : RFTable.getEntryByVmPort o s.rftable rm.id rm.vmPort = some row) (hx : row.val.dp = some x)
    (htr : s.routeModTranslator x.dpId = some tr) (h : Translates cfg o s x tr rm) :
    (Server.registerRouteMod cfg o s rm).2 = .ok () ∧ (Server.registerRouteMod cfg o s rm).1.dpQ =
      s.dpQ ++ (attributed cfg o s row.val x tr rm).map fun y => (x.ctId, y.2.addOption (.ctId x.ctId)) := by
  obtain ⟨hc, hid, -⟩ := (RFEntry.dp_eq_some _ _).mp hx
  have hst := status_ne_idleVm (hs row (RFTable.getEntryByVmPort_some hrow).1) hx
  have htrans := translate_attributed hs hi hx h
  unfold Server.registerRouteMod
  simp only [hrow, hid, htr, hst, if_false, htrans, hc, Server.sendRouteMods_eq]
  simp [Server.queueRoutemodAck, Function.comp_def]

include hs hi in
theorem registerRouteMod_queue (cfg : Config) (o : Order) (rm : RouteMod) :
    (∃ row x tr, RFTable.getEntryByVmPort o s.rftable rm.id rm.vmPort = some row ∧ row.val.dp = some x ∧
      s.routeModTranslator x.dpId = some tr ∧ Translates cfg o s x tr rm) ∨
    ((Server.registerRouteMod cfg o s rm).2 ≠ .ok () ∧
      (Server.registerRouteMod cfg o s rm).1.dpQ = s.dpQ) := by
  by_cases h : Handled cfg o s rm
  · obtain ⟨x, tr, htarget, htrans⟩ := h
    obtain ⟨row, hrow, hx, htr⟩ := routeModTarget_eq_some.mp htarget
    exact Or.inl ⟨row, x, tr, hrow, hx, htr, htrans⟩
  · obtain ⟨trs, e, heq⟩ := registerRouteMod_not_handled hs hi h
    rw [heq]
    exact Or.inr ⟨by simp, rfl⟩

include hs hi in
theorem queue_grows (cfg : Config) (e : Order × Msg) : ∃ more, (s.step cfg e).dpQ = s.dpQ ++ more := by
  obtain ⟨o, msg⟩ := e
  by_cases hmsg : ∃ rm, msg = .routeMod rm
  · obtain ⟨rm, rfl⟩ := hmsg
    rcases registerRouteMod_queue hs hi cfg o rm with ⟨row, x, tr, hrow, hx, htr, h⟩ | ⟨-, hq⟩
    · exact ⟨_, (registerRouteMod_attributed hs hi hrow hx htr h).2⟩
    · exact ⟨[], by simp [Server.step, Server.process, hq]⟩
  · rcases process_flows cfg o s fun rm hrm => hmsg ⟨rm, hrm⟩ with h | ⟨c, d, p, -, h⟩
    · exact ⟨[], by simp [Server.step, h.2]⟩
    · rcases h.queue with hq | ⟨rms, -, hq⟩
      · exact ⟨[], by simp [Server.step, hq]⟩
      · exact ⟨_, hq⟩

end Queue

/-! ## Ids and kinds -/

/-- The RouteMod keeps its kind and is for the datapath `d`. -/
def RouteMod.Becomes (rm : RouteMod) (d : Nat) (f : RouteMod) : Prop := f.id = d ∧ f.mod = rm.mod

section Fields

variable {cfg : Config} {o : Order} {rf : RFTable} {isl : RFISLTable} (hs : RFShaped rf) (hi : IslShaped isl)

theorem flow_becomes {rm rm' : RouteMod} {d : Nat} (h : rm.Becomes d rm') (e : PortEntry) :
    rm.Becomes d (e.flow rm') := h

include hs hi in
theorem handleRouteMod_becomes (tr : Translator) {entry : RFEntry} {x : DpPort} (hx : entry.dp = some x)
    {rm rm' : RouteMod} {rms : List RouteMod} (h : tr.handleRouteMod o rf isl entry rm = .ok (rm', rms)) :
    rm'.mod = rm.mod ∧ ∀ f ∈ rms, rm.Becomes rm.id f := by
  have hread := routeReadable_of_ok hi hx h
  unfold Translator.handleRouteMod at h
  have hdefault : PortsReadable isl x → Translator.defaultHandleRouteMod o rf isl entry rm = .ok (rm', rms) →
      rm'.mod = rm.mod ∧ ∀ f ∈ rms, rm.Becomes rm.id f := by
    intro hports h
    rw [defaultHandleRouteMod_ok hs hi hx hports] at h
    cases h
    refine ⟨rfl, fun f hf => ?_⟩
    obtain ⟨e, -, rfl⟩ := List.mem_map.mp hf
    exact flow_becomes ⟨rfl, rfl⟩ e
  cases hk : tr.kind with
  | default | satellite =>
    rw [hk] at h
    exact hdefault (hread (by simp [hk])) h
  | noviFlow =>
    obtain ⟨-, -, hp⟩ := (RFEntry.dp_eq_some _ _).mp hx
    simp only [hk, Translator.noviFlowHandleRouteMod, hp, Action.OUTPUT] at h
    cases h
    refine ⟨rfl, fun f hf => ?_⟩
    unfold Translator.noviFlowSendRmWithMatches at hf
    split at hf
    · rw [List.mem_singleton.mp hf]
      exact ⟨rfl, rfl⟩
    · cases hf

theorem noviFlowHandleControllerRouteMod_becomes {rm : RouteMod} (hm : rm.mod = .controller) :
    ∀ f ∈ Translator.noviFlowHandleControllerRouteMod cfg rm, rm.Becomes rm.id f := by
  unfold Translator.noviFlowHandleControllerRouteMod
  dsimp only
  split
  · intro f hf
    rw [List.mem_singleton.mp hf]
    exact ⟨rfl, rfl⟩
  · intro f hf
    rcases List.mem_cons.mp hf with rfl | hf
    · exact ⟨rfl, rfl⟩
    · rw [List.mem_singleton.mp hf]
      exact ⟨rfl, hm.symm⟩

theorem handleControllerRouteMod_becomes {tr : Translator} {rm : RouteMod} (hm : rm.mod = .controller)
    {rms : List RouteMod} (h : tr.handleControllerRouteMod cfg o rm = .ok rms) :
    ∀ f ∈ rms, rm.Becomes rm.id f := by
  have hdefault : tr.defaultHandleControllerRouteMod cfg o rm = .ok rms → ∀ f ∈ rms, rm.Becomes rm.id f := by
    intro h
    unfold Translator.defaultHandleControllerRouteMod at h
    split at h
    · obtain ⟨mp, hmp, -⟩ := @getFastpathPort_ok cfg o tr
      simp only [hmp, bind, Except.bind] at h
      split at h
      · cases h
      · intro f hf
        obtain ⟨port, label, p, rfl⟩ := mem_tagRules h hf
        exact ⟨rfl, rfl⟩
    · cases h
      intro f hf
      rw [List.mem_singleton.mp hf]
      exact ⟨rfl, rfl⟩
  unfold Translator.handleControllerRouteMod at h
  cases hk : tr.kind with
  | default | satellite =>
    rw [hk] at h
    exact hdefault h
  | noviFlow =>
    rw [hk] at h
    cases h
    exact noviFlowHandleControllerRouteMod_becomes hm

include hs in
theorem handleIslRouteMod_becomes (tr : Translator) {r : RFISLEntry} {a b : IslEnd} (hn : r.near = some a)
    (hf : r.far = some b) {rm : RouteMod} {tr' : Translator} {rms : List RouteMod}
    (h : tr.handleIslRouteMod o rf r rm = (tr', .ok rms)) : ∀ f ∈ rms, rm.Becomes tr.dpId f := by
  have hdefault : ∀ rm' : RouteMod, rm'.mod = rm.mod →
    ∀ f ∈ ((rfPorts o rf (some a.ctId) (some a.dpId)).filter
      fun e => e.eligible (some a.dpPort)).map fun e => e.flow (islRouteMod tr.dpId a b rm'),
      rm.Becomes tr.dpId f := by
    intro rm' hm f hf
    obtain ⟨e, -, rfl⟩ := List.mem_map.mp hf
    have hisl : rm.Becomes tr.dpId (islRouteMod tr.dpId a b rm') := ⟨rfl, hm⟩
    exact flow_becomes hisl e
  have hread := linkReadable_of_ok h
  unfold neighbourReads at hread
  unfold Translator.handleIslRouteMod at h
  cases hk : tr.kind with
  | default =>
    simp only [hk, defaultHandleIslRouteMod_ok hs tr hn hf (hread (by simp [hk])), Prod.mk.injEq] at h
    rw [← Except.ok.inj h.2]
    exact hdefault rm rfl
  | satellite =>
    by_cases hsent : r.remEthAddr ∈ tr.sentIslDl
    · simp only [hk, Translator.satelliteLoop, hsent, if_true, Prod.mk.injEq] at h
      rw [← Except.ok.inj h.2]
      simp
    · simp only [hk, Translator.satelliteLoop, hsent, if_false,
        defaultHandleIslRouteMod_ok hs tr hn hf (hread fun _ => hsent),
        List.mem_cons, true_or, if_true, Except.map, List.append_nil, Prod.mk.injEq] at h
      rw [← Except.ok.inj h.2]
      exact hdefault _ rfl
  | noviFlow =>
    simp only [hk, noviFlowHandleIslRouteMod_ok tr hn hf (hread (by simp [hk])), Prod.mk.injEq] at h
    rw [← Except.ok.inj h.2]
    intro f hmem
    rcases List.mem_append.mp hmem with hmem | hmem
    · unfold Translator.noviFlowSendRmWithMatches at hmem
      split at hmem
      · rw [List.mem_singleton.mp hmem]
        exact ⟨rfl, rfl⟩
      · cases hmem
    · rw [List.mem_singleton.mp hmem]
      exact ⟨rfl, rfl⟩

theorem Datapath.mem_tag {d : Datapath} {res : Except PyErr (List RouteMod)} {y : Datapath × RouteMod} :
    y ∈ d.tag res ↔ y.1 = d ∧ ∃ rms, res = .ok rms ∧ y.2 ∈ rms := by
  cases res with
  | error e => simp [tag]
  | ok rms =>
    obtain ⟨d', f⟩ := y
    simp only [tag, List.mem_map, Prod.mk.injEq, Except.ok.injEq, exists_eq_left']
    constructor
    · rintro ⟨f', hf', rfl, rfl⟩
      exact ⟨rfl, hf'⟩
    · rintro ⟨rfl, hf⟩
      exact ⟨f, hf, rfl, rfl⟩

theorem afterIsl_dpId (tr : Translator) (r : RFISLEntry) : (afterIsl tr r).dpId = tr.dpId := by
  unfold afterIsl
  split
  · split <;> rfl
  · rfl

theorem WellKeyed.afterIsl {trs : Nat → Option Translator} (hk : WellKeyed trs) {d : Nat} {tr : Translator}
    (htr : trs d = some tr) (r : RFISLEntry) :
    WellKeyed (Function.update trs d (some (RouteFlow.afterIsl tr r))) := by
  intro e tr' he
  by_cases hed : e = d
  · subst hed
    rw [Function.update_self, Option.some.injEq] at he
    rw [← he, afterIsl_dpId, hk _ _ htr]
  · rw [Function.update_of_ne hed] at he
    exact hk _ _ he

include hs in
theorem mem_islFlows (rm : RouteMod) (remotes : List RFISLEntry) (trs : Nat → Option Translator)
    (hl : LinkRows remotes) (hk : WellKeyed trs) {y : Datapath × RouteMod}
    (hy : y ∈ islFlows o rf rm remotes trs) :
    ∃ r ∈ remotes, ∃ a, r.getStatus = .rfislActive ∧ r.near = some a ∧ y.1 = a.datapath ∧
      rm.Becomes a.dpId y.2 ∧ (trs a.dpId).isSome := by
  induction remotes generalizing trs with
  | nil => cases hy
  | cons r rest ih =>
    have hl' : LinkRows rest := fun q hq => hl q (List.mem_cons_of_mem _ hq)
    unfold islFlows at hy
    by_cases hst : r.getStatus = .rfislActive
    · obtain ⟨a, b, hn, hf⟩ := hl r List.mem_cons_self hst
      cases htr : trs a.dpId with
      | none => simp [hst, hn, htr] at hy
      | some tr =>
        simp only [hst, if_true, hn, htr, List.mem_append] at hy
        rcases hy with hy | hy
        · rw [Datapath.mem_tag] at hy
          obtain ⟨hd, rms, hrms, hmem⟩ := hy
          have hb := handleIslRouteMod_becomes hs tr hn hf (Prod.ext rfl hrms) _ hmem
          rw [hk _ _ htr] at hb
          exact ⟨r, List.mem_cons_self, a, hst, hn, hd, hb, by simp [htr]⟩
        · obtain ⟨q, hq, a', hqs, hqn, hd, hb, hsome⟩ := ih _ hl' (hk.afterIsl htr r) hy
          rw [update_isSome htr] at hsome
          exact ⟨q, List.mem_cons_of_mem _ hq, a', hqs, hqn, hd, hb, hsome⟩
    · simp only [hst, if_false] at hy
      obtain ⟨q, hq, h⟩ := ih trs hl' hk hy
      exact ⟨q, List.mem_cons_of_mem _ hq, h⟩

include hs in
theorem mem_attributed {s : Server} (hrf : s.rftable = rf) (hi : IslShaped s.isltable)
    (hk : WellKeyed s.routeModTranslator) {entry : RFEntry} {x : DpPort} {tr : Translator}
    (hx : entry.dp = some x) (htr : s.routeModTranslator x.dpId = some tr) (rm : RouteMod)
    {y : Datapath × RouteMod} (hy : y ∈ attributed cfg o s entry x tr rm) :
    rm.Becomes y.1.dpId y.2 ∧ (s.routeModTranslator y.1.dpId).isSome ∧
      (y.1.dpId = x.dpId ∨ ∃ r ∈ s.isltable.rows, ∃ a, r.val.near = some a ∧ y.1 = a.datapath) := by
  subst hrf
  have hhere : (s.routeModTranslator x.dpId).isSome := by simp [htr]
  unfold attributed at hy
  cases hm : rm.mod with
  | controller =>
    simp only [hm, Datapath.mem_tag] at hy
    obtain ⟨hd, rms, hok, hmem⟩ := hy
    have hid : y.1.dpId = x.dpId := by
      rw [hd, controllerDatapath]
      split
      · exact hk _ _ htr
      · rfl
    rw [hid]
    have hmod : (rm.setId x.dpId).mod = .controller := hm
    exact ⟨handleControllerRouteMod_becomes hmod hok _ hmem, hhere, Or.inl rfl⟩
  | add | delete =>
    cases hok : tr.handleRouteMod o s.rftable s.isltable entry (rm.setId x.dpId) with
    | error e => simp [hm, hok] at hy
    | ok res =>
      obtain ⟨rm', rms⟩ := res
      obtain ⟨hmod, hlocal⟩ := handleRouteMod_becomes hs hi tr hx hok
      simp only [hm, hok, List.mem_append, Datapath.mem_tag] at hy
      rcases hy with ⟨hd, rms', heq, hmem⟩ | hy
      · rw [← Except.ok.inj heq] at hmem
        rw [hd]
        exact ⟨hlocal _ hmem, hhere, Or.inl rfl⟩
      · obtain ⟨r, hr, a, -, hn, hd, hb, hsome⟩ :=
          mem_islFlows hs rm' _ _ (remoteLinks_linkRows hi x) hk hy
        obtain ⟨q, hq, -, rfl⟩ := mem_remoteLinks.mp hr
        rw [hd]
        exact ⟨⟨hb.1, hb.2.trans hmod⟩, hsome, Or.inr ⟨q, hq, a, hn, rfl⟩⟩
  | addGroup | deleteGroup | unknown _ => simp [hm] at hy

end Fields

/-! ## RouteMods that cannot be placed -/

/-- The VM port has no row, or an idle one. -/
def Unplaced (o : Order) (s : Server) (rm : RouteMod) : Prop :=
  ∀ row, RFTable.getEntryByVmPort o s.rftable rm.id rm.vmPort = some row →
    row.val.getStatus = .rfentryIdleVmPort

/-- Nothing that later messages depend on has changed. -/
structure Untouched (s s' : Server) : Prop where
  rftable : s'.rftable = s.rftable
  isltable : s'.isltable = s.isltable
  translators : s'.routeModTranslator = s.routeModTranslator
  dpQ : s'.dpQ = s.dpQ

/-- The handler ends without an exception, and drops what it cannot place. -/
structure Survives (cfg : Config) (o : Order) (s : Server) (rm : RouteMod) : Prop where
  ok : (Server.registerRouteMod cfg o s rm).2 = .ok ()
  dropped : Unplaced o s rm → Untouched s (Server.registerRouteMod cfg o s rm).1

theorem idleVm_dpId {e : RFEntry} (h : e.getStatus = .rfentryIdleVmPort) : e.dpId = none := by
  have hidle : e.isIdleVmPort = true := by
    unfold RFEntry.getStatus at h
    split at h
    · assumption
    · split at h
      · cases h
      · split at h <;> cases h
  simp only [RFEntry.isIdleVmPort, Bool.and_eq_true, Option.isNone_iff_eq_none] at hidle
  exact hidle.1.1.1.2

/-- What cannot be placed is dropped in any case: the exception comes before the first change. -/
theorem unplaced_untouched (cfg : Config) {o : Order} {s : Server} {rm : RouteMod} (h : Unplaced o s rm) :
    Untouched s (Server.registerRouteMod cfg o s rm).1 := by
  unfold Server.registerRouteMod
  split
  · exact ⟨rfl, rfl, rfl, rfl⟩
  · rename_i row hrow
    simp only [idleVm_dpId (h row hrow)]
    exact ⟨rfl, rfl, rfl, rfl⟩

/-- A RouteMod survives exactly if its VM port has a datapath with a translator, and the translators can
make their RouteMods. What the handler means to drop raises too. -/
theorem survives_iff_handled (cfg : Config) (h : History) (o : Order) (rm : RouteMod) :
    let s := run (Server.step cfg) Server.init h
    Survives cfg o s rm ↔ Handled cfg o s rm := by
  intro s
  obtain ⟨hs, hi⟩ := run_shaped cfg h
  constructor
  · intro hsurv
    by_contra hno
    obtain ⟨trs, e, heq⟩ := registerRouteMod_not_handled hs hi hno
    have hok := hsurv.ok
    rw [heq] at hok
    cases hok
  · intro hh
    obtain ⟨trs, c, rms, heq, -⟩ := registerRouteMod_handled hs hi hh
    exact ⟨by rw [heq], unplaced_untouched cfg⟩

/-- The client of the line sends a route before the datapath is there. -/
theorem early_routeMod_raises :
    let s := run (Server.step oneLine) Server.init [(.insertion, .portRegister 1 1 0x11)]
    let rm : RouteMod := { mod := .add, id := 1, vmPort := 1 }
    Unplaced .insertion s rm ∧ (Server.registerRouteMod oneLine .insertion s rm).2 = .error .keyError ∧
      ¬ Survives oneLine .insertion s rm := by
  intro s rm
  have herr : (Server.registerRouteMod oneLine .insertion s rm).2 = .error .keyError := by decide +kernel
  refine ⟨?_, herr, ?_⟩
  · intro row hrow
    have hfound : RFTable.getEntryByVmPort .insertion s.rftable 1 1 =
        some ⟨1001, (RFShape.idleVm ⟨1, 1⟩ 0x11).entry⟩ := by decide +kernel
    obtain rfl := Option.some.inj (hfound.symm.trans hrow)
    rfl
  · intro hsurv
    have hok := hsurv.ok
    rw [herr] at hok
    cases hok

end RouteFlow
