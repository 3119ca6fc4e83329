import RouteFlow.Emission
import RouteFlow.Withdrawal

/-!
# Ports that come up late

A route has a flow for each ingress port that was up when it was added. A port that comes up later
gets none, since nothing sends the route again.
-/

namespace RouteFlow

open Store Run

/-! ## Routes -/

/-- RouteMods of one VM that match the same packets are about one route. -/
def SameRoute (rm rm' : RouteMod) : Prop := rm.id = rm'.id ∧ rm.matchList = rm'.matchList

/-- The route is accepted, and leaves on the port `x` of a datapath with a default translator. -/
structure Accepts (cfg : Config) (s : Server) (o : Order) (rm : RouteMod) (x : DpPort) : Prop where
  add : rm.mod = .add
  ok : (Server.registerRouteMod cfg o s rm).2 = .ok ()
  place : ∃ row, RFTable.getEntryByVmPort o s.rftable rm.id rm.vmPort = some row ∧ row.val.dp = some x
  default : ∃ tr, s.routeModTranslator x.dpId = some tr ∧ tr.kind = .default

/-- The last RouteMod of the route is `rm`, and it was accepted. -/
def LiveRoute (cfg : Config) (h : History) (rm : RouteMod) (x : DpPort) : Prop :=
  ∃ before o after, h = before ++ (o, .routeMod rm) :: after ∧
    Accepts cfg (run (Server.step cfg) Server.init before) o rm x ∧
    ∀ e ∈ after, ∀ rm', e.2 = .routeMod rm' → ¬ SameRoute rm' rm

theorem liveRoute_snoc {cfg : Config} {h : History} {e : Order × Msg} {rm : RouteMod} {x : DpPort}
    (hl : LiveRoute cfg (h ++ [e]) rm x) :
    (e.2 = .routeMod rm ∧ Accepts cfg (run (Server.step cfg) Server.init h) e.1 rm x) ∨
    LiveRoute cfg h rm x := by
  obtain ⟨before, o, after, heq, hacc, hafter⟩ := hl
  rcases List.eq_nil_or_concat after with rfl | ⟨after', y, rfl⟩
  · obtain ⟨rfl, he⟩ := List.append_inj' heq rfl
    rw [List.singleton_inj.mp he]
    exact Or.inl ⟨rfl, hacc⟩
  · have heq' : h ++ [e] = (before ++ (o, .routeMod rm) :: after') ++ [y] := by simpa using heq
    obtain ⟨rfl, -⟩ := List.append_inj' heq' rfl
    exact Or.inr ⟨before, o, after', rfl, hacc, fun z hz => hafter z (by simp [hz])⟩

/-! ## Active ports -/

/-- The datapath port is active. -/
def PortUp (rf : RFTable) (y : DpPort) : Prop :=
  ∃ r ∈ rf.rows, r.val.dp = some y ∧ r.val.getStatus = .rfentryActive

theorem portUp_iff {rf : RFTable} (hs : RFShaped rf) {y : DpPort} : PortUp rf y ↔ ∃ m, RfUp rf y m := by
  constructor
  · rintro ⟨r, hr, hy, hst⟩
    obtain ⟨sh, hsh⟩ := hs r hr
    have hst' := hst
    rw [hsh, RFShape.entry_status] at hst'
    obtain ⟨v, m, d, vs, vp, rfl⟩ := RFShape.eq_active_of_status hst'
    exact ⟨m, r, hr, hy, by rw [hsh]; rfl, hst⟩
  · rintro ⟨m, r, hr, hy, -, hst⟩
    exact ⟨r, hr, hy, hst⟩

/-- The message makes the datapath port active. -/
def MapsPort (o : Order) (rf : RFTable) (msg : Msg) (y : DpPort) : Prop :=
  ∃ v p vs vp r, msg = .virtualPlaneMap v p vs vp ∧ RFTable.getEntryByVmPort o rf v p = some r ∧
    r.val.getStatus = .rfentryAssociated ∧ r.val.dp = some y

theorem rfUp_of_step {cfg : Config} {s : Server} (hs : RFShaped s.rftable) {e : Order × Msg}
    {y : DpPort} {m : Mac} (h : RfUp (s.step cfg e).rftable y m) :
    RfUp s.rftable y m ∨ MapsPort e.1 s.rftable e.2 y := by
  obtain ⟨o, msg⟩ := e
  obtain ⟨sh, hsh, hy, hm, hst⟩ := (rfUp_iff (step_shaped hs (o, msg))).mp h
  have inj := RFShape.entry_injective
  have old : sh ∈ s.rftable.shapes → RfUp s.rftable y m ∨ MapsPort o s.rftable msg y := by
    intro hold
    exact Or.inl ((rfUp_iff hs).mpr ⟨sh, hold, hy, hm, hst⟩)
  have heff := step_effect cfg o s hs msg
  revert heff hsh
  generalize (s.step cfg (o, msg)).rftable = t
  intro hsh heff
  cases heff with
  | vmIdle _ | dpIdle _ _ _ =>
    rcases (Table.mem_view_add inj).mp hsh with rfl | hsh
    · simp [RFShape.status] at hst
    · exact old hsh
  | vmJoin hp _ =>
    rcases Table.mem_view_of_put inj (vmPeer_mem hp).1 hsh with rfl | hsh
    · simp [RFShape.status] at hst
    · exact old hsh
  | dpJoin _ hp _ =>
    rcases Table.mem_view_of_put inj (dpPeer_mem hp).1 hsh with rfl | hsh
    · simp [RFShape.status] at hst
    · exact old hsh
  | map he hr =>
    rcases Table.mem_view_of_put inj (Table.first_some he).1 hsh with rfl | hsh
    · refine Or.inr ⟨_, _, _, _, _, rfl, he, ?_, ?_⟩
      · rw [hr]; rfl
      · rw [hr, RFShape.entry_dp]; exact hy
    · exact old hsh
  | down ht =>
    rw [RFTable.shapes_down hs ht] at hsh
    obtain ⟨sh', hsh', rfl⟩ := hsh
    have hst' : sh'.status = .rfentryActive := by
      unfold RFShape.afterDown at hst
      split at hst
      · cases sh' <;> simp [RFShape.down, RFShape.status] at hst
      · exact hst
    rw [RFShape.afterDown_eth] at hm
    exact Or.inl ((rfUp_iff hs).mpr ⟨sh', hsh', (RFShape.afterDown_dp.mp hy).1, hm, hst'⟩)
  | vmKeep | dpStop | dpIsl | dpKeep | mapKeep | routeMod | reply => exact old hsh

/-! ## The flows of a route -/

/-- The flow of a route for the packets of one ingress port, as it is queued. -/
def ingressFlow (rm : RouteMod) (x : DpPort) (p : Nat) (m : Mac) : Nat × RouteMod :=
  (x.ctId, (portFlow ((rm.setId x.dpId).addAction (.output x.dpPort)) p m).addOption (.ctId x.ctId))

/-- Each active port of the datapath has its flow, but for the port that the route leaves on. -/
def EveryPort (cfg : Config) (h : History) : Prop :=
  let s := run (Server.step cfg) Server.init h
  ∀ rm x, LiveRoute cfg h rm x → ∀ p, PortUp s.rftable ⟨x.ctId, x.dpId, p⟩ → p ≠ x.dpPort →
    ∃ m, ingressFlow rm x p m ∈ s.dpQ

/-- A port comes up before the routes of its datapath: it is up already, or all routes that are live
leave on it. -/
def MapsEarly (cfg : Config) (h : History) (e : Order × Msg) : Prop :=
  let s := run (Server.step cfg) Server.init h
  ∀ y, MapsPort e.1 s.rftable e.2 y → PortUp s.rftable y ∨
    ∀ rm x, LiveRoute cfg h rm x → x.ctId = y.ctId → x.dpId = y.dpId → x.dpPort = y.dpPort

section Steps

variable {cfg : Config} {s : Server} (hs : RFShaped s.rftable) (hi : IslShaped s.isltable)

include hs hi in
theorem Accepts.queued {o : Order} {rm : RouteMod} {x : DpPort} (h : Accepts cfg s o rm x) {p : Nat} {m : Mac}
    (hp : RfUp s.rftable ⟨x.ctId, x.dpId, p⟩ m) (hne : p ≠ x.dpPort) :
    ingressFlow rm x p m ∈ (s.step cfg (o, .routeMod rm)).dpQ := by
  obtain ⟨row, hrow, hx⟩ := h.place
  obtain ⟨tr, htr, hkind⟩ := h.default
  rcases registerRouteMod_queue hs hi cfg o rm with ⟨row', x', tr', hrow', hx', htr', htrans⟩ | ⟨hno, -⟩
  · obtain rfl : row = row' := Option.some.inj (hrow.symm.trans hrow')
    obtain rfl : x = x' := Option.some.inj (hx.symm.trans hx')
    obtain rfl : tr = tr' := Option.some.inj (htr.symm.trans htr')
    have htrans' := htrans
    unfold Translates at htrans
    rw [h.add] at htrans
    have hports : PortsReadable s.isltable x := htrans.1 (by simp [hkind])
    obtain ⟨rms, hok, hmem⟩ := mem_defaultHandleRouteMod hs hi (o := o) hx hports (rm.setId x.dpId)
    have hhandle : tr.handleRouteMod o s.rftable s.isltable row.val (rm.setId x.dpId) =
        .ok ((rm.setId x.dpId).addAction (.output x.dpPort), rms) := by
      simp only [Translator.handleRouteMod, hkind, hok]
    have hq := (registerRouteMod_attributed hs hi hrow hx htr htrans').2
    simp only [Server.step, Server.process]
    rw [hq]
    refine List.mem_append_right _ (List.mem_map.mpr ⟨(x.datapath, _), ?_, rfl⟩)
    simp only [attributed, h.add, hhandle, Datapath.tag]
    refine List.mem_append_left _ (List.mem_map_of_mem ((hmem _).mpr ?_))
    exact ⟨p, m, Or.inl hp, hne.symm, rfl⟩
  · exact absurd h.ok hno

end Steps

theorem everyPort_step {cfg : Config} {h : History} {e : Order × Msg} (hm : MapsEarly cfg h e)
    (ih : EveryPort cfg h) : EveryPort cfg (h ++ [e]) := by
  obtain ⟨hs, hi⟩ := run_shaped cfg h
  have hs' := (run_shaped cfg (h ++ [e])).1
  intro rm x hlive p hp hne
  obtain ⟨m, hup⟩ := (portUp_iff hs').mp hp
  rw [run_snoc] at hup ⊢
  rcases liveRoute_snoc hlive with ⟨hmsg, hacc⟩ | hlive
  · -- The route is new. A RouteMod brings no port up.
    obtain ⟨o, msg⟩ := e
    obtain rfl : msg = .routeMod rm := hmsg
    rcases rfUp_of_step hs hup with hup | ⟨v, q, vs, vp, r, hmap, -⟩
    · exact ⟨m, hacc.queued hs hi hup hne⟩
    · cases hmap
  · obtain ⟨more, hq⟩ := queue_grows hs hi cfg e
    have old : PortUp (run (Server.step cfg) Server.init h).rftable ⟨x.ctId, x.dpId, p⟩ →
        ∃ m, ingressFlow rm x p m ∈ ((run (Server.step cfg) Server.init h).step cfg e).dpQ := by
      intro hold
      obtain ⟨m, hm⟩ := ih rm x hlive p hold hne
      exact ⟨m, by rw [hq]; exact List.mem_append_left _ hm⟩
    rcases rfUp_of_step hs hup with hup | hmap
    · exact old ((portUp_iff hs).mpr ⟨m, hup⟩)
    · rcases hm _ hmap with hup | hall
      · exact old hup
      · exact absurd (hall rm x hlive rfl rfl).symm hne

/-- As long as ports come up before the routes of their datapath, each route that is live has a flow
for each ingress port. -/
theorem ports_get_flows (cfg : Config) (h : History) (hm : Throughout (MapsEarly cfg) h) :
    EveryPort cfg h := by
  refine Throughout.induction (I := EveryPort cfg) ?_ ?_ h hm
  · rintro rm x ⟨before, o, after, heq, -⟩
    simp at heq
  · intro h e _ he ih
    exact everyPort_step he ih

/-! ## Two clients -/

theorem mapsEarly_of_quiet {cfg : Config} {h : History} (hq : ∀ e ∈ h, e.2.isQuiet = true) :
    Throughout (MapsEarly cfg) h := by
  rintro before e after rfl y -
  right
  rintro rm x ⟨b, o, a, rfl, -⟩
  have := hq (o, .routeMod rm) (by simp)
  simp [Msg.isQuiet] at this

def tenOneMod : RouteMod := tenOne.routeMod 1 .add firstClient 0x31

theorem tenOne_accepted {s : Server} (row : Row RFEntry)
    (hrow : RFTable.getEntryByVmPort .insertion s.rftable 1 1 = some row) (hx : row.val.dp = some ⟨0, 5, 1⟩)
    (htr : s.routeModTranslator 5 = some ⟨.default, 5, 0, []⟩)
    (hok : (Server.registerRouteMod onePlace .insertion s tenOneMod).2 = .ok ()) :
    Accepts onePlace s .insertion tenOneMod ⟨0, 5, 1⟩ :=
  ⟨rfl, hok, ⟨row, hrow, hx⟩, ⟨_, htr, rfl⟩⟩

theorem ports_get_flows_onePlace : ∃ m, ingressFlow tenOneMod ⟨0, 5, 1⟩ 2 m ∈
    (run (Server.step onePlace) Server.init (clientsUp ++ [addTenOne])).dpQ := by
  have hm : Throughout (MapsEarly onePlace) (clientsUp ++ [addTenOne]) := by
    refine (mapsEarly_of_quiet clientsUp_quiet).push ?_
    rintro y ⟨v, p, vs, vp, r, hmsg, -⟩
    cases hmsg
  have hacc : Accepts onePlace (run (Server.step onePlace) Server.init clientsUp)
    .insertion tenOneMod ⟨0, 5, 1⟩ :=
    tenOne_accepted ⟨1002, (RFShape.active ⟨1, 1⟩ 0x11 ⟨0, 5, 1⟩ 7 1).entry⟩ (by decide +kernel)
      rfl (by decide +kernel) (by decide +kernel)
  have hup : PortUp (run (Server.step onePlace) Server.init (clientsUp ++ [addTenOne])).rftable ⟨0, 5, 2⟩ :=
    ⟨⟨1001, (RFShape.active ⟨1, 2⟩ 0x12 ⟨0, 5, 2⟩ 7 2).entry⟩, by decide +kernel, rfl, rfl⟩
  exact ports_get_flows onePlace _ hm tenOneMod ⟨0, 5, 1⟩ ⟨clientsUp, .insertion, [], rfl, hacc,
    by simp⟩ 2 hup
    (by decide)

def secondLate : History :=
  [(.insertion, .portRegister 1 2 0x12), (.insertion, .portRegister 1 1 0x11),
   (.insertion, .datapathPortRegister 0 5 2), (.insertion, .datapathPortRegister 0 5 1),
   (.insertion, .virtualPlaneMap 1 1 7 1)]

def mapSecond : Order × Msg := (.insertion, .virtualPlaneMap 1 2 7 2)

/-- Its packets have no flow, though they have one if it is mapped before the route comes. -/
theorem late_port_missed :
    let late := run (Server.step onePlace) Server.init (secondLate ++ [addTenOne, mapSecond])
    let early := run (Server.step onePlace) Server.init (secondLate ++ [mapSecond, addTenOne])
    LiveRoute onePlace (secondLate ++ [addTenOne, mapSecond]) tenOneMod ⟨0, 5, 1⟩ ∧
      PortUp late.rftable ⟨0, 5, 2⟩ ∧ (¬ ∃ m, ingressFlow tenOneMod ⟨0, 5, 1⟩ 2 m ∈ late.dpQ) ∧
      flowSet late.dpQ ≠ flowSet early.dpQ := by
  intro late early
  have hacc : Accepts onePlace (run (Server.step onePlace) Server.init secondLate)
    .insertion tenOneMod ⟨0, 5, 1⟩ :=
    tenOne_accepted ⟨1002, (RFShape.active ⟨1, 1⟩ 0x11 ⟨0, 5, 1⟩ 7 1).entry⟩ (by decide +kernel)
      rfl (by decide +kernel) (by decide +kernel)
  refine ⟨⟨secondLate, .insertion, [mapSecond], rfl, hacc, ?_⟩, ?_, ?_, ?_⟩
  · intro e he rm' hmsg
    rw [List.mem_singleton.mp he] at hmsg
    cases hmsg
  · exact ⟨⟨1001, (RFShape.active ⟨1, 2⟩ 0x12 ⟨0, 5, 2⟩ 7 2).entry⟩, by decide +kernel, rfl, rfl⟩
  · rintro ⟨m, hm⟩
    have hall : ∀ f ∈ (run (Server.step onePlace) Server.init (secondLate ++ [addTenOne, mapSecond])).dpQ,
        .inPort 2 ∉ f.2.matchList := by decide +kernel
    exact hall _ hm (by simp [ingressFlow, portFlow, RouteMod.addMatch, RouteMod.addOption])
  · intro heq
    have hin : routeKey tenOne.toPrefix 0 5 2 0x12 ∈
        flowSet (run (Server.step onePlace) Server.init (secondLate ++ [mapSecond, addTenOne])).dpQ := by
      decide +kernel
    have hout : routeKey tenOne.toPrefix 0 5 2 0x12 ∉
        flowSet (run (Server.step onePlace) Server.init (secondLate ++ [addTenOne, mapSecond])).dpQ := by
      decide +kernel
    exact hout (heq ▸ hin)

end RouteFlow
