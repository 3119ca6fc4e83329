import RouteFlow.FastPathRuns
import RouteFlow.Forwarding
import RouteFlow.Lib.Fabric

/-!
# Forwarding over the fast paths, in every run

The network again, but with the flows that the switches have from the queue of RFServer. NoviFlow
switches have several tables, and what came before a datapath was configured may still be on it.
-/

namespace RouteFlow

open Store Wires Rules Run

/-! ## The flows of a switch -/

/-- What a delete takes along is up to the switch. Without matches it deletes all flows, and with matches only
flows with matches of their types. -/
structure Deletes (removes : RouteMod → RouteMod → Bool) : Prop where
  all : ∀ f g, f.matchList = [] → removes f g = true
  covers : ∀ f g, removes f g = true → ∀ m ∈ f.matchList, ∃ n ∈ g.matchList, n.type = m.type

section Flows

variable (removes : RouteMod → RouteMod → Bool)

/-- The flow is deleted by this RouteMod. -/
def taken (f g : RouteMod) : Bool := f.mod == .delete && removes f g

/-- The flows after the RouteMods of the queue, on a switch that had the flows `old`. -/
def flowsAfter (old : List RouteMod) (q : List (Nat × RouteMod)) : List RouteMod :=
  updated Pipeline.flowId Pipeline.isFlow (taken removes) old (q.map Prod.snd)

/-- A switch reads its flows so. -/
def reading : Reading RouteMod Packet where
  applies pkt f := f.accepts pkt
  prio := RouteMod.level
  table := RouteMod.table
  onward := Pipeline.onward
  sends f pkt := execute pkt f.actions

end Flows

/-- The flows of a switch whose link upwards is on the port `u`. -/
structure CarriesLabels (T : Topology) (pl : Plan) (kind : TranslatorKind) (d u : Nat)
    (flows : List RouteMod) : Prop where
  labels : ∀ f, FastRule T pl d u f → ∃ g ∈ flows, Pipeline.flowId g = Pipeline.flowId f
  others : ∀ g ∈ flows, (∃ f c, FastRule T pl d u f ∧ g = f.addOption (.ctId c)) ∨ g.level ≤ PRIORITY_HIGH
  quiet : ∀ g ∈ flows, ∀ t, Action.goto t ∈ g.actions → g.actions = [.goto t]
  pushes : kind = .noviFlow → ∀ p ∈ T.conf.rows, p.val.dpId = d → ∀ l, pl.lab p = some l →
    ∃ g ∈ flows, Pipeline.flowId g = Pipeline.flowId ((T.translator d).pushRule u l p.val.dpPort)
  table : kind = .noviFlow → ∀ g ∈ flows, g.table = Translator.NOVIFLOW_FP_TABLE →
    ∃ p ∈ T.conf.rows, p.val.dpId = d ∧ ∃ l c, pl.lab p = some l ∧
      g = ((T.translator d).pushRule u l p.val.dpPort).addOption (.ctId c)

theorem FastRule.ofFastPath {T : Topology} {pl : Plan} {d u : Nat} {f : RouteMod} (hf : FastRule T pl d u f) :
    ∀ m ∈ f.matchList, m.ofFastPath = true := by
  rcases hf with ⟨p, -, -, l, -, rfl⟩ | ⟨c, -, -, -, lv, -, hf⟩
  · simp [Translator.fpportRule, rfactionPopMeta, rfmatchMeta, RouteMod.addAction, RouteMod.addOption,
      RouteMod.addMatch, Match.ofFastPath]
  · simp only [Translator.fpislRules, List.mem_cons, List.not_mem_nil, or_false] at hf
    rcases hf with rfl | rfl <;>
      simp [rfmatchMeta, RouteMod.addAction, RouteMod.addOption, RouteMod.addMatch, Match.ofFastPath]

theorem flowId_addOption_ctId (f : RouteMod) (c : Nat) :
    Pipeline.flowId (f.addOption (.ctId c)) = Pipeline.flowId f := by
  rw [Pipeline.flowId, RouteMod.level_addOption_ctId]
  rfl

section Begun

variable {T : FastPathTopology} {pl : Plan} (h : Allocated T.toWiring pl)
  {removes : RouteMod → RouteMod → Bool} (hremoves : Deletes removes)
  {multitabledps satellitedps : List Nat} {d : Nat} {k : Link} (hu : pl.up d = some k)

include hremoves in
theorem taken_tame {f g : RouteMod} (hf : f.Tame) (hg : ∀ m ∈ g.matchList, m.ofFastPath = true) :
    taken removes f g = false := by
  unfold taken
  by_contra htaken
  rw [Bool.not_eq_false, Bool.and_eq_true, beq_iff_eq] at htaken
  obtain ⟨m, hm, hfast⟩ := hf.delete htaken.1
  obtain ⟨n, hn, htype⟩ := hremoves.covers f g htaken.2 m hm
  rw [← Match.ofFastPath_congr htype, hg n hn] at hfast
  cases hfast

include h hremoves hu in
theorem begun_carries (old : List RouteMod) {q : List (Nat × RouteMod)}
    (hq : Begun ((T.state pl).configWith multitabledps satellitedps) T.ct d q) :
    CarriesLabels T.toTopology pl (Server.newTranslator
      ((T.state pl).configWith multitabledps satellitedps) T.ct d).kind
      d (k.portAt d) (flowsAfter removes old q) := by
  obtain ⟨o, rms, more, hok, rfl, hmore⟩ := hq
  obtain ⟨first, rules, hok', hrules⟩ := configureDatapath_rules h o hu multitabledps satellitedps
  obtain rfl := Except.ok.inj (hok.symm.trans hok')
  -- Only what comes after the wipe counts.
  let rules' := rules.map fun f => f.addOption (.ctId T.ct)
  let more' := more.map Prod.snd
  have hflows : flowsAfter removes old ((first ++ { mod := .delete, id := d } :: rules).map
      (fun f => (T.ct, f.addOption (.ctId T.ct))) ++ more) =
      updated Pipeline.flowId Pipeline.isFlow (taken removes) [] (rules' ++ more') := by
    have hsplit : ((first ++ { mod := .delete, id := d } :: rules).map
        (fun f => (T.ct, f.addOption (.ctId T.ct))) ++ more).map Prod.snd =
        first.map (fun f => f.addOption (.ctId T.ct)) ++
          RouteMod.addOption { mod := .delete, id := d } (.ctId T.ct) :: (rules' ++ more') := by
      simp [rules', more', Function.comp_def]
    rw [flowsAfter, hsplit]
    exact updated_wipe rfl fun g => by simp [taken, RouteMod.addOption, hremoves.all _ g]
  have hadd : ∀ f ∈ rules', f.mod = .add := by
    intro f hf
    obtain ⟨g, hg, rfl⟩ := List.mem_map.mp hf
    exact hrules.add g hg
  have htame : ∀ f ∈ more', f.Tame := by
    intro f hf
    obtain ⟨y, hy, rfl⟩ := List.mem_map.mp hf
    exact hmore y hy
  have hcases : ∀ g ∈ updated Pipeline.flowId Pipeline.isFlow (taken removes) [] (rules' ++ more'),
      (∃ f ∈ rules, g = f.addOption (.ctId T.ct)) ∨ g.Tame := by
    intro g hg
    obtain ⟨hg, -⟩ := (mem_updated hg).resolve_left List.not_mem_nil
    rcases List.mem_append.mp hg with hg | hg
    · obtain ⟨f, hf, rfl⟩ := List.mem_map.mp hg
      exact Or.inl ⟨f, hf, rfl⟩
    · exact Or.inr (htame g hg)
  -- A rule whose matches are those of the fast paths stays, or another one under its key.
  have hstays : ∀ f ∈ rules, (∀ m ∈ f.matchList, m.ofFastPath = true) →
      ∃ g ∈ updated Pipeline.flowId Pipeline.isFlow (taken removes) [] (rules' ++ more'),
        Pipeline.flowId g = Pipeline.flowId f := by
    intro f hf hfast
    have hmem : f.addOption (.ctId T.ct) ∈ rules' ++ more' := List.mem_append_left _ (List.mem_map_of_mem hf)
    have hputs : Pipeline.isFlow (f.addOption (.ctId T.ct)) = true := by
      have : (f.addOption (.ctId T.ct)).mod = .add := hrules.add f hf
      simp [Pipeline.isFlow, this]
    have hsome : ∃ g ∈ updated Pipeline.flowId Pipeline.isFlow (taken removes) [] (rules' ++ more'),
        g ∈ rules' ++ more' ∧ Pipeline.flowId g = Pipeline.flowId (f.addOption (.ctId T.ct)) := by
      refine exists_updated hmem hputs fun m hm hno g _ hkey => ?_
      rcases List.mem_append.mp hm with hm | hm
      · rw [Pipeline.isFlow, hadd m hm] at hno
        cases hno
      · have hmatch : g.matchList = f.matchList := congrArg (fun x => x.2.1) hkey
        refine taken_tame hremoves (htame m hm) ?_
        rw [hmatch]
        exact hfast
    obtain ⟨g, hg, -, hkey⟩ := hsome
    exact ⟨g, hg, hkey.trans (flowId_addOption_ctId f T.ct)⟩
  rw [hflows]
  refine ⟨fun f hf => hstays f (hrules.labels f hf) hf.ofFastPath, fun g hg => ?_, fun g hg => ?_,
    fun hk p hp hd l hl => ?_, fun hk g hg htable => ?_⟩
  · rcases hcases g hg with ⟨f, hf, rfl⟩ | hg
    · refine (hrules.others f hf).imp (fun hfast => ⟨f, T.ct, hfast, rfl⟩) fun hlow => ?_
      rw [RouteMod.level_addOption_ctId]
      exact hlow
    · exact Or.inr hg.level
  · rcases hcases g hg with ⟨f, hf, rfl⟩ | hg
    · exact hrules.quiet f hf
    · exact hg.quiet
  · obtain ⟨hpush, -⟩ := (hrules.tables hk _).mpr ⟨p, hp, hd, l, hl, rfl⟩
    refine hstays _ hpush ?_
    simp [Translator.pushRule, rfactionPushMeta, RouteMod.setTable, RouteMod.addOption, RouteMod.addAction,
      RouteMod.addMatch, Match.ofFastPath]
  · rcases hcases g hg with ⟨f, hf, rfl⟩ | hg
    · obtain ⟨p, hp, hd, l, hl, rfl⟩ := (hrules.tables hk f).mp ⟨hf, htable⟩
      exact ⟨p, hp, hd, l, T.ct, hl, rfl⟩
    · exact absurd htable hg.table

end Begun

/-! ## One switch -/

theorem onward_eq_none {f : RouteMod} (h : ∀ t, Action.goto t ∉ f.actions) : Pipeline.onward f = none := by
  refine List.findSome?_eq_none_iff.mpr fun a ha => ?_
  cases a with
  | goto t => exact absurd ha (h t)
  | _ => rfl

theorem goto_of_onward {f : RouteMod} {t : Nat} (h : Pipeline.onward f = some t) :
    Action.goto t ∈ f.actions := by
  obtain ⟨a, ha, hgoto⟩ := List.exists_of_findSome?_eq_some h
  cases a with
  | goto t' =>
    rw [← Option.some.inj hgoto]
    exact ha
  | _ => cases hgoto

theorem accepts_of_key {f g : RouteMod} {pkt : Packet} (h : Pipeline.flowId g = Pipeline.flowId f)
    (hf : f.accepts pkt) : g.accepts pkt := by
  rw [RouteMod.accepts, show g.matchList = f.matchList from congrArg (fun x => x.2.1) h]
  exact hf

namespace CarriesLabels

variable {T : Topology} {pl : Plan} {kind : TranslatorKind} {d u : Nat} {flows : List RouteMod} {pkt : Packet}
  (hc : CarriesLabels T pl kind d u flows)

include hc

theorem sends_label {q : Nat} {pkt' : Packet} (hsome : ∃ f, FastRule T pl d u f ∧ f.accepts pkt)
    (hall : ∀ f, FastRule T pl d u f → f.accepts pkt → execute pkt f.actions = [(q, pkt')]) :
    reading.Sends flows pkt 0 [(q, pkt')] := by
  obtain ⟨f, hf, hacc⟩ := hsome
  obtain ⟨g, hg, hkey⟩ := hc.labels f hf
  have htable : g.table = 0 := (congrArg Prod.fst hkey).trans hf.plain.2.1
  have hlevel : g.level = PRIORITY_HIGH + 1 := (congrArg (fun x => x.2.2) hkey).trans hf.facts.2
  refine Reading.sends_of_best (exists_bestIn hg htable (accepts_of_key hkey hacc)) fun r hr => ?_
  rcases hc.others r hr.1 with ⟨f', c, hf', rfl⟩ | hlow
  · exact ⟨onward_eq_none hf'.plain.2.2, hall f' hf' hr.2.1.2⟩
  · have hle : g.level ≤ r.level := hr.le hg htable (accepts_of_key hkey hacc)
    omega

theorem execute_of_onward {g : RouteMod} (hg : g ∈ flows) (h : (Pipeline.onward g).isSome) :
    execute pkt g.actions = [] := by
  obtain ⟨t, ht⟩ := Option.isSome_iff_exists.mp h
  rw [hc.quiet g hg t (goto_of_onward ht)]
  rfl

end CarriesLabels

/-! ## The network -/

/-- The network with these flows on its switches. `os` orders the tables that dp0 reads. -/
def Topology.fabric (T : Topology) (st : FpState) (os : Node → Order) (flows : Nat → List RouteMod) :
    Fabric Node Packet where
  sends
    | .dp0 => (T.net st os).Sends .dp0
    | .switch d => fun pkt out => reading.Handles (flows d) pkt 0 out
  cable := T.Cable
  enter := Packet.enter

section Ways

variable {T : FastPathTopology} {pl : Plan} (h : Allocated T.toWiring pl) (os : Node → Order)
  {kinds : Nat → TranslatorKind} {flows : Nat → List RouteMod}
  (hflows : ∀ d k, pl.up d = some k → CarriesLabels T.toTopology pl (kinds d) d (k.portAt d) (flows d))

include h in
theorem fast_agree {d : Nat} {k : Link} (hu : pl.up d = some k) {pkt pkt' : Packet} {q : Nat}
    (hop : (T.net (T.state pl) os).Hop (.switch d) pkt q pkt') {f : RouteMod}
    (hf : FastRule T.toTopology pl d (k.portAt d) f) (hacc : f.accepts pkt) :
    execute pkt f.actions = [(q, pkt')] := by
  obtain ⟨rms, hrms, hin, hout⟩ := configureDatapath_up h (os (.switch d)) hu
  have hrules : ∀ r, r ∈ (T.net (T.state pl) os).rules (.switch d) ↔ ∃ g ∈ rms, g.mod = .add ∧
    g.rule = r := by
    intro r
    simp only [Topology.net, Translator.installed, hrms, List.mem_map, List.mem_filter,
      decide_eq_true_eq, and_assoc]
  refine hop.2 f.rule ⟨(hrules _).mpr ⟨f, hin f hf, hf.facts.1, rfl⟩, hacc, ?_⟩
  rintro s hs -
  obtain ⟨g, hg, -, rfl⟩ := (hrules s).mp hs
  change g.level ≤ f.level
  rw [hf.facts.2]
  rcases hout g hg with hlow | hfast
  · omega
  · exact hfast.facts.2.le

include h in
theorem carryRules_fast {d u : Nat} {r : Row RFISLConfEntry} {p : Row RFConfigEntry} {l : Nat}
    (hr : pl.par (.isl r) = some (d : Int)) (hb : Beneath T.toWiring pl.par pl.up (.isl r) p)
    (hl : pl.lab p = some l) :
    FastRule T.toTopology pl d u ((T.translator d).carryRule ((Link.isl r).portAt d) u l) ∧
      FastRule T.toTopology pl d u ((T.translator d).carryRule u ((Link.isl r).portAt d) l) := by
  obtain ⟨hhas, hatt, hmaster⟩ := below_facts h hr hb
  have hcarried : (l, p.val.vmPort) ∈ pl.carried (.isl r) :=
    (h.complete _ (by rw [hr]; rfl) hhas l _).mpr ⟨p, hb, hl, rfl⟩
  exact ⟨Or.inr ⟨_, hhas, hatt, hmaster, _, hcarried, mem_fpislRules.mpr (Or.inl rfl)⟩,
    Or.inr ⟨_, hhas, hatt, hmaster, _, hcarried, mem_fpislRules.mpr (Or.inr rfl)⟩⟩

include h hflows

theorem fabric_hop {d : Nat} {k : Link} (hu : pl.up d = some k) {pkt pkt' : Packet} {q : Nat}
    (hop : (T.net (T.state pl) os).Hop (.switch d) pkt q pkt')
    (hsome : ∃ f, FastRule T.toTopology pl d (k.portAt d) f ∧ f.accepts pkt) :
    (T.fabric (T.state pl) os flows).Hop (.switch d) pkt q pkt' :=
  (hflows d k hu).sends_label hsome fun _ hf hacc => fast_agree h os hu hop hf hacc

variable {k c : Link} {m : Int} {p : Row RFConfigEntry} {l : Nat} {pkt : Packet}

theorem fabric_way_up (hb : Beneath T.toWiring pl.par pl.up k p) (hm : pl.par k = some m)
    (hc : pl.up p.val.dpId = some c) {n : Int} (hn : pl.par c = some n) (hl : pl.lab p = some l)
    (htag : pkt.vlans.head? = some l) : (T.fabric (T.state pl) os flows).Travels
      ((c.top n).1, pkt.enter (c.top n).2) ((k.top m).1, pkt.enter (k.top m).2) := by
  induction hb generalizing m with
  | own hm' hu _ hd =>
    obtain rfl := Option.some.inj (hm.symm.trans hm')
    rw [← hd, hc, Option.some.injEq] at hu
    subst hu
    obtain rfl := Option.some.inj (hm.symm.trans hn)
    exact .refl
  | @via k m' r p hm' hu hr hrd hb ih =>
    obtain rfl := Option.some.inj (hm.symm.trans hm')
    have hhop : (T.fabric (T.state pl) os flows).Hop (.switch (k.far m))
        (pkt.enter ((Link.isl r).portAt (k.far m))) (k.portAt (k.far m))
        (pkt.enter ((Link.isl r).portAt (k.far m))) :=
      fabric_hop h os hflows hu (hop_up h os hu hrd hb hl rfl htag)
        ⟨_, (carryRules_fast h hrd hb hl).1, carryRule_accepts.mpr ⟨rfl, htag⟩⟩
    refine (ih hrd hc hl).tail ⟨_, _, hhop, (k.top m).2, ?_, rfl⟩
    exact cable_up (h.growing.up_link _ _ hu).1 (h.growing.above _ _ hm)

theorem fabric_way_down (hb : Beneath T.toWiring pl.par pl.up k p) (hm : pl.par k = some m)
    (hc : pl.up p.val.dpId = some c) (hl : pl.lab p = some l) (htag : pkt.vlans.head? = some l) :
    (T.fabric (T.state pl) os flows).Travels (.switch (k.far m), pkt.enter (k.portAt (k.far m)))
      (.switch p.val.dpId, pkt.enter (c.portAt p.val.dpId)) := by
  induction hb generalizing m with
  | own hm' hu _ hd =>
    obtain rfl := Option.some.inj (hm.symm.trans hm')
    rw [← hd, hc, Option.some.injEq] at hu
    subst hu
    rw [hd]
    exact .refl
  | @via k m' r p hm' hu hr hrd hb ih =>
    obtain rfl := Option.some.inj (hm.symm.trans hm')
    have hhop : (T.fabric (T.state pl) os flows).Hop (.switch (k.far m)) (pkt.enter (k.portAt (k.far m)))
        ((Link.isl r).portAt (k.far m)) (pkt.enter (k.portAt (k.far m))) :=
      fabric_hop h os hflows hu (hop_down h os hu hrd hb hl rfl htag)
        ⟨_, (carryRules_fast h hrd hb hl).2, carryRule_accepts.mpr ⟨rfl, htag⟩⟩
    refine .head ⟨_, _, hhop, (Link.isl r).portAt ((Link.isl r).far (k.far m)), ?_, rfl⟩ (ih hrd hc hl)
    exact (cable_up (T := T) (k := .isl r) hr (h.growing.above _ _ hrd)).symm

/-! ## From end to end -/

variable (hp : p ∈ T.conf.rows) (hc : pl.up p.val.dpId = some c) (hl : pl.lab p = some l)
  (hdst : pkt.dlDst ≠ 0)

include hp hc hl hdst

theorem fabric_down (hin : pkt.inPort = p.val.vmPort) (out : Node × Packet) :
    (T.fabric (T.state pl) os flows).Emerges (.dp0, pkt) out ↔
      out = (.switch p.val.dpId, pkt.enter p.val.dpPort) := by
  obtain ⟨m, hm, hfar, hb⟩ := beneath_up h hp hc
  obtain ⟨s, hs, hroot⟩ := hb.root h.growing
  have hhop : (T.fabric (T.state pl) os flows).Hop .dp0 pkt s.val.dp0Port (pkt.push l) :=
    Fabric.hop_of_net rfl (dp0_hop_down h os hs hroot hl hdst hin)
  have hstep : (T.fabric (T.state pl) os flows).Step (.dp0, pkt)
      (.switch s.val.dpId, (pkt.push l).enter s.val.dpPort) :=
    ⟨_, _, hhop, s.val.dpPort, ⟨.fp s, hs, Or.inr rfl⟩, rfl⟩
  have hway : (T.fabric (T.state pl) os flows).Travels (.switch s.val.dpId, (pkt.push l).enter s.val.dpPort)
      (.switch p.val.dpId, (pkt.push l).enter (c.portAt p.val.dpId)) :=
    fabric_way_down h os hflows hroot (h.growing.par_fp s) hc hl rfl
  have hlast : (T.fabric (T.state pl) os flows).Hop (.switch p.val.dpId)
      ((pkt.push l).enter (c.portAt p.val.dpId)) p.val.dpPort (pkt.enter (c.portAt p.val.dpId)) :=
    fabric_hop h os hflows hc (hop_port h os hc hp rfl hl rfl rfl)
      ⟨_, Or.inl ⟨p, hp, rfl, l, hl, rfl⟩, fpportRule_accepts.mpr ⟨rfl, rfl⟩⟩
  refine (hstep.emerges cable_unique out).trans ((hway.emerges cable_unique out).trans (hlast.emerges ?_ out))
  rintro b ⟨q', hq', -⟩
  exact no_cable_port hp _ _ hq'

theorem fabric_up (hsends : reading.Sends (flows p.val.dpId) pkt 0 [(c.portAt p.val.dpId, pkt.push l)])
    (out : Node × Packet) : (T.fabric (T.state pl) os flows).Emerges (.switch p.val.dpId, pkt) out ↔
      out = (.dp0, pkt.enter p.val.vmPort) := by
  obtain ⟨m, hm, hfar, hb⟩ := beneath_up h hp hc
  have hhas := (h.growing.up_link _ _ hc).1
  obtain ⟨s, hs, hroot⟩ := hb.root h.growing
  have hstep : (T.fabric (T.state pl) os flows).Step (.switch p.val.dpId, pkt)
      ((c.top m).1, (pkt.push l).enter (c.top m).2) := by
    refine ⟨_, _, hsends, (c.top m).2, ?_, rfl⟩
    have := cable_up hhas (h.growing.above _ _ hm)
    rwa [hfar] at this
  have hway : (T.fabric (T.state pl) os flows).Travels ((c.top m).1, (pkt.push l).enter (c.top m).2)
      (.dp0, (pkt.push l).enter s.val.dp0Port) :=
    fabric_way_up h os hflows hroot (h.growing.par_fp s) hc hm hl rfl
  have hlast : (T.fabric (T.state pl) os flows).Hop .dp0 ((pkt.push l).enter s.val.dp0Port) p.val.vmPort
      (pkt.enter s.val.dp0Port) := Fabric.hop_of_net rfl (dp0_hop_up h os hs hroot hl hdst rfl rfl)
  refine (hstep.emerges cable_unique out).trans ((hway.emerges cable_unique out).trans (hlast.emerges ?_ out))
  rintro b ⟨q', hq', -⟩
  exact no_cable_vmPort hp _ _ hq'

end Ways

/-! ## Packets for the client -/

/-- A flow for the client: on a NoviFlow switch one that sends packets to the table of labels, elsewhere
one of `handle_controller_route_mod`. -/
def Translator.ForClient (cfg : Config) (tr : Translator) (f : RouteMod) : Prop :=
  match tr.kind with
  | .noviFlow => Pipeline.onward f = some NOVIFLOW_FP_TABLE
  | _ => ∃ o rm rms g ct, rm.actions = [] ∧ tr.handleControllerRouteMod cfg o rm = .ok rms ∧ g ∈ rms ∧
      f = g.addOption (.ctId ct)

/-- Whichever of the best flows are taken, they bring the packet to one for the client. -/
def ToClient (cfg : Config) (ct d : Nat) (flows : List RouteMod) (pkt : Packet) : Prop :=
  Leads (reading.applies pkt) reading.prio reading.table reading.onward flows
    ((Server.newTranslator cfg ct d).ForClient cfg) 0

theorem accepts_inPort {f : RouteMod} {pkt : Packet} {q : Nat} (hf : f.accepts pkt)
    (hm : .inPort q ∈ f.matchList) :
    pkt.inPort = q := by
  have := List.all_eq_true.mp hf _ hm
  simpa [Match.accepts] using this

section Client

variable {T : FastPathTopology} {pl : Plan} (h : Allocated T.toWiring pl) {m s : List Nat}
  {d : Nat} {c : Link}
  {p : Row RFConfigEntry} {l : Nat} {pkt : Packet} (hp : p ∈ T.conf.rows) (hl : pl.lab p = some l)
  (hin : pkt.inPort = p.val.dpPort)

include hp hl hin

theorem pushes_label {u : Nat} {flows : List RouteMod}
    (hc : CarriesLabels T.toTopology pl .noviFlow p.val.dpId u flows) :
    reading.Sends flows pkt Translator.NOVIFLOW_FP_TABLE [(u, pkt.push l)] := by
  obtain ⟨g, hg, hkey⟩ := hc.pushes rfl p hp rfl l hl
  have hacc : g.accepts pkt := by
    refine accepts_of_key hkey ?_
    simp [RouteMod.accepts, Translator.pushRule, rfactionPushMeta, RouteMod.setTable, RouteMod.addOption,
      RouteMod.addAction, RouteMod.addMatch, Match.accepts, hin]
  have htable : g.table = Translator.NOVIFLOW_FP_TABLE := congrArg Prod.fst hkey
  refine Reading.sends_of_best (exists_bestIn hg htable hacc) fun r hr => ?_
  obtain ⟨q, hq, hqd, n, ct, hn, rfl⟩ := hc.table rfl r hr.1 hr.2.1.1
  have hport : pkt.inPort = q.val.dpPort := by
    refine accepts_inPort hr.2.1.2 ?_
    simp [Translator.pushRule, rfactionPushMeta, RouteMod.setTable, RouteMod.addOption, RouteMod.addAction,
      RouteMod.addMatch]
  obtain rfl := port_unique hq hp hqd (hport.symm.trans hin)
  obtain rfl := Option.some.inj (hn.symm.trans hl)
  exact ⟨rfl, rfl⟩

include h

theorem tagRule_sends (hc : pl.up p.val.dpId = some c) {o : Order} {rm g : RouteMod} {rms : List RouteMod}
    (hact : rm.actions = [])
    (hok : (T.translator p.val.dpId).defaultHandleControllerRouteMod (T.state pl).config o rm = .ok rms)
    (hg : g ∈ rms) (hacc : g.accepts pkt) :
    Pipeline.onward g = none ∧ execute pkt g.actions = [(c.portAt p.val.dpId, pkt.push l)] := by
  have hnoport : rm.matchList.any Match.isInPort = false := by
    by_contra hyes
    rw [Bool.not_eq_false] at hyes
    rw [Translator.defaultHandleControllerRouteMod, if_pos (fpEnabled_state T pl),
      getFastpathPort_up h _ hc] at hok
    simp [bind, Except.bind, hyes] at hok
  obtain ⟨rms', hrms', hmem⟩ := handleControllerRouteMod_up h o hc rm hnoport
  obtain rfl := Except.ok.inj (hok.symm.trans hrms')
  obtain ⟨q, hq, hqd, n, hn, rfl⟩ := (hmem g).mp hg
  have hport : pkt.inPort = q.val.dpPort := by
    refine accepts_inPort hacc ?_
    simp [Translator.tagRule, rfactionPushMeta, RouteMod.addMatch, RouteMod.addAction]
  obtain rfl := port_unique hq hp hqd (hport.symm.trans hin)
  obtain rfl := Option.some.inj (hn.symm.trans hl)
  refine ⟨onward_eq_none (tagRule_plain hact), ?_⟩
  change execute pkt (rm.actions ++ [.setVlanId n] ++ [.output (c.portAt q.val.dpId)]) = _
  rw [hact]
  rfl

theorem sends_up (hc : pl.up p.val.dpId = some c) {flows : List RouteMod}
    (hcarries : CarriesLabels T.toTopology pl (Server.newTranslator ((T.state pl).configWith m s)
      T.ct p.val.dpId).kind
      p.val.dpId (c.portAt p.val.dpId) flows)
    (hto : ToClient ((T.state pl).configWith m s) T.ct p.val.dpId flows pkt) :
    reading.Sends flows pkt 0 [(c.portAt p.val.dpId, pkt.push l)] := by
  refine Reading.sends_of_leads hto (fun g hg hon => hcarries.execute_of_onward hg hon) fun t r hr hP => ?_
  have hdefault : (∃ o rm rms g ct, rm.actions = [] ∧
    (T.translator p.val.dpId).defaultHandleControllerRouteMod
      (T.state pl).config o rm = .ok rms ∧ g ∈ rms ∧ r = g.addOption (.ctId ct)) →
      reading.Ends flows pkt [(c.portAt p.val.dpId, pkt.push l)] r := by
    rintro ⟨o, rm, rms, g, ct, hact, hok, hg, rfl⟩
    have hacc : g.accepts pkt := hr.2.1.2
    have hsends := tagRule_sends h hp hl hin hc hact hok hg hacc
    exact Or.inl hsends
  unfold Translator.ForClient Translator.handleControllerRouteMod at hP
  cases hk : (Server.newTranslator ((T.state pl).configWith m s) T.ct p.val.dpId).kind with
  | default =>
    rw [hk] at hP
    exact hdefault hP
  | satellite =>
    rw [hk] at hP
    exact hdefault hP
  | noviFlow =>
    rw [hk] at hP hcarries
    have hon : Pipeline.onward r = some Translator.NOVIFLOW_FP_TABLE := hP
    exact Or.inr ⟨hcarries.execute_of_onward hr.1 (by rw [hon]; rfl), _, hon, pushes_label hp hl hin hcarries⟩

end Client

/-- Whatever the clients send, and whichever kinds of switches there are: once the switches that can be
reached are configured, the fast paths deliver every packet for a client from its port to the client,
and every packet of the client to the port. -/
theorem fastpaths_deliver_always (T : FastPathTopology) (o : Order) (os : Node → Order)
    (multitabledps satellitedps : List Nat) (removes : RouteMod → RouteMod → Bool)
    (hremoves : Deletes removes) (old : Nat → List RouteMod) (h : History) (hh : ∀ e ∈ h, Admissible T.ct e) :
    ∃ st, fpAllocateLabels o T.read = .ok st ∧
      let cfg := st.configWith multitabledps satellitedps
      let s := run (Server.step cfg) Server.init h
      let flows := fun d => flowsAfter removes (old d) (queuedFor d s.dpQ)
      (∀ d, T.Reachable d → (s.owners d).isSome) → ∀ p ∈ T.conf.rows, T.Reachable p.val.dpId →
        (∀ pkt : Packet, pkt.inPort = p.val.dpPort → pkt.dlDst ≠ 0 →
          ToClient cfg T.ct p.val.dpId (flows p.val.dpId) pkt → ∀ out,
          (T.fabric st os flows).Emerges (.switch p.val.dpId, pkt) out ↔
            out = (.dp0, pkt.enter p.val.vmPort)) ∧
        ∀ pkt : Packet, pkt.inPort = p.val.vmPort → pkt.dlDst ≠ 0 → ∀ out,
          (T.fabric st os flows).Emerges (.dp0, pkt) out ↔
            out = (.switch p.val.dpId, pkt.enter p.val.dpPort) := by
  obtain ⟨pl, hrun, hpl⟩ := fpAllocateLabels_allocated (T := T.toTopology) o T.has_link
  refine ⟨T.state pl, hrun, fun hready p hp hreach => ?_⟩
  let cfg := (T.state pl).configWith multitabledps satellitedps
  have henabled : cfg.fpEnabled = true := fpEnabled_state T pl
  have hbegins : Begins cfg T.ct (fun d => (pl.up d).isSome) (run (Server.step cfg) Server.init h) := by
    refine run_begins henabled (fun d hd o => ?_) h hh
    obtain ⟨k, hk⟩ := Option.isSome_iff_exists.mp hd
    obtain ⟨first, rules, hok, -⟩ := configureDatapath_rules hpl o hk multitabledps satellitedps
    exact ⟨_, hok⟩
  have hflows : ∀ d k, pl.up d = some k → CarriesLabels T.toTopology pl _ d (k.portAt d) _ := fun d k hu =>
    begun_carries hpl hremoves hu (old d)
      (hbegins.owned d (hready d (hpl.growing.reachable d (by rw [hu]; rfl))) (by rw [hu]; rfl))
  obtain ⟨c, hc⟩ := Option.isSome_iff_exists.mp (hpl.visited _ hreach)
  obtain ⟨l, hl⟩ := Option.isSome_iff_exists.mp ((hpl.growing.lab_iff p hp).mpr (by rw [hc]; rfl))
  refine ⟨fun pkt hin hdst hto => ?_, fun pkt hin hdst => fabric_down hpl os hflows hp hc hl hdst hin⟩
  exact fabric_up hpl os hflows hp hc hl hdst (sends_up hpl hp hl hin hc (hflows _ _ hc) hto)

/-! ## A NoviFlow switch under a satellite -/

/-- A flow is deleted if it has all matches of the RouteMod. -/
def withMatches (f g : RouteMod) : Bool := f.matchList.all fun m => g.matchList.contains m

theorem withMatches_deletes : Deletes withMatches where
  all f g hf := by simp [withMatches, hf]
  covers f g hall m hm := ⟨m, by simpa [withMatches] using List.all_eq_true.mp hall m hm, rfl⟩

def smallState : FpState :=
  match fpAllocateLabels .insertion smallTree.read with
  | .ok st => st
  | .error _ => smallTree.read

/-- The interface of the client behind port 1 of switch 6. -/
def smallIface : Interface :=
  { port := 2, name := "eth2", addresses := [⟨.ipv4, [10, 0, 1, 2], rfl⟩], hwaddress := 0x22, active := true }

/-- The client sends what is for its address, and a route that it withdraws. -/
def smallRun : History :=
  let route (mod : RouteModType) :=
    FlowTable.sendToHw 2 mod ⟨.ipv4, [10, 0, 1, 0], rfl⟩ (.ofPrefixLen .ipv4 24)
    smallIface 0x33
  let ports : List Msg := [.datapathPortRegister 0 5 1, .datapathPortRegister 0 5 2,
    .datapathPortRegister 0 6 1, .datapathPortRegister 0 6 2, .portRegister 2 2 0x22,
      .datapathPortRegister 0 6 1, .virtualPlaneMap 2 2 9 9]
  let rms := interfaceToControllerRouteMods 2 smallIface ++ [route .add, route .delete]
  (ports ++ rms.map Msg.routeMod).map fun msg => (.insertion, msg)

theorem smallRun_admissible : ∀ e ∈ smallRun, Admissible 0 e := by
  intro e he
  obtain ⟨msg, hmsg, rfl⟩ := List.mem_map.mp he
  rcases List.mem_append.mp hmsg with hmsg | hmsg
  · simp only [List.mem_cons, List.not_mem_nil, or_false] at hmsg
    rcases hmsg with rfl | rfl | rfl | rfl | rfl | rfl | rfl <;>
      refine ⟨fun c d p h => ?_, fun rm h => ?_⟩ <;> cases h <;> rfl
  · obtain ⟨rm, hrm, rfl⟩ := List.mem_map.mp hmsg
    refine ⟨fun c d p h => (by cases h), fun rm' h => ?_⟩
    obtain rfl := Msg.routeMod.inj h
    rcases List.mem_append.mp hrm with hrm | hrm
    · exact interfaceToControllerRouteMods_fromClient 2 smallIface rm hrm
    · simp only [List.mem_cons, List.not_mem_nil, or_false] at hrm
      rcases hrm with rfl | rfl
      · exact sendToHw_fromClient 2 (Or.inl rfl) _ _ _ _
      · exact sendToHw_fromClient 2 (Or.inr rfl) _ _ _ _

theorem reachable_smallTree {d : Nat} (hd : smallTree.Reachable d) : d = 5 ∨ d = 6 := by
  obtain ⟨k, hk, ha⟩ := hd.attached
  cases k with
  | fp r =>
    obtain rfl := List.mem_singleton.mp hk
    rcases ha with rfl | ha
    · exact Or.inl rfl
    · cases ha
  | isl r =>
    obtain rfl := List.mem_singleton.mp hk
    rcases ha with rfl | ha
    · exact Or.inl rfl
    · exact Or.inr (Option.some.inj ha).symm

/-- The flows that both switches had before are gone. -/
def smallFlows (d : Nat) : List RouteMod :=
  flowsAfter withMatches [{ mod := .add, id := d, actions := [.drop], options := [FASTPATH_PRIORITY] }]
    (queuedFor d (run (Server.step (smallState.configWith [6] [5])) Server.init smallRun).dpQ)

def arpRequest : Packet := { inPort := 1, dlSrc := 7, dlDst := BitVec.allOnes 48, dlType := ETHERTYPE_ARP }

theorem arpRequest_toClient : ToClient (smallState.configWith [6] [5]) 0 6 (smallFlows 6) arpRequest := by
  have hbest : ∀ t next, (∃ r ∈ smallFlows 6, r.table = t ∧ r.accepts arpRequest) →
      (∀ r ∈ smallFlows 6, r.table = t ∧ r.accepts arpRequest →
        (∀ q ∈ smallFlows 6, q.table = t ∧ q.accepts arpRequest → q.level ≤ r.level) →
        Pipeline.onward r = some next) →
      (∃ r, BestIn (reading.applies arpRequest) reading.prio reading.table (smallFlows 6) t r) ∧
      ∀ r, BestIn (reading.applies arpRequest) reading.prio reading.table (smallFlows 6) t r →
        reading.onward r = some next := by
    rintro t next ⟨r, hr, ht, hacc⟩ hall
    exact ⟨exists_bestIn hr ht hacc, fun r hr => hall r hr.1 hr.2.1 hr.2.2⟩
  have hfirst := hbest 0 Translator.NOVIFLOW_ETHER_TABLE (by decide +kernel) (by decide +kernel)
  have hether := hbest Translator.NOVIFLOW_ETHER_TABLE Translator.NOVIFLOW_FP_TABLE (by decide +kernel)
    (by decide +kernel)
  exact Leads.goto hfirst.1 hfirst.2 (Leads.here hether.1 hether.2)

theorem fastpaths_deliver_always_smallTree :
    fpAllocateLabels .insertion smallTree.read = .ok smallState ∧
      (smallTree.fabric smallState (fun _ => .insertion) smallFlows).Emerges (.switch 6, arpRequest)
        (.dp0, arpRequest.enter 2) ∧
      (smallTree.fabric smallState (fun _ => .insertion) smallFlows).Emerges (.dp0, arpRequest.enter 2)
        (.switch 6, arpRequest) := by
  obtain ⟨st, hst, hall⟩ := fastpaths_deliver_always smallTree .insertion (fun _ => .insertion) [6] [5]
    withMatches withMatches_deletes
    (fun d => [{ mod := .add, id := d, actions := [.drop], options := [FASTPATH_PRIORITY] }])
    smallRun smallRun_admissible
  have hstate : smallState = st := by rw [smallState, hst]
  subst hstate
  obtain ⟨hup, hdown⟩ := hall (fun d hd => by
    rcases reachable_smallTree hd with rfl | rfl <;> decide +kernel) smallPort (by decide) smallPort_reachable
  exact ⟨hst, (hup arpRequest rfl (by decide) arpRequest_toClient _).mpr rfl,
    (hdown (arpRequest.enter 2) rfl (by decide) _).mpr rfl⟩

end RouteFlow
