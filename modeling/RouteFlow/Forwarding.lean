import RouteFlow.FastPathRules
import RouteFlow.Lib.Network

/-!
# Forwarding over the fast paths

The switches with the rules of `configure_datapath`, dp0 with the rules of `rffastpath.py`, and the cables
of the topology. A packet goes up to dp0 with the label of its port, and down to the port of its label.
-/

namespace RouteFlow

open Store Wires

/-! ## dp0 as a switch -/

def OvsFlow.accepts (pkt : Packet) (f : OvsFlow) : Bool :=
  f.inPort.all (pkt.inPort == ·) && f.dlVlan.all (pkt.vlans.head? == some ·) && f.dlDst.all (pkt.dlDst == ·)

/-- `push_vlan` puts an empty tag on, and `mod_vlan_vid` fills the outermost one. -/
def executeOvs (pkt : Packet) : List OvsAction → List (Nat × Packet)
  | [] => []
  | .pushVlan :: rest => executeOvs { pkt with vlans := 0 :: pkt.vlans } rest
  | .modVlanVid tag :: rest => executeOvs { pkt with vlans := tag :: pkt.vlans.tail } rest
  | .stripVlan :: rest => executeOvs { pkt with vlans := pkt.vlans.tail } rest
  | .output port :: rest => (port, pkt) :: executeOvs pkt rest
  | .controller :: rest => (OFPP_CONTROLLER, pkt) :: executeOvs pkt rest

/-! ## The network -/

inductive Node where
  | dp0
  | switch (dpId : Nat)
deriving DecidableEq

/-- The two ends of a link. Those of a fast path link are at its switch and at dp0. -/
def Link.ends : Link → (Node × Nat) × (Node × Nat)
  | fp r => ((.switch r.val.dpId, r.val.dpPort), (.dp0, r.val.dp0Port))
  | isl r => ((.switch r.val.dpId, r.val.dpPort), (.switch r.val.remId, r.val.remPort))

/-- A link connects these two ports. -/
def Topology.Cable (T : Topology) (a : Node) (q : Nat) (b : Node) (q' : Nat) : Prop :=
  ∃ k, T.Has k ∧ (k.ends = ((a, q), (b, q')) ∨ k.ends = ((b, q'), (a, q)))

/-- The flows that a switch has after `configure_datapath`. -/
def Translator.installed (tr : Translator) (cfg : Config) (o : Order) : List RouteMod :=
  match tr.configureDatapath cfg o with
  | .ok rms => rms.filter fun rm => rm.mod = .add
  | .error _ => []

def RouteMod.rule (rm : RouteMod) : Rule Packet :=
  ⟨fun pkt => rm.accepts pkt, rm.level, fun pkt => execute pkt rm.actions⟩

def OvsFlow.rule (f : OvsFlow) : Rule Packet :=
  ⟨fun pkt => f.accepts pkt = true, f.priority, fun pkt => executeOvs pkt f.actions⟩

/-- The packet comes in by this port. -/
def Packet.enter (q : Nat) (pkt : Packet) : Packet := { pkt with inPort := q }

def Packet.push (label : Nat) (pkt : Packet) : Packet := { pkt with vlans := label :: pkt.vlans }

/-- The network on the tables of the allocation. Each node reads them in an order of its own. -/
def Topology.net (T : Topology) (st : FpState) (os : Node → Order) : Net Node Packet where
  rules
    | .dp0 => (dp0Flows (os .dp0) st.fpconf).map OvsFlow.rule
    | .switch d => ((T.translator d).installed st.config (os (.switch d))).map RouteMod.rule
  cable := T.Cable
  enter := Packet.enter

/-! ## Ports and cables -/

section Uses

/-- The ends of the links at switches. The flag tells the two ends of an ISL apart. -/
def Topology.linkEnds (T : Topology) : List ((Link × Bool) × (Nat × Nat)) :=
  T.islconf.rows.map (fun r => ((.isl r, false), (r.val.dpId, r.val.dpPort))) ++
    (T.islconf.rows.map (fun r => ((.isl r, true), (r.val.remId, r.val.remPort))) ++
    T.fpconf.rows.map fun r => ((.fp r, false), (r.val.dpId, r.val.dpPort)))

/-- The end of the link on the other side. -/
def Link.opposite : Link → Bool → Node × Nat
  | fp r, _ => (.dp0, r.val.dp0Port)
  | isl r, false => (.switch r.val.remId, r.val.remPort)
  | isl r, true => (.switch r.val.dpId, r.val.dpPort)

variable {T : FastPathTopology}

theorem mem_linkEnds {k : Link} {d : Nat} (hk : T.Has k) (ha : k.Attached d) :
    ∃ side, ((k, side), (d, k.portAt d)) ∈ T.linkEnds := by
  simp only [Topology.linkEnds, List.mem_append, List.mem_map]
  cases k with
  | fp r =>
    have hr : r.val.dpId = d := ha.resolve_right (by simp [Link.remId])
    exact ⟨false, Or.inr (Or.inr ⟨r, hk, by rw [hr]; rfl⟩)⟩
  | isl r =>
    dsimp only [Link.portAt]
    split
    · rename_i hr
      exact ⟨false, Or.inl ⟨r, hk, by rw [hr]⟩⟩
    · rename_i hr
      have hr' : r.val.remId = d := Option.some.inj (ha.resolve_left hr)
      exact ⟨true, Or.inr (Or.inl ⟨r, hk, by rw [hr']⟩)⟩

theorem one_use_links : (T.conf.rows.map (fun r => (r.val.dpId, r.val.dpPort)) ++
    T.linkEnds.map Prod.snd).Nodup := by
  have := T.one_use
  simpa only [Topology.linkEnds, List.map_append, List.map_map, Function.comp_def] using this

theorem port_unique {p q : Row RFConfigEntry} (hp : p ∈ T.conf.rows) (hq : q ∈ T.conf.rows)
    (hd : p.val.dpId = q.val.dpId) (h : p.val.dpPort = q.val.dpPort) : p = q :=
  List.inj_on_of_nodup_map (List.nodup_append.mp T.one_use).1 hp hq (Prod.ext hd h)

theorem linkEnds_unique {x y : (Link × Bool) × (Nat × Nat)} (hx : x ∈ T.linkEnds) (hy : y ∈ T.linkEnds)
    (h : x.2 = y.2) : x = y :=
  List.inj_on_of_nodup_map (List.nodup_append.mp one_use_links).2.1 hx hy h

theorem portAt_unique {k c : Link} {d : Nat} (hk : T.Has k) (hc : T.Has c) (hka : k.Attached d)
    (hca : c.Attached d) (h : k.portAt d = c.portAt d) : k = c := by
  obtain ⟨s, hs⟩ := mem_linkEnds hk hka
  obtain ⟨t, ht⟩ := mem_linkEnds hc hca
  exact congrArg (fun x => x.1.1) (linkEnds_unique hs ht (by simp [h]))

theorem vmPort_unique {p q : Row RFConfigEntry} (hp : p ∈ T.conf.rows) (hq : q ∈ T.conf.rows)
    (h : p.val.vmPort = q.val.vmPort) : p = q :=
  List.inj_on_of_nodup_map (List.nodup_append.mp T.one_use_dp0).1 hp hq h

theorem dp0Port_unique {r s : Row RFFPConfEntry} (hr : r ∈ T.fpconf.rows) (hs : s ∈ T.fpconf.rows)
    (h : r.val.dp0Port = s.val.dp0Port) : r = s :=
  List.inj_on_of_nodup_map (List.nodup_append.mp T.one_use_dp0).2.1 hr hs h

theorem vmPort_ne {p : Row RFConfigEntry} (hp : p ∈ T.conf.rows) {r : Row RFFPConfEntry}
    (hr : r ∈ T.fpconf.rows) :
    p.val.vmPort ≠ r.val.dp0Port :=
  (List.nodup_append.mp T.one_use_dp0).2.2 _ (List.mem_map_of_mem hp) _ (List.mem_map_of_mem hr)

theorem cable_switch {d q : Nat} {b : Node} {q' : Nat} (h : T.Cable (.switch d) q b q') :
    ∃ k side, ((k, side), (d, q)) ∈ T.linkEnds ∧ (b, q') = k.opposite side := by
  obtain ⟨k, hk, he⟩ := h
  simp only [Topology.linkEnds, List.mem_append, List.mem_map]
  cases k with
  | fp r =>
    rcases he with he | he
    · simp only [Link.ends, Prod.mk.injEq, Node.switch.injEq] at he
      obtain ⟨⟨rfl, rfl⟩, rfl, rfl⟩ := he
      exact ⟨_, _, Or.inr (Or.inr ⟨r, hk, rfl⟩), rfl⟩
    · simp [Link.ends] at he
  | isl r =>
    rcases he with he | he
    · simp only [Link.ends, Prod.mk.injEq, Node.switch.injEq] at he
      obtain ⟨⟨rfl, rfl⟩, rfl, rfl⟩ := he
      exact ⟨_, _, Or.inl ⟨r, hk, rfl⟩, rfl⟩
    · simp only [Link.ends, Prod.mk.injEq, Node.switch.injEq] at he
      obtain ⟨⟨rfl, rfl⟩, rfl, rfl⟩ := he
      exact ⟨_, _, Or.inr (Or.inl ⟨r, hk, rfl⟩), rfl⟩

theorem cable_dp0 {q : Nat} {b : Node} {q' : Nat} (h : T.Cable .dp0 q b q') :
    ∃ r ∈ T.fpconf.rows, q = r.val.dp0Port ∧ b = .switch r.val.dpId ∧ q' = r.val.dpPort := by
  obtain ⟨k, hk, he⟩ := h
  cases k with
  | fp r =>
    simp only [Link.ends, Prod.mk.injEq, reduceCtorEq, false_and, false_or] at he
    obtain ⟨⟨rfl, rfl⟩, -, rfl⟩ := he
    exact ⟨r, hk, rfl, rfl, rfl⟩
  | isl r => simp [Link.ends] at he

theorem cable_unique (n : Node) (q : Nat) (b : Node) (q' : Nat) (c : Node) (q'' : Nat) (h : T.Cable n q b q')
    (h' : T.Cable n q c q'') : b = c ∧ q' = q'' := by
  cases n with
  | dp0 =>
    obtain ⟨r, hr, rfl, rfl, rfl⟩ := cable_dp0 h
    obtain ⟨s, hs, he, rfl, rfl⟩ := cable_dp0 h'
    rw [dp0Port_unique hr hs he]
    exact ⟨rfl, rfl⟩
  | switch d =>
    obtain ⟨k, side, hk, hb⟩ := cable_switch h
    obtain ⟨k', side', hk', hc⟩ := cable_switch h'
    have he := linkEnds_unique hk hk' rfl
    rw [Prod.mk.injEq, Prod.mk.injEq] at he
    rw [he.1.1, he.1.2, ← hc, Prod.mk.injEq] at hb
    exact hb

/-- The end of the link that is nearer to dp0. -/
def Link.top (k : Link) (m : Int) : Node × Nat :=
  match k with
  | fp r => (.dp0, r.val.dp0Port)
  | isl _ => (.switch m.toNat, k.portAt m.toNat)

theorem cable_up {k : Link} {m : Int} (hk : T.Has k) (ha : k.Above m) :
    T.Cable (.switch (k.far m)) (k.portAt (k.far m)) (k.top m).1 (k.top m).2 := by
  refine ⟨k, hk, ?_⟩
  cases k with
  | fp r => exact Or.inl rfl
  | isl r =>
    have hloop := T.no_loop r hk
    rcases ha with rfl | rfl
    · right
      simp [Link.ends, Link.far, Link.top, Link.portAt, hloop]
    · left
      have hne : (r.val.remId : Int) ≠ (r.val.dpId : Int) := fun e => hloop (Nat.cast_inj.mp e).symm
      simp [Link.ends, Link.far, Link.top, Link.portAt, hloop, hne]

theorem Topology.Cable.symm {n b : Node} {q q' : Nat} (h : T.Cable n q b q') : T.Cable b q' n q := by
  obtain ⟨k, hk, he⟩ := h
  exact ⟨k, hk, he.symm⟩

end Uses

/-! ## The rules at work -/

/-- One of the two rules of `_register_fpisl` for a label. -/
def Translator.carryRule (tr : Translator) (inPort outPort label : Nat) : RouteMod :=
  ((rfmatchMeta label (({ mod := .add, id := tr.dpId } : RouteMod).addMatch (.inPort inPort))).addAction
    (.output outPort)).addOption FASTPATH_PRIORITY

theorem mem_fpislRules {tr : Translator} {u q l : Nat} {f : RouteMod} :
    f ∈ tr.fpislRules u q l ↔ f = tr.carryRule q u l ∨ f = tr.carryRule u q l := by
  simp [Translator.fpislRules, Translator.carryRule]

theorem fpportRule_accepts {tr : Translator} {u l q : Nat} {pkt : Packet} :
    (tr.fpportRule u l q).accepts pkt ↔ pkt.inPort = u ∧ pkt.vlans.head? = some l := by
  simp [RouteMod.accepts, Translator.fpportRule, rfactionPopMeta, rfmatchMeta, RouteMod.addMatch,
    RouteMod.addAction, RouteMod.addOption, Match.accepts]

theorem carryRule_accepts {tr : Translator} {i q l : Nat} {pkt : Packet} :
    (tr.carryRule i q l).accepts pkt ↔ pkt.inPort = i ∧ pkt.vlans.head? = some l := by
  simp [RouteMod.accepts, Translator.carryRule, rfmatchMeta, RouteMod.addMatch, RouteMod.addAction,
    RouteMod.addOption, Match.accepts]

theorem execute_fpportRule {tr : Translator} {u l q : Nat} {pkt : Packet} :
    execute pkt (tr.fpportRule u l q).actions = [(q, { pkt with vlans := pkt.vlans.tail })] := rfl

theorem execute_carryRule {tr : Translator} {i q l : Nat} {pkt : Packet} :
    execute pkt (tr.carryRule i q l).actions = [(q, pkt)] := rfl

theorem FastRule.facts {T : Topology} {pl : Plan} {d u : Nat} {f : RouteMod} (hf : FastRule T pl d u f) :
    f.mod = .add ∧ f.level = PRIORITY_HIGH + 1 := by
  rcases hf with ⟨p, -, -, l, -, rfl⟩ | ⟨c, -, -, -, lv, -, hf⟩
  · exact ⟨rfl, RouteMod.level_eq rfl⟩
  · rcases mem_fpislRules.mp hf with rfl | rfl <;> exact ⟨rfl, RouteMod.level_eq rfl⟩

section Hops

variable {T : FastPathTopology} {pl : Plan} (h : Allocated T.toWiring pl) (os : Node → Order)
  {d : Nat} {k : Link}
  (hu : pl.up d = some k)

include h hu

theorem switch_hop {f : RouteMod} (hf : FastRule T.toTopology pl d (k.portAt d) f)
    {pkt pkt' : Packet} {q : Nat} (ha : f.accepts pkt)
    (hall : ∀ g, FastRule T.toTopology pl d (k.portAt d) g → g.accepts pkt →
      execute pkt g.actions = [(q, pkt')]) : (T.net (T.state pl) os).Hop (.switch d) pkt q pkt' := by
  obtain ⟨rms, hrms, hin, hout⟩ := configureDatapath_up h (os (.switch d)) hu
  have hinst : (T.translator d).installed (T.state pl).config (os (.switch d)) =
      rms.filter fun rm => rm.mod = .add := by
    rw [Translator.installed, hrms]
  have hrules : ∀ r, r ∈ (T.net (T.state pl) os).rules (.switch d) ↔
      ∃ g ∈ rms, g.mod = .add ∧ g.rule = r := by
    intro r
    simp only [Topology.net, hinst, List.mem_map, List.mem_filter, decide_eq_true_eq, and_assoc]
  have hlevel := hf.facts
  refine Net.hop_of_top ((hrules _).mpr ⟨f, hin f hf, hlevel.1, rfl⟩) ha ?_ ?_
  · rintro s hs -
    obtain ⟨g, hg, -, rfl⟩ := (hrules s).mp hs
    change g.level ≤ f.level
    rcases hout g hg with hlow | hfast
    · rw [hlevel.2]
      omega
    · rw [hlevel.2, hfast.facts.2]
  · intro s hs happ hge
    obtain ⟨g, hg, -, rfl⟩ := (hrules s).mp hs
    change f.level ≤ g.level at hge
    rcases hout g hg with hlow | hfast
    · rw [hlevel.2] at hge
      omega
    · exact hall g hfast happ

theorem portAt_up_ne {c : Link} (hc : T.Has c) (hca : c.Attached d) (hm : pl.master c = some (d : Int)) :
    c.portAt d ≠ k.portAt d := by
  intro he
  obtain ⟨hhas, hka, m, -, hmk, -, hne, -⟩ := up_facts h hu
  rw [portAt_unique hc hhas hca hka he, hmk, Option.some.injEq] at hm
  exact hne hm

end Hops

section Ways

variable {T : FastPathTopology} {pl : Plan} (h : Allocated T.toWiring pl) (os : Node → Order)
  {d : Nat} {k : Link}
  {r : Row RFISLConfEntry} {p : Row RFConfigEntry} {l : Nat} {pkt : Packet}

include h

theorem carried_below {c : Link} (hc : T.Has c) (hm : pl.master c = some (d : Int)) {lv : Nat × Nat}
    (hl : lv ∈ pl.carried c) : ∃ r p, c = .isl r ∧ pl.par (.isl r) = some (d : Int) ∧
      Beneath T.toWiring pl.par pl.up (.isl r) p ∧ pl.lab p = some lv.1 := by
  obtain ⟨-, hpar, -⟩ := h.growing.master c _ hm
  obtain ⟨p, hb, hlab, -⟩ := (h.complete c (by rw [hpar]; rfl) hc lv.1 lv.2).mp hl
  cases c with
  | fp r =>
    have := Option.some.inj ((h.growing.par_fp r).symm.trans hpar)
    omega
  | isl r => exact ⟨r, p, rfl, hpar, hb, hlab⟩

theorem below_facts (hr : pl.par (.isl r) = some (d : Int))
    (hb : Beneath T.toWiring pl.par pl.up (.isl r) p) :
    T.Has (.isl r) ∧ (Link.isl r).Attached d ∧ pl.master (.isl r) = some (d : Int) := by
  obtain ⟨m, hm, hu⟩ := hb.up
  obtain rfl := Option.some.inj (hr.symm.trans hm)
  obtain ⟨hhas, -, n, hn, hmaster, -⟩ := h.growing.up_link _ _ hu
  refine ⟨hhas, ?_, by rw [hmaster, ← hn, hr]⟩
  rcases h.growing.above _ _ hr with e | e
  · exact Or.inl (Nat.cast_inj.mp e).symm
  · exact Or.inr (congrArg some (Nat.cast_inj.mp e).symm)

theorem hop_up (hu : pl.up d = some k) (hr : pl.par (.isl r) = some (d : Int))
    (hb : Beneath T.toWiring pl.par pl.up (.isl r) p) (hl : pl.lab p = some l)
    (hin : pkt.inPort = (Link.isl r).portAt d) (htag : pkt.vlans.head? = some l) :
    (T.net (T.state pl) os).Hop (.switch d) pkt (k.portAt d) pkt := by
  obtain ⟨hhas, hatt, hm⟩ := below_facts h hr hb
  have hcarried : (l, p.val.vmPort) ∈ pl.carried (.isl r) :=
    (h.complete _ (by rw [hr]; rfl) hhas l _).mpr ⟨p, hb, hl, rfl⟩
  have hne := portAt_up_ne h hu hhas hatt hm
  refine switch_hop h os hu (f := (T.translator d).carryRule ((Link.isl r).portAt d) (k.portAt d) l)
    (Or.inr ⟨_, hhas, hatt, hm, _, hcarried, mem_fpislRules.mpr (Or.inl rfl)⟩)
    (carryRule_accepts.mpr ⟨hin, htag⟩) fun g hg hacc => ?_
  rcases hg with ⟨q, -, -, n, -, rfl⟩ | ⟨c, hc, hca, hcm, lv, -, hg⟩
  · obtain ⟨hi, -⟩ := fpportRule_accepts.mp hacc
    exact absurd (hin.symm.trans hi) hne
  · rcases mem_fpislRules.mp hg with rfl | rfl
    · exact execute_carryRule
    · obtain ⟨hi, -⟩ := carryRule_accepts.mp hacc
      exact absurd (hin.symm.trans hi) hne

theorem hop_down (hu : pl.up d = some k) (hr : pl.par (.isl r) = some (d : Int))
    (hb : Beneath T.toWiring pl.par pl.up (.isl r) p) (hl : pl.lab p = some l)
    (hin : pkt.inPort = k.portAt d) (htag : pkt.vlans.head? = some l) :
    (T.net (T.state pl) os).Hop (.switch d) pkt ((Link.isl r).portAt d) pkt := by
  obtain ⟨hhas, hatt, hm⟩ := below_facts h hr hb
  have hcarried : (l, p.val.vmPort) ∈ pl.carried (.isl r) :=
    (h.complete _ (by rw [hr]; rfl) hhas l _).mpr ⟨p, hb, hl, rfl⟩
  refine switch_hop h os hu (f := (T.translator d).carryRule (k.portAt d) ((Link.isl r).portAt d) l)
    (Or.inr ⟨_, hhas, hatt, hm, _, hcarried, mem_fpislRules.mpr (Or.inr rfl)⟩)
    (carryRule_accepts.mpr ⟨hin, htag⟩) fun g hg hacc => ?_
  rcases hg with ⟨q, -, hqd, n, hn, rfl⟩ | ⟨c, hc, hca, hcm, lv, hlv, hg⟩
  · obtain ⟨-, ht⟩ := fpportRule_accepts.mp hacc
    obtain rfl := Option.some.inj (htag.symm.trans ht)
    rw [h.growing.lab_inj q p l hn hl] at hqd
    exact absurd hqd (hb.not_own h.growing hr)
  · rcases mem_fpislRules.mp hg with rfl | rfl
    · obtain ⟨hi, -⟩ := carryRule_accepts.mp hacc
      exact absurd (hi.symm.trans hin) (portAt_up_ne h hu hc hca hcm)
    · obtain ⟨-, ht⟩ := carryRule_accepts.mp hacc
      obtain ⟨s, q, rfl, hs, hbs, hq⟩ := carried_below h hc hcm hlv
      rw [← Option.some.inj (htag.symm.trans ht)] at hq
      rw [h.growing.lab_inj q p l hq hl] at hbs
      rw [hb.link_unique h.growing hbs hr hs]
      exact execute_carryRule

theorem hop_port (hu : pl.up d = some k) (hp : p ∈ T.conf.rows) (hd : p.val.dpId = d) (hl : pl.lab p = some l)
    (hin : pkt.inPort = k.portAt d) (htag : pkt.vlans.head? = some l) :
    (T.net (T.state pl) os).Hop (.switch d) pkt p.val.dpPort { pkt with vlans := pkt.vlans.tail } := by
  refine switch_hop h os hu (f := (T.translator d).fpportRule (k.portAt d) l p.val.dpPort)
    (Or.inl ⟨p, hp, hd, l, hl, rfl⟩) (fpportRule_accepts.mpr ⟨hin, htag⟩) fun g hg hacc => ?_
  rcases hg with ⟨q, -, -, n, hn, rfl⟩ | ⟨c, hc, hca, hcm, lv, hlv, hg⟩
  · obtain ⟨-, ht⟩ := fpportRule_accepts.mp hacc
    obtain rfl := Option.some.inj (htag.symm.trans ht)
    rw [h.growing.lab_inj q p l hn hl]
    exact execute_fpportRule
  · rcases mem_fpislRules.mp hg with rfl | rfl
    · obtain ⟨hi, -⟩ := carryRule_accepts.mp hacc
      exact absurd (hi.symm.trans hin) (portAt_up_ne h hu hc hca hcm)
    · obtain ⟨-, ht⟩ := carryRule_accepts.mp hacc
      obtain ⟨s, q, rfl, hs, hbs, hq⟩ := carried_below h hc hcm hlv
      rw [← Option.some.inj (htag.symm.trans ht)] at hq
      rw [h.growing.lab_inj q p l hq hl] at hbs
      exact absurd hd (hbs.not_own h.growing hs)

/-! ### dp0 -/

omit h in
theorem mem_dp0Flows (o : Order) {f : OvsFlow} (hf : f ∈ dp0Flows o (T.state pl).fpconf) : f = dp0Mapping ∨
    ∃ r ∈ T.fpconf.rows, ∃ lv ∈ pl.carried (.fp r),
      f = dp0Down r.val.dp0Port lv.1 lv.2 ∨ f = dp0Up r.val.dp0Port lv.1 lv.2 := by
  unfold dp0Flows at hf
  dsimp only at hf
  split at hf
  · cases hf
  rcases List.mem_append.mp hf with hf | hf
  · right
    obtain ⟨q, hq, hf⟩ := List.mem_flatMap.mp hf
    obtain ⟨s, hs, rfl⟩ := (Table.mem_overlay ..).mp ((Table.mem_find ..).mp hq).1
    obtain ⟨lv, hlv, hf⟩ := List.mem_flatMap.mp hf
    simp only [List.mem_cons, List.not_mem_nil, or_false] at hf
    exact ⟨s, hs, lv, hlv, hf⟩
  · exact Or.inl (List.mem_singleton.mp hf)

omit h in
theorem mem_dp0Flows_of (o : Order) {s : Row RFFPConfEntry} (hs : s ∈ T.fpconf.rows) {lv : Nat × Nat}
    (hlv : lv ∈ pl.carried (.fp s)) {f : OvsFlow}
    (hf : f = dp0Down s.val.dp0Port lv.1 lv.2 ∨ f = dp0Up s.val.dp0Port lv.1 lv.2) :
    f ∈ dp0Flows o (T.state pl).fpconf := by
  have hrow : ⟨s.id, pl.fpVal s⟩ ∈ RFFPConf.getEntriesAll o (T.state pl).fpconf :=
    (Table.mem_find ..).mpr ⟨(Table.mem_overlay ..).mpr ⟨s, hs, rfl⟩, rfl⟩
  unfold dp0Flows
  dsimp only
  split
  · rename_i hnil
    have := List.flatMap_eq_nil_iff.mp (List.flatMap_eq_nil_iff.mp hnil _ hrow) lv hlv
    cases this
  · refine List.mem_append_left _ (List.mem_flatMap.mpr ⟨_, hrow, List.mem_flatMap.mpr ⟨lv, hlv, ?_⟩⟩)
    rcases hf with rfl | rfl
    · exact List.mem_cons_self
    · exact List.mem_cons_of_mem _ List.mem_cons_self

omit h in
theorem dp0Down_accepts {a b c : Nat} : (dp0Down a b c).accepts pkt = true ↔ pkt.inPort = c := by
  simp [OvsFlow.accepts, dp0Down]

omit h in
theorem dp0Up_accepts {a b c : Nat} :
    (dp0Up a b c).accepts pkt = true ↔ pkt.inPort = a ∧ pkt.vlans.head? = some b := by
  simp [OvsFlow.accepts, dp0Up]

omit h in
theorem dp0Mapping_accepts : dp0Mapping.accepts pkt = true ↔ pkt.dlDst = 0 := by
  simp [OvsFlow.accepts, dp0Mapping]

omit h in
theorem dp0_hop (hdst : pkt.dlDst ≠ 0) {f : OvsFlow} (hf : f ∈ dp0Flows (os .dp0) (T.state pl).fpconf)
    (ha : f.accepts pkt = true) {q : Nat} {pkt' : Packet}
    (hall : ∀ g ∈ dp0Flows (os .dp0) (T.state pl).fpconf, g.accepts pkt = true →
      executeOvs pkt g.actions = [(q, pkt')]) : (T.net (T.state pl) os).Hop .dp0 pkt q pkt' := by
  have hprio : ∀ g ∈ dp0Flows (os .dp0) (T.state pl).fpconf, g.accepts pkt = true → g.priority = 32800 := by
    intro g hg hacc
    rcases mem_dp0Flows _ hg with rfl | ⟨r, -, lv, -, rfl | rfl⟩
    · exact absurd (dp0Mapping_accepts.mp hacc) hdst
    · rfl
    · rfl
  refine Net.hop_of_top (List.mem_map_of_mem hf) ha ?_ ?_
  · intro s hs happ
    obtain ⟨g, hg, rfl⟩ := List.mem_map.mp hs
    change g.priority ≤ f.priority
    rw [hprio g hg happ, hprio f hf ha]
  · intro s hs happ _
    obtain ⟨g, hg, rfl⟩ := List.mem_map.mp hs
    exact hall g hg happ

variable {s : Row RFFPConfEntry} (hs : s ∈ T.fpconf.rows) (hb : Beneath T.toWiring pl.par pl.up (.fp s) p)
  (hl : pl.lab p = some l) (hdst : pkt.dlDst ≠ 0)

include hs hb hl hdst

theorem dp0_hop_up (hin : pkt.inPort = s.val.dp0Port) (htag : pkt.vlans.head? = some l) :
    (T.net (T.state pl) os).Hop .dp0 pkt p.val.vmPort { pkt with vlans := pkt.vlans.tail } := by
  have hcomplete : ∀ s, s ∈ T.fpconf.rows → Complete T.toWiring pl (.fp s) := fun s hs =>
    h.complete (.fp s) (by rw [h.growing.par_fp]; rfl) hs
  have hmem : (l, p.val.vmPort) ∈ pl.carried (.fp s) := (hcomplete s hs l _).mpr ⟨p, hb, hl, rfl⟩
  refine dp0_hop os hdst (mem_dp0Flows_of _ hs hmem (Or.inr rfl)) (dp0Up_accepts.mpr ⟨hin, htag⟩)
    fun g hg hacc => ?_
  rcases mem_dp0Flows _ hg with rfl | ⟨t, ht, lv, hlv, rfl | rfl⟩
  · exact absurd (dp0Mapping_accepts.mp hacc) hdst
  · obtain ⟨q, hq, -, hvm⟩ := (hcomplete t ht lv.1 lv.2).mp hlv
    have := dp0Down_accepts.mp hacc
    rw [← hvm, hin] at this
    exact absurd this.symm (vmPort_ne hq.mem hs)
  · obtain ⟨q, -, hlab, hvm⟩ := (hcomplete t ht lv.1 lv.2).mp hlv
    obtain ⟨-, hhead⟩ := dp0Up_accepts.mp hacc
    rw [← Option.some.inj (htag.symm.trans hhead)] at hlab
    rw [h.growing.lab_inj q p l hlab hl] at hvm
    rw [← hvm]
    rfl

theorem dp0_hop_down (hin : pkt.inPort = p.val.vmPort) :
    (T.net (T.state pl) os).Hop .dp0 pkt s.val.dp0Port (pkt.push l) := by
  have hcomplete : ∀ s, s ∈ T.fpconf.rows → Complete T.toWiring pl (.fp s) := fun s hs =>
    h.complete (.fp s) (by rw [h.growing.par_fp]; rfl) hs
  have hmem : (l, p.val.vmPort) ∈ pl.carried (.fp s) := (hcomplete s hs l _).mpr ⟨p, hb, hl, rfl⟩
  refine dp0_hop os hdst (mem_dp0Flows_of _ hs hmem (Or.inl rfl))
    (dp0Down_accepts.mpr hin) fun g hg hacc => ?_
  rcases mem_dp0Flows _ hg with rfl | ⟨t, ht, lv, hlv, rfl | rfl⟩
  · exact absurd (dp0Mapping_accepts.mp hacc) hdst
  · obtain ⟨q, hq, hlab, hvm⟩ := (hcomplete t ht lv.1 lv.2).mp hlv
    have he : q = p := vmPort_unique hq.mem hb.mem (by rw [hvm, ← dp0Down_accepts.mp hacc, hin])
    rw [he] at hq hlab
    rw [hq.root_unique hb, Option.some.inj (hlab.symm.trans hl)]
    rfl
  · obtain ⟨hi, -⟩ := dp0Up_accepts.mp hacc
    exact absurd (hin.symm.trans hi) (vmPort_ne hb.mem ht)

end Ways

/-! ## From end to end -/

section Paths

variable {T : FastPathTopology} {pl : Plan} (h : Allocated T.toWiring pl) (os : Node → Order)
  {k c : Link} {m : Int}
  {p : Row RFConfigEntry} {l : Nat} {pkt : Packet}

theorem no_cable_port (hp : p ∈ T.conf.rows) (b : Node) (q : Nat) :
    ¬ T.Cable (.switch p.val.dpId) p.val.dpPort b q := by
  intro hc
  obtain ⟨k, side, hk, -⟩ := cable_switch hc
  obtain ⟨-, -, hapart⟩ := List.nodup_append.mp (one_use_links (T := T))
  exact hapart _ (List.mem_map_of_mem hp) _ (List.mem_map_of_mem hk) rfl

theorem no_cable_vmPort (hp : p ∈ T.conf.rows) (b : Node) (q : Nat) : ¬ T.Cable .dp0 p.val.vmPort b q := by
  intro hc
  obtain ⟨r, hr, he, -⟩ := cable_dp0 hc
  exact vmPort_ne hp hr he

include h

theorem way_up (hb : Beneath T.toWiring pl.par pl.up k p) (hm : pl.par k = some m)
    (hc : pl.up p.val.dpId = some c) {n : Int} (hn : pl.par c = some n) (hl : pl.lab p = some l)
    (htag : pkt.vlans.head? = some l) :
    (T.net (T.state pl) os).Travels ((c.top n).1, pkt.enter (c.top n).2)
      ((k.top m).1, pkt.enter (k.top m).2) := by
  induction hb generalizing m with
  | own hm' hu _ hd =>
    obtain rfl := Option.some.inj (hm.symm.trans hm')
    rw [← hd, hc, Option.some.injEq] at hu
    subst hu
    obtain rfl := Option.some.inj (hm.symm.trans hn)
    exact .refl
  | @via k m' r p hm' hu hr hrd hb ih =>
    obtain rfl := Option.some.inj (hm.symm.trans hm')
    have hhop : (T.net (T.state pl) os).Hop (.switch (k.far m)) (pkt.enter ((Link.isl r).portAt (k.far m)))
        (k.portAt (k.far m)) (pkt.enter ((Link.isl r).portAt (k.far m))) := hop_up h os hu hrd hb hl rfl htag
    refine (ih hrd hc hl).tail ⟨_, _, hhop, (k.top m).2, ?_, rfl⟩
    exact cable_up (h.growing.up_link _ _ hu).1 (h.growing.above _ _ hm)

theorem way_down (hb : Beneath T.toWiring pl.par pl.up k p) (hm : pl.par k = some m)
    (hc : pl.up p.val.dpId = some c) (hl : pl.lab p = some l) (htag : pkt.vlans.head? = some l) :
    (T.net (T.state pl) os).Travels (.switch (k.far m), pkt.enter (k.portAt (k.far m)))
      (.switch p.val.dpId, pkt.enter (c.portAt p.val.dpId)) := by
  induction hb generalizing m with
  | own hm' hu _ hd =>
    obtain rfl := Option.some.inj (hm.symm.trans hm')
    rw [← hd, hc, Option.some.injEq] at hu
    subst hu
    rw [hd]
    exact .refl
  | @via k m' r p hm' hu hr hrd hb ih =>
    obtain rfl := Option.some.inj (hm.symm.trans hm')
    have hhop : (T.net (T.state pl) os).Hop (.switch (k.far m)) (pkt.enter (k.portAt (k.far m)))
        ((Link.isl r).portAt (k.far m)) (pkt.enter (k.portAt (k.far m))) :=
          hop_down h os hu hrd hb hl rfl htag
    refine .head ⟨_, _, hhop, (Link.isl r).portAt ((Link.isl r).far (k.far m)), ?_, rfl⟩ (ih hrd hc hl)
    exact (cable_up (T := T) (k := .isl r) hr (h.growing.above _ _ hrd)).symm

end Paths

/-- Up: a packet from the port `p` that a rule of `handle_controller_route_mod` catches gets the label,
comes to dp0 with it over one of the fast path links, and leaves dp0 without it by the port of the
client. -/
def GoesUp (T : Topology) (st : FpState) (os : Node → Order) (p : Row RFConfigEntry) (label : Nat)
    (pkt : Packet) :
    Prop :=
  ∀ rm rms r, rm.actions = [] →
    (T.translator p.val.dpId).handleControllerRouteMod st.config (os (.switch p.val.dpId)) rm = .ok rms →
    r ∈ rms → r.accepts pkt →
    ∃ port first, ∃ s ∈ T.fpconf.rows, execute pkt r.actions = [(port, pkt.push label)] ∧
      (T.net st os).Crosses (.switch p.val.dpId) port (pkt.push label) first ∧
      (T.net st os).Travels first (.dp0, (pkt.push label).enter s.val.dp0Port) ∧
      ∀ out, (T.net st os).Emerges (.dp0, (pkt.push label).enter s.val.dp0Port) out ↔
        out = (.dp0, pkt.enter p.val.vmPort)

/-- Down: a packet that comes to dp0 leaves the network by the port `p` as it was, and by no other port. -/
def GoesDown (T : Topology) (st : FpState) (os : Node → Order) (p : Row RFConfigEntry)
    (pkt : Packet) : Prop :=
  ∀ out, (T.net st os).Emerges (.dp0, pkt) out ↔ out = (.switch p.val.dpId, pkt.enter p.val.dpPort)

section Ends

variable {T : FastPathTopology} {pl : Plan} (h : Allocated T.toWiring pl) (os : Node → Order) {c : Link}
  {p : Row RFConfigEntry} {l : Nat} {pkt : Packet} (hp : p ∈ T.conf.rows) (hc : pl.up p.val.dpId = some c)
  (hl : pl.lab p = some l) (hdst : pkt.dlDst ≠ 0)

include h hp hc in
theorem beneath_up : ∃ m, pl.par c = some m ∧ c.far m = p.val.dpId ∧ Beneath T.toWiring pl.par pl.up c p := by
  obtain ⟨-, -, m, hm, -, hfar⟩ := h.growing.up_link _ _ hc
  exact ⟨m, hm, hfar, .own hm (by rw [hfar, hc]) hp hfar.symm⟩

include h hp hc hl hdst

theorem goesUp (hin : pkt.inPort = p.val.dpPort) : GoesUp T.toTopology (T.state pl) os p l pkt := by
  intro rm rms r hact hrms hr hacc
  obtain ⟨m, hm, hfar, hb⟩ := beneath_up h hp hc
  have hhas := (h.growing.up_link _ _ hc).1
  obtain ⟨s, hs, hroot⟩ := hb.root h.growing
  -- The rule is the one for this port.
  have hnoport : rm.matchList.any Match.isInPort = false := by
    by_contra hyes
    rw [Bool.not_eq_false] at hyes
    have hbad : (T.translator p.val.dpId).defaultHandleControllerRouteMod (T.state pl).config
        (os (.switch p.val.dpId)) rm = .ok rms := hrms
    rw [Translator.defaultHandleControllerRouteMod, if_pos (fpEnabled_state T pl),
      getFastpathPort_up h _ hc] at hbad
    simp [bind, Except.bind, hyes] at hbad
  obtain ⟨rms', hrms', hmem⟩ := handleControllerRouteMod_up h (os (.switch p.val.dpId)) hc rm hnoport
  obtain rfl : rms' = rms := Except.ok.inj (hrms'.symm.trans hrms)
  obtain ⟨q, hq, hqd, n, hn, rfl⟩ := (hmem r).mp hr
  have hqp : q = p := by
    refine port_unique hq hp hqd ?_
    rw [RouteMod.accepts, List.all_eq_true] at hacc
    have := hacc (.inPort q.val.dpPort) (by
      simp [Translator.tagRule, rfactionPushMeta, RouteMod.addMatch, RouteMod.addAction])
    have : pkt.inPort = q.val.dpPort := by simpa [Match.accepts] using this
    rw [← this, hin]
  subst hqp
  obtain rfl := Option.some.inj (hn.symm.trans hl)
  refine ⟨c.portAt q.val.dpId, ((c.top m).1, (pkt.push n).enter (c.top m).2), s, hs, ?_,
    ⟨(c.top m).2, ?_, rfl⟩, ?_, ?_⟩
  · change execute pkt (rm.actions ++ [.setVlanId n] ++ [.output (c.portAt q.val.dpId)]) = _
    rw [hact]
    rfl
  · have := cable_up hhas (h.growing.above _ _ hm)
    rwa [hfar] at this
  · exact way_up h os hroot (h.growing.par_fp s) hc hm hl rfl
  · have hhop : (T.net (T.state pl) os).Hop .dp0 ((pkt.push n).enter s.val.dp0Port) q.val.vmPort
        (pkt.enter s.val.dp0Port) := dp0_hop_up h os hs hroot hl hdst rfl rfl
    intro out
    refine hhop.emerges ?_ out
    rintro b ⟨q', hq', -⟩
    exact no_cable_vmPort hp _ _ hq'

theorem goesDown (hin : pkt.inPort = p.val.vmPort) : GoesDown T.toTopology (T.state pl) os p pkt := by
  obtain ⟨m, hm, hfar, hb⟩ := beneath_up h hp hc
  obtain ⟨s, hs, hroot⟩ := hb.root h.growing
  have hhop := dp0_hop_down h os hs hroot hl hdst hin
  have hstep : (T.net (T.state pl) os).Step (.dp0, pkt)
    (.switch s.val.dpId, (pkt.push l).enter s.val.dpPort) :=
    ⟨_, _, hhop, s.val.dpPort, ⟨.fp s, hs, Or.inr rfl⟩, rfl⟩
  have hway : (T.net (T.state pl) os).Travels (.switch s.val.dpId, (pkt.push l).enter s.val.dpPort)
      (.switch p.val.dpId, (pkt.push l).enter (c.portAt p.val.dpId)) :=
    way_down h os hroot (h.growing.par_fp s) hc hl rfl
  have hlast : (T.net (T.state pl) os).Hop (.switch p.val.dpId) ((pkt.push l).enter (c.portAt p.val.dpId))
      p.val.dpPort (pkt.enter (c.portAt p.val.dpId)) := hop_port h os hc hp rfl hl rfl rfl
  intro out
  refine (hstep.emerges cable_unique out).trans ((hway.emerges cable_unique out).trans (hlast.emerges ?_ out))
  rintro b ⟨q', hq', -⟩
  exact no_cable_port hp _ _ hq'

end Ends

/-- The fast paths deliver every packet but those that map ports, from each configured port of a switch that
can be reached to the port of its client and back. -/
theorem fastpaths_deliver (T : FastPathTopology) (o : Order) (os : Node → Order) :
    ∃ st, fpAllocateLabels o T.read = .ok st ∧
      ∀ p ∈ T.conf.rows, T.Reachable p.val.dpId → ∃ label,
        ⟨p.id, { p.val with fpLabel := some label }⟩ ∈ st.conf.rows ∧
        (∀ pkt : Packet, pkt.inPort = p.val.dpPort → pkt.dlDst ≠ 0 →
          GoesUp T.toTopology st os p label pkt) ∧
        ∀ pkt : Packet, pkt.inPort = p.val.vmPort → pkt.dlDst ≠ 0 → GoesDown T.toTopology st os p pkt := by
  obtain ⟨pl, hrun, h⟩ := fpAllocateLabels_allocated (T := T.toTopology) o T.has_link
  refine ⟨T.state pl, hrun, fun p hp hreach => ?_⟩
  obtain ⟨c, hc⟩ := Option.isSome_iff_exists.mp (h.visited _ hreach)
  obtain ⟨l, hl⟩ := Option.isSome_iff_exists.mp ((h.growing.lab_iff p hp).mpr (by rw [hc]; rfl))
  refine ⟨l, ?_, fun pkt hin hdst => goesUp h os hp hc hl hdst hin,
    fun pkt hin hdst => goesDown h os hp hc hl hdst hin⟩
  refine (Table.mem_overlay ..).mpr ⟨p, hp, ?_⟩
  rw [Plan.portVal, hl]

/-! ## A topology with two switches -/

theorem Wiring.Reachable.attached {T : Wiring} {d : Nat} (h : T.Reachable d) :
    ∃ k, T.Has k ∧ k.Attached d := by
  cases h with
  | @fp r hr => exact ⟨.fp r, hr, Or.inl rfl⟩
  | @rem r hr _ => exact ⟨.isl r, hr, Or.inr rfl⟩
  | @near r hr _ => exact ⟨.isl r, hr, Or.inl rfl⟩

/-- dp0 is cabled to switch 5, and switch 5 to switch 6. Each switch has one port. -/
def smallTree : FastPathTopology where
  ct := 0
  conf := ((memoryTable RFConfigEntry).add { vmId := 1, vmPort := 1, ctId := 0, dpId := 5, dpPort := 1 }).add
    { vmId := 2, vmPort := 2, ctId := 0, dpId := 6, dpPort := 1 }
  fpconf := (memoryTable RFFPConfEntry).add { ctId := 0, dpId := 5, dpPort := 9, dp0Port := 3 }
  islconf := (memoryTable RFISLConfEntry).add
    { vmId := 1, ctId := 0, dpId := 5, dpPort := 2, ethAddr := Mac.text 1,
      remCt := 0, remId := 6, remPort := 2, remEthAddr := Mac.text 2 }
  conf_read := by decide
  fpconf_read := by decide
  islconf_read := by decide
  no_loop := by decide
  ports_le := by decide
  has_link := by decide
  has_port d hd := by
    obtain ⟨k, hk, ha⟩ := hd.attached
    cases k with
    | fp r =>
      obtain rfl := List.mem_singleton.mp hk
      rcases ha with rfl | ha
      · decide
      · cases ha
    | isl r =>
      obtain rfl := List.mem_singleton.mp hk
      rcases ha with rfl | ha
      · decide
      · obtain rfl := Option.some.inj ha
        decide
  dpId_ne_zero d hd := by
    obtain ⟨k, hk, ha⟩ := hd.attached
    cases k with
    | fp r =>
      obtain rfl := List.mem_singleton.mp hk
      rcases ha with rfl | ha
      · decide
      · cases ha
    | isl r =>
      obtain rfl := List.mem_singleton.mp hk
      rcases ha with rfl | ha
      · decide
      · obtain rfl := Option.some.inj ha
        decide
  one_use := by decide
  one_use_dp0 := by decide

def smallPort : Row RFConfigEntry := ⟨1002, { vmId := 2, vmPort := 2, ctId := 0, dpId := 6, dpPort := 1 }⟩

theorem smallPort_reachable : smallTree.Reachable smallPort.val.dpId :=
  .rem (r := ⟨1001, ⟨1, 0, 5, 2, Mac.text 1, 0, 6, 2, Mac.text 2, none, none⟩⟩) (by decide)
    (.fp (r := ⟨1001, ⟨0, 5, 9, 3, [], none⟩⟩) (by decide))

theorem fastpaths_deliver_smallTree : smallPort ∈ smallTree.conf.rows ∧ ∃ st label,
    fpAllocateLabels .insertion smallTree.read = .ok st ∧
      ⟨1002, { smallPort.val with fpLabel := some label }⟩ ∈ st.conf.rows ∧
      GoesUp smallTree.toTopology st (fun _ => .insertion) smallPort label
        { inPort := 1, dlSrc := 7, dlDst := 8, dlType := ETHERTYPE_ARP } ∧
      GoesDown smallTree.toTopology st (fun _ => .insertion) smallPort
        { inPort := 2, dlSrc := 8, dlDst := 7, dlType := ETHERTYPE_ARP } := by
  have hp : smallPort ∈ smallTree.conf.rows := by decide
  obtain ⟨st, hrun, hall⟩ := fastpaths_deliver smallTree .insertion fun _ => .insertion
  obtain ⟨label, hlabel, hup, hdown⟩ := hall smallPort hp smallPort_reachable
  exact ⟨hp, st, label, hrun, hlabel, hup _ rfl (by decide), hdown _ rfl (by decide)⟩

section Mapping

variable {T : FastPathTopology} {pl : Plan} (h : Allocated T.toWiring pl) (os : Node → Order)
  {p : Row RFConfigEntry} {l : Nat} {pkt : Packet} {s : Row RFFPConfEntry} (hs : s ∈ T.fpconf.rows)
  (hb : Beneath T.toWiring pl.par pl.up (.fp s) p) (hl : pl.lab p = some l)

include h hs hb hl

theorem dp0_hop_mapping (hdst : pkt.dlDst = 0) :
    (T.net (T.state pl) os).Hop .dp0 pkt OFPP_CONTROLLER pkt := by
  have hmem : (l, p.val.vmPort) ∈ pl.carried (.fp s) :=
    (h.complete (.fp s) (by rw [h.growing.par_fp]; rfl) hs l _).mpr ⟨p, hb, hl, rfl⟩
  have hmapping : dp0Mapping ∈ dp0Flows (os .dp0) (T.state pl).fpconf := by
    have hsome := mem_dp0Flows_of (os .dp0) hs hmem (Or.inl rfl)
    unfold dp0Flows at hsome ⊢
    dsimp only at hsome ⊢
    split at hsome
    · cases hsome
    · rename_i hne
      rw [if_neg hne]
      exact List.mem_append_right _ List.mem_cons_self
  refine Net.hop_of_top (List.mem_map_of_mem hmapping) (dp0Mapping_accepts.mpr hdst) ?_ ?_
  · rintro r hr -
    obtain ⟨g, hg, rfl⟩ := List.mem_map.mp hr
    have hle : (32800 : Nat) ≤ 32801 := by decide
    rcases mem_dp0Flows _ hg with rfl | ⟨t, -, lv, -, rfl | rfl⟩
    · exact Nat.le_refl _
    · exact hle
    · exact hle
  · intro r hr _ hge
    obtain ⟨g, hg, rfl⟩ := List.mem_map.mp hr
    have hlt : ¬ (32801 : Nat) ≤ 32800 := by decide
    rcases mem_dp0Flows _ hg with rfl | ⟨t, -, lv, -, rfl | rfl⟩
    · rfl
    · exact absurd hge hlt
    · exact absurd hge hlt

end Mapping

/-- Without the exception for mapping packets the fast paths do not deliver everything. -/
theorem mapping_packets_kept : ¬ ∀ (T : FastPathTopology) (o : Order) (os : Node → Order),
    ∃ st, fpAllocateLabels o T.read = .ok st ∧
      ∀ p ∈ T.conf.rows, T.Reachable p.val.dpId → ∃ label,
        ⟨p.id, { p.val with fpLabel := some label }⟩ ∈ st.conf.rows ∧
        (∀ pkt : Packet, pkt.inPort = p.val.dpPort → GoesUp T.toTopology st os p label pkt) ∧
        ∀ pkt : Packet, pkt.inPort = p.val.vmPort → GoesDown T.toTopology st os p pkt := by
  intro hclaim
  have hp : smallPort ∈ smallTree.conf.rows := by decide
  obtain ⟨st, hrun, hall⟩ := hclaim smallTree .insertion fun _ => .insertion
  obtain ⟨-, -, -, hdown⟩ := hall smallPort hp smallPort_reachable
  obtain ⟨pl, hrun', h⟩ := fpAllocateLabels_allocated (T := smallTree.toTopology)
    .insertion smallTree.has_link
  obtain rfl : st = smallTree.state pl := Except.ok.inj (hrun.symm.trans hrun')
  obtain ⟨c, hc⟩ := Option.isSome_iff_exists.mp (h.visited _ smallPort_reachable)
  obtain ⟨l, hl⟩ := Option.isSome_iff_exists.mp ((h.growing.lab_iff _ hp).mpr (by rw [hc]; rfl))
  obtain ⟨-, -, -, hb⟩ := beneath_up h hp hc
  obtain ⟨s, hs, hroot⟩ := hb.root h.growing
  -- The packet leaves dp0 for the controller.
  let pkt : Packet := { inPort := 2, dlSrc := 8, dlDst := 0, dlType := 0 }
  have hhop : (smallTree.net (smallTree.state pl) fun _ => .insertion).Hop .dp0 pkt OFPP_CONTROLLER pkt :=
    dp0_hop_mapping h _ hs hroot hl rfl
  have hout := (hhop.emerges (by
    rintro b ⟨q', hq', -⟩
    obtain ⟨r, hr, he, -⟩ := cable_dp0 hq'
    obtain rfl := List.mem_singleton.mp hr
    exact absurd he (by decide)) _).mpr rfl
  have hnode : Node.dp0 = .switch 6 := congrArg Prod.fst ((hdown _ rfl _).mp hout)
  cases hnode

end RouteFlow
