import RouteFlow.Allocation
import RouteFlow.Packet
import RouteFlow.Translator

/-!
# The rules of the fast paths

What `configure_datapath` and `handle_controller_route_mod` of the default translator give on the tables
that the label allocation leaves.
-/

namespace RouteFlow

open Store

/-! ## The rules of a switch, one kind at a time -/

namespace Translator

variable (tr : Translator)

/-- The rule of `_register_fpports` for one port. -/
def fpportRule (fpPort label dpPort : Nat) : RouteMod :=
  ((rfactionPopMeta
    (rfmatchMeta label (({ mod := .add, id := tr.dpId } : RouteMod).addMatch (.inPort fpPort)))).addAction
    (.output dpPort)).addOption FASTPATH_PRIORITY

/-- The rule of `handle_controller_route_mod` for one port. -/
def tagRule (masterPort : Nat) (rm : RouteMod) (label dpPort : Nat) : RouteMod :=
  (rfactionPushMeta label (rm.addMatch (.inPort dpPort))).addAction (.output masterPort)

variable {tr}

theorem registerFpports_labelled (u fpTable : Nat) {ports : List RFConfigEntry}
    (h : ∀ p ∈ ports, p.fpLabel.isSome) :
    ∃ rms, tr.registerFpports (some u) false fpTable ports = .ok rms ∧
      ∀ f, f ∈ rms ↔ ∃ p ∈ ports, ∃ l, p.fpLabel = some l ∧ f = tr.fpportRule u l p.dpPort := by
  induction ports with
  | nil => exact ⟨[], rfl, by simp⟩
  | cons port rest ih =>
    obtain ⟨hp, hrest⟩ := List.forall_mem_cons.mp h
    obtain ⟨label, hl⟩ := Option.isSome_iff_exists.mp hp
    obtain ⟨more, hmore, hmem⟩ := ih hrest
    refine ⟨tr.fpportRule u label port.dpPort :: more, ?_, fun f => ?_⟩
    · rw [registerFpports, hl]
      simp only [Bool.false_eq_true, if_false, Match.IN_PORT, bind, Except.bind, pure, Except.pure, hmore,
        List.nil_append]
      rfl
    · rw [List.mem_cons, List.exists_mem_cons_iff, hmem, hl]
      simp only [Option.some.injEq, exists_eq_left']

theorem tagRules_labelled (u : Nat) (rm : RouteMod) {ports : List RFConfigEntry}
    (h : ∀ p ∈ ports, p.fpLabel.isSome) :
    ∃ rms, tagRules (some u) rm ports = .ok rms ∧
      ∀ f, f ∈ rms ↔ ∃ p ∈ ports, ∃ l, p.fpLabel = some l ∧ f = tagRule u rm l p.dpPort := by
  induction ports with
  | nil => exact ⟨[], rfl, by simp⟩
  | cons port rest ih =>
    obtain ⟨hp, hrest⟩ := List.forall_mem_cons.mp h
    obtain ⟨label, hl⟩ := Option.isSome_iff_exists.mp hp
    obtain ⟨more, hmore, hmem⟩ := ih hrest
    refine ⟨tagRule u rm label port.dpPort :: more, ?_, fun f => ?_⟩
    · rw [tagRules, hl]
      simp only [Action.OUTPUT, bind, Except.bind, pure, Except.pure, hmore]
      rfl
    · rw [List.mem_cons, List.exists_mem_cons_iff, hmem, hl]
      simp only [Option.some.injEq, exists_eq_left']

theorem registerFpisls_carried (u : Nat) {fps : List FpEntry}
    (h : ∀ fp ∈ fps, fp.fpMaster = some (tr.dpId : Int) → fp.fastPaths.isSome ∧ ∃ q, tr.portOn fp = .ok q) :
    ∃ rms, tr.registerFpisls (some u) fps = .ok rms ∧
      ∀ f, f ∈ rms ↔ ∃ fp ∈ fps, fp.fpMaster = some (tr.dpId : Int) ∧ ∃ q paths,
        tr.portOn fp = .ok q ∧ fp.fastPaths = some paths ∧ ∃ lv ∈ paths, f ∈ tr.fpislRules u q lv.1 := by
  induction fps with
  | nil => exact ⟨[], rfl, by simp⟩
  | cons fp rest ih =>
    obtain ⟨hfp, hrest⟩ := List.forall_mem_cons.mp h
    obtain ⟨more, hmore, hmem⟩ := ih hrest
    by_cases hm : fp.fpMaster = some (tr.dpId : Int)
    · obtain ⟨hs, q, hq⟩ := hfp hm
      obtain ⟨paths, hpaths⟩ := Option.isSome_iff_exists.mp hs
      have hone : tr.registerFpisl (some u) fp q = .ok (paths.flatMap fun lv => tr.fpislRules u q lv.1) := by
        unfold registerFpisl
        rw [hpaths]
        cases paths <;> rfl
      refine ⟨(paths.flatMap fun lv => tr.fpislRules u q lv.1) ++ more, ?_, fun f => ?_⟩
      · rw [registerFpisls, if_pos hm]
        simp only [hq, bind, Except.bind, hone, hmore, pure, Except.pure]
      · rw [List.mem_append, List.mem_flatMap, List.exists_mem_cons_iff, hmem]
        refine or_congr ⟨fun hf => ⟨hm, q, paths, hq, hpaths, hf⟩, ?_⟩ Iff.rfl
        rintro ⟨-, q', paths', hq', hpaths', hf⟩
        obtain rfl := Except.ok.inj (hq.symm.trans hq')
        obtain rfl := Option.some.inj (hpaths.symm.trans hpaths')
        exact hf
    · refine ⟨more, ?_, fun f => ?_⟩
      · rw [registerFpisls, if_neg hm, hmore]
      · rw [List.exists_mem_cons_iff, hmem]
        exact ⟨Or.inr, fun hf => hf.resolve_left fun hf => hm hf.1⟩

end Translator

/-! ## Switches with ports -/

/-- There is a fast path link. All switches that can be reached have a port and a number that is not 0.
No port of a switch, dp0 included, has two uses. -/
structure FastPathTopology extends Topology where
  has_link : fpconf.rows ≠ []
  has_port : ∀ d, toTopology.Reachable d → ∃ p ∈ conf.rows, p.val.dpId = d
  dpId_ne_zero : ∀ d, toTopology.Reachable d → d ≠ 0
  one_use : (conf.rows.map (fun r => (r.val.dpId, r.val.dpPort)) ++
    (islconf.rows.map (fun r => (r.val.dpId, r.val.dpPort)) ++
    (islconf.rows.map (fun r => (r.val.remId, r.val.remPort)) ++
    fpconf.rows.map fun r => (r.val.dpId, r.val.dpPort)))).Nodup
  one_use_dp0 : (conf.rows.map (fun r => r.val.vmPort) ++ fpconf.rows.map fun r => r.val.dp0Port).Nodup

/-- RFServer with these tables. All switches get a default translator. -/
def FpState.config (st : FpState) : Config where
  config := st.conf
  islconf := st.islconf
  fpconf := st.fpconf
  multitabledps := []
  satellitedps := []

def Wiring.translator (T : Wiring) (d : Nat) : Translator := { kind := .default, dpId := d, ctId := T.ct }

/-- The port that the link has on the switch. -/
def Link.portAt : Link → Nat → Nat
  | fp r, _ => r.val.dpPort
  | isl r, d => if r.val.dpId = d then r.val.dpPort else r.val.remPort

theorem Link.far_eq {k : Link} {m : Int} {d : Nat} (ha : k.Above m) (hd : k.Attached d) (hne : m ≠ d) :
    k.far m = d := by
  cases k with
  | fp r =>
    rcases hd with hd | hd
    · exact hd
    · simp [remId] at hd
  | isl r =>
    simp only [Attached, dpId, remId, Option.some.injEq] at hd
    dsimp only [far]
    rcases ha with rfl | rfl <;> split <;> rcases hd with rfl | rfl <;> omega

/-- The link as `_get_fastpath_port` sees it. -/
def Plan.fpEntry (pl : Plan) : Link → FpEntry
  | .fp r => (pl.fpVal r).toFp
  | .isl r => (pl.islVal r).toFp

section Tables

variable {T : Wiring} {pl : Plan} (o : Order) {d : Nat}

theorem mem_fpEntries (e : FpEntry) : e ∈ (T.translator d).fpEntries (T.state pl).config o ↔
    ∃ k, T.Has k ∧ k.Attached d ∧ e = pl.fpEntry k := by
  rw [Translator.fpEntries, List.mem_append, List.mem_map, List.mem_map]
  constructor
  · rintro (⟨r, hr, rfl⟩ | ⟨r, hr, rfl⟩)
    · obtain ⟨hm, hp⟩ := (Table.mem_find ..).mp hr
      obtain ⟨q, hq, rfl⟩ := (Table.mem_overlay ..).mp hm
      simp only [Bool.and_eq_true, beq_iff_eq] at hp
      exact ⟨.fp q, hq, Or.inl hp.2, rfl⟩
    · obtain ⟨rs, hrs, -, hmem, -⟩ := T.getEntriesByDpid_state o pl d
      obtain ⟨q, hq, rfl⟩ := List.mem_map.mp (hrs ▸ hr)
      exact ⟨.isl q, ((hmem q).mp hq).1, ((hmem q).mp hq).2, rfl⟩
  · rintro ⟨k, hk, ha, rfl⟩
    cases k with
    | fp q =>
      left
      refine ⟨⟨q.id, pl.fpVal q⟩, (Table.mem_find ..).mpr ⟨(Table.mem_overlay ..).mpr ⟨q, hk, rfl⟩, ?_⟩,
        rfl⟩
      have hd : q.val.dpId = d := ha.resolve_right (by simp [Link.remId])
      simp [Plan.fpVal, Wiring.translator, (T.fpconf_read q hk).1, hd]
    | isl q =>
      right
      obtain ⟨rs, hrs, -, hmem, -⟩ := T.getEntriesByDpid_state o pl d
      refine ⟨pl.islRow q, ?_, rfl⟩
      exact hrs ▸ List.mem_map_of_mem ((hmem q).mpr ⟨hk, ha⟩)

theorem portOn_fpEntry {k : Link} (hk : T.Has k) (ha : k.Attached d) :
    (T.translator d).portOn (pl.fpEntry k) = .ok (k.portAt d) := by
  cases k with
  | fp r =>
    have hd : r.val.dpId = d := ha.resolve_right (by simp [Link.remId])
    exact if_pos ⟨hd, (T.fpconf_read r hk).1⟩
  | isl r =>
    have hct := (T.islconf_read r hk).1
    dsimp only [Link.portAt]
    split
    · rename_i hd
      exact if_pos ⟨hd, hct⟩
    · rename_i hd
      exact if_neg fun h => hd h.1

theorem getFastpathPort_only {k : Link} (hk : T.Has k) (ha : k.Attached d)
    (honly : ∀ c, T.Has c → c.Attached d → ((T.translator d).isUp (pl.fpEntry c) = true ↔ c = k)) :
    (T.translator d).getFastpathPort (T.state pl).config o = .ok (some (k.portAt d)) := by
  have hall : ∀ e ∈ ((T.translator d).fpEntries (T.state pl).config o).filter (T.translator d).isUp,
      e = pl.fpEntry k := by
    intro e he
    obtain ⟨he, hup⟩ := List.mem_filter.mp he
    obtain ⟨c, hc, hca, rfl⟩ := (mem_fpEntries o e).mp he
    rw [(honly c hc hca).mp hup]
  have hmem : pl.fpEntry k ∈ ((T.translator d).fpEntries (T.state pl).config o).filter
    (T.translator d).isUp :=
    List.mem_filter.mpr ⟨(mem_fpEntries o _).mpr ⟨k, hk, ha, rfl⟩, (honly k hk ha).mpr rfl⟩
  unfold Translator.getFastpathPort
  cases hl : ((T.translator d).fpEntries (T.state pl).config o).filter (T.translator d).isUp with
  | nil => rw [hl] at hmem; cases hmem
  | cons e rest =>
    rw [hl] at hall
    simp only [hall e List.mem_cons_self, portOn_fpEntry hk ha]
    rfl

theorem isUp_fpEntry (tr : Translator) (c : Link) :
    tr.isUp (pl.fpEntry c) = true ↔ ∃ m, pl.master c = some m ∧ m ≠ 0 ∧ m ≠ tr.dpId := by
  have hmaster : (pl.fpEntry c).fpMaster = pl.master c := by cases c <;> rfl
  unfold Translator.isUp
  rw [hmaster]
  cases pl.master c with
  | none => simp
  | some m => simp

theorem mem_ports (c : RFConfigEntry) :
    c ∈ (RFConfig.getConfigForDp o (T.state pl).config.config T.ct d).map (fun r => r.val) ↔
      ∃ p ∈ T.conf.rows, p.val.dpId = d ∧ c = pl.portVal p := by
  obtain ⟨ps, hps, -, hmem⟩ := T.getConfigForDp_state o pl d
  rw [show RFConfig.getConfigForDp o (T.state pl).config.config T.ct d = ps.map pl.port from hps,
    List.map_map, List.mem_map]
  constructor
  · rintro ⟨p, hp, rfl⟩
    exact ⟨p, ((hmem p).mp hp).1, ((hmem p).mp hp).2, rfl⟩
  · rintro ⟨p, hp, hd, rfl⟩
    exact ⟨p, (hmem p).mpr ⟨hp, hd⟩, rfl⟩

end Tables

/-! ## The rules of a switch in the tree -/

/-- The rules with the priority of the fast paths, for a switch whose link upwards is on the port `u`. -/
def FastRule (T : Topology) (pl : Plan) (d u : Nat) (f : RouteMod) : Prop :=
  (∃ p ∈ T.conf.rows, p.val.dpId = d ∧ ∃ l, pl.lab p = some l ∧
    f = (T.translator d).fpportRule u l p.val.dpPort) ∨
  ∃ c, T.Has c ∧ c.Attached d ∧ pl.master c = some (d : Int) ∧
    ∃ lv ∈ pl.carried c, f ∈ (T.translator d).fpislRules u (c.portAt d) lv.1

theorem RouteMod.level_eq {rm : RouteMod} {n : Nat} (h : rm.options = [.priority n]) : rm.level = n := by
  simp [level, priority, h]

theorem RouteMod.level_le {rm : RouteMod} {n m : Nat} (h : rm.options = [.priority n]) (hn : n ≤ m) :
    rm.level ≤ m := by
  rw [level_eq h]
  exact hn

theorem fpEnabled_state (T : FastPathTopology) (pl : Plan) : (T.state pl).config.fpEnabled = true := by
  simpa [Config.fpEnabled, FpState.config, Wiring.state, Table.overlay] using T.has_link

section Tree

variable {T : FastPathTopology} {pl : Plan} (h : Allocated T.toWiring pl) (o : Order) {d : Nat} {k : Link}
  (hu : pl.up d = some k)

include h hu

theorem up_facts : T.Has k ∧ k.Attached d ∧
    ∃ m, pl.par k = some m ∧ pl.master k = some m ∧ k.far m = d ∧ m ≠ d ∧ m ≠ 0 := by
  obtain ⟨hhas, -, m, hm, hmaster, hfar⟩ := h.growing.up_link d k hu
  refine ⟨hhas, hfar ▸ k.attached_far m, m, hm, hmaster, hfar, ?_⟩
  have habove := h.growing.above k m hm
  cases k with
  | fp r =>
    obtain rfl : m = -1 := habove
    omega
  | isl r =>
    obtain ⟨e, rfl, he⟩ := h.growing.par_isl r m hm
    refine ⟨?_, ?_⟩
    · have hloop := T.no_loop r hhas
      dsimp only [Link.far] at hfar
      split at hfar
      · omega
      · rcases habove with ha | ha <;> omega
    · have := T.dpId_ne_zero e (h.growing.reachable e he)
      omega

theorem isUp_iff {c : Link} (ha : c.Attached d) :
    (T.translator d).isUp (pl.fpEntry c) = true ↔ c = k := by
  rw [isUp_fpEntry]
  constructor
  · rintro ⟨m, hm, -, hne⟩
    obtain ⟨-, hpar, htree⟩ := h.growing.master c m hm
    have hfar := Link.far_eq (h.growing.above c m hpar) ha hne
    rw [hfar, hu, Option.some.injEq] at htree
    rcases htree with he | hpl
    · exact he.symm
    · have hd : T.Reachable d := h.growing.reachable d (by rw [hu]; rfl)
      obtain ⟨p, hp, hpd⟩ := T.has_port d hd
      exact absurd hpd (hpl p hp)
  · rintro rfl
    obtain ⟨-, -, m, -, hm, -, hne, hzero⟩ := up_facts h hu
    exact ⟨m, hm, hzero, hne⟩

theorem getFastpathPort_up :
    (T.translator d).getFastpathPort (T.state pl).config o = .ok (some (k.portAt d)) := by
  obtain ⟨hhas, hatt, -⟩ := up_facts h hu
  exact getFastpathPort_only o hhas hatt fun _ _ ha => isUp_iff h hu ha

theorem ports_labelled :
    ∀ c ∈ (RFConfig.getConfigForDp o (T.state pl).config.config T.ct d).map (fun r => r.val),
      c.fpLabel.isSome := by
  intro c hc
  obtain ⟨p, hp, hd, rfl⟩ := (mem_ports o c).mp hc
  have := (h.growing.lab_iff p hp).mpr (by rw [hd, hu]; rfl)
  exact this

theorem handleControllerRouteMod_up (rm : RouteMod) (hrm : rm.matchList.any Match.isInPort = false) :
    ∃ rms, (T.translator d).defaultHandleControllerRouteMod (T.state pl).config o rm = .ok rms ∧
      ∀ f, f ∈ rms ↔ ∃ p ∈ T.conf.rows, p.val.dpId = d ∧ ∃ l, pl.lab p = some l ∧
        f = Translator.tagRule (k.portAt d) rm l p.val.dpPort := by
  obtain ⟨rms, hrms, hmem⟩ := Translator.tagRules_labelled (k.portAt d) rm (ports_labelled h o hu)
  refine ⟨rms, ?_, fun f => ?_⟩
  · rw [Translator.defaultHandleControllerRouteMod, if_pos (fpEnabled_state T pl), getFastpathPort_up h o hu]
    simp only [bind, Except.bind, hrm, Bool.false_eq_true, if_false]
    exact hrms
  · rw [hmem]
    constructor
    · rintro ⟨c, hc, l, hl, rfl⟩
      obtain ⟨p, hp, hd, rfl⟩ := (mem_ports o c).mp hc
      exact ⟨p, hp, hd, l, hl, rfl⟩
    · rintro ⟨p, hp, hd, l, hl, rfl⟩
      exact ⟨pl.portVal p, (mem_ports o _).mpr ⟨p, hp, hd, rfl⟩, l, hl, rfl⟩

theorem registerFastpaths_up (usetables : Nat) :
    ∃ rms, (T.translator d).registerFastpaths (T.state pl).config o false usetables = .ok rms ∧
      ∀ f, f ∈ rms ↔ FastRule T.toTopology pl d (k.portAt d) f := by
  obtain ⟨ports, hports, hmemp⟩ := @Translator.registerFpports_labelled (T.translator d)
    (k.portAt d) usetables _
    (ports_labelled h o hu)
  have hfps : ∀ fp ∈ (T.translator d).fpEntries (T.state pl).config o,
      fp.fpMaster = some ((T.translator d).dpId : Int) → fp.fastPaths.isSome ∧ ∃ q,
        (T.translator d).portOn fp = .ok q := by
    intro fp hfp hm
    obtain ⟨c, hc, ha, rfl⟩ := (mem_fpEntries o fp).mp hfp
    refine ⟨?_, _, portOn_fpEntry hc ha⟩
    cases c with
    | fp r => rfl
    | isl r =>
      obtain ⟨-, hpar, -⟩ := h.growing.master (.isl r) _ hm
      exact (h.growing.paths_iff _).mpr (by rw [hpar]; rfl)
  obtain ⟨isls, hisls, hmemi⟩ := Translator.registerFpisls_carried (k.portAt d) hfps
  refine ⟨ports ++ isls, ?_, fun f => ?_⟩
  · rw [Translator.registerFastpaths, getFastpathPort_up h o hu]
    simp only [bind, Except.bind]
    rw [show (T.translator d).ctId = T.ct from rfl, show (T.translator d).dpId = d from rfl, hports]
    simp only [hisls]
    rfl
  · rw [List.mem_append, hmemp, hmemi]
    refine or_congr ?_ ?_
    · constructor
      · rintro ⟨c, hc, l, hl, rfl⟩
        obtain ⟨p, hp, hd, rfl⟩ := (mem_ports o c).mp hc
        exact ⟨p, hp, hd, l, hl, rfl⟩
      · rintro ⟨p, hp, hd, l, hl, rfl⟩
        exact ⟨pl.portVal p, (mem_ports o _).mpr ⟨p, hp, hd, rfl⟩, l, hl, rfl⟩
    · constructor
      · rintro ⟨fp, hfp, hm, q, paths, hq, hpaths, hf⟩
        obtain ⟨c, hc, ha, rfl⟩ := (mem_fpEntries o fp).mp hfp
        obtain rfl := Except.ok.inj ((portOn_fpEntry hc ha).symm.trans hq)
        refine ⟨c, hc, ha, ?_, ?_⟩
        · cases c <;> exact hm
        · have : pl.carried c = paths := by
            cases c with
            | fp r => exact Option.some.inj hpaths
            | isl r => exact congrArg (fun x => x.getD []) hpaths
          rw [this]
          exact hf
      · rintro ⟨c, hc, ha, hm, hf⟩
        refine ⟨pl.fpEntry c, (mem_fpEntries o _).mpr ⟨c, hc, ha, rfl⟩, ?_, c.portAt d, pl.carried c,
          portOn_fpEntry hc ha, ?_, hf⟩
        · cases c <;> exact hm
        · cases c with
          | fp r => rfl
          | isl r =>
            obtain ⟨-, hpar, -⟩ := h.growing.master (.isl r) _ hm
            obtain ⟨ps, hps⟩ := Option.isSome_iff_exists.mp
              ((h.growing.paths_iff (.isl r)).mpr (by rw [hpar]; rfl))
            simp only [Plan.fpEntry, RFISLConfEntry.toFp, Plan.islVal, Plan.carried, hps]
            rfl

theorem configureDatapath_up : ∃ rms, (T.translator d).configureDatapath (T.state pl).config o = .ok rms ∧
    (∀ f, FastRule T.toTopology pl d (k.portAt d) f → f ∈ rms) ∧
    ∀ f ∈ rms, f.level ≤ PRIORITY_HIGH ∨ FastRule T.toTopology pl d (k.portAt d) f := by
  let new : RouteMod := { mod := .add, id := d }
  obtain ⟨ip, hip, hipm⟩ := handleControllerRouteMod_up h o hu
    ((new.addOption ESTABLISH_PRIORITY).addMatch (.ethertype ETHERTYPE_IP)) rfl
  obtain ⟨ipv6, hipv6, hipv6m⟩ := handleControllerRouteMod_up h o hu
    ((new.addOption ESTABLISH_PRIORITY).addMatch (.ethertype ETHERTYPE_IPV6)) rfl
  obtain ⟨arp, harp, harpm⟩ := handleControllerRouteMod_up h o hu
    ((new.addMatch (.ethertype ETHERTYPE_ARP)).addOption CONTROLLER_PRIORITY) rfl
  obtain ⟨fast, hfast, hfastm⟩ := registerFastpaths_up h o hu 1
  refine ⟨{ mod := .deleteGroup, id := d } :: { mod := .delete, id := d } ::
    (ip ++ ipv6 ++ [new.addOption DROP_PRIORITY] ++ arp ++ fast), ?_, fun f hf => ?_, fun f hf => ?_⟩
  · have hkind : (T.translator d).configureDatapath (T.state pl).config o =
        (T.translator d).defaultConfigureDatapath (T.state pl).config o := rfl
    rw [hkind, Translator.defaultConfigureDatapath]
    simp only [show (T.translator d).dpId = d from rfl]
    simp only [bind, Except.bind, new] at hip hipv6 harp ⊢
    rw [hip]
    simp only [hipv6, harp, fpEnabled_state, if_true, hfast]
    rfl
  · have := (hfastm f).mpr hf
    simp [this]
  · simp only [List.mem_cons, List.mem_append, List.not_mem_nil, or_false] at hf
    rcases hf with rfl | rfl | (((hf | hf) | rfl) | hf) | hf
    · exact Or.inl (Nat.zero_le _)
    · exact Or.inl (Nat.zero_le _)
    · obtain ⟨p, -, -, l, -, rfl⟩ := (hipm f).mp hf
      exact Or.inl (RouteMod.level_le rfl (by decide))
    · obtain ⟨p, -, -, l, -, rfl⟩ := (hipv6m f).mp hf
      exact Or.inl (RouteMod.level_le rfl (by decide))
    · exact Or.inl (RouteMod.level_le rfl (by decide))
    · obtain ⟨p, -, -, l, -, rfl⟩ := (harpm f).mp hf
      exact Or.inl (RouteMod.level_le rfl (by decide))
    · exact Or.inr ((hfastm f).mp hf)

end Tree

end RouteFlow
