import RouteFlow.Configured
import RouteFlow.Pipeline
import RouteFlow.TameRouteMods

/-!
# Fast paths among other RouteMods

What RFServer queues for a datapath, with fast paths: the rules of `configure_datapath` once, and after them
RouteMods that leave the fast paths alone.
-/

namespace RouteFlow

open Store Run

/-! ## The first RouteMods of a datapath -/

namespace Translator

variable {cfg : Config} {o : Order} {tr : Translator}

/-- The rule of `_register_fpports` that tags what comes in by a port. -/
def pushRule (tr : Translator) (fpPort label dpPort : Nat) : RouteMod :=
  (((rfactionPushMeta label (({ mod := .add, id := tr.dpId } : RouteMod).addMatch (.inPort dpPort))).addAction
    (.output fpPort)).addOption CONTROLLER_PRIORITY).setTable NOVIFLOW_FP_TABLE

theorem registerFpports_tables (u fpTable : Nat) {ports : List RFConfigEntry}
    (h : ∀ p ∈ ports, p.fpLabel.isSome) :
    ∃ rms rms', tr.registerFpports (some u) false fpTable ports = .ok rms ∧
      tr.registerFpports (some u) true NOVIFLOW_FP_TABLE ports = .ok rms' ∧
      ∀ f, f ∈ rms' ↔ f ∈ rms ∨ ∃ p ∈ ports, ∃ l, p.fpLabel = some l ∧
      f = tr.pushRule u l p.dpPort := by
  induction ports with
  | nil => exact ⟨[], [], rfl, rfl, by simp⟩
  | cons port rest ih =>
    obtain ⟨hp, hrest⟩ := List.forall_mem_cons.mp h
    obtain ⟨label, hl⟩ := Option.isSome_iff_exists.mp hp
    obtain ⟨more, more', hmore, hmore', hmem⟩ := ih hrest
    refine ⟨tr.fpportRule u label port.dpPort :: more,
      tr.pushRule u label port.dpPort :: tr.fpportRule u label port.dpPort :: more', ?_, ?_, fun f => ?_⟩
    · rw [registerFpports, hl]
      simp only [Bool.false_eq_true, if_false, Match.IN_PORT, bind, Except.bind, pure, Except.pure, hmore,
        List.nil_append]
      rfl
    · rw [registerFpports, hl]
      simp only [if_true, Match.IN_PORT, Action.OUTPUT, bind, Except.bind, pure, Except.pure, hmore']
      rfl
    · rw [List.mem_cons, List.mem_cons, List.mem_cons, List.exists_mem_cons_iff, hmem, hl]
      simp only [Option.some.injEq, exists_eq_left']
      tauto

/-! The rules do not depend on the kind of the translator, or on which others there are. -/

theorem registerFpports_kind (kind : TranslatorKind) (mp : Option Nat) (usetables : Bool) (fpTable : Nat)
    (ports : List RFConfigEntry) : registerFpports { tr with kind := kind } mp usetables fpTable ports =
      tr.registerFpports mp usetables fpTable ports := by
  induction ports with
  | nil => rfl
  | cons port rest ih => simp only [registerFpports, ih]

theorem registerFpisls_kind (kind : TranslatorKind) (mp : Option Nat) (fps : List FpEntry) :
    registerFpisls { tr with kind := kind } mp fps = tr.registerFpisls mp fps := by
  induction fps with
  | nil => rfl
  | cons fp rest ih =>
    simp only [registerFpisls, ih]
    rfl

theorem registerFastpaths_kind (kind : TranslatorKind) (m s : List Nat) (usetables : Bool) (fpTable : Nat) :
    registerFastpaths { cfg with multitabledps := m, satellitedps := s } o { tr with kind := kind }
      usetables fpTable =
      tr.registerFastpaths cfg o usetables fpTable := by
  unfold registerFastpaths
  simp only [registerFpports_kind, registerFpisls_kind]
  rfl

theorem defaultConfigureDatapath_kind (kind : TranslatorKind) (m s : List Nat) :
    defaultConfigureDatapath { cfg with multitabledps := m, satellitedps := s } o { tr with kind := kind } =
      tr.defaultConfigureDatapath cfg o := by
  unfold defaultConfigureDatapath
  rw [registerFastpaths_kind]
  rfl

theorem noviFlowConfigureDatapath_kind (kind : TranslatorKind) (m s : List Nat) :
    noviFlowConfigureDatapath { cfg with multitabledps := m, satellitedps := s } o { tr with kind := kind } =
      tr.noviFlowConfigureDatapath cfg o := by
  unfold noviFlowConfigureDatapath
  rw [registerFastpaths_kind]
  rfl

/-- The rules of a NoviFlow switch before those of the fast paths. -/
def noviFlowFirst (dpId : Nat) : List RouteMod :=
  [{ Pipeline.catchRule dpId ETHERTYPE_IP with actions := [.goto NOVIFLOW_FP_TABLE] },
    { Pipeline.catchRule dpId ETHERTYPE_IPV6 with actions := [.goto NOVIFLOW_FP_TABLE] },
    Pipeline.dropRule dpId 0, Pipeline.dropRule dpId NOVIFLOW_ETHER_TABLE,
      Pipeline.dropRule dpId NOVIFLOW_FIB_TABLE,
    Pipeline.broadcastRule dpId,
    { Pipeline.arpRule dpId with actions := [.goto NOVIFLOW_FP_TABLE] }, Pipeline.ipv4Rule dpId]

theorem noviFlowFirst_facts {d : Nat} {f : RouteMod} (hf : f ∈ noviFlowFirst d) : f.mod = .add ∧ f.id = d ∧
    f.table ≠ NOVIFLOW_FP_TABLE ∧ f.level ≤ PRIORITY_HIGH ∧ ∀ t, Action.goto t ∈ f.actions →
    f.actions = [.goto t] := by
  simp only [noviFlowFirst, List.mem_cons, List.not_mem_nil, or_false] at hf
  rcases hf with rfl | rfl | rfl | rfl | rfl | rfl | rfl | rfl
  all_goals
    refine ⟨rfl, rfl, by simp [Pipeline.catchRule, Pipeline.dropRule, Pipeline.broadcastRule,
      Pipeline.arpRule, Pipeline.ipv4Rule, NOVIFLOW_FP_TABLE, NOVIFLOW_FIB_TABLE, NOVIFLOW_ETHER_TABLE],
      RouteMod.level_le rfl (by decide), fun t ht => ?_⟩
    first
      | exact absurd ht List.not_mem_nil
      | exact congrArg (fun a => [a]) (List.mem_singleton.mp ht).symm

theorem noviFlowConfigureDatapath_eq (hfp : cfg.fpEnabled = true) {fast : List RouteMod}
    (hfast : tr.registerFastpaths cfg o true NOVIFLOW_FP_TABLE = .ok fast) :
    tr.noviFlowConfigureDatapath cfg o = .ok ([{ mod := .deleteGroup, id := tr.dpId },
      { mod := .addGroup, id := tr.dpId, group := CONTROLLER_GROUP, actions := [Action.CONTROLLER] }] ++
      { mod := .delete, id := tr.dpId } :: (noviFlowFirst tr.dpId ++ fast)) := by
  unfold noviFlowConfigureDatapath noviFlowHandleControllerRouteMod
  rw [hfp, hfast]
  rfl

theorem tagRules_id {mp : Option Nat} {rm : RouteMod} {ports : List RFConfigEntry} {rms : List RouteMod}
    (h : tagRules mp rm ports = .ok rms) : ∀ f ∈ rms, f.id = rm.id ∧ f.mod = rm.mod := by
  intro f hf
  obtain ⟨u, -, p, -, l, -, rfl⟩ := tagRule_of_mem h hf
  exact ⟨rfl, rfl⟩

theorem configureDatapath_id (hfp : cfg.fpEnabled = true) {rms : List RouteMod}
    (h : tr.configureDatapath cfg o = .ok rms) : ∀ f ∈ rms, f.id = tr.dpId := by
  have hdefault : tr.defaultConfigureDatapath cfg o = .ok rms → ∀ f ∈ rms, f.id = tr.dpId := by
    intro h
    obtain ⟨mp, hmp, -⟩ := @getFastpathPort_ok cfg o tr
    obtain ⟨ip, hip, h⟩ := bind_eq_ok.mp h
    obtain ⟨ipv6, hipv6, h⟩ := bind_eq_ok.mp h
    obtain ⟨arp, harp, h⟩ := bind_eq_ok.mp h
    simp only [if_pos hfp] at h
    obtain ⟨fast, hfast, h⟩ := bind_eq_ok.mp h
    rw [defaultHandleControllerRouteMod_eq hfp hmp rfl] at hip hipv6 harp
    obtain rfl := Except.ok.inj h
    intro f hf
    simp only [List.mem_cons, List.mem_append, List.not_mem_nil, or_false] at hf
    rcases hf with rfl | rfl | (((hf | hf) | rfl) | hf) | hf
    · rfl
    · rfl
    · exact (tagRules_id hip f hf).1
    · exact (tagRules_id hipv6 f hf).1
    · rfl
    · exact (tagRules_id harp f hf).1
    · exact (registerFastpaths_byLabel hfast f hf).1
  unfold configureDatapath at h
  cases hk : tr.kind with
  | default | satellite =>
    rw [hk] at h
    exact hdefault h
  | noviFlow =>
    rw [hk] at h
    obtain ⟨_, hok⟩ := (noviFlowConfigureDatapath_ok_iff hfp).mp ⟨rms, h⟩
    simp only at h
    rw [noviFlowConfigureDatapath_eq hfp hok] at h
    obtain rfl := Except.ok.inj h
    intro f hf
    simp only [List.mem_cons, List.mem_append, List.not_mem_nil, or_false] at hf
    rcases hf with (rfl | rfl) | rfl | hf | hf
    · rfl
    · rfl
    · rfl
    · exact (noviFlowFirst_facts hf).2.1
    · exact (registerFastpaths_byLabel hok f hf).1

end Translator

/-! ## On the tables of the allocation -/

/-- RFServer on these tables, with NoviFlow switches and satellites. -/
def FpState.configWith (st : FpState) (multitabledps satellitedps : List Nat) : Config :=
  { st.config with multitabledps := multitabledps, satellitedps := satellitedps }

/-- The rules of a switch after everything is deleted. The link upwards is on the port `u`. -/
structure LabelRules (T : Topology) (pl : Plan) (kind : TranslatorKind) (d u : Nat) (rules : List RouteMod) :
    Prop where
  add : ∀ f ∈ rules, f.mod = .add
  labels : ∀ f, FastRule T pl d u f → f ∈ rules
  others : ∀ f ∈ rules, FastRule T pl d u f ∨ f.level ≤ PRIORITY_HIGH
  quiet : ∀ f ∈ rules, ∀ t, Action.goto t ∈ f.actions → f.actions = [.goto t]
  tables : kind = .noviFlow → ∀ f, f ∈ rules ∧ f.table = Translator.NOVIFLOW_FP_TABLE ↔
    ∃ p ∈ T.conf.rows, p.val.dpId = d ∧ ∃ l, pl.lab p = some l ∧
      f = (T.translator d).pushRule u l p.val.dpPort

section Tree

variable {T : FastPathTopology} {pl : Plan} (h : Allocated T.toWiring pl) (o : Order) {d : Nat} {k : Link}
  (hu : pl.up d = some k)

theorem FastRule.plain {T : Topology} {d u : Nat} {f : RouteMod} (hf : FastRule T pl d u f) :
    f.mod = .add ∧ f.table = 0 ∧ ∀ t, Action.goto t ∉ f.actions := by
  rcases hf with ⟨p, -, -, l, -, rfl⟩ | ⟨c, -, -, -, lv, -, hf⟩
  · refine ⟨rfl, rfl, fun t ht => ?_⟩
    simp [Translator.fpportRule, rfactionPopMeta, rfmatchMeta, RouteMod.addAction, RouteMod.addOption,
      RouteMod.addMatch] at ht
  · simp only [Translator.fpislRules, List.mem_cons, List.not_mem_nil, or_false] at hf
    rcases hf with rfl | rfl
    all_goals
      refine ⟨rfl, rfl, fun t ht => ?_⟩
      simp [rfmatchMeta, RouteMod.addAction, RouteMod.addOption, RouteMod.addMatch] at ht

theorem tagRule_plain {u l q : Nat} {rm : RouteMod} (hact : rm.actions = []) (t : Nat) :
    Action.goto t ∉ (Translator.tagRule u rm l q).actions := by
  simp [Translator.tagRule, rfactionPushMeta, RouteMod.addAction, RouteMod.addMatch, hact]

include h hu

theorem registerFastpaths_tables :
    ∃ rms, (T.translator d).registerFastpaths (T.state pl).config o true Translator.NOVIFLOW_FP_TABLE =
      .ok rms ∧ ∀ f, f ∈ rms ↔ FastRule T.toTopology pl d (k.portAt d) f ∨ ∃ p ∈ T.conf.rows,
        p.val.dpId = d ∧ ∃ l, pl.lab p = some l ∧
        f = (T.translator d).pushRule (k.portAt d) l p.val.dpPort := by
  obtain ⟨rms, hrms, hmem⟩ := registerFastpaths_up h o hu 1
  obtain ⟨ports, ports', hports, hports', hmemp⟩ := @Translator.registerFpports_tables (T.translator d)
    (k.portAt d) 1 _
    (ports_labelled h o hu)
  unfold Translator.registerFastpaths at hrms ⊢
  rw [getFastpathPort_up h o hu] at hrms ⊢
  obtain ⟨mp, hmp, hrms⟩ := bind_eq_ok.mp hrms
  obtain rfl := Except.ok.inj hmp
  obtain ⟨ports₀, hports₀, hrms⟩ := bind_eq_ok.mp hrms
  obtain ⟨isls, hisls, hrms⟩ := bind_eq_ok.mp hrms
  obtain rfl := Except.ok.inj hrms
  obtain rfl := Except.ok.inj (hports.symm.trans hports₀)
  refine ⟨ports' ++ isls, ?_, fun f => ?_⟩
  · rw [show (T.translator d).ctId = T.ct from rfl, show (T.translator d).dpId = d from rfl]
    simp only [bind, Except.bind, hports', hisls]
    rfl
  · have hport :
        (∃ c ∈ (RFConfig.getConfigForDp o (T.state pl).config.config T.ct d).map (fun r => r.val), ∃ l,
          c.fpLabel = some l ∧ f = (T.translator d).pushRule (k.portAt d) l c.dpPort) ↔
        ∃ p ∈ T.conf.rows, p.val.dpId = d ∧ ∃ l, pl.lab p = some l ∧
          f = (T.translator d).pushRule (k.portAt d) l p.val.dpPort := by
      constructor
      · rintro ⟨c, hc, l, hl, rfl⟩
        obtain ⟨p, hp, hd, rfl⟩ := (mem_ports o c).mp hc
        exact ⟨p, hp, hd, l, hl, rfl⟩
      · rintro ⟨p, hp, hd, l, hl, rfl⟩
        exact ⟨pl.portVal p, (mem_ports o _).mpr ⟨p, hp, hd, rfl⟩, l, hl, rfl⟩
    rw [← hmem, ← hport, List.mem_append, List.mem_append, hmemp]
    exact or_right_comm

theorem defaultConfigureDatapath_rules : ∃ rules,
    (T.translator d).defaultConfigureDatapath (T.state pl).config o =
      .ok ([{ mod := .deleteGroup, id := d }] ++ { mod := .delete, id := d } :: rules) ∧
    ∀ kind, kind ≠ .noviFlow → LabelRules T.toTopology pl kind d (k.portAt d) rules := by
  let new : RouteMod := { mod := .add, id := d }
  obtain ⟨ip, hip, hipm⟩ := handleControllerRouteMod_up h o hu
    ((new.addOption ESTABLISH_PRIORITY).addMatch (.ethertype ETHERTYPE_IP)) rfl
  obtain ⟨ipv6, hipv6, hipv6m⟩ := handleControllerRouteMod_up h o hu
    ((new.addOption ESTABLISH_PRIORITY).addMatch (.ethertype ETHERTYPE_IPV6)) rfl
  obtain ⟨arp, harp, harpm⟩ := handleControllerRouteMod_up h o hu
    ((new.addMatch (.ethertype ETHERTYPE_ARP)).addOption CONTROLLER_PRIORITY) rfl
  obtain ⟨fast, hfast, hfastm⟩ := registerFastpaths_up h o hu 1
  -- What the other rules have in common.
  have hother : ∀ f ∈ ip ++ ipv6 ++ [new.addOption DROP_PRIORITY] ++ arp,
      f.mod = .add ∧ f.level ≤ PRIORITY_HIGH ∧ ∀ t, Action.goto t ∉ f.actions := by
    intro f hf
    simp only [List.mem_append, List.mem_singleton] at hf
    rcases hf with ((hf | hf) | rfl) | hf
    · obtain ⟨p, -, -, l, -, rfl⟩ := (hipm f).mp hf
      exact ⟨rfl, RouteMod.level_le rfl (by decide), tagRule_plain rfl⟩
    · obtain ⟨p, -, -, l, -, rfl⟩ := (hipv6m f).mp hf
      exact ⟨rfl, RouteMod.level_le rfl (by decide), tagRule_plain rfl⟩
    · exact ⟨rfl, RouteMod.level_le rfl (by decide), fun t => List.not_mem_nil⟩
    · obtain ⟨p, -, -, l, -, rfl⟩ := (harpm f).mp hf
      exact ⟨rfl, RouteMod.level_le rfl (by decide), tagRule_plain rfl⟩
  refine ⟨ip ++ ipv6 ++ [new.addOption DROP_PRIORITY] ++ arp ++ fast, ?_,
    fun kind hkind => ⟨?_, ?_, ?_, ?_, ?_⟩⟩
  · rw [Translator.defaultConfigureDatapath]
    simp only [show (T.translator d).dpId = d from rfl]
    simp only [bind, Except.bind, new] at hip hipv6 harp ⊢
    rw [hip]
    simp only [hipv6, harp, fpEnabled_state, if_true, hfast]
    rfl
  · intro f hf
    rcases List.mem_append.mp hf with hf | hf
    · exact (hother f hf).1
    · exact ((hfastm f).mp hf).plain.1
  · exact fun f hf => List.mem_append_right _ ((hfastm f).mpr hf)
  · intro f hf
    rcases List.mem_append.mp hf with hf | hf
    · exact Or.inr (hother f hf).2.1
    · exact Or.inl ((hfastm f).mp hf)
  · intro f hf t ht
    rcases List.mem_append.mp hf with hf | hf
    · exact absurd ht ((hother f hf).2.2 t)
    · exact absurd ht (((hfastm f).mp hf).plain.2.2 t)
  · exact fun hk => absurd hk hkind

theorem noviFlowConfigureDatapath_rules : ∃ first rules,
    (T.translator d).noviFlowConfigureDatapath (T.state pl).config o =
      .ok (first ++ { mod := .delete, id := d } :: rules) ∧
    LabelRules T.toTopology pl .noviFlow d (k.portAt d) rules := by
  obtain ⟨fast, hfast, hmem⟩ := registerFastpaths_tables h o hu
  refine ⟨_, _, Translator.noviFlowConfigureDatapath_eq (fpEnabled_state T pl) hfast, ?_, ?_, ?_, ?_, ?_⟩
  · intro f hf
    rcases List.mem_append.mp hf with hf | hf
    · exact (Translator.noviFlowFirst_facts hf).1
    · rcases (hmem f).mp hf with hf | ⟨p, -, -, l, -, rfl⟩
      · exact hf.plain.1
      · rfl
  · exact fun f hf => List.mem_append_right _ ((hmem f).mpr (Or.inl hf))
  · intro f hf
    rcases List.mem_append.mp hf with hf | hf
    · exact Or.inr (Translator.noviFlowFirst_facts hf).2.2.2.1
    · rcases (hmem f).mp hf with hf | ⟨p, -, -, l, -, rfl⟩
      · exact Or.inl hf
      · exact Or.inr (RouteMod.level_le rfl (Nat.le_refl _))
  · intro f hf t ht
    rcases List.mem_append.mp hf with hf | hf
    · exact (Translator.noviFlowFirst_facts hf).2.2.2.2 t ht
    · rcases (hmem f).mp hf with hf | ⟨p, -, -, l, -, rfl⟩
      · exact absurd ht (hf.plain.2.2 t)
      · simp [Translator.pushRule, rfactionPushMeta, RouteMod.setTable, RouteMod.addOption,
          RouteMod.addAction, RouteMod.addMatch] at ht
  · rintro - f
    constructor
    · rintro ⟨hf, htable⟩
      rcases List.mem_append.mp hf with hf | hf
      · exact absurd htable (Translator.noviFlowFirst_facts hf).2.2.1
      · refine ((hmem f).mp hf).resolve_left fun hfast => ?_
        rw [hfast.plain.2.1] at htable
        cases htable
    · rintro ⟨p, hp, hd, l, hl, rfl⟩
      exact ⟨List.mem_append_right _ ((hmem _).mpr (Or.inr ⟨p, hp, hd, l, hl, rfl⟩)), rfl⟩

theorem configureDatapath_rules (multitabledps satellitedps : List Nat) :
    let cfg := (T.state pl).configWith multitabledps satellitedps
    let tr := Server.newTranslator cfg T.ct d
    ∃ first rules, tr.configureDatapath cfg o = .ok (first ++ { mod := .delete, id := d } :: rules) ∧
      LabelRules T.toTopology pl tr.kind d (k.portAt d) rules := by
  intro cfg tr
  have htr : tr = { T.translator d with kind := tr.kind } := rfl
  obtain ⟨rules, hok, hrules⟩ := defaultConfigureDatapath_rules h o hu
  obtain ⟨first, rules', hok', hrules'⟩ := noviFlowConfigureDatapath_rules h o hu
  have hdefault : tr.defaultConfigureDatapath cfg o =
    (T.translator d).defaultConfigureDatapath (T.state pl).config o := by
    rw [htr]
    exact Translator.defaultConfigureDatapath_kind ..
  have hnoviFlow : tr.noviFlowConfigureDatapath cfg o =
      (T.translator d).noviFlowConfigureDatapath (T.state pl).config o := by
    rw [htr]
    exact Translator.noviFlowConfigureDatapath_kind ..
  unfold Translator.configureDatapath
  rw [hdefault, hnoviFlow]
  cases hk : tr.kind with
  | default => exact ⟨_, rules, hok, hrules _ (by simp)⟩
  | satellite => exact ⟨_, rules, hok, hrules _ (by simp)⟩
  | noviFlow => exact ⟨first, rules', hok', hrules'⟩

end Tree

/-! ## In every run -/

/-- The datapaths register with the one controller, and the clients send what they may. -/
def Admissible (ct : Nat) (e : Order × Msg) : Prop :=
  (∀ c d p, e.2 = .datapathPortRegister c d p → c = ct) ∧ ∀ rm, e.2 = .routeMod rm → rm.FromClient

/-- The queue of a datapath that has a translator: what `configure_datapath` gives, and then RouteMods that
leave the fast paths alone. -/
def Begun (cfg : Config) (ct d : Nat) (q : List (Nat × RouteMod)) : Prop :=
  ∃ o rms more, (Server.newTranslator cfg ct d).configureDatapath cfg o = .ok rms ∧
    q = rms.map (fun f => (ct, f.addOption (.ctId ct))) ++ more ∧ ∀ y ∈ more, y.2.Tame

theorem Begun.append {cfg : Config} {ct d : Nat} {q q' : List (Nat × RouteMod)} (h : Begun cfg ct d q)
    (h' : ∀ y ∈ q', y.2.Tame) : Begun cfg ct d (q ++ q') := by
  obtain ⟨o, rms, more, hok, rfl, hmore⟩ := h
  refine ⟨o, rms, more ++ q', hok, List.append_assoc .., fun y hy => ?_⟩
  rcases List.mem_append.mp hy with hy | hy
  · exact hmore y hy
  · exact h' y hy

/-- The invariant, for the datapaths `served` that can be configured. -/
structure Begins (cfg : Config) (ct : Nat) (served : Nat → Prop) (s : Server) : Prop where
  new : ∀ d, s.owners d = none → queuedFor d s.dpQ = []
  owned : ∀ d, (s.owners d).isSome → served d → Begun cfg ct d (queuedFor d s.dpQ)

section Runs

variable {cfg : Config} {ct : Nat} {served : Nat → Prop} {o : Order} {s s' : Server}

theorem Begins.same (h : Begins cfg ct served s) (hsame : SameFlows s s') : Begins cfg ct served s' := by
  have ho := hsame.owners
  refine ⟨fun d hd => ?_, fun d hd hserved => ?_⟩
  · rw [hsame.2]
    exact h.new d (by rw [← ho, hd])
  · rw [hsame.2]
    exact h.owned d (by rw [← ho]; exact hd) hserved

theorem registerDpPort_begins (cfg : Config) (o : Order) (s : Server) (c d p : Nat) :
    SameFlows s (Server.registerDpPort cfg o s c d p).1 ∨
      Configures cfg o c d s (Server.registerDpPort cfg o s c d p).1 ∧
        ∀ rms, (Server.newTranslator cfg c d).configureDatapath cfg o = .ok rms →
          (Server.registerDpPort cfg o s c d p).1.dpQ =
            s.dpQ ++ rms.map fun f => (c, f.addOption (.ctId c)) := by
  obtain ⟨htrs, hq⟩ := registerDpPort_sameFlows cfg o s c d p
  refine (registerDpPort_flows cfg o s c d p).imp id fun hconf => ⟨hconf, fun rms hok => ?_⟩
  rcases configDp_cases cfg o s c d with hsame | ⟨res, hres, hall⟩
  · have hd := congrFun (hconf.translators.symm.trans (htrs.trans hsame)) d
    rw [Function.update_self, hconf.new] at hd
    cases hd
  · rw [hq, hall rms (hres.symm.trans hok)]

theorem Begins.configures (hfp : cfg.fpEnabled = true) (h : Begins cfg ct served s) {d : Nat}
    (hok : served d → ∃ rms, (Server.newTranslator cfg ct d).configureDatapath cfg o = .ok rms)
    (hconf : Configures cfg o ct d s s')
    (hq : ∀ rms, (Server.newTranslator cfg ct d).configureDatapath cfg o = .ok rms →
      s'.dpQ = s.dpQ ++ rms.map fun f => (ct, f.addOption (.ctId ct))) : Begins cfg ct served s' := by
  have hids : ∀ {rms}, (Server.newTranslator cfg ct d).configureDatapath cfg o = .ok rms → ∀ e,
      queuedFor e (rms.map fun f => (ct, f.addOption (.ctId ct))) =
        if e = d then rms.map (fun f => (ct, f.addOption (.ctId ct))) else [] := by
    intro rms hrms e
    have hid : ∀ f ∈ rms, f.id = d := Translator.configureDatapath_id hfp hrms
    unfold queuedFor
    split
    · rename_i he
      refine List.filter_eq_self.mpr fun y hy => ?_
      obtain ⟨f, hf, rfl⟩ := List.mem_map.mp hy
      exact decide_eq_true ((hid f hf).trans he.symm)
    · rename_i he
      refine List.filter_eq_nil_iff.mpr fun y hy => ?_
      obtain ⟨f, hf, rfl⟩ := List.mem_map.mp hy
      exact fun hx => he ((of_decide_eq_true hx).symm.trans (hid f hf))
  have howners : ∀ e, e ≠ d → s'.owners e = s.owners e := by
    intro e he
    simp [Server.owners, hconf.translators, he]
  have hothers : ∀ e, e ≠ d → queuedFor e s'.dpQ = queuedFor e s.dpQ := by
    intro e he
    rcases hconf.queue with hsame | ⟨rms, hrms, happ⟩
    · rw [hsame]
    · rw [happ, queuedFor_append, hids hrms, if_neg he, List.append_nil]
  refine ⟨fun e he => ?_, fun e he hserved => ?_⟩
  · by_cases hed : e = d
    · simp [Server.owners, hconf.translators, hed] at he
    · rw [hothers e hed]
      exact h.new e (by rw [← howners e hed, he])
  · by_cases hed : e = d
    · subst hed
      obtain ⟨rms, hrms⟩ := hok hserved
      refine ⟨o, rms, [], hrms, ?_, by simp⟩
      rw [hq rms hrms, queuedFor_append, h.new e (by simp [Server.owners, hconf.new]), hids hrms, if_pos rfl,
        List.nil_append, List.append_nil]
    · rw [hothers e hed]
      exact h.owned e (by rw [← howners e hed]; exact he) hserved

theorem Begins.append (h : Begins cfg ct served s) (ho : s'.owners = s.owners) {new : List (Nat × RouteMod)}
    (hq : s'.dpQ = s.dpQ ++ new) (hnew : ∀ y ∈ new, (s.owners y.2.id).isSome ∧ y.2.Tame) :
    Begins cfg ct served s' := by
  refine ⟨fun d hd => ?_, fun d hd hserved => ?_⟩
  · rw [ho] at hd
    rw [hq, queuedFor_append, h.new d hd, List.nil_append]
    refine List.filter_eq_nil_iff.mpr fun y hy hid => ?_
    have hsome := (hnew y hy).1
    rw [beq_iff_eq.mp hid, hd] at hsome
    cases hsome
  · rw [ho] at hd
    rw [hq, queuedFor_append]
    exact (h.owned d hd hserved).append fun y hy => (hnew y (List.mem_of_mem_filter hy)).2

theorem registerRouteMod_begins {h : History} (o : Order) {rm : RouteMod} (hrm : rm.FromClient)
    (hs : Begins cfg ct served (run (Server.step cfg) Server.init h)) :
    Begins cfg ct served (Server.registerRouteMod cfg o (run (Server.step cfg) Server.init h) rm).1 := by
  obtain ⟨hrf, hisl⟩ := run_shaped cfg h
  have ho := registerRouteMod_owners cfg o (run (Server.step cfg) Server.init h) rm
  rcases registerRouteMod_queue hrf hisl cfg o rm with ⟨row, x, tr, hrow, hx, htr, htrans⟩ | ⟨-, hq⟩
  · refine hs.append ho (registerRouteMod_attributed hrf hisl hrow hx htr htrans).2 fun y hy => ?_
    obtain ⟨z, hz, rfl⟩ := List.mem_map.mp hy
    obtain ⟨⟨hid, -⟩, hsome, -⟩ := mem_attributed hrf rfl hisl (run_wellKeyed cfg h) hx htr rm hz
    refine ⟨?_, (attributed_tame hrf rfl hisl hx hrm hz).addOption_ctId _⟩
    have hid' : (z.2.addOption (.ctId x.ctId)).id = z.1.dpId := hid
    rw [hid', Server.owners, Option.isSome_map]
    exact hsome
  · exact hs.append ho (hq.trans (List.append_nil _).symm) (by simp)

theorem run_begins (hfp : cfg.fpEnabled = true)
    (hok : ∀ d, served d → ∀ o, ∃ rms, (Server.newTranslator cfg ct d).configureDatapath cfg o = .ok rms)
    (h : History) (hh : ∀ e ∈ h, Admissible ct e) :
    Begins cfg ct served (run (Server.step cfg) Server.init h) := by
  induction h using List.reverseRecOn with
  | nil => exact ⟨fun _ _ => rfl, fun _ hd => by simp [Server.owners, Server.init] at hd⟩
  | append_singleton h e ih =>
    have hs := ih fun e he => hh e (List.mem_append_left _ he)
    obtain ⟨hct, hclient⟩ := hh e (List.mem_append_right _ List.mem_cons_self)
    obtain ⟨o, msg⟩ := e
    rw [run_snoc]
    cases msg with
    | routeMod rm => exact registerRouteMod_begins o (hclient rm rfl) hs
    | datapathPortRegister c d p =>
      obtain rfl := hct c d p rfl
      rcases registerDpPort_begins cfg o (run (Server.step cfg) Server.init h) c d p with hsame | ⟨hconf, hq⟩
      · exact hs.same hsame
      · exact hs.configures hfp (fun hserved => hok d hserved o) hconf hq
    | portRegister v p m => exact hs.same (registerVmPort_sameFlows v p m)
    | datapathDown c d => exact hs.same (setDpDown_sameFlows c d)
    | virtualPlaneMap v p vs vp => exact hs.same (mapPort_sameFlows v p vs vp)
    | routeModReply =>
      rcases @process_flows cfg o (run (Server.step cfg) Server.init h) .routeModReply (by simp) with
        hsame | ⟨c, d, p, hmsg, -⟩
      · exact hs.same hsame
      · cases hmsg

end Runs

end RouteFlow
