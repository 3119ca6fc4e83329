import RouteFlow.Flows
import RouteFlow.WayUp

/-!
# configure_datapath with fast paths

`_register_fpports` skips a port without a label, and `_get_fastpath_port` returns `None` when no link leads
up. The default translator reads the label all the same, and both translators put the `None` into rules.
-/

namespace RouteFlow

open Store Run

namespace Translator

variable (cfg : Config) (o : Order) (tr : Translator)

/-- The configured ports of the datapath. -/
def dpPorts : List RFConfigEntry := (RFConfig.getConfigForDp o cfg.config tr.ctId tr.dpId).map fun r => r.val

/-- The tables that `configure_datapath` closes with a drop. -/
def dropTables : List Nat :=
  match tr.kind with
  | .noviFlow => [0, NOVIFLOW_ETHER_TABLE, NOVIFLOW_FIB_TABLE]
  | _ => [0]

/-- The list has a rule that takes packets of one type to the controller. The default translator has one
for each port, which tags the packet and sends it up. -/
def ToController (rms : List RouteMod) (type : Nat) : Prop :=
  (∃ f ∈ rms, f.mod = .add ∧ f.id = tr.dpId ∧ .ethertype type ∈ f.matchList) ∧
  match tr.kind with
  | .noviFlow => ∃ f ∈ rms, f.mod = .add ∧ f.id = tr.dpId ∧ f.matchList = [.ethertype type] ∧
      f.actions = [.goto NOVIFLOW_FP_TABLE]
  | _ => ∀ p ∈ tr.dpPorts cfg o, ∃ u l, tr.getFastpathPort cfg o = .ok (some u) ∧ p.fpLabel = some l ∧
      ∃ f ∈ rms, f.mod = .add ∧ f.id = tr.dpId ∧ f.matchList = [.ethertype type, .inPort p.dpPort] ∧
        f.actions = [.setVlanId l, .output u]

/-- What each datapath should get: everything old is deleted, the rest is dropped, and ARP and IP go to the
controller. -/
structure Configures (rms : List RouteMod) : Prop where
  deleteGroups : { mod := .deleteGroup, id := tr.dpId } ∈ rms
  deleteFlows : { mod := .delete, id := tr.dpId } ∈ rms
  drop : ∀ t ∈ tr.dropTables, (({ mod := .add, id := tr.dpId } : RouteMod).setTable t).addOption
    DROP_PRIORITY ∈ rms
  controller : ∀ type ∈ [ETHERTYPE_IP, ETHERTYPE_IPV6, ETHERTYPE_ARP], tr.ToController cfg o rms type

/-- The tables have what `configure_datapath` uses without a check. Labels are at a port of the datapath, or
come over a link that the datapath is the master of. -/
structure Ready : Prop where
  labelled : tr.kind ≠ .noviFlow → ∀ p ∈ tr.dpPorts cfg o, p.fpLabel.isSome
  listed : ∀ fp ∈ tr.fpEntries cfg o, fp.fpMaster = some (tr.dpId : Int) → fp.fastPaths.isSome
  up : (∃ p ∈ tr.dpPorts cfg o, p.fpLabel.isSome) ∨
      (∃ fp ∈ tr.fpEntries cfg o, fp.fpMaster = some (tr.dpId : Int) ∧ fp.fastPaths ≠ some []) →
    ∃ fp ∈ tr.fpEntries cfg o, tr.isUp fp = true

/-- The default translator makes its ARP and IP rules port by port, so it needs a port. -/
def Ported : Prop := tr.kind = .noviFlow ∨ tr.dpPorts cfg o ≠ []

variable {cfg o tr}

/-! ## When the helpers return -/

theorem tagRules_ok_iff (mp : Option Nat) (rm : RouteMod) (ports : List RFConfigEntry) :
    (∃ rms, tagRules mp rm ports = .ok rms) ↔ ∀ p ∈ ports, p.fpLabel.isSome ∧ mp.isSome := by
  constructor
  · rintro ⟨rms, h⟩
    induction ports generalizing rms with
    | nil => simp
    | cons port rest ih =>
      rw [tagRules] at h
      split at h
      · cases h
      · rename_i l hl
        obtain ⟨a, ha, h⟩ := bind_eq_ok.mp h
        obtain ⟨more, hmore, -⟩ := bind_eq_ok.mp h
        refine List.forall_mem_cons.mpr ⟨⟨by rw [hl]; rfl, ?_⟩, ih more hmore⟩
        cases mp with
        | none => cases ha
        | some u => rfl
  · intro h
    cases ports with
    | nil => exact ⟨[], rfl⟩
    | cons port rest =>
      obtain ⟨u, rfl⟩ := Option.isSome_iff_exists.mp (h port List.mem_cons_self).2
      obtain ⟨rms, hrms, -⟩ := tagRules_labelled u rm fun p hp => (h p hp).1
      exact ⟨rms, hrms⟩

theorem registerFpports_ok_iff (mp : Option Nat) (usetables : Bool) (fpTable : Nat)
    (ports : List RFConfigEntry) :
    (∃ rms, tr.registerFpports mp usetables fpTable ports = .ok rms) ↔ ∀ p ∈ ports, p.fpLabel.isSome →
    mp.isSome := by
  induction ports with
  | nil => exact iff_of_true ⟨[], rfl⟩ (by simp)
  | cons port rest ih =>
    rw [List.forall_mem_cons, ← ih, registerFpports]
    cases hl : port.fpLabel with
    | none => simp
    | some l =>
      cases mp with
      | none =>
        refine iff_of_false ?_ (by simp)
        rintro ⟨rms, h⟩
        cases usetables <;> simp [Action.OUTPUT, Match.IN_PORT, bind, Except.bind, pure, Except.pure] at h
      | some u =>
        cases tr.registerFpports (some u) usetables fpTable rest <;> cases usetables <;>
          simp [Action.OUTPUT, Match.IN_PORT, bind, Except.bind, pure, Except.pure]

theorem registerFpisls_ok_iff (mp : Option Nat) {fps : List FpEntry}
    (hport : ∀ fp ∈ fps, ∃ q, tr.portOn fp = .ok q) :
    (∃ rms, tr.registerFpisls mp fps = .ok rms) ↔ ∀ fp ∈ fps, fp.fpMaster = some (tr.dpId : Int) →
      fp.fastPaths.isSome ∧ (fp.fastPaths ≠ some [] → mp.isSome) := by
  induction fps with
  | nil => exact iff_of_true ⟨[], rfl⟩ (by simp)
  | cons fp rest ih =>
    obtain ⟨⟨q, hq⟩, hrest⟩ := List.forall_mem_cons.mp hport
    rw [List.forall_mem_cons, ← ih hrest, registerFpisls]
    by_cases hm : fp.fpMaster = some (tr.dpId : Int)
    · have hone : (∃ rms, tr.registerFpisl mp fp q = .ok rms) ↔
          fp.fastPaths.isSome ∧ (fp.fastPaths ≠ some [] → mp.isSome) := by
        unfold registerFpisl
        cases hp : fp.fastPaths with
        | none => simp
        | some paths =>
          cases paths with
          | nil => simp
          | cons lv paths => cases mp <;> simp
      rw [if_pos hm, ← hone]
      simp only [hm, forall_const]
      constructor
      · rintro ⟨rms, h⟩
        obtain ⟨q', hq', h⟩ := bind_eq_ok.mp h
        obtain rfl := Except.ok.inj (hq.symm.trans hq')
        obtain ⟨one, hone, h⟩ := bind_eq_ok.mp h
        obtain ⟨more, hmore, -⟩ := bind_eq_ok.mp h
        exact ⟨⟨one, hone⟩, more, hmore⟩
      · rintro ⟨⟨one, hone⟩, more, hmore⟩
        exact ⟨one ++ more, by simp only [hq, hone, hmore, bind, Except.bind, pure, Except.pure]⟩
    · rw [if_neg hm]
      simp [hm]

theorem registerFastpaths_ok_iff (usetables : Bool) (fpTable : Nat) {mp : Option Nat}
    (hmp : tr.getFastpathPort cfg o = .ok mp) :
    (∃ rms, tr.registerFastpaths cfg o usetables fpTable = .ok rms) ↔
      (∀ p ∈ tr.dpPorts cfg o, p.fpLabel.isSome → mp.isSome) ∧
      ∀ fp ∈ tr.fpEntries cfg o, fp.fpMaster = some (tr.dpId : Int) →
        fp.fastPaths.isSome ∧ (fp.fastPaths ≠ some [] → mp.isSome) := by
  rw [← registerFpports_ok_iff mp usetables fpTable, ← registerFpisls_ok_iff mp fun fp => portOn_ok,
    registerFastpaths, hmp]
  constructor
  · rintro ⟨rms, h⟩
    obtain ⟨mp', hmp', h⟩ := bind_eq_ok.mp h
    obtain rfl := Except.ok.inj hmp'
    obtain ⟨ports, hports, h⟩ := bind_eq_ok.mp h
    obtain ⟨isls, hisls, -⟩ := bind_eq_ok.mp h
    exact ⟨⟨ports, hports⟩, isls, hisls⟩
  · rintro ⟨⟨ports, hports⟩, isls, hisls⟩
    refine ⟨ports ++ isls, ?_⟩
    have hports' : tr.registerFpports mp usetables fpTable
        ((RFConfig.getConfigForDp o cfg.config tr.ctId tr.dpId).map fun r => r.val) = .ok ports := hports
    simp only [bind, Except.bind, hports', hisls, pure, Except.pure]

/-! ## The default translator -/

theorem defaultHandleControllerRouteMod_eq (hfp : cfg.fpEnabled = true) {mp : Option Nat}
    (hmp : tr.getFastpathPort cfg o = .ok mp) {rm : RouteMod}
    (hrm : rm.matchList.any Match.isInPort = false) :
    tr.defaultHandleControllerRouteMod cfg o rm = tagRules mp rm (tr.dpPorts cfg o) := by
  rw [defaultHandleControllerRouteMod, if_pos hfp, hmp]
  simp only [bind, Except.bind, hrm, Bool.false_eq_true, if_false]
  rfl

theorem defaultConfigureDatapath_ok_iff (hfp : cfg.fpEnabled = true) {mp : Option Nat}
    (hmp : tr.getFastpathPort cfg o = .ok mp) :
    (∃ rms, tr.defaultConfigureDatapath cfg o = .ok rms) ↔
      (∀ p ∈ tr.dpPorts cfg o, p.fpLabel.isSome ∧ mp.isSome) ∧
      ∃ rms, tr.registerFastpaths cfg o false 1 = .ok rms := by
  have htag : ∀ rm : RouteMod, rm.matchList.any Match.isInPort = false →
      ((∃ rms, tr.defaultHandleControllerRouteMod cfg o rm = .ok rms) ↔
        ∀ p ∈ tr.dpPorts cfg o, p.fpLabel.isSome ∧ mp.isSome) := by
    intro rm hrm
    rw [defaultHandleControllerRouteMod_eq hfp hmp hrm]
    exact tagRules_ok_iff mp rm _
  rw [defaultConfigureDatapath]
  constructor
  · rintro ⟨rms, h⟩
    obtain ⟨ip, hip, h⟩ := bind_eq_ok.mp h
    obtain ⟨ipv6, -, h⟩ := bind_eq_ok.mp h
    obtain ⟨arp, -, h⟩ := bind_eq_ok.mp h
    simp only [if_pos hfp] at h
    obtain ⟨fast, hfast, -⟩ := bind_eq_ok.mp h
    exact ⟨(htag _ rfl).mp ⟨ip, hip⟩, fast, hfast⟩
  · rintro ⟨hports, fast, hfast⟩
    obtain ⟨ip, hip⟩ := (htag
      ((({ mod := .add, id := tr.dpId } : RouteMod).addOption ESTABLISH_PRIORITY).addMatch
        (.ethertype ETHERTYPE_IP)) rfl).mpr hports
    obtain ⟨ipv6, hipv6⟩ := (htag
      ((({ mod := .add, id := tr.dpId } : RouteMod).addOption ESTABLISH_PRIORITY).addMatch
        (.ethertype ETHERTYPE_IPV6)) rfl).mpr hports
    obtain ⟨arp, harp⟩ := (htag
      ((({ mod := .add, id := tr.dpId } : RouteMod).addMatch (.ethertype ETHERTYPE_ARP)).addOption
        CONTROLLER_PRIORITY) rfl).mpr hports
    exact ⟨_, by simp only [hip, hipv6, harp, hfast, if_pos hfp, bind, Except.bind, pure, Except.pure]; rfl⟩

theorem tagRules_each {mp : Option Nat} {rm : RouteMod} {ports : List RFConfigEntry} {rms : List RouteMod}
    (h : tagRules mp rm ports = .ok rms) {p : RFConfigEntry} (hp : p ∈ ports) :
    ∃ u l, mp = some u ∧ p.fpLabel = some l ∧ tagRule u rm l p.dpPort ∈ rms := by
  have hall := (tagRules_ok_iff mp rm ports).mp ⟨rms, h⟩
  obtain ⟨u, rfl⟩ := Option.isSome_iff_exists.mp (hall p hp).2
  obtain ⟨l, hl⟩ := Option.isSome_iff_exists.mp (hall p hp).1
  obtain ⟨rms', hrms', hmem⟩ := tagRules_labelled u rm fun q hq => (hall q hq).1
  obtain rfl := Except.ok.inj (h.symm.trans hrms')
  exact ⟨u, l, rfl, hl, (hmem _).mpr ⟨p, hp, l, hl, rfl⟩⟩

theorem defaultConfigureDatapath_configures (hfp : cfg.fpEnabled = true) (hk : tr.kind ≠ .noviFlow)
    (hports : tr.dpPorts cfg o ≠ []) {rms : List RouteMod} (h : tr.defaultConfigureDatapath cfg o = .ok rms) :
    tr.Configures cfg o rms := by
  obtain ⟨mp, hmp, -⟩ := @getFastpathPort_ok cfg o tr
  obtain ⟨ip, hip, h⟩ := bind_eq_ok.mp h
  obtain ⟨ipv6, hipv6, h⟩ := bind_eq_ok.mp h
  obtain ⟨arp, harp, h⟩ := bind_eq_ok.mp h
  simp only [if_pos hfp] at h
  obtain ⟨fast, -, h⟩ := bind_eq_ok.mp h
  rw [defaultHandleControllerRouteMod_eq hfp hmp rfl] at hip hipv6 harp
  obtain rfl := Except.ok.inj h
  refine ⟨by simp, by simp, ?_, ?_⟩
  · intro t ht
    obtain rfl : t = 0 := by
      unfold dropTables at ht
      split at ht
      · rename_i hk'
        exact absurd hk' hk
      · exact List.mem_singleton.mp ht
    simp [RouteMod.setTable]
  · have htype : ∀ {rm : RouteMod} {type : Nat} {part : List RouteMod},
      tagRules mp rm (tr.dpPorts cfg o) = .ok part →
        rm.mod = .add → rm.id = tr.dpId → rm.matchList = [.ethertype type] → rm.actions = [] →
        ∀ whole, (∀ f ∈ part, f ∈ whole) → tr.ToController cfg o whole type := by
      intro rm type part hpart hmod hid hmatch hact whole hsub
      have hrule : ∀ p ∈ tr.dpPorts cfg o, ∃ u l, tr.getFastpathPort cfg o = .ok (some u) ∧
        p.fpLabel = some l ∧
          ∃ f ∈ whole, f.mod = .add ∧ f.id = tr.dpId ∧ f.matchList = [.ethertype type, .inPort p.dpPort] ∧
            f.actions = [.setVlanId l, .output u] := by
        intro p hp
        obtain ⟨u, l, rfl, hl, hmem⟩ := tagRules_each hpart hp
        refine ⟨u, l, hmp, hl, _, hsub _ hmem, hmod, hid, ?_, ?_⟩
        · simp [tagRule, rfactionPushMeta, RouteMod.addMatch, RouteMod.addAction, hmatch]
        · simp [tagRule, rfactionPushMeta, RouteMod.addMatch, RouteMod.addAction, hact]
      refine ⟨?_, ?_⟩
      · obtain ⟨p, hp⟩ := List.exists_mem_of_ne_nil _ hports
        obtain ⟨u, l, -, -, f, hf, hadd, hdp, hml, -⟩ := hrule p hp
        exact ⟨f, hf, hadd, hdp, by rw [hml]; exact List.mem_cons_self⟩
      · split
        · rename_i hk'
          exact absurd hk' hk
        · exact hrule
    simp only [List.forall_mem_cons, List.not_mem_nil, false_imp_iff, implies_true, and_true]
    refine ⟨htype hip rfl rfl rfl rfl _ fun f hf => ?_, htype hipv6 rfl rfl rfl rfl _ fun f hf => ?_,
      htype harp rfl rfl rfl rfl _ fun f hf => ?_⟩ <;>
      simp only [List.mem_cons, List.mem_append, hf, true_or, or_true]

theorem defaultConfigureDatapath_portless (hfp : cfg.fpEnabled = true) (hports : tr.dpPorts cfg o = [])
    {rms : List RouteMod} (h : tr.defaultConfigureDatapath cfg o = .ok rms) (type : Nat) :
    ∀ f ∈ rms, .ethertype type ∉ f.matchList := by
  obtain ⟨mp, hmp, -⟩ := @getFastpathPort_ok cfg o tr
  obtain ⟨ip, hip, h⟩ := bind_eq_ok.mp h
  obtain ⟨ipv6, hipv6, h⟩ := bind_eq_ok.mp h
  obtain ⟨arp, harp, h⟩ := bind_eq_ok.mp h
  simp only [if_pos hfp] at h
  obtain ⟨fast, hfast, h⟩ := bind_eq_ok.mp h
  rw [defaultHandleControllerRouteMod_eq hfp hmp rfl, hports] at hip hipv6 harp
  obtain rfl := Except.ok.inj hip
  obtain rfl := Except.ok.inj hipv6
  obtain rfl := Except.ok.inj harp
  obtain rfl := Except.ok.inj h
  intro f hf htype
  simp only [List.append_nil, List.nil_append, List.cons_append, List.mem_cons] at hf
  rcases hf with rfl | rfl | rfl | hf
  · cases htype
  · cases htype
  · cases htype
  · cases (registerFastpaths_byLabel hfast f hf).2 _ htype

/-! ## The NoviFlow translator -/

theorem noviFlowConfigureDatapath_ok_iff (hfp : cfg.fpEnabled = true) :
    (∃ rms, tr.noviFlowConfigureDatapath cfg o = .ok rms) ↔
      ∃ rms, tr.registerFastpaths cfg o true NOVIFLOW_FP_TABLE = .ok rms := by
  rw [noviFlowConfigureDatapath]
  simp only [if_pos hfp]
  cases tr.registerFastpaths cfg o true NOVIFLOW_FP_TABLE with
  | error e => simp [bind, Except.bind]
  | ok fast => exact iff_of_true ⟨_, rfl⟩ ⟨fast, rfl⟩

theorem noviFlowHandleControllerRouteMod_eq (hfp : cfg.fpEnabled = true) {rm : RouteMod} {type : Nat}
    (hrm : rm.matchList = [.ethertype type]) : noviFlowHandleControllerRouteMod cfg rm =
      [((rm.addAction (.goto NOVIFLOW_FP_TABLE)).setTable NOVIFLOW_ETHER_TABLE).setMatches
        [.ethertype type]] := by
  simp [noviFlowHandleControllerRouteMod, hfp, RouteMod.addAction, hrm]

theorem noviFlowConfigureDatapath_configures (hfp : cfg.fpEnabled = true) (hk : tr.kind = .noviFlow)
    {rms : List RouteMod} (h : tr.noviFlowConfigureDatapath cfg o = .ok rms) : tr.Configures cfg o rms := by
  rw [noviFlowConfigureDatapath] at h
  simp only [if_pos hfp] at h
  obtain ⟨fast, -, h⟩ := bind_eq_ok.mp h
  obtain rfl := Except.ok.inj h
  refine ⟨by simp, by simp, ?_, ?_⟩
  · simp only [dropTables, hk]
    intro t ht
    refine List.mem_cons_of_mem _ (List.mem_cons_of_mem _ (List.mem_cons_of_mem _ ?_))
    simp only [List.mem_append]
    exact Or.inl (Or.inl (Or.inl (Or.inl (Or.inr (List.mem_map.mpr ⟨t, ht, rfl⟩)))))
  · simp only [List.forall_mem_cons, List.not_mem_nil, false_imp_iff, implies_true, and_true,
      ToController, hk]
    have hone : ∀ rm : RouteMod, ∀ type, rm.matchList = [.ethertype type] → rm.mod = .add →
      rm.id = tr.dpId →
        rm.actions = [] → ∃ f, noviFlowHandleControllerRouteMod cfg rm = [f] ∧ f.mod = .add ∧
          f.id = tr.dpId ∧ f.matchList = [.ethertype type] ∧ f.actions = [.goto NOVIFLOW_FP_TABLE] := by
      intro rm type hrm hmod hid hact
      refine ⟨_, noviFlowHandleControllerRouteMod_eq hfp hrm, hmod, hid, rfl, ?_⟩
      simp [RouteMod.setMatches, RouteMod.setTable, RouteMod.addAction, hact]
    obtain ⟨ip, hip, hmod₁, hid₁, hmatch₁, hact₁⟩ := hone
      ((({ mod := .add, id := tr.dpId } : RouteMod).addOption ESTABLISH_PRIORITY).addMatch
        (.ethertype ETHERTYPE_IP)) ETHERTYPE_IP rfl rfl rfl rfl
    obtain ⟨ipv6, hipv6, hmod₂, hid₂, hmatch₂, hact₂⟩ := hone
      ((({ mod := .add, id := tr.dpId } : RouteMod).addOption ESTABLISH_PRIORITY).addMatch
        (.ethertype ETHERTYPE_IPV6)) ETHERTYPE_IPV6 rfl rfl rfl rfl
    obtain ⟨arp, harp, hmod₃, hid₃, hmatch₃, hact₃⟩ := hone
      (((({ mod := .add, id := tr.dpId } : RouteMod).setTable NOVIFLOW_ETHER_TABLE).addMatch
        (.ethertype ETHERTYPE_ARP)).addOption CONTROLLER_PRIORITY) ETHERTYPE_ARP rfl rfl rfl rfl
    rw [hip, hipv6, harp]
    have hboth : ∀ {rms : List RouteMod} {type : Nat} {f : RouteMod}, f ∈ rms → f.mod = .add →
      f.id = tr.dpId →
        f.matchList = [.ethertype type] → f.actions = [.goto NOVIFLOW_FP_TABLE] →
        (∃ f ∈ rms, f.mod = .add ∧ f.id = tr.dpId ∧ .ethertype type ∈ f.matchList) ∧
        ∃ f ∈ rms, f.mod = .add ∧ f.id = tr.dpId ∧ f.matchList = [.ethertype type] ∧
          f.actions = [.goto NOVIFLOW_FP_TABLE] := by
      intro rms type f hf hmod hid hmatch hact
      exact ⟨⟨f, hf, hmod, hid, by rw [hmatch]; exact List.mem_cons_self⟩, f, hf, hmod, hid, hmatch, hact⟩
    refine ⟨hboth (f := ip.setTable NOVIFLOW_FIB_TABLE) (by simp) hmod₁ hid₁ hmatch₁ hact₁,
      hboth (f := ipv6.setTable NOVIFLOW_FIB_TABLE) (by simp) hmod₂ hid₂ hmatch₂ hact₂,
      hboth (f := arp) (by simp) hmod₃ hid₃ hmatch₃ hact₃⟩

/-! ## Both -/

theorem configureDatapath_eq_default (hk : tr.kind ≠ .noviFlow) :
    tr.configureDatapath cfg o = tr.defaultConfigureDatapath cfg o := by
  unfold configureDatapath
  split
  · rfl
  · rfl
  · rename_i hk'
    exact absurd hk' hk

theorem configureDatapath_ok_iff (hfp : cfg.fpEnabled = true) :
    (∃ rms, tr.configureDatapath cfg o = .ok rms) ↔ tr.Ready cfg o := by
  obtain ⟨mp, hmp, hup⟩ := @getFastpathPort_ok cfg o tr
  rw [← Option.isSome_iff_ne_none] at hup
  have hfast : ∀ usetables fpTable, (∃ rms, tr.registerFastpaths cfg o usetables fpTable = .ok rms) ↔
      (∀ fp ∈ tr.fpEntries cfg o, fp.fpMaster = some (tr.dpId : Int) → fp.fastPaths.isSome) ∧
      ((∃ p ∈ tr.dpPorts cfg o, p.fpLabel.isSome) ∨
        (∃ fp ∈ tr.fpEntries cfg o, fp.fpMaster = some (tr.dpId : Int) ∧ fp.fastPaths ≠ some []) →
      ∃ fp ∈ tr.fpEntries cfg o, tr.isUp fp = true) := by
    intro usetables fpTable
    rw [registerFastpaths_ok_iff usetables fpTable hmp, ← hup]
    constructor
    · rintro ⟨hports, hlinks⟩
      refine ⟨fun fp hfp hm => (hlinks fp hfp hm).1, ?_⟩
      rintro (⟨p, hp, hl⟩ | ⟨fp, hfp, hm, hne⟩)
      · exact hports p hp hl
      · exact (hlinks fp hfp hm).2 hne
    · rintro ⟨hlisted, hneed⟩
      exact ⟨fun p hp hl => hneed (Or.inl ⟨p, hp, hl⟩),
        fun fp hfp hm => ⟨hlisted fp hfp hm, fun hne => hneed (Or.inr ⟨fp, hfp, hm, hne⟩)⟩⟩
  by_cases hk : tr.kind = .noviFlow
  · have hcall : tr.configureDatapath cfg o = tr.noviFlowConfigureDatapath cfg o := by
      rw [configureDatapath, hk]
    rw [hcall, noviFlowConfigureDatapath_ok_iff hfp, hfast]
    exact ⟨fun h => ⟨fun hne => absurd hk hne, h.1, h.2⟩, fun h => ⟨h.listed, h.up⟩⟩
  · rw [configureDatapath_eq_default hk, defaultConfigureDatapath_ok_iff hfp hmp, hfast]
    constructor
    · rintro ⟨hports, hlisted, hneed⟩
      exact ⟨fun _ p hp => (hports p hp).1, hlisted, hneed⟩
    · intro h
      refine ⟨fun p hp => ⟨h.labelled hk p hp, ?_⟩, h.listed, h.up⟩
      exact hup.mpr (h.up (Or.inl ⟨p, hp, h.labelled hk p hp⟩))

theorem configureDatapath_configures_iff (hfp : cfg.fpEnabled = true) {rms : List RouteMod}
    (h : tr.configureDatapath cfg o = .ok rms) : tr.Configures cfg o rms ↔ tr.Ported cfg o := by
  by_cases hk : tr.kind = .noviFlow
  · rw [configureDatapath, hk] at h
    exact iff_of_true (noviFlowConfigureDatapath_configures hfp hk h) (Or.inl hk)
  · rw [configureDatapath_eq_default hk] at h
    constructor
    · intro hconf
      refine Or.inr fun hports => ?_
      obtain ⟨⟨f, hf, -, -, htype⟩, -⟩ := hconf.controller ETHERTYPE_IP List.mem_cons_self
      exact defaultConfigureDatapath_portless hfp hports h _ f hf htype
    · intro hp
      exact defaultConfigureDatapath_configures hfp hk (hp.resolve_left hk) h

end Translator

/-- If `config_dp` makes a translator for the datapath, its rules are queued. -/
def ConfiguresNew (cfg : Config) (o : Order) (c d : Nat) : Prop :=
  ∀ s : Server, s.routeModTranslator d = none → (Server.configDp cfg o s c d).1.routeModTranslator d ≠ none →
    ∃ rms, (Server.newTranslator cfg c d).Configures cfg o rms ∧
      (Server.configDp cfg o s c d).1.dpQ = s.dpQ ++ rms.map fun f => (c, f.addOption (.ctId c))

/-- Either `config_dp` leaves the table of translators as it is, or it has queued the rules, or
`configure_datapath` has raised. -/
theorem configDp_cases (cfg : Config) (o : Order) (s : Server) (c d : Nat) :
    (Server.configDp cfg o s c d).1.routeModTranslator = s.routeModTranslator ∨
    ∃ res, (Server.newTranslator cfg c d).configureDatapath cfg o = res ∧ ∀ rms, res = .ok rms →
      (Server.configDp cfg o s c d).1.dpQ = s.dpQ ++ rms.map fun f => (c, f.addOption (.ctId c)) := by
  unfold Server.configDp
  split
  · exact Or.inl rfl
  · split
    · split
      · exact Or.inl rfl
      · refine Or.inr ⟨_, rfl, fun rms hok => ?_⟩
        dsimp only
        rw [hok]
        simp only [Server.sendRouteMods_eq]
    · exact Or.inl rfl

/-- `configure_datapath` returns the rules that each datapath should get, and `config_dp` leaves no translator
without them, exactly if the tables are ready for the datapath and it has a port or a NoviFlow translator. -/
theorem config_survives_iff (cfg : Config) (hfp : cfg.fpEnabled = true) (o : Order) (tr : Translator) :
    ((∃ rms, tr.configureDatapath cfg o = .ok rms ∧ tr.Configures cfg o rms) ∧
      (Server.newTranslator cfg tr.ctId tr.dpId = tr → ConfiguresNew cfg o tr.ctId tr.dpId)) ↔
    tr.Ready cfg o ∧ tr.Ported cfg o := by
  rw [← Translator.configureDatapath_ok_iff hfp]
  constructor
  · rintro ⟨⟨rms, hok, hconf⟩, -⟩
    exact ⟨⟨rms, hok⟩, (Translator.configureDatapath_configures_iff hfp hok).mp hconf⟩
  · rintro ⟨⟨rms, hok⟩, hported⟩
    have hconf := (Translator.configureDatapath_configures_iff hfp hok).mpr hported
    refine ⟨⟨rms, hok, hconf⟩, fun hnew s hnone hsome => ?_⟩
    rcases configDp_cases cfg o s tr.ctId tr.dpId with hsame | ⟨res, hres, hq⟩
    · rw [hsame] at hsome
      exact absurd hnone hsome
    · rw [hnew, hok] at hres
      rw [hnew]
      exact ⟨rms, hconf, hq rms hres.symm⟩

/-! ## One controller -/

section Wiring

variable {T : Wiring} {pl : Plan} (h : Allocated T pl) (o : Order) {d : Nat} {tr : Translator}
  (htr : tr.ctId = T.ct ∧ tr.dpId = d)

include h in
theorem master_reachable {k : Link} {m : Int} (hm : pl.master k = some m) (hk : T.Has k) (ha : k.Attached d) :
    T.Reachable d := by
  obtain ⟨-, hpar, -⟩ := h.growing.master k m hm
  have habove := h.growing.above k m hpar
  by_cases hmd : m = d
  · cases k with
    | fp r =>
      obtain rfl : m = -1 := habove
      omega
    | isl r =>
      obtain ⟨e, he, hseen⟩ := h.growing.par_isl r m hpar
      obtain rfl : e = d := Nat.cast_inj.mp (he.symm.trans hmd)
      exact h.growing.reachable e hseen
  · have hdone := h.growing.done k m hk hpar List.not_mem_nil
    rw [Link.far_eq habove ha hmd] at hdone
    exact h.growing.reachable d hdone

include htr in
theorem mem_dpPorts (c : RFConfigEntry) : c ∈ tr.dpPorts (T.state pl).config o ↔
    ∃ p ∈ T.conf.rows, p.val.dpId = d ∧ c = pl.portVal p := by
  rw [Translator.dpPorts, htr.1, htr.2]
  exact mem_ports o c

include htr in
theorem mem_entries_state (e : FpEntry) : e ∈ tr.fpEntries (T.state pl).config o ↔
    ∃ k, T.Has k ∧ k.Attached d ∧ e = pl.fpEntry k := by
  rw [← mem_fpEntries o e, Translator.fpEntries, Translator.fpEntries, htr.1, htr.2]
  rfl

include h htr

omit h in
theorem ported_iff : tr.Ported (T.state pl).config o ↔ tr.kind = .noviFlow ∨ ¬T.Portless d := by
  refine or_congr_right ⟨fun hne hpl => ?_, fun hpl hnil => hpl fun p hp hpd => ?_⟩
  · obtain ⟨c, hc⟩ := List.exists_mem_of_ne_nil _ hne
    obtain ⟨p, hp, hpd, -⟩ := (mem_dpPorts o htr c).mp hc
    exact hpl p hp hpd
  · have hc := (mem_dpPorts o htr (pl.portVal p)).mpr ⟨p, hp, hpd, rfl⟩
    rw [hnil] at hc
    cases hc

theorem ready_unreachable (hd : ¬T.Reachable d) :
    tr.Ready (T.state pl).config o ↔ tr.kind = .noviFlow ∨ T.Portless d := by
  have hlab : ∀ p ∈ T.conf.rows, p.val.dpId = d → pl.lab p = none := by
    intro p hp hpd
    rw [← Option.not_isSome_iff_eq_none, h.growing.lab_iff p hp, hpd]
    exact fun hs => hd (h.growing.reachable d hs)
  have hmaster : ∀ e ∈ tr.fpEntries (T.state pl).config o, e.fpMaster = none := by
    intro e he
    obtain ⟨k, hk, ha, rfl⟩ := (mem_entries_state o htr e).mp he
    have hm : (pl.fpEntry k).fpMaster = pl.master k := by cases k <;> rfl
    rw [hm, Option.eq_none_iff_forall_ne_some]
    exact fun m hm => hd (master_reachable h hm hk ha)
  constructor
  · intro hr
    by_contra hno
    obtain ⟨hk, hpl⟩ := not_or.mp hno
    refine hpl fun p hp hpd => ?_
    have hs := hr.labelled hk _ ((mem_dpPorts o htr _).mpr ⟨p, hp, hpd, rfl⟩)
    have hnone : (pl.portVal p).fpLabel = none := hlab p hp hpd
    rw [hnone] at hs
    exact absurd hs (by simp)
  · intro hor
    refine ⟨fun hk c hc => ?_, fun e he hm => ?_, ?_⟩
    · obtain ⟨p, hp, hpd, -⟩ := (mem_dpPorts o htr c).mp hc
      exact absurd hpd (hor.resolve_left hk p hp)
    · rw [hmaster e he] at hm
      cases hm
    · rintro (⟨c, hc, hs⟩ | ⟨e, he, hm, -⟩)
      · obtain ⟨p, hp, hpd, rfl⟩ := (mem_dpPorts o htr c).mp hc
        have hnone : (pl.portVal p).fpLabel = none := hlab p hp hpd
        rw [hnone] at hs
        exact absurd hs (by simp)
      · rw [hmaster e he] at hm
        cases hm

/-- A switch that cannot be reached is configured only by the NoviFlow translator. -/
theorem configures_unreachable (hd : ¬T.Reachable d) :
    tr.Ready (T.state pl).config o ∧ tr.Ported (T.state pl).config o ↔ tr.kind = .noviFlow := by
  rw [ready_unreachable h o htr hd, ported_iff o htr]
  tauto

/-- A switch with one way up is configured. -/
theorem ready_of_clear {num : Nat → Nat} {n : Nat} (hs : Numbered T pl num n []) (hd : T.Reachable d)
    (hc : T.Clear num d) : tr.Ready (T.state pl).config o := by
  obtain ⟨k, hu⟩ := exists_up h hd
  obtain ⟨hk, ha, -, m, hm, hne, hzero⟩ := up_leads h hs hu
  refine ⟨fun _ c hcp => ?_, fun e he hme => ?_, fun _ => ⟨pl.fpEntry k, ?_, ?_⟩⟩
  · obtain ⟨p, hp, hpd, rfl⟩ := (mem_dpPorts o htr c).mp hcp
    exact (h.growing.lab_iff p hp).mpr (by rw [hpd]; exact h.visited d hd)
  · obtain ⟨c, -, -, rfl⟩ := (mem_entries_state o htr e).mp he
    cases c with
    | fp r => rfl
    | isl r =>
      have hpar := (h.growing.master (.isl r) tr.dpId hme).2.1
      exact (h.growing.paths_iff (.isl r)).mpr (by rw [hpar]; rfl)
  · exact (mem_entries_state o htr _).mpr ⟨k, hk, ha, rfl⟩
  · refine (isUp_fpEntry tr k).mpr ⟨m, hm, fun e => hc.1 (hzero.mp e), ?_⟩
    rw [htr.2]
    exact hne

end Wiring

theorem config_survives_iff_smallChain : ∃ st, fpAllocateLabels .insertion smallChain.read = .ok st ∧
    st.config.fpEnabled = true ∧
    (((∃ rms, (smallChain.translator 6).configureDatapath st.config .insertion = .ok rms ∧
        (smallChain.translator 6).Configures st.config .insertion rms) ∧
      (Server.newTranslator st.config 0 6 = smallChain.translator 6 →
        ConfiguresNew st.config .insertion 0 6)) ↔
    (smallChain.translator 6).Ready st.config .insertion ∧
    (smallChain.translator 6).Ported st.config .insertion) :=
  ⟨_, rfl, rfl, config_survives_iff _ rfl .insertion (smallChain.translator 6)⟩

/-- dp0 is cabled to switch 5 only, and switch 7 has a port. -/
def lonelySwitch : Wiring :=
  { twoCables with
    conf := (memoryTable RFConfigEntry).add { vmId := 1, vmPort := 1, ctId := 0, dpId := 7, dpPort := 1 }
    conf_read := by decide }

theorem config_raises :
    (∃ st, fpAllocateLabels .insertion lonelySwitch.read = .ok st ∧
      (lonelySwitch.translator 7).configureDatapath st.config .insertion = .error .attributeError ∧
      let s := run (Server.step st.config) Server.init
        [(.insertion, .datapathPortRegister 0 7 1), (.insertion, .datapathPortRegister 0 7 2)]
      s.routeModTranslator 7 = some (lonelySwitch.translator 7) ∧ s.dpQ = []) ∧
    (∃ st, fpAllocateLabels .insertion belowZero.read = .ok st ∧
      ({ kind := .noviFlow, dpId := 5, ctId := 0 } : Translator).configureDatapath st.config .insertion =
        .error .typeError) ∧
    ∃ st rms, fpAllocateLabels .insertion smallChain.read = .ok st ∧
      (smallChain.translator 5).configureDatapath st.config .insertion = .ok rms ∧
      ∀ f ∈ rms, ∀ type ∈ [ETHERTYPE_IP, ETHERTYPE_IPV6, ETHERTYPE_ARP], .ethertype type ∉ f.matchList :=
  ⟨⟨_, rfl, rfl, rfl, rfl⟩, ⟨_, rfl, rfl⟩, _, _, rfl, rfl, by decide⟩

end RouteFlow
