import RouteFlow.Owners

/-!
# The order of the priorities

A client gives longer prefixes higher priorities. What is left of them in the flows depends on the translators
of the datapath and of the neighbour: a NoviFlow one sets its own, and the neighbours get the RouteMod as it
leaves the translator of the datapath.
-/

namespace RouteFlow

open Store Run

/-! ## Priorities of a translator -/

/-- The translator that the datapath gets. -/
def kindOf (cfg : Config) (d : Nat) : TranslatorKind := (Server.newTranslator cfg 0 d).kind

theorem run_kind (cfg : Config) (h : History) {d : Nat} {tr : Translator}
    (htr : (run (Server.step cfg) Server.init h).routeModTranslator d = some tr) : tr.kind = kindOf cfg d :=
  run_translators (P := fun d tr => tr.kind = kindOf cfg d)
    ⟨fun _ _ => rfl, fun _ _ _ h => h⟩ h d tr htr

/-- The flow matches the prefix. -/
def RouteMod.IsFor (r : Prefix) (f : RouteMod) : Prop := .ip r.addr r.netmask ∈ f.matchList

/-- The priority of the flows, given that of the RouteMod. -/
def TranslatorKind.priority (k : TranslatorKind) (n : Option Nat) : Option Nat :=
  if k = .noviFlow then some PRIORITY_HIGH else n

def TranslatorKind.routeTable (k : TranslatorKind) : Nat :=
  if k = .noviFlow then Translator.NOVIFLOW_FIB_TABLE else 0

section Translators

variable {o : Order} {rf : RFTable} {isl : RFISLTable} (hs : RFShaped rf) (hi : IslShaped isl)

theorem exists_flow_iff (entries : List PortEntry) (out : Option Nat) (rm : RouteMod) :
    (∃ f, f ∈ (entries.filter fun e => e.eligible out).map fun e => e.flow rm) ↔
      ∃ e ∈ entries, e.eligible out = true := by
  simp [and_comm]

include hs in
theorem rfPorts_eligible_iff (c d out : Nat) :
    (∃ e ∈ rfPorts o rf (some c) (some d), e.eligible (some out) = true) ↔ ∃ p m,
      RfUp rf ⟨c, d, p⟩ m ∧ out ≠ p := by
  rw [← exists_flow_iff _ _ { mod := .add }]
  simp only [mem_rfPorts_flow hs]
  constructor
  · rintro ⟨f, p, m, hup, hne, -⟩
    exact ⟨p, m, hup, hne⟩
  · rintro ⟨p, m, hup, hne⟩
    exact ⟨_, p, m, hup, hne, rfl⟩

include hs hi in
theorem localPorts_eligible_iff (x : DpPort) :
    (∃ e ∈ localPorts o rf isl x, e.eligible (some x.dpPort) = true) ↔
      ∃ p m, ActivePort rf isl x.ctId x.dpId p m ∧ x.dpPort ≠ p := by
  rw [← exists_flow_iff _ _ { mod := .add }, localPorts]
  simp only [List.filter_append, List.map_append, List.mem_append, mem_rfPorts_flow hs, mem_islPorts_flow hi,
    ActivePort, or_and_right, exists_or]
  constructor
  · rintro (⟨f, p, m, hup, hne, -⟩ | ⟨f, p, m, hup, hne, -⟩)
    · exact Or.inl ⟨p, m, hup, hne⟩
    · exact Or.inr ⟨p, m, hup, hne⟩
  · rintro (⟨p, m, hup, hne⟩ | ⟨p, m, hup, hne⟩)
    · exact Or.inl ⟨_, p, m, hup, hne, rfl⟩
    · exact Or.inr ⟨_, p, m, hup, hne, rfl⟩

include hs hi in
theorem defaultHandleRouteMod_prefix {entry : RFEntry} {x : DpPort} (hx : entry.dp = some x)
    (hread : PortsReadable isl x) {rm : RouteMod} {r : Prefix} (hfor : rm.IsFor r) :
    ∃ rms, Translator.defaultHandleRouteMod o rf isl entry rm = .ok (rm.addAction (.output x.dpPort), rms) ∧
      (∀ f ∈ rms, f.table = rm.table ∧ f.priority = rm.priority) ∧
      ((∃ f ∈ rms, f.IsFor r) ↔ ∃ p m, ActivePort rf isl x.ctId x.dpId p m ∧ x.dpPort ≠ p) := by
  obtain ⟨rms, hok, hrms⟩ := mem_defaultHandleRouteMod hs hi (o := o) hx hread rm
  refine ⟨rms, hok, fun f hf => ?_, ?_⟩
  · obtain ⟨p, m, -, -, rfl⟩ := (hrms f).mp hf
    exact ⟨rfl, rfl⟩
  · constructor
    · rintro ⟨f, hf, -⟩
      obtain ⟨p, m, hup, hne, -⟩ := (hrms f).mp hf
      exact ⟨p, m, hup, hne⟩
    · rintro ⟨p, m, hup, hne⟩
      refine ⟨_, (hrms _).mpr ⟨p, m, hup, hne, rfl⟩, ?_⟩
      simp only [RouteMod.IsFor, portFlow, RouteMod.addMatch, RouteMod.addAction, List.mem_append]
      exact Or.inl (Or.inl hfor)

include hs hi in
theorem handleRouteMod_prefix {tr : Translator} {entry : RFEntry} {x : DpPort} (hx : entry.dp = some x)
    (hread : RouteReadable tr isl x) {rm : RouteMod} (htable : rm.table = 0) {r : Prefix}
    (hfor : rm.IsFor r) :
    ∃ rm' rms, tr.handleRouteMod o rf isl entry rm = .ok (rm', rms) ∧ rm'.matchList = rm.matchList ∧
      rm'.priority = tr.kind.priority rm.priority ∧
      (∀ f ∈ rms, f.table = tr.kind.routeTable ∧ f.priority = tr.kind.priority rm.priority) ∧
      ((∃ f ∈ rms, f.IsFor r) ↔ ∃ p m, ActivePort rf isl x.ctId x.dpId p m ∧ x.dpPort ≠ p) := by
  unfold Translator.handleRouteMod
  cases hk : tr.kind with
  | default | satellite =>
    obtain ⟨rms, hok, hrms, hup⟩ := defaultHandleRouteMod_prefix hs hi (o := o) hx (hread (by simp [hk])) hfor
    rw [htable] at hrms
    exact ⟨_, rms, hok, rfl, rfl, hrms, hup⟩
  | noviFlow =>
    obtain ⟨hc, hid, hp⟩ := (RFEntry.dp_eq_some _ _).mp hx
    simp only [Translator.noviFlowHandleRouteMod, hc, hid, hp, Action.OUTPUT, bind, Except.bind,
      pure, Except.pure]
    refine ⟨_, _, rfl, rfl, rfl, fun f hf => ?_, ?_⟩
    · rw [((mem_noviFlowSendRmWithMatches _ _ _ _).mp hf).2]
      exact ⟨rfl, rfl⟩
    · simp only [mem_noviFlowSendRmWithMatches, ← localPorts_eligible_iff hs hi (o := o) x]
      constructor
      · rintro ⟨f, ⟨he, -⟩, -⟩
        exact he
      · intro he
        exact ⟨_, ⟨he, rfl⟩, hfor⟩

theorem islMacRouteMod_not_isFor (d : Nat) (a b : IslEnd) (rm : RouteMod) (r : Prefix) :
    ¬ (islMacRouteMod d a b rm).IsFor r := by
  simp [RouteMod.IsFor, islMacRouteMod, RouteMod.setMatches]

include hs in
theorem handleIslRouteMod_prefix {tr : Translator} (hk : tr.kind ≠ .satellite) {l : RFISLEntry} {a b : IslEnd}
    (hn : l.near = some a) (hf : l.far = some b) (hread : neighbourReads tr l → LinkReadable l)
    {rm : RouteMod} {r : Prefix} (hfor : rm.IsFor r) :
    ∃ rms, tr.handleIslRouteMod o rf l rm = (afterIsl tr l, .ok rms) ∧
      (∀ f ∈ rms, f.IsFor r → f.table = tr.kind.routeTable ∧ f.priority = tr.kind.priority rm.priority) ∧
      ((∃ f ∈ rms, f.IsFor r) ↔ ∃ p m, RfUp rf ⟨a.ctId, a.dpId, p⟩ m ∧ a.dpPort ≠ p) := by
  have hlink : LinkReadable l := hread fun h => absurd h hk
  cases h : tr.kind with
  | satellite => exact absurd h hk
  | default =>
    obtain ⟨rms, hok, hrms⟩ := mem_handleIslRouteMod hs (o := o) h hn hf hlink rm
    refine ⟨rms, by rw [hok, afterIsl, h], fun f hf _ => ?_, ?_⟩
    · obtain ⟨p, m, -, -, rfl⟩ := (hrms f).mp hf
      exact ⟨rfl, rfl⟩
    · constructor
      · rintro ⟨f, hf, -⟩
        obtain ⟨p, m, hup, hne, -⟩ := (hrms f).mp hf
        exact ⟨p, m, hup, hne⟩
      · rintro ⟨p, m, hup, hne⟩
        refine ⟨_, (hrms _).mpr ⟨p, m, hup, hne, rfl⟩, ?_⟩
        simp only [RouteMod.IsFor, portFlow, islRouteMod, RouteMod.addMatch, RouteMod.setActions,
          RouteMod.setTable, RouteMod.setId, List.mem_append]
        exact Or.inl (Or.inl hfor)
  | noviFlow =>
    have hok : tr.handleIslRouteMod o rf l rm = (afterIsl tr l, tr.noviFlowHandleIslRouteMod o rf l rm) := by
      simp only [Translator.handleIslRouteMod, afterIsl, h]
    rw [noviFlowHandleIslRouteMod_ok tr hn hf hlink] at hok
    refine ⟨_, hok, fun f hf hff => ?_, ?_⟩
    · rcases List.mem_append.mp hf with hf | hf
      · rw [((mem_noviFlowSendRmWithMatches _ _ _ _).mp hf).2]
        exact ⟨rfl, rfl⟩
      · rw [List.mem_singleton.mp hf] at hff
        exact absurd hff (islMacRouteMod_not_isFor _ _ _ _ _)
    · rw [← rfPorts_eligible_iff hs (o := o)]
      constructor
      · rintro ⟨f, hf, hff⟩
        rcases List.mem_append.mp hf with hf | hf
        · exact ((mem_noviFlowSendRmWithMatches _ _ _ _).mp hf).1
        · rw [List.mem_singleton.mp hf] at hff
          exact absurd hff (islMacRouteMod_not_isFor _ _ _ _ _)
      · intro he
        exact ⟨_, List.mem_append_left _ ((mem_noviFlowSendRmWithMatches _ _ _ _).mpr ⟨he, rfl⟩), hfor⟩

include hs in
theorem linkFlows_prefix {cfg : Config} {D : Datapath} (hD : kindOf cfg D.dpId ≠ .satellite) {tr : Translator}
    {l : RFISLEntry} {a b : IslEnd} (hkind : tr.kind = kindOf cfg a.dpId) (hn : l.near = some a)
    (hf : l.far = some b) (hread : neighbourReads tr l → LinkReadable l) {rm : RouteMod} {r : Prefix}
    (hfor : rm.IsFor r) :
    (∀ y ∈ a.datapath.tag (tr.handleIslRouteMod o rf l rm).2, y.1 = D → y.2.IsFor r →
      y.2.table = (kindOf cfg D.dpId).routeTable ∧ y.2.priority = (kindOf cfg D.dpId).priority rm.priority) ∧
    ((∃ y ∈ a.datapath.tag (tr.handleIslRouteMod o rf l rm).2, y.1 = D ∧ y.2.IsFor r) ↔
      a.datapath = D ∧ ∃ p m, RfUp rf ⟨a.ctId, a.dpId, p⟩ m ∧ a.dpPort ≠ p) := by
  by_cases haD : a.datapath = D
  · have hkD : tr.kind = kindOf cfg D.dpId := by rw [← haD]; exact hkind
    obtain ⟨rms, hok, hrms, hup⟩ := handleIslRouteMod_prefix hs (o := o) (hkD ▸ hD) hn hf hread hfor
    rw [hkD] at hrms
    simp only [hok, Datapath.mem_tag, Except.ok.injEq, exists_eq_left']
    refine ⟨fun y hy _ hyr => hrms y.2 hy.2 hyr, ?_⟩
    rw [← hup, and_iff_right haD]
    constructor
    · rintro ⟨y, ⟨-, hy⟩, -, hyr⟩
      exact ⟨y.2, hy, hyr⟩
    · rintro ⟨f, hf, hfr⟩
      exact ⟨(a.datapath, f), ⟨rfl, hf⟩, haD, hfr⟩
  · have hno : ∀ y ∈ a.datapath.tag (tr.handleIslRouteMod o rf l rm).2, y.1 ≠ D := by
      intro y hy
      rw [(Datapath.mem_tag.mp hy).1]
      exact haD
    refine ⟨fun y hy hyD => absurd hyD (hno y hy), ?_⟩
    refine iff_of_false ?_ fun h => haD h.1
    rintro ⟨y, hy, hyD, -⟩
    exact hno y hy hyD

theorem kinds_afterIsl {cfg : Config} {trs : Nat → Option Translator}
    (h : ∀ d tr, trs d = some tr → tr.kind = kindOf cfg d) {d : Nat} {tr : Translator} (htr : trs d = some tr)
    (l : RFISLEntry) :
    ∀ d' tr', Function.update trs d (some (afterIsl tr l)) d' = some tr' → tr'.kind = kindOf cfg d' := by
  intro d' tr' h'
  by_cases hd : d' = d
  · subst hd
    rw [Function.update_self, Option.some.injEq] at h'
    rw [← h', afterIsl_kind]
    exact h _ _ htr
  · rw [Function.update_of_ne hd] at h'
    exact h _ _ h'

include hs in
theorem islFlows_prefix {cfg : Config} {D : Datapath} (hD : kindOf cfg D.dpId ≠ .satellite)
    {rm : RouteMod} {r : Prefix} (hfor : rm.IsFor r) (remotes : List RFISLEntry)
    (trs : Nat → Option Translator) (hl : LinkRows remotes) (ht : NeighboursReady trs remotes)
    (hkinds : ∀ d tr, trs d = some tr → tr.kind = kindOf cfg d) :
    (∀ y ∈ islFlows o rf rm remotes trs, y.1 = D → y.2.IsFor r →
      y.2.table = (kindOf cfg D.dpId).routeTable ∧ y.2.priority = (kindOf cfg D.dpId).priority rm.priority) ∧
    ((∃ y ∈ islFlows o rf rm remotes trs, y.1 = D ∧ y.2.IsFor r) ↔ ∃ l ∈ remotes,
      l.getStatus = .rfislActive ∧ ∃ a, l.near = some a ∧ a.datapath = D ∧ ∃ p m,
        RfUp rf ⟨a.ctId, a.dpId, p⟩ m ∧ a.dpPort ≠ p) := by
  induction remotes generalizing trs with
  | nil => simp [islFlows]
  | cons l rest ih =>
    have hl' : LinkRows rest := fun q hq => hl q (List.mem_cons_of_mem _ hq)
    unfold islFlows
    rw [List.exists_mem_cons_iff]
    by_cases hst : l.getStatus = .rfislActive
    · obtain ⟨a, b, hn, hf⟩ := hl l List.mem_cons_self hst
      have hd : l.dpId = some a.dpId := ((RFISLEntry.near_eq_some _ _).mp hn).2.1
      obtain ⟨tr, htr, hread, ht'⟩ := ht.first hst hd
      obtain ⟨hrest, hsome⟩ := ih _ hl' ht' (kinds_afterIsl hkinds htr l)
      obtain ⟨hhead, hup⟩ := linkFlows_prefix hs (o := o) hD (hkinds _ _ htr) hn hf hread hfor
      simp only [hst, if_true, hn, htr]
      refine ⟨List.forall_mem_append.mpr ⟨hhead, hrest⟩, ?_⟩
      rw [← hsome]
      simp only [List.mem_append, or_and_right, exists_or, hup, true_and, Option.some.injEq, exists_eq_left']
    · have ht' : NeighboursReady trs rest := (neighboursReady_cons_idle hst).mp ht
      obtain ⟨hrest, hsome⟩ := ih trs hl' ht' hkinds
      simp only [hst, if_false, false_and, false_or]
      exact ⟨hrest, hsome⟩

end Translators

/-! ## Flows of a route -/

/-- A route that leaves on `x` has flows on the datapath: on its own, or on a neighbour. -/
def SendsTo (rf : RFTable) (isl : RFISLTable) (x : DpPort) (D : Datapath) : Prop :=
  (x.datapath = D ∧ ∃ p m, ActivePort rf isl x.ctId x.dpId p m ∧ x.dpPort ≠ p) ∨
    ∃ a b, IslUp isl a b ∧ b.ctId = x.ctId ∧ b.dpId = x.dpId ∧ a.datapath = D ∧
      ∃ p m, RfUp rf ⟨a.ctId, a.dpId, p⟩ m ∧ a.dpPort ≠ p

theorem TranslatorKind.priority_priority (k : TranslatorKind) (n : Option Nat) :
    k.priority (k.priority n) = k.priority n := by
  unfold TranslatorKind.priority
  split <;> rfl

section Attributed

variable {cfg : Config} {o : Order} {s : Server} (hs : RFShaped s.rftable) (hi : IslShaped s.isltable)

include hi in
theorem mem_remoteLinks_up {x : DpPort} {a : IslEnd} :
    (∃ l ∈ remoteLinks o s x, l.getStatus = .rfislActive ∧ l.near = some a) ↔
      ∃ b, IslUp s.isltable a b ∧ b.ctId = x.ctId ∧ b.dpId = x.dpId := by
  constructor
  · rintro ⟨l, hl, hst, hn⟩
    obtain ⟨a', b, hn', hf⟩ := remoteLinks_linkRows hi x l hl hst
    obtain rfl : a = a' := Option.some.inj (hn.symm.trans hn')
    obtain ⟨row, hrow, ⟨hct, hid⟩, rfl⟩ := mem_remoteLinks.mp hl
    obtain ⟨hbc, hbi, -⟩ := (RFISLEntry.far_eq_some _ _).mp hf
    exact ⟨b, ⟨row, hrow, hn, hf⟩, Option.some.inj (hbc.symm.trans hct), Option.some.inj (hbi.symm.trans hid)⟩
  · rintro ⟨b, ⟨row, hrow, hn, hf⟩, hct, hid⟩
    obtain ⟨hbc, hbi, -⟩ := (RFISLEntry.far_eq_some _ _).mp hf
    refine ⟨row.val, mem_remoteLinks.mpr ⟨row, hrow, ⟨by rw [hbc, hct], by rw [hbi, hid]⟩, rfl⟩, ?_, hn⟩
    exact (islEntry_active_iff (hi row hrow) hn).mpr ⟨b, hf⟩

include hs hi in
theorem attributed_prefix (hkinds : ∀ d tr, s.routeModTranslator d = some tr → tr.kind = kindOf cfg d)
    {entry : RFEntry} {x : DpPort} (hx : entry.dp = some x) {tr : Translator}
    (htr : s.routeModTranslator x.dpId = some tr) {D : Datapath} (hD : kindOf cfg D.dpId ≠ .satellite)
    {rm : RouteMod} (hmod : rm.mod = .add) (hread : RouteReadable tr s.isltable x)
    (ht : NeighboursReady s.routeModTranslator (remoteLinks o s x)) (htable : rm.table = 0) {r : Prefix}
    (hfor : rm.IsFor r) :
    (∀ y ∈ attributed cfg o s entry x tr rm, y.1 = D → y.2.IsFor r →
      y.2.table = (kindOf cfg D.dpId).routeTable ∧
      y.2.priority = (kindOf cfg D.dpId).priority ((kindOf cfg x.dpId).priority rm.priority)) ∧
    ((∃ y ∈ attributed cfg o s entry x tr rm, y.1 = D ∧ y.2.IsFor r) ↔ SendsTo s.rftable s.isltable x D) := by
  have hkx := hkinds _ _ htr
  obtain ⟨rm', rms, hok, hmatch, hprio, hrms, hup⟩ :=
    handleRouteMod_prefix hs hi (o := o) hx hread (show (rm.setId x.dpId).table = 0 from htable) (r := r) hfor
  rw [hkx] at hprio hrms
  have hpr : (rm.setId x.dpId).priority = rm.priority := rfl
  rw [hpr] at hprio hrms
  have hfor' : rm'.IsFor r := by rw [RouteMod.IsFor, hmatch]; exact hfor
  obtain ⟨hlinks, hsome⟩ := islFlows_prefix hs (o := o) hD hfor' (remoteLinks o s x) s.routeModTranslator
    (remoteLinks_linkRows hi x) ht hkinds
  rw [hprio] at hlinks
  simp only [attributed, hmod, hok]
  constructor
  · refine List.forall_mem_append.mpr ⟨fun y hy hyD _ => ?_, hlinks⟩
    obtain ⟨hyx, rms', hrms', hmem⟩ := Datapath.mem_tag.mp hy
    rw [← Except.ok.inj hrms'] at hmem
    have hid : D.dpId = x.dpId := by rw [← hyD, hyx]; rfl
    rw [hid, TranslatorKind.priority_priority]
    exact hrms _ hmem
  · simp only [List.mem_append, or_and_right, exists_or, hsome, SendsTo]
    apply or_congr
    · rw [← hup]
      constructor
      · rintro ⟨y, hy, hyD, hyr⟩
        obtain ⟨hyx, rms', hrms', hmem⟩ := Datapath.mem_tag.mp hy
        rw [← Except.ok.inj hrms'] at hmem
        exact ⟨hyx.symm.trans hyD, y.2, hmem, hyr⟩
      · rintro ⟨hxD, f, hf, hfr⟩
        exact ⟨(x.datapath, f), Datapath.mem_tag.mpr ⟨rfl, rms, rfl, hf⟩, hxD, hfr⟩
    · constructor
      · rintro ⟨l, hl, hst, a, hn, haD, hpm⟩
        obtain ⟨b, hisl, hct, hid⟩ := (mem_remoteLinks_up hi).mp ⟨l, hl, hst, hn⟩
        exact ⟨a, b, hisl, hct, hid, haD, hpm⟩
      · rintro ⟨a, b, hisl, hct, hid, haD, hpm⟩
        obtain ⟨l, hl, hst, hn⟩ := (mem_remoteLinks_up hi (o := o)).mpr ⟨b, hisl, hct, hid⟩
        exact ⟨l, hl, hst, a, hn, haD, hpm⟩

end Attributed

/-! ## Two routes -/

/-- A route or host that a client adds, in some state of the server, with the VM port's place and translator.
`register_route_mod` does not raise on it. -/
structure AddedRoute (cfg : Config) where
  history : History
  order : Order
  vmId : Nat
  dest : Destination
  iface : Interface
  gateway : Mac
  out : DpPort
  tr : Translator
  target : routeModTarget order (run (Server.step cfg) Server.init history)
    (dest.routeMod vmId .add iface gateway) =
    some (out, tr)
  translates : Translates cfg order (run (Server.step cfg) Server.init history) out tr
    (dest.routeMod vmId .add iface gateway)

namespace AddedRoute

variable {cfg : Config}

def state (r : AddedRoute cfg) : Server := run (Server.step cfg) Server.init r.history

def routeMod (r : AddedRoute cfg) : RouteMod := r.dest.routeMod r.vmId .add r.iface r.gateway

def toPrefix (r : AddedRoute cfg) : Prefix := r.dest.toPrefix

/-- The RouteMods that match the prefix, of those that were queued for the datapath. -/
def IsFlow (r : AddedRoute cfg) (D : Datapath) (f : RouteMod) : Prop :=
  ∃ q ∈ emitted cfg r.order r.state r.routeMod,
    ComputedFor cfg r.order r.state r.routeMod D q ∧ q.2 = f ∧ f.IsFor r.toPrefix

/-- The route has flows on the datapath: another port is active there. -/
def Reaches (r : AddedRoute cfg) (D : Datapath) : Prop := SendsTo r.state.rftable r.state.isltable r.out D

/-- The priority of the flows on `D`: the translator of the route's datapath changes the RouteMod first. -/
def level (r : AddedRoute cfg) (D : Datapath) : Option Nat :=
  (kindOf cfg D.dpId).priority ((kindOf cfg r.out.dpId).priority (some (prefixPriority r.toPrefix.len)))

theorem level_noviFlow (r : AddedRoute cfg) (h : kindOf cfg r.out.dpId = .noviFlow) (D : Datapath) :
    r.level D = (kindOf cfg D.dpId).priority (some PRIORITY_HIGH) := by
  rw [level, h]
  rfl

theorem shaped (r : AddedRoute cfg) : RFShaped r.state.rftable ∧ IslShaped r.state.isltable :=
  run_shaped cfg r.history

theorem exists_row (r : AddedRoute cfg) :
    ∃ row, RFTable.getEntryByVmPort r.order r.state.rftable r.routeMod.id r.routeMod.vmPort = some row ∧
      row.val.dp = some r.out ∧ r.state.routeModTranslator r.out.dpId = some r.tr :=
  routeModTarget_eq_some.mp r.target

theorem routeMod_fields (r : AddedRoute cfg) :
    r.routeMod.mod = .add ∧ r.routeMod.table = 0 ∧
    r.routeMod.priority = some (prefixPriority r.toPrefix.len) ∧
      r.routeMod.IsFor r.toPrefix := by
  have hrm : r.routeMod = _ := r.dest.routeMod_eq r.vmId .add r.iface r.gateway
  rw [hrm]
  obtain ⟨hmod, -, -, htable⟩ := sendToHw_fields r.vmId .add r.dest.toPrefix r.iface r.gateway
  refine ⟨hmod, htable, ?_, ?_⟩
  · simp only [RouteMod.priority, sendToHw_options]
    rfl
  · unfold RouteMod.IsFor
    rw [sendToHw_matchList]
    exact List.mem_singleton_self _

theorem isFlow_iff (r : AddedRoute cfg) (D : Datapath) (f : RouteMod) :
    r.IsFlow D f ↔ ∃ row y,
      RFTable.getEntryByVmPort r.order r.state.rftable r.routeMod.id r.routeMod.vmPort = some row ∧
      row.val.dp = some r.out ∧ y ∈ attributed cfg r.order r.state row.val r.out r.tr r.routeMod ∧ y.1 = D ∧
      y.2.IsFor r.toPrefix ∧ f = y.2.addOption (.ctId r.out.ctId) := by
  obtain ⟨hs, hi⟩ := r.shaped
  obtain ⟨row, hrow, hx, htr⟩ := r.exists_row
  have hemit : emitted cfg r.order r.state r.routeMod =
      (attributed cfg r.order r.state row.val r.out r.tr r.routeMod).map
        fun y => (r.out.ctId, y.2.addOption (.ctId r.out.ctId)) := by
    rw [emitted, (registerRouteMod_attributed hs hi hrow hx htr r.translates).2, List.drop_left]
  unfold IsFlow
  rw [hemit]
  constructor
  · rintro ⟨q, -, ⟨row', x', tr', g, hrow', hx', htr', hg, rfl⟩, rfl, hfor⟩
    obtain rfl := Option.some.inj (hrow.symm.trans hrow')
    obtain rfl := Option.some.inj (hx.symm.trans hx')
    obtain rfl := Option.some.inj (htr.symm.trans htr')
    exact ⟨row, (D, g), hrow, hx, hg, rfl, hfor, rfl⟩
  · rintro ⟨row', y, hrow', -, hy, rfl, hfor, rfl⟩
    obtain rfl := Option.some.inj (hrow.symm.trans hrow')
    exact ⟨_, List.mem_map_of_mem hy, ⟨row, r.out, r.tr, y.2, hrow, hx, htr, hy, rfl⟩, rfl, hfor⟩

theorem flows (r : AddedRoute cfg) {D : Datapath} (hD : kindOf cfg D.dpId ≠ .satellite) :
    (∀ f, r.IsFlow D f → f.table = (kindOf cfg D.dpId).routeTable ∧ f.priority = r.level D) ∧
      ((∃ f, r.IsFlow D f) ↔ r.Reaches D) := by
  obtain ⟨hs, hi⟩ := r.shaped
  obtain ⟨row, hrow, hx, htr⟩ := r.exists_row
  obtain ⟨hmod, htable, hprio, hfor⟩ := r.routeMod_fields
  obtain ⟨hread, htrans⟩ : RouteReadable r.tr r.state.isltable r.out ∧
      NeighboursReady r.state.routeModTranslator (remoteLinks r.order r.state r.out) := by
    have h : Translates cfg r.order r.state r.out r.tr r.routeMod := r.translates
    unfold Translates at h
    rw [hmod] at h
    exact h
  have hkinds : ∀ d tr, r.state.routeModTranslator d = some tr → tr.kind = kindOf cfg d :=
    fun _ _ h => run_kind cfg r.history h
  obtain ⟨hall, hsome⟩ := attributed_prefix (o := r.order)
    hs hi hkinds hx htr hD hmod hread htrans htable hfor
  rw [hprio] at hall
  constructor
  · intro f hf
    obtain ⟨row', y, hrow', -, hy, hyD, hyr, rfl⟩ := (r.isFlow_iff D f).mp hf
    obtain rfl := Option.some.inj (hrow.symm.trans hrow')
    obtain ⟨ht, hp⟩ := hall y hy hyD hyr
    refine ⟨ht, ?_⟩
    rw [level, ← hp]
    simp [RouteMod.priority, RouteMod.addOption]
  · rw [Reaches, ← hsome]
    constructor
    · rintro ⟨f, hf⟩
      obtain ⟨row', y, hrow', -, hy, hyD, hyr, -⟩ := (r.isFlow_iff D f).mp hf
      obtain rfl := Option.some.inj (hrow.symm.trans hrow')
      exact ⟨y, hy, hyD, hyr⟩
    · rintro ⟨y, hy, hyD, hyr⟩
      exact ⟨_, (r.isFlow_iff D _).mpr ⟨row, y, hrow, hx, hy, hyD, hyr, rfl⟩⟩

end AddedRoute

/-- `f` has the greater priority. -/
def RouteMod.Above (f g : RouteMod) : Prop := ∃ m n, f.priority = some m ∧ g.priority = some n ∧ n < m

/-- In each table of the datapath, the flows of the longer prefix are above those of the shorter one. -/
def OrderKept {cfg : Config} (long short : AddedRoute cfg) (D : Datapath) : Prop :=
  ∀ f g, long.IsFlow D f → short.IsFlow D g → f.table = g.table → f.Above g

theorem not_orderKept {cfg : Config} {long short : AddedRoute cfg} {D : Datapath}
    (hD : kindOf cfg D.dpId ≠ .satellite) (hlong : long.Reaches D) (hshort : short.Reaches D)
    (hlevel : long.level D = short.level D) :
    ¬ OrderKept long short D := by
  intro hkept
  obtain ⟨hl, hls⟩ := long.flows hD
  obtain ⟨hs, hss⟩ := short.flows hD
  obtain ⟨f, hf⟩ := hls.mpr hlong
  obtain ⟨g, hg⟩ := hss.mpr hshort
  have htable : f.table = g.table := (hl f hf).1.trans (hs g hg).1.symm
  obtain ⟨m, n, hm, hn, hlt⟩ := hkept f g hf hg htable
  rw [(hl f hf).2, hlevel, ← (hs g hg).2, hn, Option.some.injEq] at hm
  omega

/-- The order is kept if neither the datapath of the routes nor the one with the flows is a NoviFlow
switch. Else it is only kept where one of the routes has no flow. -/
theorem priority_order_iff (cfg : Config) (long short : AddedRoute cfg) (D : Datapath) :
    long.out.datapath = short.out.datapath → short.toPrefix.len < long.toPrefix.len →
    kindOf cfg D.dpId ≠ .satellite →
    (OrderKept long short D ↔ (kindOf cfg long.out.dpId ≠ .noviFlow ∧ kindOf cfg D.dpId ≠ .noviFlow) ∨
      ¬ long.Reaches D ∨ ¬ short.Reaches D) := by
  intro hdp hlen hD
  have hid : long.out.dpId = short.out.dpId := congrArg Datapath.dpId hdp
  constructor
  · intro hkept
    by_contra hno
    simp only [not_or, not_not, not_and_not_right] at hno
    obtain ⟨hnovi, hlong, hshort⟩ := hno
    refine not_orderKept hD hlong hshort ?_ hkept
    by_cases hA : kindOf cfg long.out.dpId = .noviFlow
    · rw [long.level_noviFlow hA, short.level_noviFlow (hid ▸ hA)]
    · unfold AddedRoute.level TranslatorKind.priority
      rw [if_pos (hnovi hA), if_pos (hnovi hA)]
  · rintro (⟨hA, hk⟩ | hnone | hnone) f g hf hg -
    · have hlevel : ∀ r : AddedRoute cfg, r.out.dpId = long.out.dpId →
          r.level D = some (prefixPriority r.toPrefix.len) := by
        intro r hr
        unfold AddedRoute.level TranslatorKind.priority
        rw [hr, if_neg hA, if_neg hk]
      have hlong := ((long.flows hD).1 f hf).2.trans (hlevel long rfl)
      have hshort := ((short.flows hD).1 g hg).2.trans (hlevel short hid.symm)
      refine ⟨_, _, hlong, hshort, ?_⟩
      have hle := prefixPriority_le_iff long.toPrefix.len short.toPrefix.len
      omega
    · exact absurd ((long.flows hD).2.mp ⟨f, hf⟩) hnone
    · exact absurd ((short.flows hD).2.mp ⟨g, hg⟩) hnone

/-! ## Two switches -/

/-- The two switches with one controller, some of them NoviFlow ones. -/
def mixedSwitches (multitabledps : List Nat) : Config := { twoSwitches 0 with multitabledps := multitabledps }

def mixedState (multitabledps : List Nat) : Server :=
  run (Server.step (mixedSwitches multitabledps)) Server.init (twoSwitchesUp 0)

theorem mixedSwitches_distinctEnds (multitabledps : List Nat) :
    (mixedSwitches multitabledps).DistinctEnds where
  ends_nodup := (twoSwitches_distinctEnds 0).ends_nodup
  apart := (twoSwitches_distinctEnds 0).apart

/-- A route of the client on port 3 of datapath 5, whatever switch that is. -/
def mixedRoute (multitabledps : List Nat) (h : multitabledps = [] ∨ multitabledps = [5])
    (dest : Destination) :
    AddedRoute (mixedSwitches multitabledps) where
  history := twoSwitchesUp 0
  order := .insertion
  vmId := 1
  dest := dest
  iface := lanPort
  gateway := 0x31
  out := ⟨0, 5, 3⟩
  tr := ⟨kindOf (mixedSwitches multitabledps) 5, 5, 0, []⟩
  target := by
    rw [routeModTarget_eq_some, Destination.routeMod_eq]
    obtain ⟨-, hid, hport, -⟩ := sendToHw_fields 1 .add dest.toPrefix lanPort 0x31
    rw [hid, hport]
    refine ⟨⟨1001, (RFShape.active ⟨1, 1⟩ 0x11 ⟨0, 5, 3⟩ 7 1).entry⟩, ?_, rfl, ?_⟩
    · rcases h with rfl | rfl
      · decide +kernel
      · decide +kernel
    · rcases h with rfl | rfl
      · decide +kernel
      · decide +kernel
  translates := by
    obtain ⟨hmod, -⟩ := sendToHw_fields 1 .add dest.toPrefix lanPort 0x31
    unfold Translates
    rw [Destination.routeMod_eq, hmod]
    have hlinks : remoteLinks .insertion (mixedState multitabledps) ⟨0, 5, 3⟩ =
        [(RFISLShape.mk (some 1) (some ⟨0, 6, 8, Mac.text 0x22⟩) (some ⟨0, 5, 9, Mac.text 0x21⟩)).entry] := by
      rcases h with rfl | rfl
      · decide +kernel
      · decide +kernel
    have hread := (run_linkMacs (mixedSwitches_distinctEnds multitabledps) (twoSwitches_linkMacs 0)
      (twoSwitchesUp 0)).around ⟨0, 5, 3⟩
    refine ⟨fun _ => hread.ports, neighboursReady_of_readable ?_ hread.remoteLinks⟩
    intro l hl _ d hd
    change l ∈ remoteLinks .insertion (mixedState multitabledps) ⟨0, 5, 3⟩ at hl
    rw [hlinks, List.mem_singleton] at hl
    subst hl
    obtain rfl : 6 = d := Option.some.inj hd
    rcases h with rfl | rfl
    · decide +kernel
    · decide +kernel

/-- 10.0.0.0/8 -/
def tenNet : Prefix where
  addr := ⟨.ipv4, [10, 0, 0, 0], rfl⟩
  len := 8
  len_le := by decide
  masked := by
    intro i hi
    by_cases h : i < 32
    · revert i
      decide
    · exact Bits.bit_eq_false (by simp; omega)

theorem priority_order_iff_default :
    let long := mixedRoute [] (Or.inl rfl) (.host ⟨.ipv4, [10, 0, 0, 1], rfl⟩)
    let short := mixedRoute [] (Or.inl rfl) (.route tenNet)
    OrderKept long short ⟨0, 6⟩ := by
  intro long short
  exact (priority_order_iff (mixedSwitches []) long short ⟨0, 6⟩ rfl (by decide) (by decide)).mpr
    (Or.inl (by decide))

/-- The switch of the routes is a NoviFlow one. The flows of the host and those of its net have one
priority there, and also on the other switch, which has the default translator. -/
theorem order_lost :
    let long := mixedRoute [5] (Or.inr rfl) (.host ⟨.ipv4, [10, 0, 0, 1], rfl⟩)
    let short := mixedRoute [5] (Or.inr rfl) (.route tenNet)
    (∃ dst, long.toPrefix.Covers dst ∧ short.toPrefix.Covers dst) ∧ short.toPrefix.len < long.toPrefix.len ∧
      ¬ OrderKept long short ⟨0, 5⟩ ∧ ¬ OrderKept long short ⟨0, 6⟩ := by
  intro long short
  refine ⟨⟨long.toPrefix.addr, ⟨rfl, fun i _ => rfl⟩, rfl, by decide⟩, by decide, ?_, ?_⟩
  · have hlink : IslUp (mixedState [5]).isltable ⟨0, 5, 9, Mac.text 0x21⟩ ⟨0, 6, 8, Mac.text 0x22⟩ :=
      ⟨⟨1001, (RFISLShape.mk (some 1) (some ⟨0, 5, 9, Mac.text 0x21⟩)
        (some ⟨0, 6, 8, Mac.text 0x22⟩)).entry⟩, by decide +kernel, rfl, rfl⟩
    have hreach : SendsTo (mixedState [5]).rftable (mixedState [5]).isltable ⟨0, 5, 3⟩ ⟨0, 5⟩ :=
      Or.inl ⟨rfl, 9, 0x21, Or.inr ⟨_, _, hlink, rfl, ethMac_text 0x21⟩, by decide⟩
    exact not_orderKept (by decide)
      hreach hreach ((long.level_noviFlow rfl _).trans (short.level_noviFlow rfl _).symm)
  · have hlink : IslUp (mixedState [5]).isltable ⟨0, 6, 8, Mac.text 0x22⟩ ⟨0, 5, 9, Mac.text 0x21⟩ :=
      ⟨⟨1002, (RFISLShape.mk (some 1) (some ⟨0, 6, 8, Mac.text 0x22⟩)
        (some ⟨0, 5, 9, Mac.text 0x21⟩)).entry⟩, by decide +kernel, rfl, rfl⟩
    have hclient : RfUp (mixedState [5]).rftable ⟨0, 6, 4⟩ 0x12 :=
      ⟨⟨1002, (RFShape.active ⟨1, 2⟩ 0x12 ⟨0, 6, 4⟩ 7 2).entry⟩, by decide +kernel, rfl, rfl, rfl⟩
    have hreach : SendsTo (mixedState [5]).rftable (mixedState [5]).isltable ⟨0, 5, 3⟩ ⟨0, 6⟩ :=
      Or.inr ⟨_, _, hlink, rfl, rfl, rfl, 4, 0x12, hclient, by decide⟩
    exact not_orderKept (by decide)
      hreach hreach ((long.level_noviFlow rfl _).trans (short.level_noviFlow rfl _).symm)

end RouteFlow
