import RouteFlow.Withdrawal

/-!
# Routes over links

What a translator makes of the routes that `register_route_mod` passes to its `handle_isl_route_mod`, one
after the other. A satellite answers with default flows, once for each far address. A NoviFlow switch gets a
flow for each route, and one for all routes over the link.
-/

namespace RouteFlow.LinkRoutes

open Store Run

/-! ## Calls -/

/-- A route that is passed to a translator with an active link, and RFTable as it is then. -/
structure Call where
  order : Order
  rftable : RFTable
  shaped : RFShaped rftable
  r : RFISLEntry
  near : IslEnd
  far : IslEnd
  r_near : r.near = some near
  r_far : r.far = some far
  rm : RouteMod
  mod : rm.mod = .add ∨ rm.mod = .delete

/-- Another port of the near datapath, with its address. -/
def Call.Ingress (c : Call) (p : Nat) (m : Mac) : Prop :=
  RfUp c.rftable ⟨c.near.ctId, c.near.dpId, p⟩ m ∧ c.near.dpPort ≠ p

/-- The translator, with all that it has emitted. -/
structure Session where
  tr : Translator
  log : List RouteMod

/-- What was sent is kept, also if the call raises. -/
def Session.step (s : Session) (c : Call) : Session :=
  match s.tr.handleIslRouteMod c.order c.rftable c.r c.rm with
  | (tr, .ok rms) => ⟨tr, s.log ++ rms⟩
  | (tr, .error _) => ⟨tr, s.log⟩

def session (kind : TranslatorKind) (dpId ctId : Nat) : Session :=
  ⟨{ kind := kind, dpId := dpId, ctId := ctId }, []⟩

/-! ## Default flows of a satellite -/

/-- The RouteMod for one Ethernet type, before it is copied for each port. -/
def Call.towards (dpId : Nat) (c : Call) (type : Nat) : RouteMod :=
  islRouteMod dpId c.near c.far ((c.rm.setMatches [.ethertype type]).setOptions [DEFAULT_PRIORITY])

theorem handleIslRouteMod_satellite {tr tr' : Translator} (hk : tr.kind = .satellite) (c : Call)
    {res : Except PyErr (List RouteMod)} (h : tr.handleIslRouteMod c.order c.rftable c.r c.rm = (tr', res)) :
    tr'.kind = .satellite ∧ tr'.dpId = tr.dpId ∧
      ∀ rms, res = .ok rms → ∀ f ∈ rms, ∃ p m, f = portFlow (c.towards tr.dpId ETHERTYPE_IP) p m := by
  obtain ⟨kind, dpId, ctId, sent⟩ := tr
  obtain rfl : kind = .satellite := hk
  simp only [Translator.handleIslRouteMod, Translator.satelliteLoop] at h
  by_cases hsent : c.r.remEthAddr ∈ sent
  · simp only [if_pos hsent, Prod.mk.injEq] at h
    obtain ⟨rfl, rfl⟩ := h
    refine ⟨rfl, rfl, fun rms hrms f hf => ?_⟩
    obtain rfl := Except.ok.inj hrms
    exact absurd hf List.not_mem_nil
  · simp only [if_neg hsent, List.mem_cons, true_or, if_true] at h
    by_cases hread : LinkReadable c.r
    · rw [defaultHandleIslRouteMod_ok c.shaped _ c.r_near c.r_far hread] at h
      simp only [Except.map, List.append_nil, Prod.mk.injEq] at h
      obtain ⟨rfl, rfl⟩ := h
      refine ⟨rfl, rfl, fun rms hrms f hf => ?_⟩
      obtain rfl := Except.ok.inj hrms
      obtain ⟨p, m, -, -, rfl⟩ := (mem_rfPorts_flow c.shaped _ _ _ _ f).mp hf
      exact ⟨p, m, rfl⟩
    · obtain ⟨e, he⟩ := defaultHandleIslRouteMod_error c.order c.rftable ⟨.satellite, dpId, ctId, sent⟩ hread
        ((c.rm.setMatches [.ethertype ETHERTYPE_IP]).setOptions [DEFAULT_PRIORITY])
      rw [he, Prod.mk.injEq] at h
      obtain ⟨rfl, rfl⟩ := h
      exact ⟨rfl, rfl, fun rms hrms => by cases hrms⟩

/-- All that a satellite has emitted is for IPv4. -/
structure OnlyIpv4 (dpId : Nat) (s : Session) : Prop where
  kind : s.tr.kind = .satellite
  tr_dpId : s.tr.dpId = dpId
  log : ∀ f ∈ s.log, ∃ c : Call, ∃ p m, f = portFlow (c.towards dpId ETHERTYPE_IP) p m

theorem onlyIpv4_step {dpId : Nat} {s : Session} (h : OnlyIpv4 dpId s) (c : Call) :
    OnlyIpv4 dpId (s.step c) := by
  unfold Session.step
  cases hcall : s.tr.handleIslRouteMod c.order c.rftable c.r c.rm with
  | mk tr res =>
    obtain ⟨hk, hd, hflows⟩ := handleIslRouteMod_satellite h.kind c hcall
    rw [h.tr_dpId] at hd hflows
    cases res with
    | error e => exact ⟨hk, hd, h.log⟩
    | ok rms =>
      refine ⟨hk, hd, fun f hf => ?_⟩
      rcases List.mem_append.mp hf with hf | hf
      · exact h.log f hf
      · exact ⟨c, hflows rms rfl f hf⟩

theorem onlyIpv4 (dpId ctId : Nat) (calls : List Call) :
    OnlyIpv4 dpId (run Session.step (session .satellite dpId ctId) calls) := by
  apply invariant (C := fun _ _ => True) (I := OnlyIpv4 dpId)
  · intro s c _ h
    exact onlyIpv4_step h c
  · exact ⟨rfl, rfl, by simp [session]⟩
  · exact along_true _ _ _

/-- The flow that sends packets of one type, which arrive at a port, over a link. -/
structure DefaultFlow (dpId : Nat) (a b : IslEnd) (p : Nat) (m : Mac) (type : Nat) (f : RouteMod) : Prop where
  mod : f.mod = .add
  id : f.id = dpId
  table : f.table = 0
  matchList : f.matchList = [.ethertype type, .ethernet m, .inPort p]
  actions : f.actions = [.setEthSrc a.mac, .setEthDst b.mac, .output a.dpPort]
  options : f.options = [DEFAULT_PRIORITY]

/-- The first `RMT_ADD` that was handled for a link. -/
def firstAdd (calls : List Call) (r : RFISLEntry) : Option Call :=
  calls.find? fun c => c.r == r && c.rm.mod == .add

/-- Each ingress port has a default route for each type, to the address of the first route over the link. -/
def Complete (dpId : Nat) (calls : List Call) (s : Session) : Prop :=
  ∀ r c, firstAdd calls r = some c → ∀ p m, c.Ingress p m → ∀ type ∈ [ETHERTYPE_IP, ETHERTYPE_IPV6],
    ∃ f ∈ s.log, DefaultFlow dpId c.near c.far p m type f

theorem matchList_towards (dpId : Nat) (c : Call) (type p : Nat) (m : Mac) :
    (portFlow (c.towards dpId type) p m).matchList = [.ethertype type, .ethernet m, .inPort p] := rfl

theorem no_ipv6 (dpId ctId : Nat) (calls : List Call) {a b : IslEnd} {p : Nat} {m : Mac} {f : RouteMod}
    (hf : f ∈ (run Session.step (session .satellite dpId ctId) calls).log) :
    ¬ DefaultFlow dpId a b p m ETHERTYPE_IPV6 f := by
  intro hflow
  obtain ⟨c, q, n, rfl⟩ := (onlyIpv4 dpId ctId calls).log f hf
  have heq := hflow.matchList
  rw [matchList_towards] at heq
  cases (List.cons.inj heq).1

/-- The default routes are complete only where there are none to make: when a link gets its first route, no
other port of its datapath is active. -/
theorem satellite_complete_iff (dpId ctId : Nat) (calls : List Call) :
    Complete dpId calls (run Session.step (session .satellite dpId ctId) calls) ↔
      ∀ r c, firstAdd calls r = some c → ∀ p m, ¬ c.Ingress p m := by
  constructor
  · intro h r c hc p m hp
    obtain ⟨f, hf, hflow⟩ := h r c hc p m hp ETHERTYPE_IPV6 (by simp)
    exact no_ipv6 dpId ctId calls hf hflow
  · intro h r c hc p m hp
    exact absurd hp (h r c hc p m)

/-- Datapath 5 has an active port 3. -/
def clientPort : RFTable := (memoryTable RFEntry).add (RFShape.active ⟨1, 1⟩ 7 ⟨0, 5, 3⟩ 9 1).entry

/-- A route over the link from port 4 of datapath 5 to port 1 of datapath 6. -/
def overLink : Call where
  order := .insertion
  rftable := clientPort
  shaped := RFShaped.add (fun _ h => absurd h List.not_mem_nil) _
  r := (RFISLShape.mk (some 1) (some ⟨0, 5, 4, Mac.text 0x54⟩) (some ⟨0, 6, 1, Mac.text 0x61⟩)).entry
  near := ⟨0, 5, 4, Mac.text 0x54⟩
  far := ⟨0, 6, 1, Mac.text 0x61⟩
  r_near := rfl
  r_far := rfl
  rm := { mod := .add, id := 5 }
  mod := Or.inl rfl

/-- A single route, and IPv6 has no default route. -/
theorem ipv6_default_missing :
    firstAdd [overLink] overLink.r = some overLink ∧ overLink.Ingress 3 7 ∧
      ¬ Complete 5 [overLink] (run Session.step (session .satellite 5 0) [overLink]) := by
  have hfirst : firstAdd [overLink] overLink.r = some overLink := by
    simp [firstAdd, overLink]
  have hup : overLink.Ingress 3 7 :=
    ⟨⟨_, List.mem_cons_self, rfl, rfl, rfl⟩, by decide⟩
  refine ⟨hfirst, hup, fun h => ?_⟩
  obtain ⟨f, hf, hflow⟩ := h _ _ hfirst 3 7 hup ETHERTYPE_IPV6 (by simp)
  exact no_ipv6 5 0 [overLink] hf hflow

/-! ## The flows of a NoviFlow switch -/

/-- A route over the link from `a` to `b`, while another port of the near datapath is active. -/
structure Route (a b : IslEnd) extends Call where
  near_eq : near = a
  far_eq : far = b
  macs : IsMac a.ethAddr ∧ IsMac b.ethAddr
  ingress : ∃ p m, toCall.Ingress p m
  dest : Prefix
  rm_matches : rm.matchList = [.ip dest.addr dest.netmask]

/-- The flow of a route in the FIB. -/
def fibKey (ctId dpId : Nat) (d : Prefix) : FlowKey :=
  ⟨ctId, dpId, Translator.NOVIFLOW_FIB_TABLE, [.ip d.addr d.netmask], some PRIORITY_HIGH⟩

/-- The flow of the link's address in table 0. -/
def macKey (ctId dpId : Nat) (a b : IslEnd) : FlowKey :=
  ⟨ctId, dpId, 0, [.ethernet (islMac dpId a b)], some PRIORITY_HIGH⟩

/-- Added, and not deleted since. -/
def Live {a b : IslEnd} (d : Prefix) (routes : List (Route a b)) : Prop :=
  Since (fun c => c.rm.mod = .add ∧ c.dest = d) (fun c => c.rm.mod = .delete ∧ c.dest = d) routes

section NoviFlow

variable (dpId ctId : Nat) {a b : IslEnd}

def emitted (routes : List (Route a b)) : List RouteMod :=
  (run Session.step (session .noviFlow dpId ctId) (routes.map Route.toCall)).log

/-- The flows that are there after all calls. -/
def flows (routes : List (Route a b)) : Finset FlowKey :=
  flowSet ((emitted dpId ctId routes).map fun f => (ctId, f))

theorem handleIslRouteMod_noviFlow (c : Route a b) {tr : Translator} (hk : tr.kind = .noviFlow) :
    tr.handleIslRouteMod c.order c.rftable c.r c.rm =
      (tr, .ok [islFibRouteMod tr.dpId a b c.rm, islMacRouteMod tr.dpId a b c.rm]) := by
  have hsends (rm : RouteMod) : Translator.noviFlowSendRmWithMatches rm (some a.dpPort)
      (rfPorts c.order c.rftable (some a.ctId) (some a.dpId)) = [rm] := by
    obtain ⟨p, m, ⟨row, hrow, hdp, -, hst⟩, hne⟩ := c.ingress
    rw [c.near_eq] at hdp hne
    obtain ⟨hct, hd, hport⟩ := (RFEntry.dp_eq_some _ _).mp hdp
    apply if_pos
    rw [List.any_eq_true]
    refine ⟨row.val.toPort, mem_rfPorts.mpr ⟨row, hrow, ⟨hd, hct⟩, rfl⟩,
      (eligible_iff _ _).mpr ⟨?_, Or.inl hst⟩⟩
    rw [RFEntry.toPort, hport]
    exact fun h => hne (Option.some.inj h)
  have hn : c.r.near = some a := by rw [c.r_near, c.near_eq]
  have hf : c.r.far = some b := by rw [c.r_far, c.far_eq]
  have hread : LinkReadable c.r := by
    rintro a' b' hn' hf'
    obtain rfl : a = a' := Option.some.inj (hn.symm.trans hn')
    obtain rfl : b = b' := Option.some.inj (hf.symm.trans hf')
    exact ⟨c.macs.1.readable, c.macs.2.readable⟩
  simp only [Translator.handleIslRouteMod, hk, noviFlowHandleIslRouteMod_ok tr hn hf hread, hsends]
  rfl

theorem session_tr (routes : List (Route a b)) :
    (run Session.step (session .noviFlow dpId ctId) (routes.map Route.toCall)).tr =
      { kind := .noviFlow, dpId := dpId, ctId := ctId } := by
  induction routes using List.reverseRecOn with
  | nil => rfl
  | append_singleton routes c ih =>
    rw [List.map_append, List.map_singleton, run_snoc, Session.step,
      handleIslRouteMod_noviFlow c (by rw [ih]), ih]

theorem emitted_snoc (routes : List (Route a b)) (c : Route a b) :
    emitted dpId ctId (routes ++ [c]) = emitted dpId ctId routes ++
      [islFibRouteMod dpId a b c.rm, islMacRouteMod dpId a b c.rm] := by
  unfold emitted
  rw [List.map_append, List.map_singleton, run_snoc, Session.step,
    handleIslRouteMod_noviFlow c (by rw [session_tr]), session_tr]

theorem flowKey_fib (c : Route a b) :
    flowKey (ctId, islFibRouteMod dpId a b c.rm) = fibKey ctId dpId c.dest := by
  simp only [flowKey, islFibRouteMod, fibKey, ← c.rm_matches]
  rfl

theorem flowKey_mac (rm : RouteMod) : flowKey (ctId, islMacRouteMod dpId a b rm) = macKey ctId dpId a b := rfl

theorem mod_islFibRouteMod (rm : RouteMod) : (islFibRouteMod dpId a b rm).mod = rm.mod := rfl

theorem mod_islMacRouteMod (rm : RouteMod) : (islMacRouteMod dpId a b rm).mod = rm.mod := rfl

variable {dpId ctId} {k : FlowKey}

theorem mem_flows_add (routes : List (Route a b)) {c : Route a b} (h : c.rm.mod = .add) :
    k ∈ flows dpId ctId (routes ++ [c]) ↔
      k ∈ flows dpId ctId routes ∨ fibKey ctId dpId c.dest = k ∨ macKey ctId dpId a b = k := by
  unfold flows
  rw [emitted_snoc, List.map_append, mem_flowSet_adds]
  · simp [flowKey_fib, flowKey_mac]
  · simp [mod_islFibRouteMod, mod_islMacRouteMod, h]

theorem mem_flows_delete (routes : List (Route a b)) {c : Route a b} (h : c.rm.mod = .delete) :
    k ∈ flows dpId ctId (routes ++ [c]) ↔
      k ∈ flows dpId ctId routes ∧ ¬ (fibKey ctId dpId c.dest = k ∨ macKey ctId dpId a b = k) := by
  unfold flows
  rw [emitted_snoc, List.map_append, mem_flowSet_deletes]
  · simp [flowKey_fib, flowKey_mac]
  · simp [mod_islFibRouteMod, mod_islMacRouteMod, h]

theorem fibKey_inj {d d' : Prefix} : fibKey ctId dpId d = fibKey ctId dpId d' ↔ d = d' := by
  constructor
  · intro h
    have hmatch := congrArg FlowKey.matchList h
    simp only [fibKey, List.cons.injEq, Match.ip.injEq, and_true] at hmatch
    exact Prefix.ext_match hmatch.1 hmatch.2
  · rintro rfl
    rfl

theorem macKey_ne_fibKey {d : Prefix} : macKey ctId dpId a b ≠ fibKey ctId dpId d := by
  intro h
  cases congrArg FlowKey.table h

theorem fibKey_mem_iff (routes : List (Route a b)) (d : Prefix) :
    fibKey ctId dpId d ∈ flows dpId ctId routes ↔ Live d routes := by
  unfold Live
  induction routes using List.reverseRecOn with
  | nil => exact iff_of_false (Finset.notMem_empty _) not_since_nil
  | append_singleton routes c ih =>
    rw [since_snoc, ← ih]
    rcases c.mod with hmod | hmod
    · rw [mem_flows_add routes hmod, fibKey_inj]
      simp [hmod, macKey_ne_fibKey, or_comm]
    · rw [mem_flows_delete routes hmod, fibKey_inj]
      simp [hmod, macKey_ne_fibKey]

theorem macKey_mem_iff (routes : List (Route a b)) :
    macKey ctId dpId a b ∈ flows dpId ctId routes ↔
      Since (fun c => c.rm.mod = .add) (fun c => c.rm.mod = .delete) routes := by
  induction routes using List.reverseRecOn with
  | nil => exact iff_of_false (Finset.notMem_empty _) not_since_nil
  | append_singleton routes c ih =>
    rw [since_snoc, ← ih]
    rcases c.mod with hmod | hmod
    · rw [mem_flows_add routes hmod]
      simp [hmod]
    · rw [mem_flows_delete routes hmod]
      simp [hmod]

/-- Every route that is live has its flow, and the one that all of them need. -/
def Independent (dpId ctId : Nat) (routes : List (Route a b)) : Prop :=
  ∀ d, Live d routes → fibKey ctId dpId d ∈ flows dpId ctId routes ∧
    macKey ctId dpId a b ∈ flows dpId ctId routes

/-- Routes over a link are independent as long as each one that is deleted is the last one. -/
theorem link_routes_independent_iff (dpId ctId : Nat) (a b : IslEnd) (routes : List (Route a b)) :
    (∀ done rest, routes = done ++ rest → Independent dpId ctId done) ↔
      Throughout (fun done c => c.rm.mod = .delete → ∀ d, ¬ Live d (done ++ [c])) routes := by
  constructor
  · intro h done c rest hroutes hdel d hlive
    have hmac := (h (done ++ [c]) rest (by simp [hroutes]) d hlive).2
    rw [macKey_mem_iff, since_snoc, hdel] at hmac
    simp at hmac
  · intro h done rest hroutes d hlive
    refine ⟨(fibKey_mem_iff done d).mpr hlive, ?_⟩
    rcases List.eq_nil_or_concat done with rfl | ⟨done', c, rfl⟩
    · exact absurd hlive not_since_nil
    · rw [List.concat_eq_append] at hlive hroutes ⊢
      rcases c.mod with hmod | hmod
      · rw [macKey_mem_iff, since_snoc]
        exact Or.inl hmod
      · exact absurd hlive (h done' c rest (by simp [hroutes]) hmod d)

end NoviFlow

/-- The route of `overLink` with another RouteMod. -/
def hostRoute (mod : RouteModType) (hmod : mod = .add ∨ mod = .delete) (host : Destination) :
    Route ⟨0, 5, 4, Mac.text 0x54⟩ ⟨0, 6, 1, Mac.text 0x61⟩ where
  toCall := { overLink with
    rm := { mod := mod, id := 5, matchList := [.ip host.toPrefix.addr host.toPrefix.netmask] }, mod := hmod }
  near_eq := rfl
  far_eq := rfl
  macs := ⟨isMac_text _, isMac_text _⟩
  ingress := ⟨3, 7, ⟨_, List.mem_cons_self, rfl, rfl, rfl⟩, (by decide : (4 : Nat) ≠ 3)⟩
  dest := host.toPrefix
  rm_matches := rfl

def tenTwo : Destination := .host ⟨.ipv4, [10, 0, 0, 2], rfl⟩

/-- Two routes are added and the first one is deleted. The second one is left without the flow of the link. -/
def twoRoutes : List (Route ⟨0, 5, 4, Mac.text 0x54⟩ ⟨0, 6, 1, Mac.text 0x61⟩) :=
  [hostRoute .add (Or.inl rfl) tenOne, hostRoute .add (Or.inl rfl) tenTwo,
    hostRoute .delete (Or.inr rfl) tenOne]

theorem link_flow_deleted :
    Live tenTwo.toPrefix twoRoutes ∧
    macKey 0 5 ⟨0, 5, 4, Mac.text 0x54⟩ ⟨0, 6, 1, Mac.text 0x61⟩ ∉ flows 5 0 twoRoutes ∧
      ¬ Independent 5 0 twoRoutes := by
  have hlive : Live tenTwo.toPrefix twoRoutes := by
    refine ⟨[hostRoute .add (Or.inl rfl) tenOne], hostRoute .add (Or.inl rfl) tenTwo,
      [hostRoute .delete (Or.inr rfl) tenOne], rfl, ⟨rfl, rfl⟩, ?_⟩
    intro x hx
    rw [List.mem_singleton.mp hx]
    exact fun h => absurd (congrArg Prefix.addr h.2) (by decide)
  have hmac : macKey 0 5 ⟨0, 5, 4, Mac.text 0x54⟩ ⟨0, 6, 1, Mac.text 0x61⟩ ∉ flows 5 0 twoRoutes := by
    have hlast : twoRoutes = [hostRoute .add (Or.inl rfl) tenOne, hostRoute .add (Or.inl rfl) tenTwo] ++
        [hostRoute .delete (Or.inr rfl) tenOne] := rfl
    rw [macKey_mem_iff, hlast, since_snoc]
    exact fun h => h.elim nofun fun h => h.2 rfl
  exact ⟨hlive, hmac, fun h => hmac (h _ hlive).2⟩

end RouteFlow.LinkRoutes
