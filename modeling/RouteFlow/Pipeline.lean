import RouteFlow.Lib.Tables
import RouteFlow.Prefix
import RouteFlow.RouteMods

/-!
# The tables of a NoviFlow switch

A packet starts in table 0, which knows the addresses of the switch. `ETHER_TABLE` has the rules for the
controller, and `FIB_TABLE` the routes. Fast paths are off.
-/

namespace RouteFlow.Pipeline

open Store Rules Translator

/-! ## Rules -/

/-- What the translator handles after `configure_datapath`: a rule for the controller, a route of a
client, and a route over a link. -/
inductive Handled where
  | controller (rm : RouteMod) (mod : rm.mod = .controller)
  | route (o : Order) (rftable : RFTable) (isltable : RFISLTable) (entry : RFEntry) (rm : RouteMod)
    (mod : rm.mod = .add)
  | link (o : Order) (rftable : RFTable) (r : RFISLEntry) (rm : RouteMod) (mod : rm.mod = .add)

def Handled.isRoute : Handled → Bool
  | .controller .. => false
  | .route .. | .link .. => true

section Sent

variable (cfg : Config) (tr : Translator)

/-- What is emitted. An exception emits nothing. -/
def Handled.rules : Handled → List RouteMod
  | .controller rm _ => noviFlowHandleControllerRouteMod cfg rm
  | .route o rftable isltable entry rm _ =>
    match noviFlowHandleRouteMod o rftable isltable entry rm with
    | .ok (_, rms) => rms
    | .error _ => []
  | .link o rftable r rm _ =>
    match tr.noviFlowHandleIslRouteMod o rftable r rm with
    | .ok rms => rms
    | .error _ => []

/-- All RouteMods that the datapath was sent, from `configure_datapath` on. -/
def sent (o : Order) (handled : List Handled) : List RouteMod :=
  (match tr.noviFlowConfigureDatapath cfg o with
    | .ok rms => rms
    | .error _ => []) ++ handled.flatMap (Handled.rules cfg tr)

/-- The RouteMods that put a flow into a table. The one that deletes all flows comes before them. -/
def isFlow (f : RouteMod) : Bool := f.mod == .add || f.mod == .controller

/-- A switch replaces a flow by one with the same matches and the same priority. -/
def flowId (f : RouteMod) : Nat × List Match × Nat := (f.table, f.matchList, f.level)

/-- The table that the flow sends its packets on to. -/
def onward (f : RouteMod) : Option Nat := f.actions.findSome? fun | .goto t => some t | _ => none

/-- The flows that are there after all of them. -/
def flows (o : Order) (handled : List Handled) : List RouteMod :=
  installed flowId ((sent cfg tr o handled).filter isFlow)

/-! ## Packets -/

/-- The routes in the FIB. -/
def routeRules (handled : List Handled) : List RouteMod :=
  ((handled.filter Handled.isRoute).flatMap (Handled.rules cfg tr)).filter fun f => f.table =
    NOVIFLOW_FIB_TABLE

/-- What the controller RouteMods put into the FIB. -/
def controllerRules (handled : List Handled) : List RouteMod :=
  ((handled.filter fun e => !e.isRoute).flatMap (Handled.rules cfg tr)).filter fun f => f.table =
    NOVIFLOW_ETHER_TABLE

/-- The address is installed in table 0, for routes over a link or for the controller. -/
def KnowsMac (handled : List Handled) (isRoute : Bool) (m : Mac) : Prop :=
  ∃ e ∈ handled, e.isRoute = isRoute ∧ ∃ f ∈ e.rules cfg tr, f.table = 0 ∧ f.matchList = [.ethernet m]

/-- From table 0 the packet comes to a route, in whatever way the switch chooses between its best flows. -/
def Routed (o : Order) (handled : List Handled) (pkt : Packet) : Prop :=
  Leads (RouteMod.accepts pkt) RouteMod.level RouteMod.table onward (flows cfg tr o handled)
    (fun f => f ∈ routeRules cfg tr handled) 0

end Sent

/-! ## What configure_datapath installs -/

section Configured

variable (dpId : Nat)

def catchRule (type : Nat) : RouteMod :=
  { mod := .add, id := dpId, table := NOVIFLOW_FIB_TABLE, matchList := [.ethertype type],
    actions := [.group CONTROLLER_GROUP], options := [ESTABLISH_PRIORITY] }

def dropRule (table : Nat) : RouteMod :=
  { mod := .add, id := dpId, table := table, options := [DROP_PRIORITY] }

def broadcastRule : RouteMod :=
  { mod := .add, id := dpId, matchList := [.ethernet (BitVec.allOnes 48)],
    actions := [.goto NOVIFLOW_ETHER_TABLE], options := [CONTROLLER_PRIORITY] }

def arpRule : RouteMod :=
  { mod := .add, id := dpId, table := NOVIFLOW_ETHER_TABLE, matchList := [.ethertype ETHERTYPE_ARP],
    actions := [.group CONTROLLER_GROUP], options := [CONTROLLER_PRIORITY] }

def ipv4Rule : RouteMod :=
  { mod := .add, id := dpId, table := NOVIFLOW_ETHER_TABLE, matchList := [.ethertype ETHERTYPE_IP],
    actions := [.goto NOVIFLOW_FIB_TABLE], options := [DEFAULT_PRIORITY] }

/-- The flows of `configure_datapath`, without fast paths. -/
def configured : List RouteMod :=
  [catchRule dpId ETHERTYPE_IP, catchRule dpId ETHERTYPE_IPV6, dropRule dpId 0,
    dropRule dpId NOVIFLOW_ETHER_TABLE, dropRule dpId NOVIFLOW_FIB_TABLE, broadcastRule dpId,
      arpRule dpId, ipv4Rule dpId]

theorem level_catchRule (type : Nat) :
    (catchRule dpId type).level = PRIORITY_LOWEST + PRIORITY_BAND + 1 := rfl

theorem level_dropRule (table : Nat) : (dropRule dpId table).level = PRIORITY_LOWEST + PRIORITY_BAND := rfl

theorem level_ipv4Rule : (ipv4Rule dpId).level = PRIORITY_LOWEST + PRIORITY_BAND + 1000 := rfl

end Configured

variable {cfg : Config} (hfp : cfg.fpEnabled = false) {tr : Translator} {o : Order}

include hfp in
theorem configureDatapath_eq : tr.noviFlowConfigureDatapath cfg o =
    .ok ({ mod := .deleteGroup, id := tr.dpId } ::
      { mod := .addGroup, id := tr.dpId, group := CONTROLLER_GROUP, actions := [Action.CONTROLLER] } ::
      { mod := .delete, id := tr.dpId } :: configured tr.dpId) := by
  unfold noviFlowConfigureDatapath noviFlowHandleControllerRouteMod
  rw [hfp]
  rfl

/-! ## What the translator adds -/

/-- A flow in table 0, which sends an address to the table of the others, or a flow in that table. -/
inductive Shape (e : Handled) (f : RouteMod) : Prop
  | mac (m : Mac) (table : f.table = 0) (matchList : f.matchList = [.ethernet m])
      (level : f.level = if e.isRoute then PRIORITY_HIGH else PRIORITY_LOWEST + PRIORITY_BAND + 1000)
      (onward : onward f = some (if e.isRoute then NOVIFLOW_FIB_TABLE else NOVIFLOW_ETHER_TABLE))
  | own (table : f.table = if e.isRoute then NOVIFLOW_FIB_TABLE else NOVIFLOW_ETHER_TABLE)
      (level : e.isRoute = true → f.level = PRIORITY_HIGH)

theorem rules_shape {e : Handled} {f : RouteMod} (h : f ∈ e.rules cfg tr) : isFlow f = true ∧ Shape e f := by
  cases e with
  | controller rm mod =>
    simp only [Handled.rules, noviFlowHandleControllerRouteMod] at h
    split at h
    · obtain rfl := List.mem_singleton.mp h
      exact ⟨by simp [isFlow, RouteMod.setMatches, RouteMod.setTable, RouteMod.addAction, mod],
        .own rfl nofun⟩
    · rename_i m _
      rcases List.mem_cons.mp h with rfl | h
      · exact ⟨by simp [isFlow, RouteMod.setMatches, RouteMod.setTable, RouteMod.addAction, mod],
          .own rfl nofun⟩
      · obtain rfl := List.mem_singleton.mp h
        exact ⟨rfl, .mac m rfl rfl rfl rfl⟩
  | route o rftable isltable entry rm mod =>
    simp only [Handled.rules, noviFlowHandleRouteMod] at h
    cases hout : Action.OUTPUT entry.dpPort with
    | error err =>
      rw [hout] at h
      cases h
    | ok output =>
      rw [hout] at h
      obtain ⟨-, rfl⟩ := (mem_noviFlowSendRmWithMatches _ _ _ _).mp h
      exact ⟨by simp [isFlow, RouteMod.setOptions, RouteMod.setTable, RouteMod.addAction, mod],
        .own rfl fun _ => rfl⟩
  | link o rftable r rm mod =>
    simp only [Handled.rules, noviFlowHandleIslRouteMod] at h
    cases hacts : islActions r with
    | error err =>
      rw [hacts] at h
      cases h
    | ok acts =>
      rw [hacts] at h
      cases hmac : Match.ETHERNET (if some tr.dpId = r.dpId then r.ethAddr else r.remEthAddr) with
      | error err =>
        simp only [hmac, bind, Except.bind] at h
        cases h
      | ok mac =>
        simp only [hmac, bind, Except.bind, pure, Except.pure, List.mem_append, List.mem_singleton] at h
        rcases h with h | rfl
        · obtain ⟨-, rfl⟩ := (mem_noviFlowSendRmWithMatches _ _ _ _).mp h
          exact ⟨by simp [isFlow, RouteMod.setOptions, RouteMod.setTable, RouteMod.setActions,
            RouteMod.setId, mod], .own rfl fun _ => rfl⟩
        · obtain ⟨m, rfl⟩ := Match.ETHERNET_ok hmac
          exact ⟨by simp [isFlow, RouteMod.setOptions, RouteMod.setTable, RouteMod.setActions,
            RouteMod.setMatches, RouteMod.setId, mod], .mac m rfl rfl rfl rfl⟩

include hfp in
theorem flows_eq (handled : List Handled) :
    flows cfg tr o handled = installed flowId
      (configured tr.dpId ++ handled.flatMap (Handled.rules cfg tr)) := by
  have hrules : (handled.flatMap (Handled.rules cfg tr)).filter isFlow =
    handled.flatMap (Handled.rules cfg tr) := by
    rw [List.filter_eq_self]
    intro f hf
    obtain ⟨e, -, hf⟩ := List.mem_flatMap.mp hf
    exact (rules_shape hf).1
  rw [flows, sent, configureDatapath_eq hfp]
  simp only [List.filter_append, hrules]
  rfl

/-! ## Table by table -/

section Tables

variable {handled : List Handled} {pkt : Packet} {f : RouteMod}

include hfp in
theorem mem_flows (hf : f ∈ flows cfg tr o handled) :
    f ∈ configured tr.dpId ∨ ∃ e ∈ handled, f ∈ e.rules cfg tr := by
  rw [flows_eq hfp] at hf
  rcases List.mem_append.mp (sent_of_installed hf) with hf | hf
  · exact Or.inl hf
  · exact Or.inr (List.mem_flatMap.mp hf)

include hfp in
theorem flows_table_zero (hf : f ∈ flows cfg tr o handled) (ht : f.table = 0) :
    f = dropRule tr.dpId 0 ∨ f = broadcastRule tr.dpId ∨ ∃ e ∈ handled, f ∈ e.rules cfg tr ∧
      ∃ m, f.matchList = [.ethernet m] ∧
        f.level = (if e.isRoute then PRIORITY_HIGH else PRIORITY_LOWEST + PRIORITY_BAND + 1000) ∧
        onward f = some (if e.isRoute then NOVIFLOW_FIB_TABLE else NOVIFLOW_ETHER_TABLE) := by
  rcases mem_flows hfp hf with hf | ⟨e, he, hf⟩
  · simp only [configured, List.mem_cons, List.not_mem_nil, or_false] at hf
    rcases hf with rfl | rfl | rfl | rfl | rfl | rfl | rfl | rfl
    all_goals first
      | cases ht; done
      | simp
  · cases (rules_shape hf).2 with
    | mac m _ hmatch hlevel hnext => exact Or.inr (Or.inr ⟨e, he, hf, m, hmatch, hlevel, hnext⟩)
    | own htable _ =>
      rw [ht] at htable
      cases hr : e.isRoute <;> rw [hr] at htable <;> cases htable

include hfp in
theorem flows_ether (hf : f ∈ flows cfg tr o handled) (ht : f.table = NOVIFLOW_ETHER_TABLE) :
    f = dropRule tr.dpId NOVIFLOW_ETHER_TABLE ∨ f = arpRule tr.dpId ∨ f = ipv4Rule tr.dpId ∨
      f ∈ controllerRules cfg tr handled := by
  rcases mem_flows hfp hf with hf | ⟨e, he, hf⟩
  · simp only [configured, List.mem_cons, List.not_mem_nil, or_false] at hf
    rcases hf with rfl | rfl | rfl | rfl | rfl | rfl | rfl | rfl
    all_goals first
      | cases ht; done
      | simp
  · cases (rules_shape hf).2 with
    | mac m htable => rw [ht] at htable; cases htable
    | own htable _ =>
      rw [ht] at htable
      cases hr : e.isRoute with
      | true => rw [hr] at htable; cases htable
      | false =>
        refine Or.inr (Or.inr (Or.inr (List.mem_filter.mpr ⟨?_, by simp [ht]⟩)))
        exact List.mem_flatMap.mpr ⟨e, List.mem_filter.mpr ⟨he, by simp [hr]⟩, hf⟩

theorem mem_routeRules : f ∈ routeRules cfg tr handled ↔
    (∃ e ∈ handled, e.isRoute = true ∧ f ∈ e.rules cfg tr) ∧ f.table = NOVIFLOW_FIB_TABLE := by
  simp only [routeRules, List.mem_filter, List.mem_flatMap, decide_eq_true_eq, and_assoc]

theorem level_routeRules (hf : f ∈ routeRules cfg tr handled) : f.level = PRIORITY_HIGH := by
  obtain ⟨⟨e, -, hr, hf⟩, ht⟩ := mem_routeRules.mp hf
  cases (rules_shape hf).2 with
  | mac m htable => rw [ht] at htable; cases htable
  | own _ hlevel => exact hlevel hr

include hfp in
theorem flows_fib (hf : f ∈ flows cfg tr o handled) (ht : f.table = NOVIFLOW_FIB_TABLE) :
    f.level < PRIORITY_HIGH ∨ f ∈ routeRules cfg tr handled := by
  rcases mem_flows hfp hf with hf | ⟨e, he, hf⟩
  · simp only [configured, List.mem_cons, List.not_mem_nil, or_false] at hf
    rcases hf with rfl | rfl | rfl | rfl | rfl | rfl | rfl | rfl
    all_goals first
      | cases ht; done
      | exact Or.inl (by simp only [level_catchRule, level_dropRule]; decide)
  · cases (rules_shape hf).2 with
    | mac m htable => rw [ht] at htable; cases htable
    | own htable _ =>
      rw [ht] at htable
      cases hr : e.isRoute with
      | true => exact Or.inr (mem_routeRules.mpr ⟨⟨e, he, hr, hf⟩, ht⟩)
      | false => rw [hr] at htable; cases htable

theorem accepts_of_flowId {f g : RouteMod} (h : flowId g = flowId f) (hf : f.accepts pkt) :
    g.table = f.table ∧ g.level = f.level ∧ g.accepts pkt := by
  simp only [flowId, Prod.mk.injEq] at h
  refine ⟨h.1, h.2.2, ?_⟩
  rw [RouteMod.accepts, h.2.1]
  exact hf

include hfp in
theorem leads_fib (hroute : ∃ f ∈ routeRules cfg tr handled, f.accepts pkt) :
    Leads (RouteMod.accepts pkt) RouteMod.level RouteMod.table onward (flows cfg tr o handled)
      (fun f => f ∈ routeRules cfg tr handled) NOVIFLOW_FIB_TABLE := by
  obtain ⟨f, hf, hacc⟩ := hroute
  obtain ⟨⟨e, he, -, hrule⟩, ht⟩ := mem_routeRules.mp hf
  have hsent : f ∈ configured tr.dpId ++ handled.flatMap (Handled.rules cfg tr) :=
    List.mem_append_right _ (List.mem_flatMap.mpr ⟨e, he, hrule⟩)
  obtain ⟨g, hg, hkey⟩ := exists_installed flowId hsent
  rw [← flows_eq hfp (o := o)] at hg
  obtain ⟨hgt, hgl, hga⟩ := accepts_of_flowId hkey hacc
  apply Leads.here
  · exact exists_bestIn hg (hgt.trans ht) hga
  · intro q hq
    rcases flows_fib hfp hq.1 hq.2.1.1 with hlow | hq'
    · have hle := hq.le hg (hgt.trans ht) hga
      rw [hgl, level_routeRules hf] at hle
      omega
    · exact hq'

include hfp in
theorem goto_fib (hlink : KnowsMac cfg tr handled true pkt.dlDst) :
    (∃ q, BestIn (RouteMod.accepts pkt) RouteMod.level RouteMod.table (flows cfg tr o handled) 0 q) ∧
      ∀ q, BestIn (RouteMod.accepts pkt) RouteMod.level RouteMod.table (flows cfg tr o handled) 0 q →
        onward q = some NOVIFLOW_FIB_TABLE := by
  obtain ⟨e, he, hr, f, hf, ht, hmatch⟩ := hlink
  have hlevel : f.level = PRIORITY_HIGH := by
    cases (rules_shape hf).2 with
    | mac m _ _ hlevel => rw [hlevel, hr]; rfl
    | own htable => rw [ht, hr] at htable; cases htable
  have hacc : f.accepts pkt := by simp [RouteMod.accepts, hmatch, Match.accepts]
  obtain ⟨g, hg, hlater, hkey⟩ := installed_later flowId (configured tr.dpId)
    (List.mem_flatMap.mpr ⟨e, he, hf⟩)
  rw [← flows_eq hfp (o := o)] at hg
  obtain ⟨hgt, hgl, hga⟩ := accepts_of_flowId hkey hacc
  rw [ht] at hgt
  rw [hlevel] at hgl
  -- It was sent after the flow for broadcasts, which it may have replaced.
  have hgnext : onward g = some NOVIFLOW_FIB_TABLE := by
    obtain ⟨e', -, hg'⟩ := List.mem_flatMap.mp hlater
    cases (rules_shape hg').2 with
    | mac m _ _ hl hn =>
      cases hr' : e'.isRoute with
      | true => rw [hn, hr']; rfl
      | false => rw [hgl, hr'] at hl; cases hl
    | own htable =>
      rw [hgt] at htable
      cases hr' : e'.isRoute <;> rw [hr'] at htable <;> cases htable
  refine ⟨exists_bestIn hg hgt hga, fun q hq => ?_⟩
  have hle := hq.le hg hgt hga
  rw [hgl] at hle
  rcases flows_table_zero hfp hq.1 hq.2.1.1 with rfl | rfl | ⟨e', -, -, m, -, hl, hn⟩
  · exact absurd hle (by rw [level_dropRule]; decide)
  · have hbroadcast : pkt.dlDst = BitVec.allOnes 48 := by
      simpa [RouteMod.accepts, broadcastRule, Match.accepts] using hq.2.1.2
    have hsame : broadcastRule tr.dpId = g := by
      apply installed_unique (flows_eq hfp (o := o) handled ▸ hq.1) (flows_eq hfp (o := o) handled ▸ hg)
      rw [hkey, flowId, flowId, ht, hmatch, hlevel, hbroadcast]
      rfl
    rw [hsame]
    exact hgnext
  · cases hr' : e'.isRoute with
    | true => rw [hn, hr']; rfl
    | false => rw [hl, hr'] at hle; exact absurd hle (by decide)

include hfp in
theorem goto_ether (hmac : KnowsMac cfg tr handled false pkt.dlDst)
    (hlink : ¬ KnowsMac cfg tr handled true pkt.dlDst) :
    (∃ q, BestIn (RouteMod.accepts pkt) RouteMod.level RouteMod.table (flows cfg tr o handled) 0 q) ∧
      ∀ q, BestIn (RouteMod.accepts pkt) RouteMod.level RouteMod.table (flows cfg tr o handled) 0 q →
        onward q = some NOVIFLOW_ETHER_TABLE := by
  obtain ⟨e, he, hr, f, hf, ht, hmatch⟩ := hmac
  have hlevel : f.level = PRIORITY_LOWEST + PRIORITY_BAND + 1000 := by
    cases (rules_shape hf).2 with
    | mac m _ _ hlevel => rw [hlevel, hr]; rfl
    | own htable => rw [ht, hr] at htable; cases htable
  have hacc : f.accepts pkt := by simp [RouteMod.accepts, hmatch, Match.accepts]
  have hsent : f ∈ configured tr.dpId ++ handled.flatMap (Handled.rules cfg tr) :=
    List.mem_append_right _ (List.mem_flatMap.mpr ⟨e, he, hf⟩)
  obtain ⟨g, hg, hkey⟩ := exists_installed flowId hsent
  rw [← flows_eq hfp (o := o)] at hg
  obtain ⟨hgt, hgl, hga⟩ := accepts_of_flowId hkey hacc
  refine ⟨exists_bestIn hg (hgt.trans ht) hga, fun q hq => ?_⟩
  have hle := hq.le hg (hgt.trans ht) hga
  rw [hgl, hlevel] at hle
  rcases flows_table_zero hfp hq.1 hq.2.1.1 with rfl | rfl | ⟨e', he', hq', m, hm, -, hn⟩
  · exact absurd hle (by rw [level_dropRule]; decide)
  · rfl
  · cases hr' : e'.isRoute with
    | false => rw [hn, hr']; rfl
    | true =>
      have hdst : pkt.dlDst = m := by
        have hqa := hq.2.1.2
        rw [RouteMod.accepts, hm] at hqa
        simpa [Match.accepts] using hqa
      exact absurd ⟨e', he', hr', q, hq', hq.2.1.1, by rw [hm, hdst]⟩ hlink

include hfp in
/-- Without a rule for the controller, IPv4 goes to the FIB, and IPv6 goes nowhere. -/
theorem leads_ether_iff (htype : pkt.dlType = ETHERTYPE_IP ∨ pkt.dlType = ETHERTYPE_IPV6)
    (hno : ∀ f ∈ controllerRules cfg tr handled, ¬ f.accepts pkt)
    (hroute : ∃ f ∈ routeRules cfg tr handled, f.accepts pkt) :
    Leads (RouteMod.accepts pkt) RouteMod.level RouteMod.table onward (flows cfg tr o handled)
      (fun f => f ∈ routeRules cfg tr handled) NOVIFLOW_ETHER_TABLE ↔ pkt.dlType = ETHERTYPE_IP := by
  have hether : ∀ q ∈ flows cfg tr o handled, q.table = NOVIFLOW_ETHER_TABLE → q.accepts pkt →
      q = dropRule tr.dpId NOVIFLOW_ETHER_TABLE ∨ (q = ipv4Rule tr.dpId ∧ pkt.dlType = ETHERTYPE_IP) := by
    intro q hq ht hacc
    rcases flows_ether hfp hq ht with rfl | rfl | rfl | hq
    · exact Or.inl rfl
    · have harp : pkt.dlType = ETHERTYPE_ARP := by simpa [RouteMod.accepts, arpRule, Match.accepts] using hacc
      rw [harp] at htype
      exact absurd htype (by decide)
    · exact Or.inr ⟨rfl, by simpa [RouteMod.accepts, ipv4Rule, Match.accepts] using hacc⟩
    · exact absurd hacc (hno q hq)
  have hthere {f : RouteMod} (hf : f ∈ configured tr.dpId) (ht : f.table = NOVIFLOW_ETHER_TABLE)
    (hacc : f.accepts pkt) :
      ∃ g ∈ flows cfg tr o handled, g.table = NOVIFLOW_ETHER_TABLE ∧ g.level = f.level ∧ g.accepts pkt := by
    obtain ⟨g, hg, hkey⟩ :=
      exists_installed flowId (List.mem_append_left (handled.flatMap (Handled.rules cfg tr)) hf)
    rw [← flows_eq hfp (o := o)] at hg
    obtain ⟨hgt, hgl, hga⟩ := accepts_of_flowId hkey hacc
    exact ⟨g, hg, hgt.trans ht, hgl, hga⟩
  constructor
  · intro h
    by_contra hv6
    obtain ⟨g, hg, hgt, -, hga⟩ := hthere (f := dropRule tr.dpId NOVIFLOW_ETHER_TABLE)
      (by simp [configured]) rfl
      (by simp [RouteMod.accepts, dropRule])
    obtain ⟨q, hq⟩ : ∃ q, BestIn (RouteMod.accepts pkt) RouteMod.level RouteMod.table (flows cfg tr o handled)
        NOVIFLOW_ETHER_TABLE q :=
      exists_bestIn hg hgt hga
    obtain rfl : q = dropRule tr.dpId NOVIFLOW_ETHER_TABLE :=
      (hether q hq.1 hq.2.1.1 hq.2.1.2).resolve_right fun h => hv6 h.2
    refine not_leads hq (fun hP => ?_) rfl h
    cases (mem_routeRules.mp hP).2
  · intro hv4
    obtain ⟨g, hg, hgt, hgl, hga⟩ := hthere (f := ipv4Rule tr.dpId) (by simp [configured]) rfl
      (by simp [RouteMod.accepts, ipv4Rule, Match.accepts, hv4])
    apply Leads.goto
    · exact exists_bestIn hg hgt hga
    · intro q hq
      rcases hether q hq.1 hq.2.1.1 hq.2.1.2 with rfl | ⟨rfl, -⟩
      · have hle := hq.le hg hgt hga
        rw [hgl, level_ipv4Rule, level_dropRule] at hle
        exact absurd hle (by decide)
      · rfl
    · exact leads_fib hfp hroute

end Tables

section Routed

variable (hfp : cfg.fpEnabled = false) (tr : Translator) (o : Order) (handled : List Handled) (pkt : Packet)
  (htype : pkt.dlType = ETHERTYPE_IP ∨ pkt.dlType = ETHERTYPE_IPV6)
  (hmac : KnowsMac cfg tr handled false pkt.dlDst)
  (hno : ∀ f ∈ controllerRules cfg tr handled, ¬ f.accepts pkt)
  (hroute : ∃ f ∈ routeRules cfg tr handled, f.accepts pkt)

include hfp htype hmac hno hroute

theorem routed_off_links (hlink : ¬ KnowsMac cfg tr handled true pkt.dlDst) :
    Routed cfg tr o handled pkt ↔ pkt.dlType = ETHERTYPE_IP := by
  obtain ⟨hsome, hnext⟩ := goto_ether hfp (o := o) hmac hlink
  rw [← leads_ether_iff hfp (o := o) htype hno hroute]
  constructor
  · intro h
    apply Leads.after h
    intro q hq
    refine ⟨fun hP => ?_, hnext q hq⟩
    have htable := (mem_routeRules.mp hP).2
    rw [hq.2.1.1] at htable
    cases htable
  · exact Leads.goto hsome hnext

/-- Packets for an installed address that match a route and no rule for the controller come to the route if
they are IPv4, or if the address is that of a link. -/
theorem routed_iff :
    Routed cfg tr o handled pkt ↔ pkt.dlType = ETHERTYPE_IP ∨ KnowsMac cfg tr handled true pkt.dlDst := by
  by_cases hlink : KnowsMac cfg tr handled true pkt.dlDst
  · obtain ⟨hsome, hnext⟩ := goto_fib hfp (o := o) hlink
    exact iff_of_true (Leads.goto hsome hnext (leads_fib hfp hroute)) (Or.inr hlink)
  · rw [or_iff_left hlink]
    exact routed_off_links hfp tr o handled pkt htype hmac hno hroute hlink

end Routed

/-! ## A router -/

def noFastpaths : Config :=
  ⟨memoryTable RFConfigEntry, memoryTable RFISLConfEntry, memoryTable RFFPConfEntry, [5], []⟩

def noviFlow : Translator := { kind := .noviFlow, dpId := 5, ctId := 0 }

def clientPort : RFEntry :=
  { vmId := some 1, vmPort := some 3, ctId := some 0, dpId := some 5, dpPort := some 3, vsId := some 9,
    vsPort := some 1, ethAddr := some 0x13 }

def bgpRule (addr : IPAddress) : RouteMod :=
  ((controllerRouteMod 1 1 0 true 0x11 true addr).addMatch (.nwProto IPPROTO_TCP)).addMatch (.tpDst TPORT_BGP)

/-- An interface with the address, and a route to the host over port 2. Port 3 is active, too. -/
def router (addr host : IPAddress) : List Handled :=
  [.controller (bgpRule addr) (by
      cases h : addr.version <;>
        simp [bgpRule, controllerRouteMod, h, RouteMod.addMatch, RouteMod.addOption]),
    .route .insertion ((memoryTable RFEntry).add clientPort) (memoryTable RFISLEntry)
      { ctId := some 0, dpId := some 5, dpPort := some 2 }
      { mod := .add, id := 5, matchList := [.ip host (.ofPrefixLen host.version (8 * host.version.length))],
        actions := [.setEthSrc 0x12, .setEthDst 0x31] } rfl]

theorem router_knowsMac (addr host : IPAddress) :
    KnowsMac noFastpaths noviFlow (router addr host) false 0x11 := by
  refine ⟨_, List.mem_cons_self, rfl, ?_⟩
  cases h : addr.version <;>
    simp [Handled.rules, noviFlowHandleControllerRouteMod, bgpRule, controllerRouteMod, h, RouteMod.addMatch,
      RouteMod.addOption, RouteMod.addAction, RouteMod.setTable, RouteMod.setMatches]

theorem router_not_link (addr host : IPAddress) (m : Mac) :
    ¬ KnowsMac noFastpaths noviFlow (router addr host) true m := by
  rintro ⟨e, he, hr, f, hf, ht, -⟩
  simp only [router, List.mem_cons, List.not_mem_nil, or_false] at he
  rcases he with rfl | rfl
  · cases hr
  · rw [((mem_noviFlowSendRmWithMatches _ _ _ _).mp hf).2] at ht
    cases ht

def addr4 : IPAddress := ⟨.ipv4, [10, 0, 1, 1], rfl⟩
def host4 : IPAddress := ⟨.ipv4, [10, 0, 1, 5], rfl⟩
def addr6 : IPAddress := ⟨.ipv6, [0x20, 0x01, 0x0d, 0xb8, 0, 0, 0, 0, 0, 0, 0, 0, 0, 0, 0, 1], rfl⟩
def host6 : IPAddress := ⟨.ipv6, [0x20, 0x01, 0x0d, 0xb8, 0, 1, 0, 0, 0, 0, 0, 0, 0, 0, 0, 5], rfl⟩

def toHost (type : Nat) (host : IPAddress) : Packet :=
  { inPort := 3, dlSrc := 0x13, dlDst := 0x11, dlType := type, nwDst := some host }

theorem routed_iff_ipv4 : Routed noFastpaths noviFlow .insertion (router addr4 host4)
    (toHost ETHERTYPE_IP host4) :=
  (routed_iff rfl noviFlow .insertion _ _ (Or.inl rfl) (router_knowsMac _ _) (by decide +kernel)
    (by decide +kernel)).mpr (Or.inl rfl)

/-- The same router for IPv6. -/
theorem ipv6_not_routed :
    KnowsMac noFastpaths noviFlow (router addr6 host6) false (toHost ETHERTYPE_IPV6 host6).dlDst ∧
      (∀ f ∈ controllerRules noFastpaths noviFlow (router addr6 host6),
        ¬ f.accepts (toHost ETHERTYPE_IPV6 host6)) ∧
      (∃ f ∈ routeRules noFastpaths noviFlow (router addr6 host6), f.accepts (toHost ETHERTYPE_IPV6 host6)) ∧
      ¬ Routed noFastpaths noviFlow .insertion (router addr6 host6) (toHost ETHERTYPE_IPV6 host6) := by
  have hno : ∀ f ∈ controllerRules noFastpaths noviFlow (router addr6 host6),
      ¬ f.accepts (toHost ETHERTYPE_IPV6 host6) := by
    decide +kernel
  have hroute : ∃ f ∈ routeRules noFastpaths noviFlow (router addr6 host6),
      f.accepts (toHost ETHERTYPE_IPV6 host6) := by
    decide +kernel
  refine ⟨router_knowsMac _ _, hno, hroute, ?_⟩
  rw [routed_off_links rfl noviFlow .insertion _ _ (Or.inr rfl)
    (router_knowsMac _ _) hno hroute (router_not_link _ _ _)]
  decide

end RouteFlow.Pipeline
