import RouteFlow.Lib.Rules
import RouteFlow.Flows
import RouteFlow.Prefix

/-!
# Longest prefix match

The flows that `DefaultRouteModTranslator.handle_route_mod` makes of the routes of the clients. A
switch takes the flow with the highest priority, and that one belongs to the longest prefix.
-/

namespace RouteFlow

open Store Run Rules

/-! ## Flows of a datapath -/

/-- A route or host of some client, with the entry of the VM port that it leaves on. The entry is on
the datapath (`c`, `d`). -/
structure SentRoute (c d : Nat) where
  vmId : Nat
  dest : Destination
  iface : Interface
  gateway : Mac
  entry : RFEntry
  out : Nat
  entry_dp : entry.dp = some ⟨c, d, out⟩

namespace SentRoute

variable {c d : Nat}

def routeMod (r : SentRoute c d) : RouteMod := (r.dest.routeMod r.vmId .add r.iface r.gateway).setId d

def toPrefix (r : SentRoute c d) : Prefix := r.dest.toPrefix

def flow (p : Nat) (m : Mac) (r : SentRoute c d) : RouteMod :=
  portFlow (r.routeMod.addAction (.output r.out)) p m

theorem flow_matchList (p : Nat) (m : Mac) (r : SentRoute c d) :
    (r.flow p m).matchList = [.ip r.toPrefix.addr r.toPrefix.netmask, .ethernet m, .inPort p] := by
  unfold flow portFlow routeMod
  rw [Destination.routeMod_eq]
  simp only [RouteMod.addMatch, RouteMod.addAction, RouteMod.setId, sendToHw_matchList]
  rfl

theorem flow_options (p : Nat) (m : Mac) (r : SentRoute c d) :
    (r.flow p m).options = [.priority (prefixPriority r.toPrefix.len)] := by
  unfold flow portFlow routeMod
  rw [Destination.routeMod_eq]
  simp only [RouteMod.addMatch, RouteMod.addAction, RouteMod.setId, sendToHw_options]
  rfl

theorem flow_output (p : Nat) (m : Mac) (r : SentRoute c d) (port : Nat) :
    Action.output port ∈ (r.flow p m).actions ↔ port = r.out := by
  unfold flow portFlow routeMod
  rw [Destination.routeMod_eq]
  simp only [RouteMod.addMatch, RouteMod.addAction, RouteMod.setId, List.mem_append, sendToHw_actions_output,
    List.mem_singleton, false_or, Action.output.injEq]

theorem flow_priority (p : Nat) (m : Mac) (r : SentRoute c d) :
    (r.flow p m).priority = some (prefixPriority r.toPrefix.len) := by
  simp [RouteMod.priority, flow_options]

theorem flow_level (p : Nat) (m : Mac) (r : SentRoute c d) :
    (r.flow p m).level = prefixPriority r.toPrefix.len := by
  simp [RouteMod.level, flow_priority]

theorem flow_accepts (p : Nat) (m : Mac) (r : SentRoute c d) {pkt : Packet} {dst : IPAddress}
    (hdst : pkt.nwDst = some dst) :
    (r.flow p m).accepts pkt ↔ r.toPrefix.Covers dst ∧ pkt.dlDst = m ∧ pkt.inPort = p := by
  rw [RouteMod.accepts, flow_matchList, List.all_cons, Bool.and_eq_true, Prefix.accepts_iff _ hdst]
  simp [Match.accepts]

end SentRoute

section Flows

variable (o : Order) (rf : RFTable) (isl : RFISLTable) {c d : Nat}

/-- What the translator of the datapath makes of the routes, one after the other. -/
def routeFlows : List (SentRoute c d) → Except PyErr (List RouteMod)
  | [] => .ok []
  | r :: rest => do
    let (_, rms) ← Translator.defaultHandleRouteMod o rf isl r.entry r.routeMod
    return rms ++ (← routeFlows rest)

variable {o rf isl} (hs : RFShaped rf) (hi : IslShaped isl)

include hs hi in
/-- Each route is handled if the translator can read the addresses that it needs for it. -/
theorem routeFlows_ok_iff (routes : List (SentRoute c d)) : (∃ flows, routeFlows o rf isl routes = .ok flows) ↔
    ∀ r ∈ routes, PortsReadable isl ⟨c, d, r.out⟩ := by
  induction routes with
  | nil => simp [routeFlows]
  | cons r rest ih =>
    rw [List.forall_mem_cons, ← ih]
    by_cases hread : PortsReadable isl ⟨c, d, r.out⟩
    · obtain ⟨rms, hok, -⟩ := mem_defaultHandleRouteMod hs hi (o := o) r.entry_dp hread r.routeMod
      simp only [hread, true_and, routeFlows, hok]
      constructor
      · rintro ⟨flows, h⟩
        cases hrest : routeFlows o rf isl rest with
        | ok more => exact ⟨more, rfl⟩
        | error err =>
          rw [hrest] at h
          cases h
      · rintro ⟨more, hmore⟩
        rw [hmore]
        exact ⟨rms ++ more, rfl⟩
    · obtain ⟨err, herr⟩ := defaultHandleRouteMod_error o rf hi r.entry_dp hread r.routeMod
      simp only [hread, false_and, iff_false, routeFlows, herr]
      rintro ⟨flows, h⟩
      cases h

include hs hi in
theorem mem_routeFlows {routes : List (SentRoute c d)} {flows : List RouteMod}
    (h : routeFlows o rf isl routes = .ok flows) (f : RouteMod) :
    f ∈ flows ↔ ∃ r ∈ routes, ∃ p m, ActivePort rf isl c d p m ∧ r.out ≠ p ∧ f = r.flow p m := by
  induction routes generalizing flows with
  | nil =>
    obtain rfl := Except.ok.inj h
    simp
  | cons r rest ih =>
    have hread := (routeFlows_ok_iff hs hi _).mp ⟨flows, h⟩
    obtain ⟨rms, hok, hrms⟩ := mem_defaultHandleRouteMod hs hi (o := o) r.entry_dp
      (hread r List.mem_cons_self) r.routeMod
    obtain ⟨more, hmore⟩ := (routeFlows_ok_iff hs hi (o := o) rest).mpr fun q hq =>
      hread q (List.mem_cons_of_mem _ hq)
    simp only [routeFlows, hok, hmore] at h
    obtain rfl : rms ++ more = flows := Except.ok.inj h
    rw [List.mem_append, hrms, ih hmore]
    simp [SentRoute.flow]

end Flows

/-! ## The flow that a packet takes -/

/-- Above the flows that catch what has no route, and below those for the controller. -/
def InRouteBand (n : Nat) : Prop :=
  (∀ k, .priority k ∈ [DROP_PRIORITY, ESTABLISH_PRIORITY, DEFAULT_PRIORITY] → k < n) ∧ n < PRIORITY_HIGH

theorem prefixPriority_inRouteBand {len : Nat} (h : len ≤ 128) : InRouteBand (prefixPriority len) := by
  constructor
  · intro k hk
    simp only [DROP_PRIORITY, ESTABLISH_PRIORITY, DEFAULT_PRIORITY, PRIORITY_LOWEST, PRIORITY_BAND,
      List.mem_cons, RFOption.priority.injEq, List.not_mem_nil, or_false] at hk
    simp only [prefixPriority, PRIORITY_LOW, PRIORITY_BAND]
    omega
  · simp only [prefixPriority, PRIORITY_LOW, PRIORITY_BAND, PRIORITY_HIGH]
    omega

/-- A packet to `dst` that comes in on an active port takes a flow of the longest prefix that covers
`dst`, of the routes that leave on another port. Nothing goes back to the port it came from. Flows of
one priority that accept it have the same match, and the priorities stay in their band. -/
theorem longest_prefix_match (cfg : Config) (h : History) (o : Order) {c d : Nat}
    (routes : List (SentRoute c d)) :
    let s := run (Server.step cfg) Server.init h
    ((∃ flows, routeFlows o s.rftable s.isltable routes = .ok flows) ↔
      ∀ r ∈ routes, PortsReadable s.isltable ⟨c, d, r.out⟩) ∧
    ∀ flows, routeFlows o s.rftable s.isltable routes = .ok flows →
      (∀ p m, ActivePort s.rftable s.isltable c d p m → ∀ pkt : Packet, ∀ dst, pkt.inPort = p →
        pkt.dlDst = m → pkt.nwDst = some dst →
        (∀ f, Best (·.accepts pkt) RouteMod.level flows f ↔ ∃ r : SentRoute c d,
          Best (fun r => r.out ≠ p ∧ r.toPrefix.Covers dst) (fun r => r.toPrefix.len) routes r ∧
            f = r.flow p m) ∧
        (∀ f ∈ flows, f.accepts pkt → Action.output p ∉ f.actions) ∧
        ∀ f ∈ flows, ∀ g ∈ flows, f.accepts pkt → g.accepts pkt → f.level = g.level →
          f.matchList = g.matchList) ∧
      ∀ f ∈ flows, ∃ r ∈ routes, f.priority = some (PRIORITY_LOW + r.toPrefix.len * PRIORITY_BAND) ∧
        PRIORITY_LOW + r.toPrefix.netmask.toPrefixLen * PRIORITY_BAND < 2 ^ 16 ∧
        InRouteBand (PRIORITY_LOW + r.toPrefix.len * PRIORITY_BAND) := by
  intro s
  obtain ⟨hs, hi⟩ := run_shaped cfg h
  refine ⟨routeFlows_ok_iff hs hi routes, fun flows hok => ?_⟩
  have hmem := mem_routeFlows hs hi hok
  refine ⟨?_, ?_⟩
  · intro p m hport pkt dst hin hmac hdst
    -- The flows that accept the packet are those of this port, for the routes that cover `dst`.
    have happlies : ∀ f, (f ∈ flows ∧ f.accepts pkt) ↔
        ∃ r ∈ routes, (r.out ≠ p ∧ r.toPrefix.Covers dst) ∧ f = r.flow p m := by
      intro f
      rw [hmem]
      constructor
      · rintro ⟨⟨r, hr, p', m', -, hne, rfl⟩, hacc⟩
        obtain ⟨hcov, hm, hp⟩ := (r.flow_accepts p' m' hdst).mp hacc
        obtain rfl : p' = p := hp.symm.trans hin
        obtain rfl : m' = m := hm.symm.trans hmac
        exact ⟨r, hr, ⟨hne, hcov⟩, rfl⟩
      · rintro ⟨r, hr, ⟨hne, hcov⟩, rfl⟩
        exact ⟨⟨r, hr, p, m, hport, hne, rfl⟩, (r.flow_accepts p m hdst).mpr ⟨hcov, hmac, hin⟩⟩
    refine ⟨?_, ?_, ?_⟩
    · apply best_image happlies
      intro a b
      rw [SentRoute.flow_level, SentRoute.flow_level, prefixPriority_le_iff]
    · intro f hf hacc hout
      obtain ⟨r, -, ⟨hne, -⟩, rfl⟩ := (happlies f).mp ⟨hf, hacc⟩
      exact hne ((r.flow_output p m p).mp hout).symm
    · intro f hf g hg hfa hga hlevel
      obtain ⟨r, -, ⟨-, hr⟩, rfl⟩ := (happlies f).mp ⟨hf, hfa⟩
      obtain ⟨q, -, ⟨-, hq⟩, rfl⟩ := (happlies g).mp ⟨hg, hga⟩
      rw [SentRoute.flow_level, SentRoute.flow_level] at hlevel
      have hlen : r.toPrefix.len = q.toPrefix.len := by
        have hle := (prefixPriority_le_iff r.toPrefix.len q.toPrefix.len).mp hlevel.le
        have hge := (prefixPriority_le_iff q.toPrefix.len r.toPrefix.len).mp hlevel.ge
        omega
      obtain ⟨haddr, hmask⟩ := Prefix.eq_of_covers hr hq hlen
      rw [SentRoute.flow_matchList, SentRoute.flow_matchList, haddr, hmask]
  · intro f hf
    obtain ⟨r, hr, p, m, -, -, rfl⟩ := (hmem f).mp hf
    refine ⟨r, hr, r.flow_priority p m, ?_, prefixPriority_inRouteBand r.toPrefix.len_le_128⟩
    rw [r.toPrefix.netmask_toPrefixLen]
    exact prefixPriority_lt r.toPrefix.len_le_128

/-- The prefix 10.`b`.0.0/`len`, as a route to port 4 of the datapath of `oneLine`. -/
def tenRoute (b : Byte) (len : Nat) (hlen : len ≤ 32)
    (hmask : ∀ i < 32, len ≤ i → Bits.bit [10, b, 0, 0] i = false) :
    SentRoute 0 5 where
  vmId := 1
  dest := .route
    { addr := ⟨.ipv4, [10, b, 0, 0], rfl⟩
      len := len
      len_le := hlen
      masked := fun i hi => if h : i < 32 then hmask i h hi else Bits.bit_eq_false (by simp; omega) }
  iface := { port := 2, name := "eth2", hwaddress := 0x21 }
  gateway := 0x31
  entry := { vmId := some 1, vmPort := some 2, ctId := some 0, dpId := some 5, dpPort := some 4 }
  out := 4
  entry_dp := rfl

/-- A packet to 10.1.2.3 takes 10.1.0.0/16 and not 10.0.0.0/8. -/
theorem longest_prefix_match_oneLine :
    let o := Order.insertion
    let h : History := [(o, .portRegister 1 1 7), (o, .datapathPortRegister 0 5 3),
      (o, .virtualPlaneMap 1 1 9 1)]
    let s := run (Server.step oneLine) Server.init h
    let short := tenRoute 0 8 (by decide) (by decide)
    let long := tenRoute 1 16 (by decide) (by decide)
    let pkt : Packet := ⟨3, 0x99, 7, ETHERTYPE_IP, [], [], some ⟨.ipv4, [10, 1, 2, 3], rfl⟩, none, none, none⟩
    ActivePort s.rftable s.isltable 0 5 3 7 ∧ ∃ flows,
      routeFlows o s.rftable s.isltable [short, long] = .ok flows ∧
        Best (·.accepts pkt) RouteMod.level flows (long.flow 3 7) := by
  intro o h s short long pkt
  have hport : ActivePort s.rftable s.isltable 0 5 3 7 :=
    Or.inl ⟨⟨1001, (RFShape.active ⟨1, 1⟩ 7 ⟨0, 5, 3⟩ 9 1).entry⟩, by decide +kernel, rfl, rfl, rfl⟩
  have hread : ∀ r ∈ [short, long], PortsReadable s.isltable ⟨0, 5, r.out⟩ := by
    intro _ _ r hr
    have hnone : s.isltable.rows = [] := by decide +kernel
    rw [hnone] at hr
    cases hr
  obtain ⟨hok, hflows⟩ := longest_prefix_match oneLine h o [short, long]
  obtain ⟨flows, hok⟩ := hok.mpr hread
  refine ⟨hport, flows, hok, (((hflows flows hok).1 3 7 hport pkt _ rfl rfl rfl).1 _).mpr ⟨long,
    ⟨?_, ⟨?_, rfl, ?_⟩, ?_⟩, rfl⟩⟩
  · exact List.mem_cons_of_mem _ List.mem_cons_self
  · decide
  · decide
  · intro q hq _
    simp only [List.mem_cons, List.not_mem_nil, or_false] at hq
    rcases hq with rfl | rfl <;> decide

end RouteFlow
