import RouteFlow.Flows
import RouteFlow.Prefix

/-!
# Routes over a link

A route of datapath A is also for the clients of a neighbour B. The flow on B rewrites the addresses
and sends the packet over the link, and the flow on A takes it from there.
-/

namespace RouteFlow

open Store Run

/-! ## The two flows -/

def emitted (cfg : Config) (o : Order) (s : Server) (rm : RouteMod) : List (Nat × RouteMod) :=
  (Server.registerRouteMod cfg o s rm).1.dpQ.drop s.dpQ.length

/-- The packet of a route, as it leaves on its last port. -/
def Interface.rewrite (iface : Interface) (gateway : Mac) (pkt : Packet) : Packet :=
  { pkt with
    dlSrc := iface.hwaddress
    dlDst := gateway
    vlans := if iface.vlan = 0 then pkt.vlans else iface.vlan :: pkt.vlans.tail }

theorem execute_sendToHw (vmId : Nat) (mod : RouteModType) (p : Prefix) (iface : Interface) (gateway : Mac)
    (out : Nat) (pkt : Packet) :
    execute pkt ((FlowTable.sendToHw vmId mod p.addr p.netmask iface gateway).actions ++ [.output out]) =
      [(out, iface.rewrite gateway pkt)] := by
  unfold FlowTable.sendToHw Interface.rewrite
  dsimp only
  by_cases hv : iface.vlan = 0
  · simp only [hv, if_true]
    rfl
  · simp only [hv, if_false]
    rfl

/-- `f` takes the packets of a prefix from port `p` of B over the link from `b` to `a`, and `g` takes
exactly these from there to `out`, with the addresses of the route. -/
structure Carries (r : Prefix) (a b : IslEnd) (p : Nat) (m : Mac) (out : Nat) (iface : Interface)
    (gateway : Mac) (f g : RouteMod) : Prop where
  added : f.mod = .add ∧ g.mod = .add
  near_match : f.matchList = [.ip r.addr r.netmask, .ethernet m, .inPort p]
  far_match : g.matchList = [.ip r.addr r.netmask, .ethernet a.mac, .inPort a.dpPort]
  hops : ∀ pkt : Packet, ∀ dst, pkt.nwDst = some dst → r.Covers dst → pkt.dlDst = m → pkt.inPort = p →
    let sent : Packet := { pkt with dlSrc := b.mac, dlDst := a.mac }
    f.accepts pkt ∧ execute pkt f.actions = [(b.dpPort, sent)] ∧ g.accepts { sent with inPort := a.dpPort } ∧
      execute { sent with inPort := a.dpPort } g.actions =
        [(out, iface.rewrite gateway { sent with inPort := a.dpPort })]

/-- The RouteMods hold both flows, each for the controller of its datapath. -/
def TwoHop (rms : List (Nat × RouteMod)) (r : Prefix) (a b : IslEnd) (p : Nat) (m : Mac) (out : Nat)
    (iface : Interface) (gateway : Mac) : Prop :=
  ∃ f g, (b.ctId, f) ∈ rms ∧ f.id = b.dpId ∧ (a.ctId, g) ∈ rms ∧ g.id = a.dpId ∧
    Carries r a b p m out iface gateway f g

section Flows

variable {r : Prefix} {rm : RouteMod} (hrm : rm.matchList = [.ip r.addr r.netmask])

include hrm in
theorem portFlow_accepts (p : Nat) (m : Mac) {pkt : Packet} {dst : IPAddress} (hdst : pkt.nwDst = some dst) :
    (portFlow rm p m).accepts pkt ↔ r.Covers dst ∧ pkt.dlDst = m ∧ pkt.inPort = p := by
  simp only [RouteMod.accepts, portFlow, RouteMod.addMatch, hrm, List.cons_append, List.nil_append,
    List.all_cons, List.all_nil, Bool.and_eq_true, r.accepts_iff hdst]
  simp [Match.accepts]

include hrm in
theorem carries_flows (hmod : rm.mod = .add) (iface : Interface) (gateway : Mac) (a b : IslEnd)
    (p : Nat) (m : Mac) (x : DpPort) (c : Nat)
    (hexec : ∀ pkt, execute pkt (rm.actions ++ [.output x.dpPort]) =
      [(x.dpPort, iface.rewrite gateway pkt)]) :
    Carries r a b p m x.dpPort iface gateway
      ((portFlow (islRouteMod b.dpId b a rm) p m).addOption (.ctId c))
      ((portFlow ((rm.setId x.dpId).addAction (.output x.dpPort)) a.dpPort a.mac).addOption (.ctId c)) where
  added := ⟨hmod, hmod⟩
  near_match := congrArg (fun l => l ++ [.ethernet m] ++ [.inPort p]) hrm
  far_match := congrArg (fun l => l ++ [.ethernet a.mac] ++ [.inPort a.dpPort]) hrm
  hops := by
    intro pkt dst hdst hcov hm hp sent
    have hrm' : (islRouteMod b.dpId b a rm).matchList = [.ip r.addr r.netmask] := hrm
    have hrm'' : ((rm.setId x.dpId).addAction (.output x.dpPort)).matchList = [.ip r.addr r.netmask] := hrm
    refine ⟨?_, rfl, ?_, ?_⟩
    · exact (portFlow_accepts hrm' p m hdst).mpr ⟨hcov, hm, hp⟩
    · have hdst' : ({ sent with inPort := a.dpPort } : Packet).nwDst = some dst := hdst
      exact (portFlow_accepts hrm'' a.dpPort a.mac hdst').mpr ⟨hcov, rfl, rfl⟩
    · exact hexec _

end Flows

/-! ## Links have two rows -/

theorem islUp_linked {cfg : Config} (hc : cfg.DistinctEnds) (h : History) {a b : IslEnd}
    (hl : IslUp (run (Server.step cfg) Server.init h).isltable a b) : cfg.Linked a b := by
  obtain ⟨up, hi⟩ := run_linking_some hc h
  obtain ⟨r, hr, hn, hf⟩ := hl
  obtain ⟨sh, hsh, he⟩ := RFISLTable.exists_shape hi.shaped hr
  rw [he, RFISLShape.entry_near] at hn
  rw [he, RFISLShape.entry_far] at hf
  exact hi.linked sh hsh a b hn hf

theorem islUp_mirror {cfg : Config} (hc : cfg.DistinctEnds) (h : History) {a b : IslEnd}
    (hl : IslUp (run (Server.step cfg) Server.init h).isltable a b) :
    IslUp (run (Server.step cfg) Server.init h).isltable b a := by
  have hlinked := islUp_linked hc h hl
  obtain ⟨up, hi⟩ := run_linking_some hc h
  obtain ⟨r, hr, hn, hf⟩ := hl
  have ha := hi.contains_up hr (Or.inl hn)
  have hb := hi.contains_up hr (Or.inr hf)
  obtain ⟨q, hq, hqn, hqf, -⟩ := hi.row_of_both hb ha hlinked.symm
  exact ⟨q, hq, hqn, hqf⟩

theorem run_linkMacs {cfg : Config} (hc : cfg.DistinctEnds) (hmac : cfg.LinkMacs) (h : History) :
    LinkMacs (run (Server.step cfg) Server.init h).isltable := by
  intro a b hl
  obtain ⟨q, hq, ⟨rfl, rfl⟩ | ⟨rfl, rfl⟩⟩ := islUp_linked hc h hl
  · exact hmac q hq
  · exact (hmac q hq).symm

section State

variable {cfg : Config} {o : Order} {s : Server} (hs : RFShaped s.rftable) (hi : IslShaped s.isltable)
  (hk : WellKeyed s.routeModTranslator) {vmId : Nat} {r : Prefix} {iface : Interface} {gateway : Mac}
  {row : Row RFEntry} {x : DpPort} {a b : IslEnd} {p : Nat} {m : Mac}

include hs hi hk in
theorem twoHop_of_state (hrow : RFTable.getEntryByVmPort o s.rftable vmId iface.port = some row)
    (hx : row.val.dp = some x) (hdef : DefaultAround s x) (hmac : LinkMacs s.isltable)
    (hl : IslUp s.isltable a b) (hl' : IslUp s.isltable b a) (hac : a.ctId = x.ctId)
    (had : a.dpId = x.dpId) (hout : a.dpPort ≠ x.dpPort) (hport : RfUp s.rftable ⟨b.ctId, b.dpId, p⟩ m)
    (hne : p ≠ b.dpPort) :
    let rm := FlowTable.sendToHw vmId .add r.addr r.netmask iface gateway
    (Server.registerRouteMod cfg o s rm).2 = .ok () ∧
      (TwoHop (emitted cfg o s rm) r a b p m x.dpPort iface gateway ↔ b.ctId = a.ctId) := by
  intro rm
  obtain ⟨hmod, hid, hvp, -⟩ := sendToHw_fields vmId .add r iface gateway
  rw [← hid, ← hvp] at hrow
  obtain ⟨rms, hreg, hmem⟩ := registerRouteMod_default cfg hs hi hk (Or.inl hmod) hrow hx hdef (hmac.around x)
  have hemit : emitted cfg o s rm = rms.map fun f => (x.ctId, f.addOption (.ctId x.ctId)) := by
    unfold emitted
    rw [hreg]
    exact List.drop_left
  refine ⟨by rw [hreg], ?_⟩
  rw [hemit]
  constructor
  · rintro ⟨f, g, hf, -⟩
    obtain ⟨f', -, heq⟩ := List.mem_map.mp hf
    rw [hac]
    exact (Prod.mk.inj heq).1.symm
  · intro hct
    have hthere : portFlow (islRouteMod b.dpId b a rm) p m ∈ rms :=
      (hmem _).mpr (.there hl' hac had hport (Ne.symm hne))
    have hhere : portFlow ((rm.setId x.dpId).addAction (.output x.dpPort)) a.dpPort a.mac ∈ rms := by
      refine (hmem _).mpr (.here (Or.inr ⟨a, b, hl, ?_, rfl⟩) (Ne.symm hout))
      rw [← hac, ← had, IslEnd.port]
    have hcarries := carries_flows (sendToHw_matchList vmId .add r iface gateway)
      hmod iface gateway a b p m x x.ctId
      fun pkt => execute_sendToHw vmId .add r iface gateway x.dpPort pkt
    refine ⟨_, _, ?_, ?_, ?_, ?_, hcarries⟩
    · rw [hct, hac]
      exact List.mem_map_of_mem hthere
    · rfl
    · rw [hac]
      exact List.mem_map_of_mem hhere
    · exact had.symm

end State

/-- The clients of the neighbour reach the route exactly if both datapaths have the same controller:
all RouteMods go to the controller of A. -/
theorem two_hop_iff (cfg : Config) (hc : cfg.DistinctEnds) (hmac : cfg.LinkMacs) (h : History) (o : Order)
    (vmId : Nat) (dest : Destination) (iface : Interface) (gateway : Mac) (row : Row RFEntry) (x : DpPort)
    (a b : IslEnd) (p : Nat) (m : Mac) :
    let s := run (Server.step cfg) Server.init h
    let rm := dest.routeMod vmId .add iface gateway
    RFTable.getEntryByVmPort o s.rftable vmId iface.port = some row → row.val.dp = some x →
    DefaultAround s x →
    IslUp s.isltable a b → a.ctId = x.ctId → a.dpId = x.dpId → a.dpPort ≠ x.dpPort →
    RfUp s.rftable ⟨b.ctId, b.dpId, p⟩ m → p ≠ b.dpPort →
    (Server.registerRouteMod cfg o s rm).2 = .ok () ∧
      (TwoHop (emitted cfg o s rm) dest.toPrefix a b p m x.dpPort iface gateway ↔ b.ctId = a.ctId) := by
  intro s rm hrow hx hdef hl hac had hout hport hne
  obtain ⟨hs, hi⟩ := run_shaped cfg h
  have hrm : rm = _ := dest.routeMod_eq vmId .add iface gateway
  rw [hrm]
  exact twoHop_of_state hs hi (run_wellKeyed cfg h) hrow hx hdef (run_linkMacs hc hmac h)
    hl (islUp_mirror hc h hl) hac had hout hport hne

/-- Datapath 5 of controller 0 and datapath 6 of controller `ct`, with a client on each and a link
between them. -/
def twoSwitches (ct : Nat) : Config where
  config := ((memoryTable RFConfigEntry).add ⟨1, 1, 0, 5, 3, none⟩).add ⟨1, 2, ct, 6, 4, none⟩
  islconf := (memoryTable RFISLConfEntry).add ⟨1, 0, 5, 9, Mac.text 0x21, ct, 6, 8, Mac.text 0x22, none, none⟩
  fpconf := memoryTable RFFPConfEntry
  multitabledps := []
  satellitedps := []

def twoSwitchesUp (ct : Nat) : History :=
  [.portRegister 1 1 0x11, .portRegister 1 2 0x12, .datapathPortRegister 0 5 9, .datapathPortRegister 0 5 3,
    .datapathPortRegister ct 6 8, .datapathPortRegister ct 6 4, .virtualPlaneMap 1 1 7 1,
    .virtualPlaneMap 1 2 7 2].map fun msg => (Order.insertion, msg)

theorem twoSwitches_distinctEnds (ct : Nat) : (twoSwitches ct).DistinctEnds where
  ends_nodup := by
    simp [Config.islEndsAll, twoSwitches, memoryTable, Table.add, Table.empty, RFISLConfEntry.near,
      RFISLConfEntry.far]
  apart := by simp [twoSwitches, memoryTable]

theorem twoSwitches_linkMacs (ct : Nat) : (twoSwitches ct).LinkMacs := by
  simp [Config.LinkMacs, twoSwitches, memoryTable, Table.add, Table.empty]

def twoSwitchesState (ct : Nat) : Server := run (Server.step (twoSwitches ct)) Server.init (twoSwitchesUp ct)

section TwoSwitches

theorem defaultAround_of_rows {s : Server} {ct : Nat} (hrows : s.isltable.rows =
      [⟨1001, (RFISLShape.mk (some 1) (some ⟨0, 5, 9, Mac.text 0x21⟩)
        (some ⟨ct, 6, 8, Mac.text 0x22⟩)).entry⟩,
       ⟨1002, (RFISLShape.mk (some 1) (some ⟨ct, 6, 8, Mac.text 0x22⟩)
         (some ⟨0, 5, 9, Mac.text 0x21⟩)).entry⟩])
    (h5 : s.routeModTranslator 5 = some ⟨.default, 5, 0, []⟩)
    (h6 : s.routeModTranslator 6 = some ⟨.default, 6, ct, []⟩) : DefaultAround s ⟨0, 5, 3⟩ := by
  refine ⟨⟨_, h5, rfl⟩, ?_⟩
  rintro a b ⟨r, hr, hn, -⟩ - -
  rw [hrows, List.mem_cons, List.mem_singleton] at hr
  rcases hr with rfl | rfl
  · rw [RFISLShape.entry_near, Option.some.injEq] at hn
    subst hn
    exact ⟨_, h5, rfl⟩
  · rw [RFISLShape.entry_near, Option.some.injEq] at hn
    subst hn
    exact ⟨_, h6, rfl⟩

variable {ct : Nat} (hct : ct = 0 ∨ ct = 1)
include hct

theorem twoSwitches_rows : (twoSwitchesState ct).isltable.rows =
    [⟨1001, (RFISLShape.mk (some 1) (some ⟨0, 5, 9, Mac.text 0x21⟩)
      (some ⟨ct, 6, 8, Mac.text 0x22⟩)).entry⟩,
     ⟨1002, (RFISLShape.mk (some 1) (some ⟨ct, 6, 8, Mac.text 0x22⟩)
       (some ⟨0, 5, 9, Mac.text 0x21⟩)).entry⟩] := by
  rcases hct with rfl | rfl
  · decide +kernel
  · decide +kernel

theorem twoSwitches_translators : (twoSwitchesState ct).routeModTranslator 5 = some ⟨.default, 5, 0, []⟩ ∧
    (twoSwitchesState ct).routeModTranslator 6 = some ⟨.default, 6, ct, []⟩ := by
  rcases hct with rfl | rfl
  · decide +kernel
  · decide +kernel

theorem twoSwitches_entry : RFTable.getEntryByVmPort .insertion (twoSwitchesState ct).rftable 1 1 =
    some ⟨1001, (RFShape.active ⟨1, 1⟩ 0x11 ⟨0, 5, 3⟩ 7 1).entry⟩ := by
  rcases hct with rfl | rfl
  · decide +kernel
  · decide +kernel

theorem twoSwitches_client : RfUp (twoSwitchesState ct).rftable ⟨ct, 6, 4⟩ 0x12 := by
  refine ⟨⟨1002, (RFShape.active ⟨1, 2⟩ 0x12 ⟨ct, 6, 4⟩ 7 2).entry⟩, ?_, rfl, rfl, rfl⟩
  rcases hct with rfl | rfl
  · decide +kernel
  · decide +kernel

theorem twoSwitches_link : IslUp (twoSwitchesState ct).isltable ⟨0, 5, 9, Mac.text 0x21⟩ ⟨ct, 6, 8,
    Mac.text 0x22⟩ :=
  ⟨_, by rw [twoSwitches_rows hct]; exact List.mem_cons_self, RFISLShape.entry_near _, RFISLShape.entry_far _⟩

theorem twoSwitches_default : DefaultAround (twoSwitchesState ct) ⟨0, 5, 3⟩ :=
  defaultAround_of_rows (twoSwitches_rows hct) (twoSwitches_translators hct).1 (twoSwitches_translators hct).2

end TwoSwitches

def lanPort : Interface := { port := 1, name := "eth1", hwaddress := 0x11 }

theorem two_hop_twoSwitches :
    let dest := Destination.host ⟨.ipv4, [10, 0, 0, 1], rfl⟩
    TwoHop (emitted (twoSwitches 0) .insertion (twoSwitchesState 0) (dest.routeMod 1 .add lanPort 0x31))
      dest.toPrefix ⟨0, 5, 9, Mac.text 0x21⟩ ⟨0, 6, 8, Mac.text 0x22⟩ 4 0x12 3 lanPort 0x31 := by
  intro dest
  have hct : 0 = 0 ∨ 0 = 1 := Or.inl rfl
  have h := two_hop_iff (twoSwitches 0) (twoSwitches_distinctEnds 0) (twoSwitches_linkMacs 0)
    (twoSwitchesUp 0)
    .insertion 1 dest lanPort 0x31 _ ⟨0, 5, 3⟩ ⟨0, 5, 9, Mac.text 0x21⟩ ⟨0, 6, 8, Mac.text 0x22⟩ 4 0x12
    (twoSwitches_entry hct) rfl (twoSwitches_default hct) (twoSwitches_link hct) rfl rfl (by decide)
      (twoSwitches_client hct) (by decide)
  exact h.2.mpr rfl

/-- With two controllers, the flow for datapath 6 goes to the wrong one. -/
theorem two_hop_lost :
    let dest := Destination.host ⟨.ipv4, [10, 0, 0, 1], rfl⟩
    (twoSwitches 1).DistinctEnds ∧ (twoSwitches 1).LinkMacs ∧
      RFTable.getEntryByVmPort .insertion (twoSwitchesState 1).rftable 1 1 =
        some ⟨1001, (RFShape.active ⟨1, 1⟩ 0x11 ⟨0, 5, 3⟩ 7 1).entry⟩ ∧
      DefaultAround (twoSwitchesState 1) ⟨0, 5, 3⟩ ∧
      IslUp (twoSwitchesState 1).isltable ⟨0, 5, 9, Mac.text 0x21⟩ ⟨1, 6, 8, Mac.text 0x22⟩ ∧
      RfUp (twoSwitchesState 1).rftable ⟨1, 6, 4⟩ 0x12 ∧
      ¬ TwoHop (emitted (twoSwitches 1) .insertion (twoSwitchesState 1) (dest.routeMod 1 .add lanPort 0x31))
        dest.toPrefix ⟨0, 5, 9, Mac.text 0x21⟩ ⟨1, 6, 8, Mac.text 0x22⟩ 4 0x12 3 lanPort 0x31 := by
  intro dest
  have hct : 1 = 0 ∨ 1 = 1 := Or.inr rfl
  refine ⟨twoSwitches_distinctEnds 1, twoSwitches_linkMacs 1, twoSwitches_entry hct,
    twoSwitches_default hct, twoSwitches_link hct, twoSwitches_client hct, ?_⟩
  rintro ⟨f, g, hf, -⟩
  have hall : ∀ x ∈ emitted (twoSwitches 1) .insertion (twoSwitchesState 1)
      ((Destination.host ⟨.ipv4, [10, 0, 0, 1], rfl⟩).routeMod 1 .add lanPort 0x31), x.1 = 0 := by
    decide +kernel
  have hzero := hall _ hf
  simp at hzero

end RouteFlow
