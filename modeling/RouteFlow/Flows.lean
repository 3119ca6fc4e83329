import RouteFlow.RouteMods

/-!
# The flows of the default translators

Which flows a RouteMod of a client turns into, whatever the order in which the tables list their rows:
one for each active port of its datapath, and one for each active port of a neighbour.
-/

namespace RouteFlow

open Store Run

/-! ## Active ports -/

/-- The port has an active row, with this address. -/
def RfUp (rf : RFTable) (x : DpPort) (m : Mac) : Prop :=
  ∃ r ∈ rf.rows, r.val.dp = some x ∧ r.val.ethAddr = some m ∧ r.val.getStatus = .rfentryActive

/-- A complete row goes from `a` to `b`. -/
def IslUp (isl : RFISLTable) (a b : IslEnd) : Prop := ∃ r ∈ isl.rows, r.val.near = some a ∧ r.val.far = some b

/-- The port is up, with this address, to a client or on a link. -/
def ActivePort (rf : RFTable) (isl : RFISLTable) (c d p : Nat) (m : Mac) : Prop :=
  RfUp rf ⟨c, d, p⟩ m ∨ ∃ a b, IslUp isl a b ∧ a.port = ⟨c, d, p⟩ ∧ a.mac = m

theorem islEntry_active_iff {r : RFISLEntry} (hsh : ∃ sh : RFISLShape, r = sh.entry) {a : IslEnd}
    (hn : r.near = some a) : r.getStatus = .rfislActive ↔ ∃ b, r.far = some b := by
  obtain ⟨⟨v, n, f⟩, rfl⟩ := hsh
  rw [RFISLShape.entry_near] at hn
  simp only at hn
  subst hn
  cases f <;> simp [RFISLShape.status]

/-- The flow of a route for one ingress port. -/
def portFlow (rm : RouteMod) (p : Nat) (m : Mac) : RouteMod :=
  (rm.addMatch (.ethernet m)).addMatch (.inPort p)

section Ports

variable {o : Order} {rf : RFTable} {isl : RFISLTable} (hs : RFShaped rf) (hi : IslShaped isl)

include hs in
theorem mem_rfPorts_flow (c d out : Nat) (rm f : RouteMod) :
    f ∈ ((rfPorts o rf (some c) (some d)).filter fun e => e.eligible (some out)).map (fun e => e.flow rm) ↔
      ∃ p m, RfUp rf ⟨c, d, p⟩ m ∧ out ≠ p ∧ f = portFlow rm p m := by
  simp only [List.mem_map, List.mem_filter]
  constructor
  · rintro ⟨e, ⟨he, hel⟩, rfl⟩
    obtain ⟨t, p, ht, -, hp⟩ := rfPorts_complete hs he hel
    obtain ⟨hne, hact⟩ := (eligible_iff _ _).mp hel
    obtain ⟨r, hr, ⟨hd, hc⟩, rfl⟩ := mem_rfPorts.mp he
    obtain ⟨m, hm, rfl⟩ := Option.map_eq_some_iff.mp ht
    refine ⟨p, m, ⟨r, hr, (RFEntry.dp_eq_some _ _).mpr ⟨hc, hd, hp⟩, hm, ?_⟩, ?_, ?_⟩
    · obtain ⟨sh, hsh⟩ := hs r hr
      simp only [RFEntry.toPort, hsh, RFShape.entry_status] at hact ⊢
      rcases hact with h | h
      · exact h
      · cases sh <;> simp [RFShape.status] at h
    · rw [hp] at hne
      exact fun h => hne (congrArg some h)
    · simp only [PortEntry.flow, hp, ht, Option.getD_some, ethMac_text, portFlow]
  · rintro ⟨p, m, ⟨r, hr, hdp, hm, hst⟩, hne, rfl⟩
    obtain ⟨hc, hd, hp⟩ := (RFEntry.dp_eq_some _ _).mp hdp
    refine ⟨r.val.toPort, ⟨mem_rfPorts.mpr ⟨r, hr, ⟨hd, hc⟩, rfl⟩,
      (eligible_iff _ _).mpr ⟨?_, Or.inl hst⟩⟩, ?_⟩
    · simp only [RFEntry.toPort, hp]
      exact fun h => hne (Option.some.inj h)
    · simp only [PortEntry.flow, RFEntry.toPort, hp, hm, Option.map_some, Option.getD_some,
        ethMac_text, portFlow]

include hi in
theorem mem_islPorts_flow (c d out : Nat) (rm f : RouteMod) :
    f ∈ ((islPorts o isl (some c) (some d)).filter fun e => e.eligible (some out)).map (fun e => e.flow rm) ↔
      ∃ p m, (∃ a b, IslUp isl a b ∧ a.port = ⟨c, d, p⟩ ∧ a.mac = m) ∧ out ≠ p ∧
      f = portFlow rm p m := by
  simp only [List.mem_map, List.mem_filter, mem_islPorts_eligible hi]
  constructor
  · rintro ⟨_, ⟨r, hr, a, b, hn, hf, rfl, rfl, hne, rfl⟩, rfl⟩
    obtain ⟨-, -, hp, hm⟩ := (RFISLEntry.near_eq_some _ _).mp hn
    refine ⟨a.dpPort, a.mac, ⟨a, b, ⟨r, hr, hn, hf⟩, rfl, rfl⟩, fun h => hne (congrArg some h), ?_⟩
    simp only [PortEntry.flow, RFISLEntry.toPort, hp, hm, Option.getD_some, portFlow, IslEnd.mac]
  · rintro ⟨p, m, ⟨a, b, ⟨r, hr, hn, hf⟩, hport, rfl⟩, hne, rfl⟩
    obtain ⟨rfl, rfl, rfl⟩ := DpPort.ext_iff.mp hport
    obtain ⟨-, -, hp, hm⟩ := (RFISLEntry.near_eq_some _ _).mp hn
    refine ⟨r.val.toPort, ⟨r, hr, a, b, hn, hf, rfl, rfl, fun h => hne (Option.some.inj h), rfl⟩, ?_⟩
    simp only [PortEntry.flow, RFISLEntry.toPort, hp, hm, Option.getD_some, portFlow, IslEnd.mac, IslEnd.port]

/-! ## The datapath of the route -/

include hs hi in
theorem mem_defaultHandleRouteMod {entry : RFEntry} {x : DpPort} (hd : entry.dp = some x)
    (hread : PortsReadable isl x) (rm : RouteMod) :
    ∃ rms, Translator.defaultHandleRouteMod o rf isl entry rm = .ok (rm.addAction (.output x.dpPort), rms) ∧
      ∀ f, f ∈ rms ↔ ∃ p m, ActivePort rf isl x.ctId x.dpId p m ∧ x.dpPort ≠ p ∧
        f = portFlow (rm.addAction (.output x.dpPort)) p m := by
  refine ⟨_, defaultHandleRouteMod_ok hs hi hd hread rm, fun f => ?_⟩
  rw [localPorts, List.filter_append, List.map_append, List.mem_append, mem_rfPorts_flow hs,
    mem_islPorts_flow hi]
  simp only [ActivePort, or_and_right, exists_or]

/-! ## Its neighbours -/

/-- The neighbours over active links have default translators. -/
def DefaultFor (trs : Nat → Option Translator) (remotes : List RFISLEntry) : Prop :=
  ∀ r ∈ remotes, r.getStatus = .rfislActive → ∀ d, r.dpId = some d → ∃ tr, trs d = some tr ∧
    tr.kind = .default

/-- Each translator is stored under its own datapath. -/
def WellKeyed (trs : Nat → Option Translator) : Prop := ∀ d tr, trs d = some tr → tr.dpId = d

include hs in
theorem mem_handleIslRouteMod {tr : Translator} (hk : tr.kind = .default) {r : RFISLEntry} {a b : IslEnd}
    (hn : r.near = some a) (hf : r.far = some b) (hread : LinkReadable r) (rm : RouteMod) :
    ∃ rms, tr.handleIslRouteMod o rf r rm = (tr, .ok rms) ∧
      ∀ f, f ∈ rms ↔ ∃ p m, RfUp rf ⟨a.ctId, a.dpId, p⟩ m ∧ a.dpPort ≠ p ∧
        f = portFlow (islRouteMod tr.dpId a b rm) p m := by
  have hok := defaultHandleIslRouteMod_ok hs (o := o) tr hn hf hread rm
  refine ⟨_, ?_, mem_rfPorts_flow hs (o := o) a.ctId a.dpId a.dpPort (islRouteMod tr.dpId a b rm)⟩
  simp only [Translator.handleIslRouteMod, hk, hok]

include hs in
theorem mem_islRouteMods (rm : RouteMod) (remotes : List RFISLEntry) (trs : Nat → Option Translator)
    (hl : LinkRows remotes) (hk : WellKeyed trs) (ht : DefaultFor trs remotes)
    (hread : ∀ r ∈ remotes, LinkReadable r) :
    ∃ rms, Server.islRouteMods o rf rm remotes trs = (trs, .ok rms) ∧
      ∀ f, f ∈ rms ↔ ∃ r ∈ remotes, ∃ a b, r.getStatus = .rfislActive ∧ r.near = some a ∧
      r.far = some b ∧
        ∃ p m, RfUp rf ⟨a.ctId, a.dpId, p⟩ m ∧ a.dpPort ≠ p ∧
        f = portFlow (islRouteMod a.dpId a b rm) p m := by
  induction remotes with
  | nil => exact ⟨[], rfl, by simp⟩
  | cons q rest ih =>
    obtain ⟨more, hmore, hmem⟩ := ih (fun r hr => hl r (List.mem_cons_of_mem _ hr))
      (fun r hr => ht r (List.mem_cons_of_mem _ hr)) fun r hr => hread r (List.mem_cons_of_mem _ hr)
    unfold Server.islRouteMods
    by_cases hst : q.getStatus = .rfislActive
    · obtain ⟨a, b, hn, hf⟩ := hl q List.mem_cons_self hst
      have hd : q.dpId = some a.dpId := ((RFISLEntry.near_eq_some _ _).mp hn).2.1
      obtain ⟨tr, htr, hdef⟩ := ht q List.mem_cons_self hst a.dpId hd
      obtain ⟨rms, hok, hrms⟩ := mem_handleIslRouteMod hs (o := o) hdef hn hf (hread q List.mem_cons_self) rm
      rw [hk _ _ htr] at hrms
      have hsame : Function.update trs a.dpId (some tr) = trs := by
        rw [← htr]
        exact Function.update_eq_self _ _
      refine ⟨rms ++ more, ?_, fun f => ?_⟩
      · simp only [hst, if_true, hd, htr, hok, hsame, hmore]
        rfl
      · rw [List.mem_append, hmem, hrms]
        constructor
        · rintro (⟨p, m, hp⟩ | ⟨r, hr, h⟩)
          · exact ⟨q, List.mem_cons_self, a, b, hst, hn, hf, p, m, hp⟩
          · exact ⟨r, List.mem_cons_of_mem _ hr, h⟩
        · rintro ⟨r, hr, a', b', hst', hn', hf', h⟩
          rcases List.mem_cons.mp hr with rfl | hr
          · obtain rfl : a = a' := Option.some.inj (hn.symm.trans hn')
            obtain rfl : b = b' := Option.some.inj (hf.symm.trans hf')
            exact Or.inl h
          · exact Or.inr ⟨r, hr, a', b', hst', hn', hf', h⟩
    · refine ⟨more, by simp only [hst, if_false, hmore], fun f => ?_⟩
      rw [hmem]
      constructor
      · rintro ⟨r, hr, h⟩
        exact ⟨r, List.mem_cons_of_mem _ hr, h⟩
      · rintro ⟨r, hr, a, b, hst', h⟩
        rcases List.mem_cons.mp hr with rfl | hr
        · exact absurd hst' hst
        · exact ⟨r, hr, a, b, hst', h⟩

end Ports

/-! ## register_route_mod -/

section RegisterRouteMod

variable {cfg : Config} {o : Order} {s : Server}

/-- A flow of the RouteMod `rm` that leaves on `x`, on its own datapath or on a neighbour. -/
inductive FlowOf (rf : RFTable) (isl : RFISLTable) (x : DpPort) (rm : RouteMod) : RouteMod → Prop
  | here {p m} : ActivePort rf isl x.ctId x.dpId p m → x.dpPort ≠ p →
      FlowOf rf isl x rm (portFlow ((rm.setId x.dpId).addAction (.output x.dpPort)) p m)
  | there {a b p m} : IslUp isl a b → b.ctId = x.ctId → b.dpId = x.dpId → RfUp rf ⟨a.ctId, a.dpId, p⟩ m →
      a.dpPort ≠ p → FlowOf rf isl x rm (portFlow (islRouteMod a.dpId a b rm) p m)

theorem islRouteMod_setId (d : Nat) (a b : IslEnd) (rm : RouteMod) (id : Nat) (act : Action) :
    islRouteMod d a b ((rm.setId id).addAction act) = islRouteMod d a b rm := rfl

/-- The translators of the datapath and of its neighbours are there and are default ones. -/
def DefaultAround (s : Server) (x : DpPort) : Prop :=
  (∃ tr, s.routeModTranslator x.dpId = some tr ∧ tr.kind = .default) ∧
    ∀ a b, IslUp s.isltable a b → b.ctId = x.ctId → b.dpId = x.dpId →
      ∃ tr, s.routeModTranslator a.dpId = some tr ∧ tr.kind = .default

/-- `ether_to_bin` takes the addresses of the links around the datapath. -/
structure ReadableAround (isl : RFISLTable) (x : DpPort) : Prop where
  ports : PortsReadable isl x
  links : ∀ a b, IslUp isl a b → b.ctId = x.ctId → b.dpId = x.dpId → Readable a.ethAddr ∧ Readable b.ethAddr

/-- Each link that is up has the addresses of its two ends. -/
def LinkMacs (isl : RFISLTable) : Prop := ∀ a b, IslUp isl a b → IsMac a.ethAddr ∧ IsMac b.ethAddr

theorem LinkMacs.around {isl : RFISLTable} (h : LinkMacs isl) (x : DpPort) : ReadableAround isl x where
  ports r hr a b hn hf _ _ _ := (h a b ⟨r, hr, hn, hf⟩).1.readable
  links a b hl _ _ := ⟨(h a b hl).1.readable, (h a b hl).2.readable⟩

theorem mem_remoteLinks {x : DpPort} {r : RFISLEntry} : r ∈ remoteLinks o s x ↔
    ∃ row ∈ s.isltable.rows, (row.val.remCt = some x.ctId ∧ row.val.remId = some x.dpId) ∧ row.val = r := by
  simp [remoteLinks, RFISLTable.getRemoteEntries, and_assoc]

theorem ReadableAround.remoteLinks {x : DpPort} (h : ReadableAround s.isltable x) :
    ∀ r ∈ remoteLinks o s x, LinkReadable r := by
  intro r hr a b hn hf
  obtain ⟨q, hq, ⟨hrc, hri⟩, rfl⟩ := mem_remoteLinks.mp hr
  obtain ⟨hbc, hbi, -⟩ := (RFISLEntry.far_eq_some _ _).mp hf
  exact h.links a b ⟨q, hq, hn, hf⟩ (Option.some.inj (hbc.symm.trans hrc))
    (Option.some.inj (hbi.symm.trans hri))

theorem neighboursReady_of_readable {trs : Nat → Option Translator} {remotes : List RFISLEntry}
    (ht : TranslatorsFor trs remotes) (h : ∀ r ∈ remotes, LinkReadable r) : NeighboursReady trs remotes where
  translators := ht
  readable := by
    rintro ⟨before, r, after, rfl, -, d, tr, -, -, ⟨-, hno⟩, -⟩
    exact hno (h r (List.mem_append_right _ List.mem_cons_self))

theorem NeighboursReady.linkReadable {trs : Nat → Option Translator} {remotes : List RFISLEntry}
    (h : NeighboursReady trs remotes) (hkinds : ∀ d tr, trs d = some tr → tr.kind ≠ .satellite)
    {r : RFISLEntry} (hr : r ∈ remotes) (hst : r.getStatus = .rfislActive) {d : Nat}
    (hd : r.dpId = some d) : LinkReadable r := by
  by_contra hno
  obtain ⟨tr, htr⟩ := Option.isSome_iff_exists.mp (h.translators r hr hst d hd)
  have hk := hkinds d tr htr
  obtain ⟨before, after, rfl⟩ := List.append_of_mem hr
  exact h.readable ⟨before, r, after, rfl, hst, d, tr, hd, htr, ⟨fun hsat => absurd hsat hk, hno⟩,
    fun hsat => absurd hsat hk⟩

theorem registerRouteMod_default (cfg : Config) (hs : RFShaped s.rftable) (hi : IslShaped s.isltable)
    (hk : WellKeyed s.routeModTranslator) {rm : RouteMod} (hmod : rm.mod = .add ∨ rm.mod = .delete)
    {row : Row RFEntry} (hrow : RFTable.getEntryByVmPort o s.rftable rm.id rm.vmPort = some row) {x : DpPort}
    (hx : row.val.dp = some x) (ht : DefaultAround s x) (hread : ReadableAround s.isltable x) :
    ∃ rms : List RouteMod, Server.registerRouteMod cfg o s rm =
      ({ s with dpQ := s.dpQ ++ rms.map (fun f => (x.ctId, f.addOption (.ctId x.ctId))),
                ackQ := s.ackQ ++ [routemodAck rm] }, .ok ()) ∧
      ∀ f, f ∈ rms ↔ FlowOf s.rftable s.isltable x rm f := by
  obtain ⟨⟨tr, htr, hdef⟩, hneigh⟩ := ht
  obtain ⟨hc, hd, -⟩ := (RFEntry.dp_eq_some _ _).mp hx
  have hst := status_ne_idleVm (hs row (RFTable.getEntryByVmPort_some hrow).1) hx
  obtain ⟨rms, hok, hrms⟩ := mem_defaultHandleRouteMod hs hi (o := o) hx hread.ports (rm.setId x.dpId)
  have hlinks : LinkRows (remoteLinks o s x) := remoteLinks_linkRows hi x
  have hfor : DefaultFor s.routeModTranslator (remoteLinks o s x) := by
    intro r hr hact d hrd
    obtain ⟨a, b, hn, hf⟩ := hlinks r hr hact
    obtain ⟨q, hq, ⟨hrc, hri⟩, rfl⟩ := mem_remoteLinks.mp hr
    obtain ⟨hbc, hbi, -⟩ := (RFISLEntry.far_eq_some _ _).mp hf
    obtain ⟨-, had, -⟩ := (RFISLEntry.near_eq_some _ _).mp hn
    obtain rfl : a.dpId = d := Option.some.inj (had.symm.trans hrd)
    exact hneigh a b ⟨q, hq, hn, hf⟩ (Option.some.inj (hbc.symm.trans hrc))
      (Option.some.inj (hbi.symm.trans hri))
  obtain ⟨more, hmore, hmem⟩ := mem_islRouteMods hs (o := o) ((rm.setId x.dpId).addAction (.output x.dpPort))
    (remoteLinks o s x) s.routeModTranslator hlinks hk hfor hread.remoteLinks
  have htrans : Server.translate cfg o s row.val tr (rm.setId x.dpId) =
    (s.routeModTranslator, .ok (rms ++ more)) := by
    have hhandle : tr.handleRouteMod o s.rftable s.isltable row.val (rm.setId x.dpId) =
        .ok ((rm.setId x.dpId).addAction (.output x.dpPort), rms) := by
      simp only [Translator.handleRouteMod, hdef, hok]
    simp only [remoteLinks] at hmore
    have hm : (rm.setId x.dpId).mod = rm.mod := rfl
    unfold Server.translate
    rcases hmod with h | h
    · simp only [hm, h, hhandle, hc, hd, hmore]
      rfl
    · simp only [hm, h, hhandle, hc, hd, hmore]
      rfl
  refine ⟨rms ++ more, ?_, fun f => ?_⟩
  · unfold Server.registerRouteMod
    simp only [hrow, hd, htr, hst, if_false, htrans, hc, Server.sendRouteMods_eq]
    rfl
  · rw [List.mem_append, hrms, hmem]
    constructor
    · rintro (⟨p, m, hp, hne, rfl⟩ | ⟨r, hr, a, b, -, hn, hf, p, m, hp, hne, rfl⟩)
      · exact .here hp hne
      · obtain ⟨q, hq, ⟨hrc, hri⟩, rfl⟩ := mem_remoteLinks.mp hr
        obtain ⟨hbc, hbi, -⟩ := (RFISLEntry.far_eq_some _ _).mp hf
        rw [islRouteMod_setId]
        exact .there ⟨q, hq, hn, hf⟩ (Option.some.inj (hbc.symm.trans hrc))
          (Option.some.inj (hbi.symm.trans hri)) hp hne
    · rintro (⟨hp, hne⟩ | ⟨⟨r, hr, hn, hf⟩, hbc, hbi, hp, hne⟩)
      · exact Or.inl ⟨_, _, hp, hne, rfl⟩
      · obtain ⟨hrc, hri, -⟩ := (RFISLEntry.far_eq_some _ _).mp hf
        rw [hbc] at hrc
        rw [hbi] at hri
        exact Or.inr ⟨r.val, mem_remoteLinks.mpr ⟨r, hr, ⟨hrc, hri⟩, rfl⟩, _, _,
          (islEntry_active_iff (hi r hr) hn).mpr ⟨_, hf⟩, hn, hf, _, _, hp, hne, rfl⟩

end RegisterRouteMod

/-! ## The rules for labels -/

namespace Translator

variable {cfg : Config} {o : Order} {tr : Translator}

/-- A rule for this datapath, by ports and labels alone. -/
def ByLabel (tr : Translator) (f : RouteMod) : Prop := f.id = tr.dpId ∧ ∀ m ∈ f.matchList, m.ofFastPath = true

theorem registerFpports_byLabel {mp : Option Nat} {usetables : Bool} {fpTable : Nat}
    {ports : List RFConfigEntry} {rms : List RouteMod}
    (h : tr.registerFpports mp usetables fpTable ports = .ok rms) :
    ∀ f ∈ rms, tr.ByLabel f := by
  induction ports generalizing rms with
  | nil =>
    cases h
    simp
  | cons port rest ih =>
    rw [registerFpports] at h
    split at h
    · exact ih h
    · rename_i label _
      cases mp with
      | none =>
        cases usetables <;> simp [Action.OUTPUT, Match.IN_PORT, bind, Except.bind, pure, Except.pure] at h
      | some u =>
        have hpush : tr.ByLabel
            ((((rfactionPushMeta label
              (({ mod := .add, id := tr.dpId } : RouteMod).addMatch (.inPort port.dpPort))).addAction
                (.output u)).addOption CONTROLLER_PRIORITY).setTable fpTable) := by
          refine ⟨rfl, fun m hm => ?_⟩
          obtain rfl := List.mem_singleton.mp hm
          rfl
        have hpop : tr.ByLabel
            (((rfactionPopMeta (rfmatchMeta label
              (({ mod := .add, id := tr.dpId } : RouteMod).addMatch (.inPort u)))).addAction
                (.output port.dpPort)).addOption FASTPATH_PRIORITY) := by
          refine ⟨rfl, fun m hm => ?_⟩
          rcases List.mem_cons.mp hm with rfl | hm
          · rfl
          · obtain rfl := List.mem_singleton.mp hm
            rfl
        cases hmore : tr.registerFpports (some u) usetables fpTable rest with
        | error e =>
          cases usetables <;>
            simp [Action.OUTPUT, Match.IN_PORT, bind, Except.bind, pure, Except.pure, hmore] at h
        | ok more =>
          intro f hf
          cases usetables with
          | false =>
            simp only [Bool.false_eq_true, if_false, Match.IN_PORT, bind, Except.bind, pure,
              Except.pure, hmore, List.nil_append] at h
            obtain rfl := Except.ok.inj h
            rcases List.mem_cons.mp hf with rfl | hf
            · exact hpop
            · exact ih hmore f hf
          | true =>
            simp only [if_true, Match.IN_PORT, Action.OUTPUT, bind, Except.bind, pure, Except.pure, hmore]
              at h
            obtain rfl := Except.ok.inj h
            rcases List.mem_cons.mp hf with rfl | hf
            · exact hpush
            · rcases List.mem_cons.mp hf with rfl | hf
              · exact hpop
              · exact ih hmore f hf

theorem registerFpisls_byLabel {mp : Option Nat} {fps : List FpEntry} {rms : List RouteMod}
    (h : tr.registerFpisls mp fps = .ok rms) : ∀ f ∈ rms, tr.ByLabel f := by
  induction fps generalizing rms with
  | nil =>
    cases h
    simp
  | cons fp rest ih =>
    rw [registerFpisls] at h
    split at h
    · obtain ⟨q, -, h⟩ := bind_eq_ok.mp h
      obtain ⟨one, hone, h⟩ := bind_eq_ok.mp h
      obtain ⟨more, hmore, h⟩ := bind_eq_ok.mp h
      obtain rfl := Except.ok.inj h
      intro f hf
      rcases List.mem_append.mp hf with hf | hf
      · unfold registerFpisl at hone
        split at hone
        · cases hone
        · cases hone
          cases hf
        · cases hone
        · cases hone
          obtain ⟨lv, -, hf⟩ := List.mem_flatMap.mp hf
          simp only [fpislRules, List.mem_cons, List.not_mem_nil, or_false] at hf
          rcases hf with rfl | rfl
          all_goals
            refine ⟨rfl, fun m hm => ?_⟩
            simp only [RouteMod.addOption, RouteMod.addAction, rfmatchMeta, RouteMod.addMatch,
              List.nil_append, List.cons_append, List.mem_cons, List.not_mem_nil, or_false] at hm
            rcases hm with rfl | rfl <;> rfl
      · exact ih hmore f hf
    · exact ih h

theorem registerFastpaths_byLabel {usetables : Bool} {fpTable : Nat} {rms : List RouteMod}
    (h : tr.registerFastpaths cfg o usetables fpTable = .ok rms) : ∀ f ∈ rms, tr.ByLabel f := by
  unfold registerFastpaths at h
  obtain ⟨mp, -, h⟩ := bind_eq_ok.mp h
  obtain ⟨ports, hports, h⟩ := bind_eq_ok.mp h
  obtain ⟨isls, hisls, h⟩ := bind_eq_ok.mp h
  obtain rfl := Except.ok.inj h
  intro f hf
  rcases List.mem_append.mp hf with hf | hf
  · exact registerFpports_byLabel hports f hf
  · exact registerFpisls_byLabel hisls f hf

end Translator

/-! ## The translators -/

section Translators

variable {cfg : Config} {o : Order} {s : Server}

/-- The handlers for rows leave the translators and the RouteMods alone. -/
def SameFlows (s s' : Server) : Prop := s'.routeModTranslator = s.routeModTranslator ∧ s'.dpQ = s.dpQ

theorem SameFlows.trans {s t u : Server} (h : SameFlows s t) (h' : SameFlows t u) : SameFlows s u :=
  ⟨h'.1.trans h.1, h'.2.trans h.2⟩

theorem SameFlows.foldl {α : Type} {f : Server → α → Server} (h : ∀ s x, SameFlows s (f s x)) (l : List α)
    (s : Server) : SameFlows s (l.foldl f s) := by
  induction l generalizing s with
  | nil => exact ⟨rfl, rfl⟩
  | cons x rest ih => exact (h s x).trans (ih (f s x))

theorem registerVmPort_sameFlows (v p : Nat) (m : Mac) :
    SameFlows s (Server.registerVmPort cfg o s v p m).1 := by
  unfold Server.registerVmPort
  split
  · exact ⟨rfl, rfl⟩
  · split
    · exact ⟨rfl, rfl⟩
    · split
      · split <;> exact ⟨rfl, rfl⟩
      · exact ⟨rfl, rfl⟩

theorem registerIslLine_sameFlows (c d p : Nat) (conf : RFISLConfEntry) :
    SameFlows s (Server.registerIslLine o c d p s conf) := by
  unfold Server.registerIslLine
  dsimp only
  split
  · exact ⟨rfl, rfl⟩
  · split
    · split <;> exact ⟨rfl, rfl⟩
    · exact ⟨rfl, rfl⟩

theorem enterDpPort_sameFlows (cfg : Config) (o : Order) (s : Server) (c d p : Nat) :
    SameFlows s (Server.enterDpPort cfg o s c d p).1 := by
  unfold Server.enterDpPort
  split
  · split
    · exact ⟨rfl, rfl⟩
    · exact SameFlows.foldl (fun s conf => registerIslLine_sameFlows c d p conf) _ s
  · split
    · exact ⟨rfl, rfl⟩
    · split
      · split <;> exact ⟨rfl, rfl⟩
      · exact ⟨rfl, rfl⟩

theorem setDpDown_sameFlows (c d : Nat) : SameFlows s (Server.setDpDown o s c d) := by
  unfold Server.setDpDown
  refine SameFlows.trans (SameFlows.foldl (fun s r => ?_) _ s) ⟨rfl, rfl⟩
  unfold Server.setDpPortDown
  split
  · exact ⟨rfl, rfl⟩
  · rename_i entry _
    cases hv : entry.val.vmId <;> exact ⟨rfl, rfl⟩

theorem mapPort_sameFlows (v p vs vp : Nat) : SameFlows s (Server.mapPort o s v p vs vp) := by
  unfold Server.mapPort
  split
  · exact ⟨rfl, rfl⟩
  · split <;> exact ⟨rfl, rfl⟩

/-- The datapath gets its translator, and its first RouteMods unless they cannot be made. -/
structure Configures (cfg : Config) (o : Order) (c d : Nat) (s s' : Server) : Prop where
  new : s.routeModTranslator d = none
  translators : s'.routeModTranslator =
    Function.update s.routeModTranslator d (some (Server.newTranslator cfg c d))
  queue : s'.dpQ = s.dpQ ∨ ∃ rms, (Server.newTranslator cfg c d).configureDatapath cfg o = .ok rms ∧
    s'.dpQ = s.dpQ ++ rms.map fun f => (c, f.addOption (.ctId c))

theorem configDp_flows (cfg : Config) (o : Order) (s : Server) (c d : Nat) :
    SameFlows s (Server.configDp cfg o s c d).1 ∨ Configures cfg o c d s (Server.configDp cfg o s c d).1 := by
  unfold Server.configDp
  split
  · exact Or.inl ⟨rfl, rfl⟩
  · split
    · split
      · exact Or.inl ⟨rfl, rfl⟩
      · rename_i hnone
        right
        dsimp only
        split
        · exact ⟨hnone, rfl, Or.inl rfl⟩
        · rename_i rms hok
          rw [Server.sendRouteMods_eq]
          exact ⟨hnone, rfl, Or.inr ⟨rms, hok, rfl⟩⟩
    · exact Or.inl ⟨rfl, rfl⟩

theorem registerDpPort_flows (cfg : Config) (o : Order) (s : Server) (c d p : Nat) :
    SameFlows s (Server.registerDpPort cfg o s c d p).1 ∨
      Configures cfg o c d s (Server.registerDpPort cfg o s c d p).1 := by
  have hconf := configDp_flows cfg o s c d
  unfold Server.registerDpPort
  split
  · rename_i s' e heq
    rw [heq] at hconf
    exact hconf
  · rename_i s' heq
    rw [heq] at hconf
    exact hconf
  · rename_i s' heq
    rw [heq] at hconf
    obtain ⟨htr, hdp⟩ := enterDpPort_sameFlows cfg o s' c d p
    rcases hconf with h | ⟨hnew, htrs, hq⟩
    · exact Or.inl (h.trans ⟨htr, hdp⟩)
    · exact Or.inr ⟨hnew, htr.trans htrs, hq.imp hdp.trans fun ⟨rms, hok, h⟩ => ⟨rms, hok, hdp.trans h⟩⟩

theorem process_flows (cfg : Config) (o : Order) (s : Server) {msg : Msg} (hmsg : ∀ rm, msg ≠ .routeMod rm) :
    SameFlows s (Server.process cfg o s msg).1 ∨
      ∃ c d p, msg = .datapathPortRegister c d p ∧ Configures cfg o c d s (Server.process cfg o s msg).1 := by
  cases msg with
  | portRegister v p m => exact Or.inl (registerVmPort_sameFlows v p m)
  | routeMod rm => exact absurd rfl (hmsg rm)
  | datapathPortRegister c d p => exact (registerDpPort_flows cfg o s c d p).imp id fun h => ⟨c, d, p, rfl, h⟩
  | datapathDown c d => exact Or.inl (setDpDown_sameFlows c d)
  | virtualPlaneMap v p vs vp => exact Or.inl (mapPort_sameFlows v p vs vp)
  | routeModReply =>
    have h := SameFlows.foldl (f := fun s (a : Nat × PortConfig) => s.sendClient a.1 a.2)
      (fun _ _ => ⟨rfl, rfl⟩) s.ackQ s
    exact Or.inl h

/-- All translators have a property that new ones have and that their memory does not matter for. -/
structure TranslatorProperty (cfg : Config) (P : Nat → Translator → Prop) : Prop where
  new : ∀ c d, P d (Server.newTranslator cfg c d)
  memory : ∀ d tr sent, P d tr → P d { tr with sentIslDl := sent }

def AllTranslators (P : Nat → Translator → Prop) (trs : Nat → Option Translator) : Prop :=
  ∀ d tr, trs d = some tr → P d tr

theorem AllTranslators.update {P : Nat → Translator → Prop} {trs : Nat → Option Translator}
    (h : AllTranslators P trs) {d : Nat} {tr : Translator} (hp : P d tr) :
    AllTranslators P (Function.update trs d (some tr)) := by
  intro e tr' he
  by_cases hed : e = d
  · subst hed
    rw [Function.update_self, Option.some.injEq] at he
    exact he ▸ hp
  · rw [Function.update_of_ne hed] at he
    exact h e tr' he

variable {P : Nat → Translator → Prop} (hP : TranslatorProperty cfg P)

include hP in
theorem handleIslRouteMod_property {d : Nat} {tr : Translator} (h : P d tr) (rf : RFTable) (r : RFISLEntry)
    (rm : RouteMod) : P d (tr.handleIslRouteMod o rf r rm).1 := by
  unfold Translator.handleIslRouteMod
  split
  · exact h
  · exact h
  · exact hP.memory d tr _ h

include hP in
theorem islRouteMods_property (rf : RFTable) (rm : RouteMod) (remotes : List RFISLEntry)
    (trs : Nat → Option Translator) (h : AllTranslators P trs) :
    AllTranslators P (Server.islRouteMods o rf rm remotes trs).1 := by
  induction remotes generalizing trs with
  | nil => exact h
  | cons r rest ih =>
    unfold Server.islRouteMods
    split
    · split
      · exact h
      · rename_i d hd
        split
        · exact h
        · rename_i tr htr
          have hnew := h.update (handleIslRouteMod_property hP (o := o) (h d tr htr) rf r rm)
          dsimp only
          split
          · exact hnew
          · exact ih _ hnew
    · exact ih trs h

include hP in
theorem registerRouteMod_property (rm : RouteMod) (h : AllTranslators P s.routeModTranslator) :
    AllTranslators P (Server.registerRouteMod cfg o s rm).1.routeModTranslator := by
  have htrans : ∀ entry tr rm, AllTranslators P (Server.translate cfg o s entry tr rm).1 := by
    intro entry tr rm
    unfold Server.translate
    split
    · exact h
    all_goals first
      | exact h
      | split
        · exact h
        · exact islRouteMods_property hP _ _ _ _ h
  unfold Server.registerRouteMod
  split
  · exact h
  · dsimp only
    split
    · exact h
    · split
      · exact h
      · rename_i tr htr
        split
        · exact h
        · split
          · exact htrans _ _ _
          · split
            · split <;> exact htrans _ _ _
            · rw [Server.sendRouteMods_eq]
              exact htrans _ _ _

include hP in
theorem run_translators (h : History) :
    AllTranslators P (run (Server.step cfg) Server.init h).routeModTranslator := by
  refine invariant (I := fun s : Server => AllTranslators P s.routeModTranslator) ?_ ?_ (along_true _ _ h)
  · rintro s ⟨o, msg⟩ - hs
    by_cases hmsg : ∃ rm, msg = .routeMod rm
    · obtain ⟨rm, rfl⟩ := hmsg
      exact registerRouteMod_property hP rm hs
    · rcases process_flows cfg o s fun rm hrm => hmsg ⟨rm, hrm⟩ with h | ⟨c, d, p, -, h⟩
      · simp only [Server.step, h.1]
        exact hs
      · simp only [Server.step, h.translators]
        exact hs.update (hP.new c d)
  · intro d tr htr
    simp [Server.init] at htr

end Translators

theorem run_wellKeyed (cfg : Config) (h : History) :
    WellKeyed (run (Server.step cfg) Server.init h).routeModTranslator :=
  run_translators (P := fun d tr => tr.dpId = d) ⟨fun _ _ => rfl, fun _ _ _ h => h⟩ h

end RouteFlow
