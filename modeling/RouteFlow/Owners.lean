import RouteFlow.Emission
import RouteFlow.TwoHop

/-!
# Which controller a RouteMod goes to

`register_route_mod` sends all RouteMods to the controller of the route's own row. The flows of a
neighbour go there too, whatever controller the neighbour has.
-/

namespace RouteFlow

open Store Run

/-! ## The property -/

/-- The queued RouteMod `q` was computed for the datapath `d`. -/
def ComputedFor (cfg : Config) (o : Order) (s : Server) (rm : RouteMod) (d : Datapath)
    (q : Nat × RouteMod) : Prop :=
  ∃ row x tr f, RFTable.getEntryByVmPort o s.rftable rm.id rm.vmPort = some row ∧ row.val.dp = some x ∧
    s.routeModTranslator x.dpId = some tr ∧ (d, f) ∈ attributed cfg o s row.val x tr rm ∧
    q = (x.ctId, f.addOption (.ctId x.ctId))

/-- The controller it goes to has that datapath, and so does the option that `send_route_mod` adds. -/
structure ToOwner (s : Server) (d : Datapath) (q : Nat × RouteMod) : Prop where
  row : (∃ r ∈ s.rftable.rows, r.val.ctId = some q.1 ∧ r.val.dpId = some q.2.id) ∨
    ∃ r ∈ s.isltable.rows, r.val.ctId = some q.1 ∧ r.val.dpId = some q.2.id
  option : q.2.options.getLast? = some (.ctId d.ctId)

/-- All RouteMods that were computed reach their owners. -/
def AllToOwners (cfg : Config) (o : Order) (s : Server) (rm : RouteMod) : Prop :=
  ∀ q ∈ emitted cfg o s rm, ∀ d, ComputedFor cfg o s rm d q → ToOwner s d q

/-! ## The condition -/

def noteLink (trs : Nat → Option Translator) (r : RFISLEntry) : Nat → Option Translator :=
  if r.getStatus = .rfislActive then
    match r.near with
    | none => trs
    | some a =>
      match trs a.dpId with
      | none => trs
      | some tr => Function.update trs a.dpId (some (afterIsl tr r))
  else trs

/-- If the neighbour makes a RouteMod for the link, it has the controller `c`. -/
def LinkOn (o : Order) (rf : RFTable) (c : Nat) (trs : Nat → Option Translator) (r : RFISLEntry) : Prop :=
  r.getStatus = .rfislActive → ∀ a tr, r.near = some a → trs a.dpId = some tr →
    neighbourEmits o rf tr r → a.ctId = c

/-- All datapaths that get a RouteMod have the controller of the route's row. A rule for the controller
is made from the ports of the datapath's translator, if there are fast paths. -/
def OneController (cfg : Config) (o : Order) (s : Server) (x : DpPort) (tr : Translator)
    (rm : RouteMod) : Prop :=
  match rm.mod with
  | .controller => cfg.fpEnabled = true → tr.kind ≠ .noviFlow → taggedPorts cfg o tr ≠ [] → tr.ctId = x.ctId
  | .add | .delete => Along noteLink (LinkOn o s.rftable x.ctId) s.routeModTranslator (remoteLinks o s x)
  | _ => True

section Neighbours

variable {o : Order} {rf : RFTable} (hs : RFShaped rf)

theorem Datapath.forall_tag {d : Datapath} {rms : List RouteMod} {P : Datapath → Prop} :
    (∀ y ∈ d.tag (.ok rms), P y.1) ↔ (rms ≠ [] → P d) := by
  simp only [Datapath.mem_tag, Except.ok.injEq, exists_eq_left']
  constructor
  · intro h hne
    obtain ⟨f, hf⟩ := List.exists_mem_of_ne_nil rms hne
    exact h (d, f) ⟨rfl, hf⟩
  · rintro h y ⟨hy, hf⟩
    rw [hy]
    exact h (List.ne_nil_of_mem hf)

include hs in
theorem islFlows_ctId (c : Nat) (rm : RouteMod) (remotes : List RFISLEntry) (trs : Nat → Option Translator)
    (hl : LinkRows remotes) (ht : NeighboursReady trs remotes) :
    (∀ y ∈ islFlows o rf rm remotes trs, y.1.ctId = c) ↔ Along noteLink (LinkOn o rf c) trs remotes := by
  induction remotes generalizing trs with
  | nil => simp [islFlows, Along]
  | cons r rest ih =>
    have hl' : LinkRows rest := fun q hq => hl q (List.mem_cons_of_mem _ hq)
    unfold islFlows Along
    by_cases hst : r.getStatus = .rfislActive
    · obtain ⟨a, b, hn, hf⟩ := hl r List.mem_cons_self hst
      have hd : r.dpId = some a.dpId := ((RFISLEntry.near_eq_some _ _).mp hn).2.1
      obtain ⟨tr, htr, hread, ht'⟩ := ht.first hst hd
      obtain ⟨rms, hok, hne⟩ := handleIslRouteMod_ok hs (o := o) hn hf hread rm
      have hnote : noteLink trs r = Function.update trs a.dpId (some (afterIsl tr r)) := by
        simp [noteLink, hst, hn, htr]
      have hlink : LinkOn o rf c trs r ↔ (rms ≠ [] → a.ctId = c) := by
        rw [hne]
        constructor
        · exact fun h => h hst a tr hn htr
        · intro h _ a' tr' hn' htr'
          obtain rfl := Option.some.inj (hn.symm.trans hn')
          obtain rfl := Option.some.inj (htr.symm.trans htr')
          exact h
      have htag := @Datapath.forall_tag a.datapath rms fun d => d.ctId = c
      rw [hnote, ← ih _ hl' ht', hlink]
      simp only [hst, if_true, hn, htr, hok, List.forall_mem_append, htag]
      rfl
    · have ht' : NeighboursReady trs rest := (neighboursReady_cons_idle hst).mp ht
      have hnote : noteLink trs r = trs := by simp [noteLink, hst]
      have hlink : LinkOn o rf c trs r := fun h => absurd h hst
      rw [hnote, ← ih trs hl' ht']
      simp only [hst, if_false, hlink, true_and]

end Neighbours

/-! ## All RouteMods -/

section Attributed

variable {cfg : Config} {o : Order} {s : Server} (hs : RFShaped s.rftable) (hi : IslShaped s.isltable)
variable {row : Row RFEntry} {x : DpPort} {tr : Translator} {rm : RouteMod}

include hs hi in
theorem attributed_ctId (hx : row.val.dp = some x) (h : Translates cfg o s x tr rm) :
    (∀ y ∈ attributed cfg o s row.val x tr rm, y.1.ctId = x.ctId) ↔ OneController cfg o s x tr rm := by
  unfold attributed OneController
  unfold Translates at h
  cases hm : rm.mod with
  | controller =>
    rw [hm] at h
    obtain ⟨rms, hok, hne⟩ := @handleControllerRouteMod_ok _ _ tr (rm.setId x.dpId) h
    have htag := @Datapath.forall_tag (controllerDatapath cfg x tr) rms fun d => d.ctId = x.ctId
    simp only [hok]
    rw [htag, hne]
    unfold ControllerEmits controllerDatapath
    split
    · rename_i hfp
      simp [hfp.1, hfp.2]
    · rename_i hfp
      simp only [not_and] at hfp
      exact ⟨fun _ h1 h2 => absurd h2 (hfp h1), fun _ _ => rfl⟩
  | add | delete =>
    rw [hm] at h
    obtain ⟨rm', rms, hok, -⟩ := handleRouteMod_ok hs hi (o := o) hx h.1 (rm.setId x.dpId)
    have htag := (@Datapath.forall_tag x.datapath rms fun d => d.ctId = x.ctId).mpr fun _ => rfl
    simp only [hok, List.forall_mem_append]
    rw [islFlows_ctId hs x.ctId rm' _ _ (remoteLinks_linkRows hi x) h.2]
    exact and_iff_right htag
  | addGroup | deleteGroup | unknown _ => simp

include hs hi in
/-- A RouteMod reaches its owner exactly if the datapath has the controller of the route's row. -/
theorem toOwner_iff (hk : WellKeyed s.routeModTranslator)
    (hrow : RFTable.getEntryByVmPort o s.rftable rm.id rm.vmPort = some row) (hx : row.val.dp = some x)
    (htr : s.routeModTranslator x.dpId = some tr) {y : Datapath × RouteMod}
    (hy : y ∈ attributed cfg o s row.val x tr rm) :
    ToOwner s y.1 (x.ctId, y.2.addOption (.ctId x.ctId)) ↔ y.1.ctId = x.ctId := by
  obtain ⟨⟨hid, -⟩, -, hplace⟩ := mem_attributed hs rfl hi hk hx htr rm hy
  constructor
  · intro h
    have hopt := h.option
    simp only [RouteMod.addOption, List.getLast?_append, List.getLast?_singleton, Option.some_or,
      Option.some.injEq, RFOption.ctId.injEq] at hopt
    exact hopt.symm
  · intro hct
    have hid' : (y.2.addOption (.ctId x.ctId)).id = y.1.dpId := hid
    refine ⟨?_, by simp [RouteMod.addOption, hct]⟩
    dsimp only
    rw [hid']
    rcases hplace with hd | ⟨r, hr, a, hn, hd⟩
    · obtain ⟨hc, hdp, -⟩ := (RFEntry.dp_eq_some _ _).mp hx
      exact Or.inl ⟨row, (RFTable.getEntryByVmPort_some hrow).1, hc, by rw [hd, hdp]⟩
    · obtain ⟨hc, hdp, -⟩ := (RFISLEntry.near_eq_some _ _).mp hn
      rw [hd] at hct ⊢
      exact Or.inr ⟨r, hr, by rw [hc, ← hct]; rfl, hdp⟩

end Attributed

/-- Each RouteMod in the queue was computed for some datapath. They all reach their owners exactly if
the RouteMod raises, or the datapaths have one controller. -/
theorem to_owners_iff (cfg : Config) (h : History) (o : Order) (rm : RouteMod) :
    let s := run (Server.step cfg) Server.init h
    (∀ q ∈ emitted cfg o s rm, ∃ d, ComputedFor cfg o s rm d q) ∧
    (AllToOwners cfg o s rm ↔
      ∀ x tr, routeModTarget o s rm = some (x, tr) → Translates cfg o s x tr rm →
        OneController cfg o s x tr rm) := by
  intro s
  obtain ⟨hs, hi⟩ := run_shaped cfg h
  have hk := run_wellKeyed cfg h
  rcases registerRouteMod_queue hs hi cfg o rm with ⟨row, x, tr, hrow, hx, htr, htrans⟩ | ⟨hno, hq⟩
  · have hemit : emitted cfg o s rm =
        (attributed cfg o s row.val x tr rm).map fun y => (x.ctId, y.2.addOption (.ctId x.ctId)) := by
      rw [emitted, (registerRouteMod_attributed hs hi hrow hx htr htrans).2, List.drop_left]
    have htarget : routeModTarget o s rm = some (x, tr) := routeModTarget_eq_some.mpr ⟨row, hrow, hx, htr⟩
    have hmem : ∀ y ∈ attributed cfg o s row.val x tr rm,
        ComputedFor cfg o s rm y.1 (x.ctId, y.2.addOption (.ctId x.ctId)) :=
      fun y hy => ⟨row, x, tr, y.2, hrow, hx, htr, hy, rfl⟩
    refine ⟨fun q hq => ?_, ?_⟩
    · rw [hemit] at hq
      obtain ⟨y, hy, rfl⟩ := List.mem_map.mp hq
      exact ⟨y.1, hmem y hy⟩
    · have hcond : (∀ x' tr', routeModTarget o s rm = some (x', tr') → Translates cfg o s x' tr' rm →
          OneController cfg o s x' tr' rm) ↔ OneController cfg o s x tr rm := by
        constructor
        · exact fun h => h x tr htarget htrans
        · intro h x' tr' ht' _
          obtain ⟨rfl, rfl⟩ := Prod.mk.inj (Option.some.inj (htarget.symm.trans ht'))
          exact h
      rw [hcond, ← attributed_ctId hs hi hx htrans]
      constructor
      · intro hall y hy
        refine (toOwner_iff hs hi hk hrow hx htr hy).mp (hall _ ?_ _ (hmem y hy))
        rw [hemit]
        exact List.mem_map_of_mem hy
      · rintro hct q - d ⟨row', x', tr', f, hrow', hx', htr', hy, rfl⟩
        obtain rfl := Option.some.inj (hrow.symm.trans hrow')
        obtain rfl := Option.some.inj (hx.symm.trans hx')
        obtain rfl := Option.some.inj (htr.symm.trans htr')
        exact (toOwner_iff hs hi hk hrow hx htr hy).mpr (hct _ hy)
  · have hemit : emitted cfg o s rm = [] := by
      rw [emitted, hq, List.drop_length]
    refine ⟨by simp [hemit], ?_⟩
    have hbad : ∀ x tr, routeModTarget o s rm = some (x, tr) → ¬ Translates cfg o s x tr rm := by
      intro x tr htarget htrans
      obtain ⟨row, hrow, hx, htr⟩ := routeModTarget_eq_some.mp htarget
      exact hno (registerRouteMod_attributed hs hi hrow hx htr htrans).1
    constructor
    · exact fun _ x tr htarget htrans => absurd htrans (hbad x tr htarget)
    · intro _ q hmem
      rw [hemit] at hmem
      cases hmem

/-- The second switch has a controller of its own. Its flow goes to the controller of the first one,
which does not have the datapath. -/
theorem neighbour_flow_astray :
    let rm := (Destination.host ⟨.ipv4, [10, 0, 0, 1], rfl⟩).routeMod 1 .add lanPort 0x31
    ∃ q ∈ emitted (twoSwitches 1) .insertion (twoSwitchesState 1) rm,
      ComputedFor (twoSwitches 1) .insertion (twoSwitchesState 1) rm ⟨1, 6⟩ q ∧
      ¬ ToOwner (twoSwitchesState 1) ⟨1, 6⟩ q := by
  intro rm
  have hct : 1 = 0 ∨ 1 = 1 := Or.inr rfl
  have hflow : ∃ y ∈ attributed (twoSwitches 1) .insertion (twoSwitchesState 1)
      (RFShape.active ⟨1, 1⟩ 0x11 ⟨0, 5, 3⟩ 7 1).entry ⟨0, 5, 3⟩ ⟨.default, 5, 0, []⟩ rm,
      y.1 = ⟨1, 6⟩ ∧ (0, y.2.addOption (.ctId 0)) ∈ emitted (twoSwitches 1)
        .insertion (twoSwitchesState 1) rm := by
    decide +kernel
  obtain ⟨⟨d, f⟩, hy, rfl, hq⟩ := hflow
  refine ⟨_, hq, ⟨_, _, _, f, twoSwitches_entry hct, rfl, (twoSwitches_translators hct).1, hy, rfl⟩, ?_⟩
  intro h
  have hopt := h.option
  simp [RouteMod.addOption] at hopt

end RouteFlow
