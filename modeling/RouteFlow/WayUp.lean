import RouteFlow.FastPathRules
import RouteFlow.LabelPlacement

/-!
# The way up

`_get_fastpath_port` looks for the link of a switch whose `fp_master` is set and is not the switch. There is
one such link for each switch with ports. A switch without ports has one for each link that leads to it,
and below the switch 0 the master does not count as set.
-/

namespace RouteFlow

open Store Bfs Relation

/-- `fp_master` of a link in the tables as they are now. -/
def FpState.masterOf (st : FpState) : Link → Option Int
  | .fp r => (st.fpconf.rows.find? fun q => q.id == r.id).bind fun q => q.val.fpMaster
  | .isl r => (st.islconf.rows.find? fun q => q.id == r.id).bind fun q => q.val.fpMaster

theorem masterOf_state {T : Wiring} {pl : Plan} {k : Link} (hk : T.Has k) :
    (T.state pl).masterOf k = pl.master k := by
  cases k with
  | fp r =>
    rw [FpState.masterOf, show (T.state pl).fpconf = T.fpconf.overlay pl.fpVal from rfl, find_overlay_id hk]
    rfl
  | isl r =>
    rw [FpState.masterOf, show (T.state pl).islconf = T.islconf.overlay pl.islVal from rfl,
      find_overlay_id hk]
    rfl

namespace Wiring

variable (T : Wiring) (num : Nat → Nat)

/-- The link leads to the switch from dp0 or from a switch that comes before it. -/
def LeadsTo (d : Nat) : Link → Prop
  | .fp r => r ∈ T.fpconf.rows ∧ r.val.dpId = d
  | .isl r => r ∈ T.islconf.rows ∧
      ∃ e, (r.val.dpId = e ∧ r.val.remId = d ∨ r.val.dpId = d ∧ r.val.remId = e) ∧ num e < num d

/-- The switch is reached from `e`, the first switch next to it. -/
def Under (d e : Nat) : Prop := Parent T.Root T.Reachable T.Joined num d e

/-- Of the links at the switch, only `k` has a master that is set and is not the switch. `_get_fastpath_port`
finds it, and it carries the labels of the ports at the switch and below. -/
structure WayUp (o : Order) (st : FpState) (d : Nat) (k : Link) : Prop where
  here : T.Has k ∧ k.Attached d
  only : ∀ c, T.Has c → c.Attached d → ((∃ m, st.masterOf c = some m ∧ m ≠ d) ↔ c = k)
  port : (T.translator d).getFastpathPort st.config o = .ok (some (k.portAt d))
  labels : ∀ p ∈ T.conf.rows, ∀ l, st.labelOf p = some l →
    (l ∈ st.labelsOn k ↔ ReflTransGen (T.Under num) p.val.dpId d)

/-- The switch is not reached from the switch 0, and if it has no ports then only one link leads to it. -/
def Clear (d : Nat) : Prop :=
  ¬T.Under num d 0 ∧ (T.Portless d → ∀ k c, T.LeadsTo num d k → T.LeadsTo num d c → k = c)

variable {T num}

theorem leadsTo_has {d : Nat} {k : Link} (h : T.LeadsTo num d k) : T.Has k ∧ k.Attached d := by
  cases k with
  | fp r => exact ⟨h.1, Or.inl h.2⟩
  | isl r =>
    obtain ⟨hr, e, ⟨-, hd⟩ | ⟨hd, -⟩, -⟩ := h
    · exact ⟨hr, Or.inr (congrArg some hd)⟩
    · exact ⟨hr, Or.inl hd⟩

end Wiring

section WayUp

variable {T : Wiring} {pl : Plan} {num : Nat → Nat} {n d : Nat} {k c : Link} (h : Allocated T pl)
  (hs : Numbered T pl num n [])

include h hs

theorem master_iff (hk : T.Has k) (m : Int) : pl.master k = some m ↔
    pl.par k = some m ∧ (pl.up (k.far m) = some k ∨ T.Portless (k.far m)) := by
  constructor
  · intro hm
    exact (h.growing.master k m hm).2
  · rintro ⟨hm, hu | hpl⟩
    · obtain ⟨-, -, m', hm', hmaster, -⟩ := h.growing.up_link _ k hu
      rwa [← Option.some.inj (hm.symm.trans hm')] at hmaster
    · exact hs.marked k m hk hm List.not_mem_nil hpl

theorem leadsTo_iff (hd : T.Reachable d) (hk : T.Has k) (ha : k.Attached d) :
    T.LeadsTo num d k ↔ ∃ m, pl.par k = some m ∧ m ≠ d := by
  cases k with
  | fp r =>
    have hdp : r.val.dpId = d := ha.resolve_right (by simp [Link.remId])
    exact iff_of_true ⟨hk, hdp⟩ ⟨-1, h.growing.par_fp r, by omega⟩
  | isl r =>
    obtain ⟨m, hm⟩ := Option.isSome_iff_exists.mp (h.growing.found d (h.visited d hd) r hk ha)
    obtain ⟨e, rfl, -⟩ := h.growing.par_isl r m hm
    have habove := h.growing.above _ _ hm
    have hends := Link.ends_far habove
    have hne := T.no_loop r hk
    constructor
    · rintro ⟨-, x, hx, hlt⟩
      refine ⟨e, hm, fun heq => ?_⟩
      obtain rfl : e = d := Nat.cast_inj.mp heq
      have hfar : (Link.isl r).far e = x := by omega
      have hreach := Wiring.Joined.reachable (Wiring.joined_far hk habove) hd
      have hlater := hs.later r e hk hm (h.visited _ hreach)
      rw [hfar] at hlater
      omega
    · rintro ⟨m, hm', hme⟩
      obtain rfl := Option.some.inj (hm.symm.trans hm')
      have hfar := Link.far_eq habove ha hme
      have hlater := hs.later r e hk hm (by rw [hfar]; exact h.visited d hd)
      rw [hfar] at hlater hends
      exact ⟨hk, e, hends.imp_right fun hx => hx, hlater⟩

theorem counted_iff (hu : pl.up d = some k) (hc : T.Has c) (ha : c.Attached d) :
    (∃ m, pl.master c = some m ∧ m ≠ d) ↔ T.LeadsTo num d c ∧ (c = k ∨ T.Portless d) := by
  have hd : T.Reachable d := h.growing.reachable d (by rw [hu]; rfl)
  rw [leadsTo_iff h hs hd hc ha]
  constructor
  · rintro ⟨m, hm, hne⟩
    obtain ⟨hpar, hor⟩ := (master_iff h hs hc m).mp hm
    rw [Link.far_eq (h.growing.above c m hpar) ha hne, hu, Option.some.injEq] at hor
    exact ⟨⟨m, hpar, hne⟩, hor.imp_left Eq.symm⟩
  · rintro ⟨⟨m, hpar, hne⟩, hor⟩
    refine ⟨m, (master_iff h hs hc m).mpr ⟨hpar, ?_⟩, hne⟩
    rw [Link.far_eq (h.growing.above c m hpar) ha hne, hu, Option.some.injEq]
    exact hor.imp_left Eq.symm

/-- The link that reaches the switch first is one of them. -/
theorem up_leads (hu : pl.up d = some k) : T.Has k ∧ k.Attached d ∧ T.LeadsTo num d k ∧
    ∃ m, pl.master k = some m ∧ m ≠ d ∧ (m = 0 ↔ T.Under num d 0) := by
  have hd : T.Reachable d := h.growing.reachable d (by rw [hu]; rfl)
  obtain ⟨hk, -, m, hm, hmaster, hfar⟩ := h.growing.up_link d k hu
  have ha : k.Attached d := hfar ▸ k.attached_far m
  have hne : m ≠ d := by
    rintro rfl
    cases k with
    | fp r => exact absurd (h.growing.above _ _ hm) (by simp [Link.Above])
    | isl r =>
      have hends := Link.ends_far (h.growing.above _ _ hm)
      rw [hfar] at hends
      exact T.no_loop r hk (by omega)
  refine ⟨hk, ha, (leadsTo_iff h hs hd hk ha).mpr ⟨m, hm, hne⟩, m, hmaster, hne, ?_⟩
  rw [Wiring.Under, ← ascends_iff_parent h hs hd]
  constructor
  · rintro rfl
    cases k with
    | fp r => exact absurd (h.growing.above _ _ hm) (by simp [Link.Above])
    | isl r => exact ⟨r, hu, hm⟩
  · rintro ⟨r, hr, hpar⟩
    rw [← Option.some.inj (hu.symm.trans hr), hm] at hpar
    exact Option.some.inj hpar

theorem ascends_chain_iff {e : Nat} (hd : T.Reachable d) :
    ReflTransGen pl.Ascends d e ↔ ReflTransGen (T.Under num) d e := by
  constructor
  · intro ha
    induction ha using ReflTransGen.head_induction_on with
    | refl => exact .refl
    | head hstep _ ih =>
      have hp := parent_of_ascends h hs hstep
      exact .head hp (ih hp.2.1)
  · intro hp
    induction hp using ReflTransGen.head_induction_on with
    | refl => exact .refl
    | head hstep _ ih => exact .head ((ascends_iff_parent h hs hd).mpr hstep) (ih hstep.2.1)

theorem labels_up (hu : pl.up d = some k) (hk : T.Has k) {p : Row RFConfigEntry}
    (hp : p ∈ T.conf.rows) {l : Nat} (hl : pl.lab p = some l) :
    l ∈ (pl.carried k).map Prod.fst ↔ ReflTransGen (T.Under num) p.val.dpId d := by
  have hreach : T.Reachable p.val.dpId :=
    (reached_iff h).mp ((h.growing.lab_iff p hp).mp (by rw [hl]; rfl))
  rw [mem_carried_iff h hl hk, beneath_iff h hp, ← ascends_chain_iff h hs hreach]
  constructor
  · rintro ⟨e, ha, he⟩
    obtain ⟨-, -, m, hm, -, hfar⟩ := h.growing.up_link d k hu
    obtain ⟨-, -, m', hm', -, hfar'⟩ := h.growing.up_link e k he
    rw [← hfar, Option.some.inj (hm.symm.trans hm'), hfar']
    exact ha
  · intro ha
    exact ⟨d, ha, hu⟩

theorem wayUp_of_clear (o : Order) (hd : T.Reachable d) (hc : T.Clear num d) :
    ∃ k, T.WayUp num o (T.state pl) d k := by
  obtain ⟨k, hu⟩ := exists_up h hd
  obtain ⟨hk, ha, hleads, m, hm, hne, hzero⟩ := up_leads h hs hu
  have honly : ∀ c, T.Has c → c.Attached d → ((∃ m, pl.master c = some m ∧ m ≠ d) ↔ c = k) := by
    intro c hc' hca
    rw [counted_iff h hs hu hc' hca]
    constructor
    · rintro ⟨hl, rfl | hpl⟩
      · rfl
      · exact hc.2 hpl c k hl hleads
    · rintro rfl
      exact ⟨hleads, Or.inl rfl⟩
  refine ⟨k, ⟨hk, ha⟩, fun c hc' hca => ?_, getFastpathPort_only o hk ha fun c hc' hca => ?_,
    fun p hp l hl => ?_⟩
  · rw [masterOf_state hc']
    exact honly c hc' hca
  · rw [isUp_fpEntry]
    constructor
    · rintro ⟨m', hm', -, hne'⟩
      exact (honly c hc' hca).mp ⟨m', hm', hne'⟩
    · rintro rfl
      exact ⟨m, hm, fun e => hc.1 (hzero.mp e), hne⟩
  · rw [labelOf_state hp] at hl
    rw [labelsOn_state hk]
    exact labels_up h hs hu hk hp hl

theorem clear_of_wayUp {o : Order} (hd : T.Reachable d) {w : Link} (hw : T.WayUp num o (T.state pl) d w) :
    T.Clear num d := by
  obtain ⟨k, hu⟩ := exists_up h hd
  obtain ⟨hk, ha, -, m, hm, hne, hzero⟩ := up_leads h hs hu
  have honly : ∀ c, T.Has c → c.Attached d → ((∃ m, pl.master c = some m ∧ m ≠ d) ↔ c = w) :=
    fun c hc hca => by
    rw [← masterOf_state hc]
    exact hw.only c hc hca
  refine ⟨fun hunder => ?_, fun hpl c c' hc hc' => ?_⟩
  · -- The only link that counts has the master 0, so `_get_fastpath_port` sees none.
    have hnone : ((T.translator d).fpEntries (T.state pl).config o).filter (T.translator d).isUp = [] := by
      refine List.filter_eq_nil_iff.mpr fun e he hup => ?_
      obtain ⟨c, hc, hca, rfl⟩ := (mem_fpEntries o e).mp he
      obtain ⟨m', hm', hm0, hne'⟩ := (isUp_fpEntry _ c).mp hup
      have hcw := (honly c hc hca).mp ⟨m', hm', hne'⟩
      rw [← (honly k hk ha).mp ⟨m, hm, hne⟩] at hcw
      rw [hcw, hm, Option.some.injEq] at hm'
      exact hm0 (hm'.symm.trans (hzero.mpr hunder))
    have hport := hw.port
    rw [Translator.getFastpathPort, hnone] at hport
    cases hport
  · have heq : ∀ c, T.LeadsTo num d c → c = w := fun c hc => by
      have hhas : T.Has c ∧ c.Attached d := Wiring.leadsTo_has hc
      exact (honly c hhas.1 hhas.2).mp ((counted_iff h hs hu hhas.1 hhas.2).mpr ⟨hc, Or.inr hpl⟩)
    rw [heq c hc, heq c' hc']

end WayUp

/-- The allocation reaches the switches in a breadth-first order, the one in which their rows come if a
row keeps its place when it is written back. A switch has one way up if in this order it is not reached
from the switch 0, and only one link leads to it or it has ports. -/
theorem one_way_up_iff (T : Wiring) (o : Order) (st : FpState) (h : fpAllocateLabels o T.read = .ok st) :
    ∃ num, BreadthFirst T.Root T.Reachable T.Joined num ∧ (o.ByKeys → num = T.num o) ∧
      ∀ d, T.Reachable d → ((∃ k, T.WayUp num o st d k) ↔ T.Clear num d) := by
  by_cases hfp : T.fpconf.rows = []
  · have hno : ∀ d, ¬T.Reachable d := fun d hd => hd.fpconf_ne hfp
    exact ⟨T.num o, ⟨fun d _ hd => absurd hd (hno d), fun d hd => absurd hd (hno d),
      fun d _ hd => absurd hd (hno d), fun d _ hd => absurd hd (hno d)⟩, fun _ => rfl,
        fun d hd => absurd hd (hno d)⟩
  rcases fpAllocateLabels_ordered o hfp with ⟨hover, -⟩ | ⟨pl, hrun, hall, hord⟩
  · rw [hover] at h
    cases h
  · obtain rfl := Except.ok.inj (hrun.symm.trans h)
    obtain ⟨num, n, hs, hrows⟩ := hord.numbered hall.growing
    exact ⟨num, search_breadthFirst hall hs, hrows, fun d hd =>
      ⟨fun ⟨_, hw⟩ => clear_of_wayUp hall hs hd hw, wayUp_of_clear hall hs o hd⟩⟩

/-! ## Three small networks -/

/-- dp0 is cabled to switch 5, and switch 5 to switch 6. Only switch 6 has a port. -/
def smallChain : Wiring where
  ct := 0
  conf := (memoryTable RFConfigEntry).add { vmId := 1, vmPort := 1, ctId := 0, dpId := 6, dpPort := 1 }
  fpconf := (memoryTable RFFPConfEntry).add { ctId := 0, dpId := 5, dpPort := 8, dp0Port := 3 }
  islconf := (memoryTable RFISLConfEntry).add
    { vmId := 1, ctId := 0, dpId := 5, dpPort := 3, ethAddr := Mac.text 1,
      remCt := 0, remId := 6, remPort := 3, remEthAddr := Mac.text 2 }
  conf_read := by decide
  fpconf_read := by decide
  islconf_read := by decide
  no_loop := by decide

theorem one_way_up_iff_smallChain :
    smallChain.Reachable 5 ∧ ∃ st, fpAllocateLabels .insertion smallChain.read = .ok st ∧
      ∀ d, smallChain.Reachable d → ((∃ k, smallChain.WayUp (smallChain.num .insertion) .insertion st d k) ↔
        smallChain.Clear (smallChain.num .insertion) d) := by
  refine ⟨.fp (r := ⟨1001, ⟨0, 5, 8, 3, [], none⟩⟩) (by decide), _, rfl, ?_⟩
  obtain ⟨num, -, hnum, h⟩ := one_way_up_iff smallChain .insertion _ rfl
  obtain rfl := hnum Order.insertion_byKeys
  exact h

example : smallChain.search .insertion = [5, 6] := by decide

/-- Two cables go from dp0 to a switch that has no ports. -/
def twoCables : Wiring where
  ct := 0
  conf := memoryTable RFConfigEntry
  fpconf := ((memoryTable RFFPConfEntry).add { ctId := 0, dpId := 5, dpPort := 8, dp0Port := 3 }).add
    { ctId := 0, dpId := 5, dpPort := 9, dp0Port := 4 }
  islconf := memoryTable RFISLConfEntry
  conf_read := by decide
  fpconf_read := by decide
  islconf_read := by decide
  no_loop := by decide

/-- Switch 5 is reached from switch 0. -/
def belowZero : Wiring where
  ct := 0
  conf := (memoryTable RFConfigEntry).add { vmId := 1, vmPort := 1, ctId := 0, dpId := 5, dpPort := 1 }
  fpconf := (memoryTable RFFPConfEntry).add { ctId := 0, dpId := 0, dpPort := 9, dp0Port := 3 }
  islconf := (memoryTable RFISLConfEntry).add
    { vmId := 1, ctId := 0, dpId := 0, dpPort := 2, ethAddr := Mac.text 1,
      remCt := 0, remId := 5, remPort := 2, remEthAddr := Mac.text 2 }
  conf_read := by decide
  fpconf_read := by decide
  islconf_read := by decide
  no_loop := by decide

theorem way_up_missed :
    (∃ st, fpAllocateLabels .insertion twoCables.read = .ok st ∧ twoCables.Reachable 5 ∧
      ∀ num k, ¬twoCables.WayUp num .insertion st 5 k) ∧
    ∃ st, fpAllocateLabels .insertion belowZero.read = .ok st ∧ belowZero.Reachable 5 ∧
      ∀ num k, ¬belowZero.WayUp num .insertion st 5 k := by
  refine ⟨⟨_, rfl, .fp (r := ⟨1001, ⟨0, 5, 8, 3, [], none⟩⟩) (by decide), fun num k hw => ?_⟩,
    _, rfl, .rem (r := ⟨1001, ⟨1, 0, 0, 2, Mac.text 1, 0, 5, 2, Mac.text 2, none, none⟩⟩) (by decide)
      (.fp (r := ⟨1001, ⟨0, 0, 9, 3, [], none⟩⟩) (by decide)), fun num k hw => ?_⟩
  · have hone : ∀ r ∈ twoCables.fpconf.rows, r.val.dpId = 5 := by decide
    have hlink : ∀ r ∈ twoCables.fpconf.rows, Link.fp r = k := fun r hr =>
      (hw.only (.fp r) hr (Or.inl (hone r hr))).mp ⟨-1, by revert r; decide, by decide⟩
    have hsame := (hlink ⟨1001, ⟨0, 5, 8, 3, [], none⟩⟩ (by decide)).trans
      (hlink ⟨1002, ⟨0, 5, 9, 4, [], none⟩⟩ (by decide)).symm
    exact absurd hsame (by decide)
  · have hport : (.ok none : Except PyErr (Option Nat)) = .ok (some (k.portAt 5)) := hw.port
    cases hport

end RouteFlow
