import RouteFlow.Allocation

/-!
# The tree is breadth-first

The order in which the allocation reaches the switches is breadth-first, so the way up the tree is a
shortest way to dp0.
-/

namespace RouteFlow

open Store Bfs Relation

theorem Link.ends_far {r : Row RFISLConfEntry} {d : Nat} (ha : (isl r).Above d) :
    r.val.dpId = d ∧ r.val.remId = (isl r).far d ∨ r.val.dpId = (isl r).far d ∧ r.val.remId = d := by
  dsimp only [far]
  split
  · rename_i h
    exact Or.inl ⟨(Nat.cast_inj.mp h).symm, rfl⟩
  · rename_i h
    exact Or.inr ⟨rfl, (Nat.cast_inj.mp (ha.resolve_left h)).symm⟩

namespace Wiring

variable (T : Wiring)

/-- A fast path link ends at the switch. -/
def Root (d : Nat) : Prop := ∃ r ∈ T.fpconf.rows, r.val.dpId = d

/-- An ISL joins the two switches. -/
def Joined (d e : Nat) : Prop :=
  ∃ r ∈ T.islconf.rows, r.val.dpId = d ∧ r.val.remId = e ∨ r.val.dpId = e ∧ r.val.remId = d

/-- The links of a way from the switch to dp0, with the fast path link last. -/
inductive Path : Nat → List Link → Prop
  | fp {r : Row RFFPConfEntry} : r ∈ T.fpconf.rows → Path r.val.dpId [.fp r]
  | rem {r : Row RFISLConfEntry} {ks : List Link} : r ∈ T.islconf.rows → Path r.val.dpId ks →
      Path r.val.remId (.isl r :: ks)
  | near {r : Row RFISLConfEntry} {ks : List Link} : r ∈ T.islconf.rows → Path r.val.remId ks →
      Path r.val.dpId (.isl r :: ks)

variable {T}

theorem joined_far {r : Row RFISLConfEntry} {d : Nat} (hr : r ∈ T.islconf.rows) (ha : (Link.isl r).Above d) :
    T.Joined d ((Link.isl r).far d) := ⟨r, hr, Link.ends_far ha⟩

theorem Path.far {r : Row RFISLConfEntry} {d : Nat} {ks : List Link} (hr : r ∈ T.islconf.rows)
    (ha : (Link.isl r).Above d) (hp : T.Path d ks) : T.Path ((Link.isl r).far d) (.isl r :: ks) := by
  dsimp only [Link.far]
  split
  · rename_i h
    rw [Nat.cast_inj.mp h] at hp
    exact .rem hr hp
  · rename_i h
    rw [Nat.cast_inj.mp (ha.resolve_left h)] at hp
    exact .near hr hp

theorem Path.reachable {d : Nat} {ks : List Link} (h : T.Path d ks) : T.Reachable d := by
  induction h with
  | fp hr => exact .fp hr
  | rem hr _ ih => exact .rem hr ih
  | near hr _ ih => exact .near hr ih

theorem Joined.reachable {d e : Nat} (h : T.Joined d e) (hd : T.Reachable d) : T.Reachable e := by
  obtain ⟨r, hr, ⟨rfl, rfl⟩ | ⟨rfl, rfl⟩⟩ := h
  · exact .rem hr hd
  · exact .near hr hd

end Wiring

section Tree

variable {T : Wiring} {pl : Plan} {num : Nat → Nat} {n : Nat} (h : Allocated T pl)
  (hs : Numbered T pl num n [])

include h

theorem reached_iff {d : Nat} : (pl.up d).isSome ↔ T.Reachable d := ⟨h.growing.reachable d, h.visited d⟩

theorem exists_up {d : Nat} (hd : T.Reachable d) : ∃ k, pl.up d = some k :=
  Option.isSome_iff_exists.mp (h.visited d hd)

/-! ## Parents -/

theorem up_root_or_ascends {d : Nat} {k : Link} (hk : pl.up d = some k) :
    (∃ r, k = .fp r ∧ r ∈ T.fpconf.rows ∧ r.val.dpId = d) ∨
      ∃ r, ∃ e : Nat, k = .isl r ∧ r ∈ T.islconf.rows ∧ pl.par (.isl r) = some (e : Int) ∧ T.Reachable e ∧
      T.Joined e d ∧
        (Link.isl r).far e = d := by
  obtain ⟨hhas, -, m, hm, -, hfar⟩ := h.growing.up_link d k hk
  cases k with
  | fp r => exact Or.inl ⟨r, rfl, hhas, hfar⟩
  | isl r =>
    obtain ⟨e, rfl, he⟩ := h.growing.par_isl r m hm
    refine Or.inr ⟨r, e, rfl, hhas, hm, (reached_iff h).mp he, ?_, hfar⟩
    rw [← hfar]
    exact Wiring.joined_far hhas (h.growing.above _ _ hm)

include hs

theorem rank_root {d : Nat} {k : Link} (hk : pl.up d = some k) (hd : T.Root d) : pl.rank num k = 0 := by
  obtain ⟨r, hr, rfl⟩ := hd
  have hle := hs.first _ k hk (.fp r) (-1) hr (h.growing.par_fp r) rfl
  rw [Plan.rank_dp0 (h.growing.par_fp r)] at hle
  exact Nat.le_zero.mp hle

theorem rank_ascends {d e : Nat} {r : Row RFISLConfEntry} (hk : pl.up d = some (.isl r))
    (hp : pl.par (.isl r) = some (e : Int)) : pl.rank num (.isl r) = num e + 1 ∧ num e < num d := by
  obtain ⟨hhas, -, m, hm, -, hfar⟩ := h.growing.up_link d _ hk
  obtain rfl : m = e := Option.some.inj (hm.symm.trans hp)
  refine ⟨Plan.rank_nat hp num, ?_⟩
  have hlt := hs.later r e hhas hp (by rw [hfar, hk]; rfl)
  rwa [hfar] at hlt

theorem rank_le_joined {d e : Nat} {k : Link} (hk : pl.up d = some k) (he : T.Reachable e)
    (hj : T.Joined e d) :
    pl.rank num k ≤ num e + 1 := by
  obtain ⟨r, hr, hends⟩ := hj
  have hatt : (Link.isl r).Attached e := by
    rcases hends with ⟨h₁, -⟩ | ⟨-, h₂⟩
    · exact Or.inl h₁
    · exact Or.inr (congrArg some h₂)
  obtain ⟨m, hm⟩ := Option.isSome_iff_exists.mp (h.growing.found e (h.visited e he) r hr hatt)
  have hnd := T.no_loop r hr
  have hfar : (m = e ∧ (Link.isl r).far m = d) ∨ (m = d ∧ (Link.isl r).far m = e) := by
    have habove : m = (r.val.dpId : Int) ∨ m = (r.val.remId : Int) := h.growing.above _ _ hm
    dsimp only [Link.far]
    rcases habove with rfl | rfl <;> rcases hends with ⟨rfl, rfl⟩ | ⟨rfl, rfl⟩ <;> simp [hnd, hnd.symm]
  rcases hfar with ⟨rfl, hfar⟩ | ⟨rfl, hfar⟩
  · have := hs.first d k hk (.isl r) e hr hm hfar
    rwa [Plan.rank_nat hm] at this
  · have hlt := hs.later r d hr hm (by rw [hfar]; exact h.visited e he)
    rw [hfar] at hlt
    rcases up_root_or_ascends h hk with ⟨q, rfl, -, -⟩ | ⟨q, x, rfl, -, hx, -⟩
    · rw [Plan.rank_dp0 (h.growing.par_fp q)]
      exact Nat.zero_le _
    · obtain ⟨hrank, hxd⟩ := rank_ascends h hs hk hx
      omega

theorem search_breadthFirst : BreadthFirst T.Root T.Reachable T.Joined num where
  inj d e hd he := hs.inj d e (h.visited d hd) (h.visited e he)
  reached d hd := by
    obtain ⟨k, hk⟩ := exists_up h hd
    rcases up_root_or_ascends h hk with ⟨r, -, hr, hd⟩ | ⟨r, e, rfl, -, hp, he, hj, -⟩
    · exact Or.inl ⟨r, hr, hd⟩
    · exact Or.inr ⟨e, he, hj, (rank_ascends h hs hk hp).2⟩
  roots_first d e hd he hlt hroot := by
    obtain ⟨k, hk⟩ := exists_up h hd
    obtain ⟨c, hc⟩ := exists_up h he
    have hle := hs.ordered d e k c hk hc hlt
    rw [rank_root h hs hc hroot] at hle
    rcases up_root_or_ascends h hk with ⟨r, -, hr, hd⟩ | ⟨r, x, rfl, -, hp, -⟩
    · exact ⟨r, hr, hd⟩
    · rw [(rank_ascends h hs hk hp).1] at hle
      omega
  in_turn d e hd he hlt hroot w hw hj := by
    obtain ⟨k, hk⟩ := exists_up h hd
    obtain ⟨c, hc⟩ := exists_up h he
    have hle := (hs.ordered d e k c hk hc hlt).trans (rank_le_joined h hs hc hw hj)
    rcases up_root_or_ascends h hk with ⟨r, -, hr, hd⟩ | ⟨r, x, rfl, -, hp, hx, hjx, -⟩
    · exact absurd ⟨r, hr, hd⟩ hroot
    · rw [(rank_ascends h hs hk hp).1] at hle
      exact ⟨x, hx, hjx, Nat.le_of_succ_le_succ hle⟩

theorem parent_of_ascends {d e : Nat} (ha : pl.Ascends d e) : Parent T.Root T.Reachable T.Joined num d e := by
  obtain ⟨r, hk, hp⟩ := ha
  have hrank := (rank_ascends h hs hk hp).1
  rcases up_root_or_ascends h hk with ⟨q, hq, -, -⟩ | ⟨q, x, hq, -, hx, hseen, hj, -⟩
  · cases hq
  · obtain rfl := Link.isl.inj hq
    obtain rfl : x = e := Nat.cast_inj.mp (Option.some.inj (hx.symm.trans hp))
    refine ⟨fun hroot => ?_, hseen, hj, fun w hw hjw => ?_⟩
    · rw [rank_root h hs hk hroot] at hrank
      omega
    · have := rank_le_joined h hs hk hw hjw
      omega

theorem ascends_iff_parent {d e : Nat} (hd : T.Reachable d) :
    pl.Ascends d e ↔ Parent T.Root T.Reachable T.Joined num d e := by
  refine ⟨parent_of_ascends h hs, fun hp => ?_⟩
  obtain ⟨k, hk⟩ := exists_up h hd
  rcases up_root_or_ascends h hk with ⟨r, -, hr, hd⟩ | ⟨r, x, rfl, -, hx, -⟩
  · exact absurd ⟨r, hr, hd⟩ hp.1
  · have hax : pl.Ascends d x := ⟨r, hk, hx⟩
    rwa [(search_breadthFirst h hs).parent_unique hp (parent_of_ascends h hs hax)]

/-! ## Levels are distances -/

theorem lvl_root {d : Nat} (hd : T.Reachable d) (hroot : T.Root d) : pl.lvl d = 0 := by
  obtain ⟨k, hk⟩ := exists_up h hd
  rcases up_root_or_ascends h hk with ⟨r, rfl, -, -⟩ | ⟨r, e, rfl, -, hp, -⟩
  · exact hs.lvl_fp d r hk
  · have := rank_root h hs hk hroot
    rw [(rank_ascends h hs hk hp).1] at this
    omega

theorem lvl_parent {d e : Nat} (hd : T.Reachable d) (hp : Parent T.Root T.Reachable T.Joined num d e) :
    pl.lvl d = pl.lvl e + 1 := by
  obtain ⟨r, hk, hpar⟩ := (ascends_iff_parent h hs hd).mpr hp
  exact h.growing.up_lvl d r e hk hpar

theorem lvl_joined {d e : Nat} (hd : T.Reachable d) (hj : T.Joined d e) : pl.lvl e ≤ pl.lvl d + 1 :=
  (search_breadthFirst h hs).depth_adj (fun _ => lvl_root h hs)
    (fun _ _ => lvl_parent h hs) hd (hj.reachable hd) hj

theorem lvl_lt_path {d : Nat} {ks : List Link} (hp : T.Path d ks) : pl.lvl d < ks.length := by
  induction hp with
  | @fp r hr =>
    rw [lvl_root h hs (.fp hr) ⟨r, hr, rfl⟩]
    exact Nat.zero_lt_one
  | @rem r ks hr hp ih =>
    have hstep := lvl_joined h hs hp.reachable ⟨r, hr, Or.inl ⟨rfl, rfl⟩⟩
    rw [List.length_cons]
    omega
  | @near r ks hr hp ih =>
    have hstep := lvl_joined h hs hp.reachable ⟨r, hr, Or.inr ⟨rfl, rfl⟩⟩
    rw [List.length_cons]
    omega

theorem tree_path {d : Nat} (hd : T.Reachable d) : ∃ ks, T.Path d ks ∧ ks.length = pl.lvl d + 1 ∧
    ∀ k, k ∈ ks ↔ ∃ e, ReflTransGen pl.Ascends d e ∧ pl.up e = some k := by
  induction hn : pl.lvl d using Nat.strong_induction_on generalizing d with
  | _ n ih =>
    obtain ⟨k, hk⟩ := exists_up h hd
    rcases up_root_or_ascends h hk with ⟨r, rfl, hr, rfl⟩ | ⟨r, e, rfl, hr, hp, he, -, hfar⟩
    · refine ⟨[.fp r], .fp hr, by rw [← hn, hs.lvl_fp _ r hk]; rfl, fun c => ?_⟩
      rw [List.mem_singleton]
      constructor
      · rintro rfl
        exact ⟨_, .refl, hk⟩
      · rintro ⟨x, ha, hc⟩
        rcases ReflTransGen.cases_head ha with rfl | ⟨y, ⟨i, hi, -⟩, -⟩
        · exact Option.some.inj (hc.symm.trans hk)
        · rw [hk] at hi
          cases hi
    · have hlvl := h.growing.up_lvl d r e hk hp
      obtain ⟨ks, hpath, hlen, hmem⟩ := ih (pl.lvl e) (by omega) he rfl
      refine ⟨.isl r :: ks, hfar ▸ hpath.far hr (h.growing.above _ _ hp),
        by rw [List.length_cons]; omega, fun c => ?_⟩
      rw [List.mem_cons, hmem]
      constructor
      · rintro (rfl | ⟨x, ha, hc⟩)
        · exact ⟨d, .refl, hk⟩
        · exact ⟨x, .head ⟨r, hk, hp⟩ ha, hc⟩
      · rintro ⟨x, ha, hc⟩
        rcases ReflTransGen.cases_head ha with rfl | ⟨y, hy, ha⟩
        · exact Or.inl (Option.some.inj (hc.symm.trans hk))
        · obtain rfl : y = e := ascends_unique pl hy ⟨r, hk, hp⟩
          exact Or.inr ⟨x, ha, hc⟩

omit hs in
/-- A port is below the links on the way up from its switch. -/
theorem beneath_iff {k : Link} {p : Row RFConfigEntry} (hp : p ∈ T.conf.rows) :
    Beneath T pl.par pl.up k p ↔ ∃ e, ReflTransGen pl.Ascends p.val.dpId e ∧ pl.up e = some k := by
  constructor
  · intro hb
    obtain ⟨m, hm, hu⟩ := hb.up
    exact ⟨_, hb.ascends hm, hu⟩
  · rintro ⟨e, ha, hk⟩
    induction ha generalizing k with
    | refl =>
      obtain ⟨-, -, m, hm, -, hfar⟩ := h.growing.up_link _ k hk
      exact .own hm (by rw [hfar, hk]) hp hfar.symm
    | tail _ hstep ih =>
      obtain ⟨r, hu, hpar⟩ := hstep
      obtain ⟨-, -, m, hm, -, hfar⟩ := h.growing.up_link _ k hk
      exact .via hm (by rw [hfar, hk]) (h.growing.up_link _ _ hu).1 (by rw [hfar, hpar]) (ih hu)

end Tree

end RouteFlow
