import RouteFlow.Labels

/-!
# The tree of the label allocation

Each switch is reached over one link first, and these links form a tree with dp0 on top. The invariant
of the allocation is about this tree, about the links that wait for their round, and about the labels.
-/

namespace RouteFlow

open Store

/-- A fast path link ends at the switch, or an ISL leads there from a switch that is reachable. -/
inductive Wiring.Reachable (T : Wiring) : Nat → Prop
  | fp {r : Row RFFPConfEntry} : r ∈ T.fpconf.rows → T.Reachable r.val.dpId
  | rem {r : Row RFISLConfEntry} : r ∈ T.islconf.rows → T.Reachable r.val.dpId → T.Reachable r.val.remId
  | near {r : Row RFISLConfEntry} : r ∈ T.islconf.rows → T.Reachable r.val.remId → T.Reachable r.val.dpId

/-- No line has a port of the switch. -/
def Wiring.Portless (T : Wiring) (d : Nat) : Prop := ∀ p ∈ T.conf.rows, p.val.dpId ≠ d

/-- The allocation between two rounds. `pend` are the links that wait. -/
structure Growing (T : Wiring) (pl : Plan) (pend : List Link) : Prop where
  room : T.Room pl
  lab_iff : ∀ p ∈ T.conf.rows, ((pl.lab p).isSome ↔ (pl.up p.val.dpId).isSome)
  lab_lt : ∀ p l, pl.lab p = some l → l < pl.label
  lab_inj : ∀ p q l, pl.lab p = some l → pl.lab q = some l → p = q
  paths_iff : ∀ k, (pl.paths k).isSome ↔ (pl.par k).isSome
  above : ∀ k m, pl.par k = some m → k.Above m
  par_fp : ∀ r, pl.par (.fp r) = some (-1)
  par_isl : ∀ r m, pl.par (.isl r) = some m → ∃ d : Nat, m = d ∧ (pl.up d).isSome
  up_link : ∀ d k, pl.up d = some k →
    T.Has k ∧ k ∉ pend ∧ ∃ m, pl.par k = some m ∧ pl.master k = some m ∧ k.far m = d
  up_lvl : ∀ d r (m : Nat), pl.up d = some (.isl r) → pl.par (.isl r) = some (m : Int) →
    pl.lvl d = pl.lvl m + 1
  found : ∀ d, (pl.up d).isSome → ∀ r ∈ T.islconf.rows, (Link.isl r).Attached d → (pl.par (.isl r)).isSome
  done : ∀ k m, T.Has k → pl.par k = some m → k ∉ pend → (pl.up (k.far m)).isSome
  master : ∀ k m, pl.master k = some m →
    k ∉ pend ∧ pl.par k = some m ∧ (pl.up (k.far m) = some k ∨ T.Portless (k.far m))
  pending : ∀ k ∈ pend, T.Has k ∧ (pl.par k).isSome ∧ pl.paths k = some []
  nodup : pend.Nodup
  reachable : ∀ d, (pl.up d).isSome → T.Reachable d

/-- What is written stays. Of the links that were found before, only `ks` change. -/
structure Plan.Grows (pl pl' : Plan) (ks : List Link) : Prop where
  lab : ∀ p l, pl.lab p = some l → pl'.lab p = some l
  par : ∀ k m, pl.par k = some m → pl'.par k = some m
  up : ∀ d k, pl.up d = some k → pl'.up d = some k
  link : ∀ k, (pl.par k).isSome → k ∉ ks → pl'.paths k = pl.paths k ∧ pl'.master k = pl.master k

namespace Plan.Grows

variable {a b c : Plan} {ks ls : List Link}

theorem refl (pl : Plan) : pl.Grows pl [] :=
  ⟨fun _ _ h => h, fun _ _ h => h, fun _ _ h => h, fun _ _ _ => ⟨rfl, rfl⟩⟩

theorem par_isSome (h : a.Grows b ks) {k : Link} (hk : (a.par k).isSome) : (b.par k).isSome := by
  obtain ⟨m, hm⟩ := Option.isSome_iff_exists.mp hk
  exact Option.isSome_iff_exists.mpr ⟨m, h.par k m hm⟩

theorem up_isSome (h : a.Grows b ks) {d : Nat} (hd : (a.up d).isSome) : (b.up d).isSome := by
  obtain ⟨k, hk⟩ := Option.isSome_iff_exists.mp hd
  exact Option.isSome_iff_exists.mpr ⟨k, h.up d k hk⟩

theorem up_iff (h : a.Grows b ks) {d : Nat} (hd : (a.up d).isSome) (k : Link) :
    b.up d = some k ↔ a.up d = some k := by
  obtain ⟨c, hc⟩ := Option.isSome_iff_exists.mp hd
  rw [h.up d c hc, hc]

theorem lab_iff (h : a.Grows b ks) {p : Row RFConfigEntry} (hp : (a.lab p).isSome) (l : Nat) :
    b.lab p = some l ↔ a.lab p = some l := by
  obtain ⟨n, hn⟩ := Option.isSome_iff_exists.mp hp
  rw [h.lab p n hn, hn]

theorem trans (h : a.Grows b ks) (h' : b.Grows c ls) (hls : ∀ k ∈ ls, a.par k = none ∨ k ∈ ks) :
    a.Grows c ks where
  lab p l e := h'.lab p l (h.lab p l e)
  par k m e := h'.par k m (h.par k m e)
  up d k e := h'.up d k (h.up d k e)
  link k e hk := by
    have hk' : k ∉ ls := by
      intro hm
      rcases hls k hm with hn | hn
      · simp [hn] at e
      · exact hk hn
    obtain ⟨h₁, h₂⟩ := h.link k e hk
    obtain ⟨h₃, h₄⟩ := h'.link k (h.par_isSome e) hk'
    exact ⟨h₃.trans h₁, h₄.trans h₂⟩

theorem mono (h : a.Grows b ks) (hs : ks ⊆ ls) : a.Grows b ls :=
  ⟨h.lab, h.par, h.up, fun k e hk => h.link k e fun hm => hk (hs hm)⟩

theorem item_eq {T : Wiring} (h : a.Grows b ks) {j : Job} (hj : (a.par j.link).isSome) (hk : j.link ∉ ks) :
    T.item b j = T.item a j := by
  obtain ⟨k, m⟩ := j
  obtain ⟨h₁, h₂⟩ := h.link k hj hk
  cases k <;> simp [Wiring.item, Plan.link, Plan.fpVal, Plan.islRow, Plan.islVal, h₁, h₂]

end Plan.Grows

/-! ## The start -/

theorem growing_init (T : Wiring) (fps : List (Row RFFPConfEntry)) (hn : fps.Nodup)
    (hm : ∀ r, r ∈ fps ↔ r ∈ T.fpconf.rows) : Growing T .init (fps.map Link.fp) where
  room ps hps hmem := by
    have hsub : ps.Subperm T.conf.rows := hps.subperm fun p hp => (hmem p hp).1
    exact Nat.add_le_add_left hsub.length_le _
  lab_iff p _ := by simp [Plan.init]
  lab_lt p l h := by simp [Plan.init] at h
  lab_inj p q l h := by simp [Plan.init] at h
  paths_iff k := by cases k <;> simp [Plan.init]
  above k m h := by
    cases k with
    | fp r => simpa [Plan.init, Link.Above, eq_comm] using h
    | isl r => simp [Plan.init] at h
  par_fp r := rfl
  par_isl r m h := by simp [Plan.init] at h
  up_link d k h := by simp [Plan.init] at h
  up_lvl d r m h := by simp [Plan.init] at h
  found d h := by simp [Plan.init] at h
  done k m hk h hp := by
    cases k with
    | fp r => exact absurd (List.mem_map_of_mem ((hm r).mpr hk)) hp
    | isl r => simp [Plan.init] at h
  master k m h := by simp [Plan.init] at h
  pending k hk := by
    obtain ⟨r, hr, rfl⟩ := List.mem_map.mp hk
    exact ⟨(hm r).mp hr, rfl, rfl⟩
  nodup := hn.map fun a b h => Link.fp.inj h
  reachable d h := by simp [Plan.init] at h

/-! ## A round that goes through -/

namespace Plan

variable (pl : Plan) (j : Job) (ps : List (Row RFConfigEntry)) (fs : List (Row RFISLConfEntry))

theorem settle_lab (p : Row RFConfigEntry) :
    (pl.settle j ps fs).lab p = if p ∈ ps then some (pl.label + ps.idxOf p) else pl.lab p := rfl

theorem settle_par (k : Link) :
    (pl.settle j ps fs).par k = if k ∈ fs.map Link.isl then some (j.far : Int) else pl.par k := rfl

theorem settle_paths (k : Link) : (pl.settle j ps fs).paths k =
    if k ∈ fs.map Link.isl then some [] else
      Function.update pl.paths j.link (some (pl.carried j.link ++ pl.entries ps)) k := rfl

theorem mem_entries (p : Row RFConfigEntry) (hp : p ∈ ps) (l : Nat) :
    (pl.settle j ps fs).lab p = some l → (l, p.val.vmPort) ∈ pl.entries ps := by
  intro h
  rw [settle_lab, if_pos hp, Option.some.injEq] at h
  exact List.mem_map.mpr ⟨p, hp, by rw [h]⟩

theorem of_mem_entries {l vm : Nat} (h : (l, vm) ∈ pl.entries ps) :
    ∃ p ∈ ps, (pl.settle j ps fs).lab p = some l ∧ p.val.vmPort = vm := by
  obtain ⟨p, hp, he⟩ := List.mem_map.mp h
  rw [Prod.mk.injEq] at he
  exact ⟨p, hp, by rw [settle_lab, if_pos hp, he.1], he.2⟩

end Plan

theorem Wiring.reachable_far {T : Wiring} {k : Link} {m : Int} (hk : T.Has k) (ha : k.Above m)
    (hm : ∀ d : Nat, m = d → T.Reachable d) : T.Reachable (k.far m) := by
  cases k with
  | fp r => exact .fp hk
  | isl r =>
    dsimp only [Link.far]
    split
    · rename_i h
      exact .rem hk (hm _ h)
    · rename_i h
      rcases ha with ha | ha
      · exact absurd ha h
      · exact .near hk (hm _ ha)

section Round

variable {T : Wiring} {pl : Plan} {j : Job} {rest : List Link} {ps : List (Row RFConfigEntry)}
  {rs : List (Row RFISLConfEntry)} (h : Growing T pl (j.link :: rest)) (hpar : pl.par j.link = some j.parent)

include h in
theorem mem_unfound (hrm : ∀ r, r ∈ rs ↔ r ∈ T.islconf.rows ∧ (Link.isl r).Attached j.far)
    (r : Row RFISLConfEntry) :
    r ∈ pl.unfound rs ↔ r ∈ T.islconf.rows ∧ (Link.isl r).Attached j.far ∧ pl.par (.isl r) = none := by
  have hiff := h.paths_iff (.isl r)
  rw [Plan.unfound, List.mem_filter, hrm, and_assoc]
  refine and_congr_right fun _ => and_congr_right fun _ => ?_
  rw [Option.isNone_iff_eq_none, ← Option.not_isSome_iff_eq_none, ← Option.not_isSome_iff_eq_none, hiff]

include h in
theorem notMem_unfound (hrm : ∀ r, r ∈ rs ↔ r ∈ T.islconf.rows ∧ (Link.isl r).Attached j.far) {k : Link}
    {m : Int} (hk : pl.par k = some m) : k ∉ (pl.unfound rs).map Link.isl := by
  intro hm
  obtain ⟨r, hr, rfl⟩ := List.mem_map.mp hm
  rw [((mem_unfound h hrm r).mp hr).2.2] at hk
  exact absurd hk (by simp)

/-- The plan after a round that goes through. -/
def Plan.afterRound (pl : Plan) (j : Job) (ps : List (Row RFConfigEntry))
    (rs : List (Row RFISLConfEntry)) : Plan :=
  (pl.settle j ps (pl.unfound rs)).reach j

namespace Plan

theorem afterRound_lab (p : Row RFConfigEntry) :
    (pl.afterRound j ps rs).lab p = if p ∈ ps then some (pl.label + ps.idxOf p) else pl.lab p := rfl

theorem afterRound_par (k : Link) : (pl.afterRound j ps rs).par k =
    if k ∈ (pl.unfound rs).map Link.isl then some (j.far : Int) else pl.par k := rfl

theorem afterRound_paths (k : Link) : (pl.afterRound j ps rs).paths k =
    if k ∈ (pl.unfound rs).map Link.isl then some [] else
      Function.update pl.paths j.link (some (pl.carried j.link ++ pl.entries ps)) k := rfl

theorem afterRound_master (k : Link) :
    (pl.afterRound j ps rs).master k = Function.update pl.master j.link (some j.parent) k := rfl

theorem afterRound_lvl : (pl.afterRound j ps rs).lvl =
    Function.update pl.lvl j.far (if j.parent = -1 then 0 else pl.lvl j.parent.toNat + 1) := rfl

theorem afterRound_up_self : (pl.afterRound j ps rs).up j.far = some j.link := Function.update_self ..

theorem afterRound_up_of_ne {d : Nat} (hd : d ≠ j.far) : (pl.afterRound j ps rs).up d = pl.up d :=
  Function.update_of_ne hd _ _

theorem afterRound_up_mono {d : Nat} (hd : (pl.up d).isSome) : ((pl.afterRound j ps rs).up d).isSome := by
  by_cases he : d = j.far
  · rw [he, afterRound_up_self]
    rfl
  · rw [afterRound_up_of_ne he]
    exact hd

end Plan

namespace Growing

open Plan

section Labels

variable (hnew : pl.up j.far = none) (hpm : ∀ p, p ∈ ps ↔ p ∈ T.conf.rows ∧ p.val.dpId = j.far)

include h hnew hpm in
theorem unlabelled {p : Row RFConfigEntry} (hp : p ∈ ps) : pl.lab p = none := by
  have hiff := h.lab_iff p ((hpm p).mp hp).1
  rw [((hpm p).mp hp).2, hnew] at hiff
  simpa using hiff

include h hnew hpm in
theorem room_afterRound (hpn : ps.Nodup) : T.Room (pl.afterRound j ps rs) := by
  intro qs hqn hq
  have hq' : ∀ q ∈ qs, q ∈ T.conf.rows ∧ q ∉ ps ∧ pl.lab q = none := by
    intro q hqm
    obtain ⟨hc, hl⟩ := hq q hqm
    rw [afterRound_lab] at hl
    split at hl
    · exact absurd hl (by simp)
    · rename_i hnot
      exact ⟨hc, hnot, hl⟩
  have hboth : (ps ++ qs).Nodup :=
    List.nodup_append.mpr ⟨hpn, hqn, fun a ha b hb e => (hq' b hb).2.1 (e ▸ ha)⟩
  have hroom := h.room (ps ++ qs) hboth fun p hp => by
    rcases List.mem_append.mp hp with hp | hp
    · exact ⟨((hpm p).mp hp).1, unlabelled h hnew hpm hp⟩
    · exact ⟨(hq' p hp).1, (hq' p hp).2.2⟩
  rw [List.length_append, ← Nat.add_assoc] at hroom
  exact hroom

include h hpm in
theorem lab_iff_afterRound {p : Row RFConfigEntry} (hp : p ∈ T.conf.rows) :
    ((pl.afterRound j ps rs).lab p).isSome ↔ ((pl.afterRound j ps rs).up p.val.dpId).isSome := by
  rw [afterRound_lab]
  by_cases hd : p.val.dpId = j.far
  · rw [if_pos ((hpm p).mpr ⟨hp, hd⟩), hd, afterRound_up_self]
    simp
  · rw [if_neg fun hm => hd ((hpm p).mp hm).2, afterRound_up_of_ne hd]
    exact h.lab_iff p hp

include h in
theorem lab_lt_afterRound {p : Row RFConfigEntry} {l : Nat} (hl : (pl.afterRound j ps rs).lab p = some l) :
    l < (pl.afterRound j ps rs).label := by
  have hlabel : (pl.afterRound j ps rs).label = pl.label + ps.length := rfl
  rw [afterRound_lab] at hl
  rw [hlabel]
  split at hl
  · rename_i hp
    have := List.idxOf_lt_length_of_mem hp
    rw [Option.some.injEq] at hl
    omega
  · have := h.lab_lt p l hl
    omega

include h in
theorem lab_inj_afterRound {p q : Row RFConfigEntry} {l : Nat} (hp : (pl.afterRound j ps rs).lab p = some l)
    (hq : (pl.afterRound j ps rs).lab q = some l) : p = q := by
  rw [afterRound_lab] at hp hq
  split at hp <;> split at hq
  · rename_i hmp hmq
    rw [Option.some.injEq] at hp hq
    exact (List.idxOf_inj hmp).mp (by omega)
  · have := h.lab_lt q l hq
    rw [Option.some.injEq] at hp
    omega
  · have := h.lab_lt p l hp
    rw [Option.some.injEq] at hq
    omega
  · exact h.lab_inj p q l hp hq

end Labels

section Links

variable (hrm : ∀ r, r ∈ rs ↔ r ∈ T.islconf.rows ∧ (Link.isl r).Attached j.far)

include h hrm in
theorem par_afterRound {k : Link} {m : Int} (hk : pl.par k = some m) :
    (pl.afterRound j ps rs).par k = some m := by
  rw [afterRound_par, if_neg (notMem_unfound h hrm hk), hk]

include h hrm in
theorem notMem_afterRound {k : Link} {m : Int} (hk : k ∉ rest) (hm : pl.par k = some m) :
    k ∉ rest ++ (pl.unfound rs).map Link.isl := by
  rw [List.mem_append, not_or]
  exact ⟨hk, notMem_unfound h hrm hm⟩

include h hpar in
theorem paths_iff_afterRound (k : Link) :
    ((pl.afterRound j ps rs).paths k).isSome ↔ ((pl.afterRound j ps rs).par k).isSome := by
  rw [afterRound_paths, afterRound_par]
  split
  · simp
  · by_cases hk : k = j.link
    · rw [hk, Function.update_self, hpar]
      simp
    · rw [Function.update_of_ne hk]
      exact h.paths_iff k

include h hrm in
theorem above_afterRound {k : Link} {m : Int} (hk : (pl.afterRound j ps rs).par k = some m) : k.Above m := by
  rw [afterRound_par] at hk
  split at hk
  · rename_i hm
    obtain ⟨r, hr, rfl⟩ := List.mem_map.mp hm
    obtain ⟨-, ha, -⟩ := (mem_unfound h hrm r).mp hr
    obtain rfl : (j.far : Int) = m := Option.some.inj hk
    rcases ha with ha | ha
    · exact Or.inl (congrArg Nat.cast ha.symm)
    · exact Or.inr (congrArg Nat.cast (Option.some.inj ha).symm)
  · exact h.above k m hk

include h in
theorem par_isl_afterRound {r : Row RFISLConfEntry} {m : Int}
    (hk : (pl.afterRound j ps rs).par (.isl r) = some m) :
    ∃ d : Nat, m = d ∧ ((pl.afterRound j ps rs).up d).isSome := by
  rw [afterRound_par] at hk
  split at hk
  · refine ⟨j.far, (Option.some.inj hk).symm, ?_⟩
    rw [afterRound_up_self]
    rfl
  · obtain ⟨d, hd, hv⟩ := h.par_isl r m hk
    exact ⟨d, hd, afterRound_up_mono hv⟩

include h hrm in
theorem found_afterRound {d : Nat} (hv : ((pl.afterRound j ps rs).up d).isSome) {r : Row RFISLConfEntry}
    (hr : r ∈ T.islconf.rows) (ha : (Link.isl r).Attached d) :
    ((pl.afterRound j ps rs).par (.isl r)).isSome := by
  rw [afterRound_par]
  split
  · rfl
  · rename_i hnot
    by_cases hd : d = j.far
    · subst hd
      by_contra hno
      rw [Option.not_isSome_iff_eq_none] at hno
      exact hnot (List.mem_map_of_mem ((mem_unfound h hrm r).mpr ⟨hr, ha, hno⟩))
    · rw [afterRound_up_of_ne hd] at hv
      exact h.found d hv r hr ha

include h hrm in
theorem pending_afterRound {k : Link} (hk : k ∈ rest ++ (pl.unfound rs).map Link.isl) :
    T.Has k ∧ ((pl.afterRound j ps rs).par k).isSome ∧ (pl.afterRound j ps rs).paths k = some [] := by
  rw [afterRound_paths, afterRound_par]
  rcases List.mem_append.mp hk with hk | hk
  · obtain ⟨hh, hc, he⟩ := h.pending k (List.mem_cons_of_mem _ hk)
    obtain ⟨m, hm⟩ := Option.isSome_iff_exists.mp hc
    have hnot := notMem_unfound h hrm hm
    have hne : k ≠ j.link := fun e => (List.nodup_cons.mp h.nodup).1 (e ▸ hk)
    rw [if_neg hnot, if_neg hnot, Function.update_of_ne hne]
    exact ⟨hh, hc, he⟩
  · rw [if_pos hk, if_pos hk]
    obtain ⟨r, hr, rfl⟩ := List.mem_map.mp hk
    exact ⟨((mem_unfound h hrm r).mp hr).1, rfl, rfl⟩

include h hrm in
theorem nodup_afterRound (hrn : rs.Nodup) : (rest ++ (pl.unfound rs).map Link.isl).Nodup := by
  rw [List.nodup_append]
  refine ⟨(List.nodup_cons.mp h.nodup).2, (hrn.filter _).map fun a b e => Link.isl.inj e, ?_⟩
  rintro a ha b hb rfl
  obtain ⟨m, hm⟩ := Option.isSome_iff_exists.mp (h.pending a (List.mem_cons_of_mem _ ha)).2.1
  exact notMem_unfound h hrm hm hb

include h hpar hrm in
theorem up_link_afterRound {d : Nat} {k : Link} (hk : (pl.afterRound j ps rs).up d = some k) :
    T.Has k ∧ k ∉ rest ++ (pl.unfound rs).map Link.isl ∧ ∃ m, (pl.afterRound j ps rs).par k = some m ∧
      (pl.afterRound j ps rs).master k = some m ∧ k.far m = d := by
  by_cases hd : d = j.far
  · rw [hd, afterRound_up_self, Option.some.injEq] at hk
    subst hk
    refine ⟨(h.pending _ List.mem_cons_self).1, notMem_afterRound h hrm (List.nodup_cons.mp h.nodup).1 hpar,
      j.parent, par_afterRound h hrm hpar, ?_, hd.symm⟩
    rw [afterRound_master, Function.update_self]
  · rw [afterRound_up_of_ne hd] at hk
    obtain ⟨hk', hp, m, hm, hma, hfar⟩ := h.up_link d k hk
    rw [List.mem_cons, not_or] at hp
    refine ⟨hk', notMem_afterRound h hrm hp.2 hm, m, par_afterRound h hrm hm, ?_, hfar⟩
    rw [afterRound_master, Function.update_of_ne hp.1, hma]

include h hpar in
theorem done_afterRound {k : Link} {m : Int} (hk : T.Has k) (hm : (pl.afterRound j ps rs).par k = some m)
    (hp : k ∉ rest ++ (pl.unfound rs).map Link.isl) : ((pl.afterRound j ps rs).up (k.far m)).isSome := by
  rw [List.mem_append, not_or] at hp
  rw [afterRound_par, if_neg hp.2] at hm
  by_cases hkj : k = j.link
  · rw [hkj, hpar, Option.some.injEq] at hm
    rw [hkj, ← hm, show j.link.far j.parent = j.far from rfl, afterRound_up_self]
    rfl
  · refine afterRound_up_mono (h.done k m hk hm ?_)
    rw [List.mem_cons, not_or]
    exact ⟨hkj, hp.1⟩

end Links

section Tree

variable (hnew : pl.up j.far = none) (hrm : ∀ r, r ∈ rs ↔ r ∈ T.islconf.rows ∧ (Link.isl r).Attached j.far)

include hnew in
theorem ne_of_reached {d : Nat} (hd : (pl.up d).isSome) : d ≠ j.far := by
  rintro rfl
  simp [hnew] at hd

include h hpar hnew hrm in
theorem up_lvl_afterRound {d m : Nat} {r : Row RFISLConfEntry}
    (hk : (pl.afterRound j ps rs).up d = some (.isl r))
    (hm : (pl.afterRound j ps rs).par (.isl r) = some (m : Int)) :
    (pl.afterRound j ps rs).lvl d = (pl.afterRound j ps rs).lvl m + 1 := by
  -- The parent was reached before, so it keeps its level.
  have hkeep : ∀ {r' : Row RFISLConfEntry} {m : Nat}, pl.par (.isl r') = some (m : Int) → m ≠ j.far := by
    intro r' m hm
    obtain ⟨e, he, hv⟩ := h.par_isl r' m hm
    rw [Nat.cast_inj] at he
    exact he ▸ ne_of_reached hnew hv
  by_cases hd : d = j.far
  · rw [hd, afterRound_up_self, Option.some.injEq] at hk
    rw [← hk, par_afterRound h hrm hpar, Option.some.injEq] at hm
    have hne : m ≠ j.far := @hkeep r m (by rw [← hk, hpar, hm])
    rw [afterRound_lvl, hd, Function.update_self, Function.update_of_ne hne, hm, if_neg (by omega),
      Int.toNat_natCast]
  · rw [afterRound_up_of_ne hd] at hk
    obtain ⟨-, -, m', hm', -⟩ := h.up_link d _ hk
    rw [afterRound_par, if_neg (notMem_unfound h hrm hm')] at hm
    rw [afterRound_lvl, Function.update_of_ne hd, Function.update_of_ne (hkeep hm)]
    exact h.up_lvl d r m hk hm

include h hpar hnew hrm in
theorem master_afterRound {k : Link} {m : Int} (hk : (pl.afterRound j ps rs).master k = some m) :
    k ∉ rest ++ (pl.unfound rs).map Link.isl ∧ (pl.afterRound j ps rs).par k = some m ∧
      ((pl.afterRound j ps rs).up (k.far m) = some k ∨ T.Portless (k.far m)) := by
  rw [afterRound_master] at hk
  by_cases hkj : k = j.link
  · rw [hkj, Function.update_self, Option.some.injEq] at hk
    rw [hkj, ← hk]
    exact ⟨notMem_afterRound h hrm (List.nodup_cons.mp h.nodup).1 hpar, par_afterRound h hrm hpar,
      Or.inl afterRound_up_self⟩
  · rw [Function.update_of_ne hkj] at hk
    obtain ⟨hp, hm, hor⟩ := h.master k m hk
    rw [List.mem_cons, not_or] at hp
    refine ⟨notMem_afterRound h hrm hp.2 hm, par_afterRound h hrm hm, hor.imp_left fun hu => ?_⟩
    rw [afterRound_up_of_ne (ne_of_reached hnew (by rw [hu]; rfl)), hu]

include h hpar in
theorem reachable_afterRound {d : Nat} (hd : ((pl.afterRound j ps rs).up d).isSome) : T.Reachable d := by
  by_cases he : d = j.far
  · rw [he]
    refine Wiring.reachable_far (h.pending _ List.mem_cons_self).1 (h.above _ _ hpar) fun e hm => ?_
    obtain ⟨k, m⟩ := j
    cases k with
    | fp r => exact absurd ((Option.some.inj ((h.par_fp r).symm.trans hpar)).trans hm) (by omega)
    | isl r =>
      obtain ⟨e', he', hv⟩ := h.par_isl r m hpar
      obtain rfl : e' = e := Nat.cast_inj.mp (he'.symm.trans hm)
      exact h.reachable _ hv
  · rw [afterRound_up_of_ne he] at hd
    exact h.reachable d hd

end Tree

end Growing

include h hpar in
theorem Growing.settle (hnew : pl.up j.far = none) (hpn : ps.Nodup)
    (hpm : ∀ p, p ∈ ps ↔ p ∈ T.conf.rows ∧ p.val.dpId = j.far) (hrn : rs.Nodup)
    (hrm : ∀ r, r ∈ rs ↔ r ∈ T.islconf.rows ∧ (Link.isl r).Attached j.far) :
    Growing T ((pl.settle j ps (pl.unfound rs)).reach j) (rest ++ (pl.unfound rs).map Link.isl) where
  room := room_afterRound h hnew hpm hpn
  lab_iff _ hp := lab_iff_afterRound h hpm hp
  lab_lt _ _ hl := lab_lt_afterRound h hl
  lab_inj _ _ _ hp hq := lab_inj_afterRound h hp hq
  paths_iff k := paths_iff_afterRound h hpar k
  above _ _ hk := above_afterRound h hrm hk
  par_fp r := par_afterRound h hrm (h.par_fp r)
  par_isl _ _ hk := par_isl_afterRound h hk
  up_link _ _ hk := up_link_afterRound h hpar hrm hk
  up_lvl _ _ _ hk hm := up_lvl_afterRound h hpar hnew hrm hk hm
  found _ hv _ hr ha := found_afterRound h hrm hv hr ha
  done _ _ hk hm hp := done_afterRound h hpar hk hm hp
  master _ _ hk := master_afterRound h hpar hnew hrm hk
  pending _ hk := pending_afterRound h hrm hk
  nodup := nodup_afterRound h hrm hrn
  reachable _ hd := reachable_afterRound h hpar hd

include h hpar in
theorem Growing.skip (hold : (pl.up j.far).isSome) : Growing T pl rest where
  room := h.room
  lab_iff := h.lab_iff
  lab_lt := h.lab_lt
  lab_inj := h.lab_inj
  paths_iff := h.paths_iff
  above := h.above
  par_fp := h.par_fp
  par_isl := h.par_isl
  up_lvl := h.up_lvl
  found := h.found
  reachable := h.reachable
  nodup := (List.nodup_cons.mp h.nodup).2
  up_link d k hk := by
    obtain ⟨hk', hp, hm⟩ := h.up_link d k hk
    exact ⟨hk', fun e => hp (List.mem_cons_of_mem _ e), hm⟩
  done k m hk hm hp := by
    by_cases hkj : k = j.link
    · rw [hkj, hpar, Option.some.injEq] at hm
      rw [hkj, ← hm]
      exact hold
    · refine h.done k m hk hm ?_
      rw [List.mem_cons, not_or]
      exact ⟨hkj, hp⟩
  master k m hk := by
    obtain ⟨hp, hm⟩ := h.master k m hk
    exact ⟨fun e => hp (List.mem_cons_of_mem _ e), hm⟩
  pending k hk := h.pending k (List.mem_cons_of_mem _ hk)

theorem Plan.settle_nil (hempty : pl.paths j.link = some []) :
    pl.settle j [] [] = { pl with master := Function.update pl.master j.link (some j.parent) } := by
  have hlab : (pl.settle j [] []).lab = pl.lab := by funext p; simp [settle_lab]
  have hpar : (pl.settle j [] []).par = pl.par := by funext k; simp [settle_par]
  have hpaths : (pl.settle j [] []).paths = pl.paths := by
    have : pl.carried j.link = [] := by simp [carried, hempty]
    funext k
    simp only [settle_paths, List.map_nil, List.not_mem_nil, if_false, entries, this, List.append_nil]
    rw [← hempty, Function.update_eq_self]
  exact Plan.ext rfl hlab hpaths rfl hpar rfl rfl

/-- Over a link to a switch without ports nothing is carried, so it may be marked too. -/
theorem Growing.mark {pend : List Link} {k : Link} {m : Int} (h : Growing T pl pend) (hk : k ∉ pend)
    (hm : pl.par k = some m) (hpl : T.Portless (k.far m)) :
    Growing T { pl with master := Function.update pl.master k (some m) } pend where
  room := h.room
  lab_iff := h.lab_iff
  lab_lt := h.lab_lt
  lab_inj := h.lab_inj
  paths_iff := h.paths_iff
  above := h.above
  par_fp := h.par_fp
  par_isl := h.par_isl
  up_lvl := h.up_lvl
  found := h.found
  done := h.done
  pending := h.pending
  nodup := h.nodup
  reachable := h.reachable
  up_link d c hc := by
    obtain ⟨hhas, hp, n, hn, hma, hfar⟩ := h.up_link d c hc
    refine ⟨hhas, hp, n, hn, ?_, hfar⟩
    by_cases he : c = k
    · subst he
      exact (Function.update_self ..).trans (hm.symm.trans hn)
    · exact (Function.update_of_ne he ..).trans hma
  master c n hc := by
    by_cases he : c = k
    · subst he
      obtain rfl : m = n := by simpa using hc
      exact ⟨hk, hm, Or.inr hpl⟩
    · exact h.master c n ((Function.update_of_ne he ..).symm.trans hc)

/-- The link carries the labels of the ports that it was the first to reach, and the ISLs `fs` hang below
it. -/
structure Hangs (T : Wiring) (pl : Plan) (j : Job) (fs : List (Row RFISLConfEntry)) : Prop where
  own : ∀ l vm, (l, vm) ∈ pl.carried j.link ↔ pl.up j.far = some j.link ∧
    ∃ p ∈ T.conf.rows, p.val.dpId = j.far ∧ pl.lab p = some l ∧ p.val.vmPort = vm
  below : ∀ r ∈ fs, pl.up j.far = some j.link ∧ pl.par (.isl r) = some (j.far : Int)
  all : pl.up j.far = some j.link → ∀ r ∈ T.islconf.rows, pl.par (.isl r) = some (j.far : Int) → r ∈ fs

/-- What a round does. `fs` are the links that it finds. -/
structure Visited (T : Wiring) (pl pl' : Plan) (j : Job) (fs : List (Row RFISLConfEntry)) : Prop where
  grows : pl.Grows pl' [j.link]
  hangs : Hangs T pl' j fs
  fresh : ∀ r ∈ fs, pl.up j.far = none ∧ pl.par (.isl r) = none
  finds : ∀ k, pl.par k = none → (pl'.par k).isSome → k ∈ fs.map Link.isl

/-- What a round does to the tree. Its switch is reached now, unless it was before. -/
structure Turn (T : Wiring) (pl pl' : Plan) (j : Job) : Prop where
  old : ∀ d, d ≠ j.far ∨ (pl.up d).isSome → pl'.up d = pl.up d ∧ pl'.lvl d = pl.lvl d
  new : pl.up j.far = none → pl'.up j.far = some j.link ∧
    pl'.lvl j.far = if j.parent = -1 then 0 else pl.lvl j.parent.toNat + 1
  marked : pl.up j.far = none ∨ T.Portless j.far → pl'.master j.link = some j.parent

theorem turn_settle (hnew : pl.up j.far = none) : Turn T pl (pl.afterRound j ps rs) j where
  old d hd := by
    have hne : d ≠ j.far := hd.elim id fun hs => Growing.ne_of_reached hnew hs
    exact ⟨Plan.afterRound_up_of_ne hne, by rw [Plan.afterRound_lvl, Function.update_of_ne hne]⟩
  new _ := ⟨Plan.afterRound_up_self, by rw [Plan.afterRound_lvl, Function.update_self]⟩
  marked _ := by rw [Plan.afterRound_master, Function.update_self]

include h in
theorem grows_settle (hnew : pl.up j.far = none) (hpm : ∀ p, p ∈ ps ↔ p ∈ T.conf.rows ∧ p.val.dpId = j.far)
    (hrm : ∀ r, r ∈ rs ↔ r ∈ T.islconf.rows ∧ (Link.isl r).Attached j.far) :
    pl.Grows (pl.afterRound j ps rs) [j.link] where
  lab p l hp := by
    have hnot : p ∉ ps := by
      intro hm
      rw [Growing.unlabelled h hnew hpm hm] at hp
      exact absurd hp (by simp)
    rw [Plan.afterRound_lab, if_neg hnot, hp]
  par k m hk := Growing.par_afterRound h hrm hk
  up d k hk := by
    rw [Plan.afterRound_up_of_ne (Growing.ne_of_reached hnew (by rw [hk]; rfl)), hk]
  link k hk hne := by
    obtain ⟨m, hm⟩ := Option.isSome_iff_exists.mp hk
    rw [List.mem_singleton] at hne
    rw [Plan.afterRound_paths, if_neg (notMem_unfound h hrm hm), Function.update_of_ne hne,
      Plan.afterRound_master, Function.update_of_ne hne]
    exact ⟨rfl, rfl⟩

include h hpar in
theorem hangs_settle (hnew : pl.up j.far = none) (hpm : ∀ p, p ∈ ps ↔ p ∈ T.conf.rows ∧ p.val.dpId = j.far)
    (hrm : ∀ r, r ∈ rs ↔ r ∈ T.islconf.rows ∧ (Link.isl r).Attached j.far) :
    Hangs T (pl.afterRound j ps rs) j (pl.unfound rs) where
  own l vm := by
    obtain ⟨-, -, hempty⟩ := h.pending _ List.mem_cons_self
    have hc : (pl.afterRound j ps rs).carried j.link = pl.entries ps := by
      rw [Plan.carried, Plan.afterRound_paths, if_neg (notMem_unfound h hrm hpar), Function.update_self,
        Plan.carried, hempty]
      rfl
    rw [hc]
    constructor
    · intro hm
      obtain ⟨p, hp, hl, hv⟩ := pl.of_mem_entries j ps (pl.unfound rs) hm
      exact ⟨Plan.afterRound_up_self, p, ((hpm p).mp hp).1, ((hpm p).mp hp).2, hl, hv⟩
    · rintro ⟨-, p, hp, hd, hl, rfl⟩
      exact pl.mem_entries j ps (pl.unfound rs) p ((hpm p).mpr ⟨hp, hd⟩) l hl
  below r hr := by
    refine ⟨Plan.afterRound_up_self, ?_⟩
    rw [Plan.afterRound_par, if_pos (List.mem_map_of_mem hr)]
  all _ r hr hp := by
    rw [Plan.afterRound_par] at hp
    split at hp
    · rename_i hm
      obtain ⟨q, hq, he⟩ := List.mem_map.mp hm
      rwa [← Link.isl.inj he]
    -- Before the round no link was found from this switch.
    · obtain ⟨d, hd, hv⟩ := h.par_isl r _ hp
      rw [← Nat.cast_inj.mp hd, hnew] at hv
      exact absurd hv (by simp)

include h hpar in
theorem visited_settle (hnew : pl.up j.far = none)
    (hpm : ∀ p, p ∈ ps ↔ p ∈ T.conf.rows ∧ p.val.dpId = j.far)
    (hrm : ∀ r, r ∈ rs ↔ r ∈ T.islconf.rows ∧ (Link.isl r).Attached j.far) :
    Visited T pl ((pl.settle j ps (pl.unfound rs)).reach j) j (pl.unfound rs) where
  grows := grows_settle h hnew hpm hrm
  hangs := hangs_settle h hpar hnew hpm hrm
  fresh r hr := ⟨hnew, ((mem_unfound h hrm r).mp hr).2.2⟩
  finds k hn hs := by
    rw [show ((pl.settle j ps (pl.unfound rs)).reach j).par k = (pl.afterRound j ps rs).par k from rfl,
      Plan.afterRound_par] at hs
    split at hs
    · rename_i hm
      exact hm
    · rw [hn] at hs
      exact absurd hs (by simp)

include h in
theorem visited_old {pl' : Plan} (hlab : pl'.lab = pl.lab) (hpar' : pl'.par = pl.par) (hup : pl'.up = pl.up)
    (hpaths : pl'.paths = pl.paths) (hmaster : ∀ k ≠ j.link, pl'.master k = pl.master k) :
    Visited T pl pl' j [] := by
  obtain ⟨-, -, hempty⟩ := h.pending _ List.mem_cons_self
  have hne : pl'.up j.far ≠ some j.link := by
    intro e
    rw [hup] at e
    exact (h.up_link _ _ e).2.1 List.mem_cons_self
  refine ⟨⟨?_, ?_, ?_, ?_⟩, ⟨?_, by simp, fun e => absurd e hne⟩, by simp, ?_⟩
  · rw [hlab]; exact fun _ _ e => e
  · rw [hpar']; exact fun _ _ e => e
  · rw [hup]; exact fun _ _ e => e
  · rw [hpaths]; exact fun k _ hk => ⟨rfl, hmaster k (by simpa using hk)⟩
  · intro l vm
    simp [Plan.carried, hpaths, hempty, hne]
  · rw [hpar']
    intro k hn hs
    simp [hn] at hs

include h hpar in
theorem visit_visited (o : Order) :
    (visit o (T.state pl) (T.item pl j) = .error .overflowError ∧ 2046 < T.conf.rows.length) ∨
    ∃ pl' fs, visit o (T.state pl) (T.item pl j) =
        .ok (T.state pl', T.item pl' j, fs.map fun r => T.item pl' ⟨.isl r, j.far⟩) ∧
      Growing T pl' (rest ++ fs.map Link.isl) ∧ Visited T pl pl' j fs ∧ Turn T pl pl' j ∧
      (o.ByKeys → pl.up j.far = none → fs = pl.unfound (T.islsAt o j.far)) := by
  obtain ⟨hhas, hsome, hempty⟩ := h.pending _ List.mem_cons_self
  have habove := h.above _ _ hpar
  have hpaths : (pl.paths j.link).isSome := (h.paths_iff _).mpr hsome
  have hnotMaster : pl.master j.link = none := by
    by_contra hne
    obtain ⟨m, hm⟩ := Option.ne_none_iff_exists'.mp hne
    exact (h.master _ _ hm).1 List.mem_cons_self
  by_cases hnew : pl.up j.far = none
  · have hfree : ∀ p ∈ T.conf.rows, p.val.dpId = j.far → pl.lab p = none := by
      intro p hp hd
      have := h.lab_iff p hp
      rw [hd, hnew] at this
      simpa using this
    obtain ⟨ps, rs, hpn, hpm, hrn, hrm, hro, hv, hover⟩ := visit_new o hhas habove hpaths hfree
    by_cases hle : ps ≠ [] → pl.label + ps.length ≤ 2048
    · refine Or.inr ⟨(pl.settle j ps (pl.unfound rs)).reach j, pl.unfound rs, ?_,
        h.settle hpar hnew hpn hpm hrn hrm, visited_settle h hpar hnew hpm hrm, turn_settle hnew,
          fun ho _ => by rw [hro ho]⟩
      rw [hv hle]
      simp only [Wiring.state_reach, Wiring.item, Wiring.link_reach]
    · rw [Classical.not_imp, Nat.not_le] at hle
      have hroom := h.room ps hpn fun p hp => ⟨((hpm p).mp hp).1, hfree p ((hpm p).mp hp).1 ((hpm p).mp hp).2⟩
      rw [firstLabel] at hroom
      exact Or.inl ⟨hover hle.1 hle.2, by omega⟩
  have hold : (pl.up j.far).isSome := Option.ne_none_iff_isSome.mp hnew
  by_cases hpl : T.Portless j.far
  · obtain ⟨ps, rs, -, hpm, -, hrm, -, hv, -⟩ :=
      visit_new o hhas habove hpaths fun p hp hd => absurd hd (hpl p hp)
    have hps : ps = [] := List.eq_nil_iff_forall_not_mem.mpr fun p hp =>
      hpl p ((hpm p).mp hp).1 ((hpm p).mp hp).2
    have hrs : pl.unfound rs = [] := by
      refine List.eq_nil_iff_forall_not_mem.mpr fun r hr => ?_
      obtain ⟨hr, ha, hn⟩ := (mem_unfound h hrm r).mp hr
      have := h.found _ hold r hr ha
      simp [hn] at this
    have hv := hv fun hne => absurd hps hne
    rw [hps, hrs, Plan.settle_nil hempty] at hv
    refine Or.inr ⟨_, [], hv, ?_, visited_old h rfl rfl rfl rfl fun k hk => Function.update_of_ne hk .., ?_⟩
    · rw [List.map_nil, List.append_nil]
      exact (h.skip hpar hold).mark (List.nodup_cons.mp h.nodup).1 hpar hpl
    · exact ⟨⟨fun _ _ => ⟨rfl, rfl⟩, fun e => absurd e hnew, fun _ => Function.update_self ..⟩,
        fun _ e => absurd e hnew⟩
  · have hno : ¬(pl.up j.far = none ∨ T.Portless j.far) := not_or.mpr ⟨hnew, hpl⟩
    simp only [Wiring.Portless, not_forall, not_not, exists_prop] at hpl
    have hlabelled : ∀ p ∈ T.conf.rows, p.val.dpId = j.far → (pl.lab p).isSome := by
      intro p hp hd
      rw [h.lab_iff p hp, hd]
      exact hold
    refine Or.inr ⟨pl, [], visit_old o hhas habove hnotMaster hlabelled hpl, ?_,
      visited_old h rfl rfl rfl rfl fun _ _ => rfl,
      ⟨fun _ _ => ⟨rfl, rfl⟩, fun e => absurd e hnew, fun e => absurd e hno⟩, fun _ e => absurd e hnew⟩
    rw [List.map_nil, List.append_nil]
    exact h.skip hpar hold

end Round

end RouteFlow
