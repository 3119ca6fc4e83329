import RouteFlow.SearchOrder

/-!
# The label allocation as a whole

`shortest_recursive` level by level, and the labels on the way back up. In the end each link of the tree
carries the labels of all ports below it.
-/

namespace RouteFlow

open Store

variable {T : Wiring}

/-! ## A level on the way down -/

/-- A job of a level with the ISLs that it finds. -/
abbrev Branch := Job × List (Row RFISLConfEntry)

/-- The calls that a branch leaves for the next level. -/
def Branch.jobs (x : Branch) : List Job := x.2.map fun r => ⟨.isl r, x.1.far⟩

theorem Branch.jobs_link (x : Branch) : x.jobs.map Job.link = x.2.map Link.isl := by
  simp [Branch.jobs]

theorem Hangs.grows {pl pl' : Plan} {pend ks : List Link} {j : Job} {fs : List (Row RFISLConfEntry)}
    (hh : Hangs T pl j fs) (h : Growing T pl pend) (h' : ∀ k m, pl'.par k = some m → k.Above m)
    (hg : pl.Grows pl' ks) (hhas : T.Has j.link) (hpar : pl.par j.link = some j.parent)
    (hp : j.link ∉ pend) (hk : j.link ∉ ks) : Hangs T pl' j fs := by
  have hdone : (pl.up j.far).isSome := h.done _ _ hhas hpar hp
  have hup := hg.up_iff hdone
  obtain ⟨hpaths, -⟩ := hg.link j.link (Option.isSome_iff_exists.mpr ⟨_, hpar⟩) hk
  refine ⟨fun l vm => ?_, fun r hr => ?_, fun hu r hr hp' => ?_⟩
  · rw [Plan.carried, hpaths, hup]
    refine (hh.own l vm).trans (and_congr_right fun _ => ?_)
    refine exists_congr fun p => and_congr_right fun hp => and_congr_right fun hd => ?_
    have hlab : (pl.lab p).isSome := (h.lab_iff p hp).mpr (by rw [hd]; exact hdone)
    rw [hg.lab_iff hlab]
  · obtain ⟨hu, hr⟩ := hh.below r hr
    exact ⟨(hup _).mpr hu, hg.par _ _ hr⟩
  · refine hh.all ((hup _).mp hu) r hr ?_
    have hatt : (Link.isl r).Attached j.far := by
      rcases h' _ _ hp' with e | e
      · exact Or.inl (Nat.cast_inj.mp e).symm
      · exact Or.inr (congrArg some (Nat.cast_inj.mp e).symm)
    obtain ⟨m, hm⟩ := Option.isSome_iff_exists.mp (h.found _ hdone r hr hatt)
    rw [hm, ← hg.par _ _ hm, hp']

/-- What a level does. The branches come in the order of the jobs, and a job has nothing to do with a switch
that a later one is the first to reach. -/
structure Descends (T : Wiring) (pl pl' : Plan) (jobs : List Job) (w : List Branch) : Prop where
  branches : w.map Prod.fst = jobs
  grows : pl.Grows pl' (jobs.map Job.link)
  hangs : ∀ x ∈ w, Hangs T pl' x.1 x.2
  fresh : ∀ x ∈ w, ∀ r ∈ x.2, pl.up x.1.far = none ∧ pl.par (.isl r) = none
  finds : ∀ k, pl.par k = none → (pl'.par k).isSome → k ∈ (w.flatMap Branch.jobs).map Job.link
  apart : w.Pairwise fun x y => y.2 ≠ [] → x.1.link.touches y.1.far = false

theorem Descends.nil (T : Wiring) (pl : Plan) : Descends T pl pl [] [] := by
  refine ⟨rfl, .refl pl, by simp, by simp, ?_, .nil⟩
  intro k hn hs
  simp [hn] at hs

section Level

variable {pl mid pl' : Plan} {j : Job} {jobs : List Job} {others pend : List Link}
  {fs : List (Row RFISLConfEntry)}
  {w : List Branch} (h : Growing T pl (j.link :: (jobs.map Job.link ++ others)))
  (hj : pl.par j.link = some j.parent) (hjobs : ∀ i ∈ jobs, pl.par i.link = some i.parent)
  (hv : Visited T pl mid j fs) (hmid : Growing T mid (jobs.map Job.link ++ (others ++ fs.map Link.isl)))
  (hd : Descends T mid pl' jobs w)

include h in
theorem link_notMem_jobs : j.link ∉ jobs.map Job.link := fun hm =>
  (List.nodup_cons.mp h.nodup).1 (List.mem_append_left _ hm)

include h hj hv in
theorem link_notMem_pending : j.link ∉ jobs.map Job.link ++ (others ++ fs.map Link.isl) := by
  rw [← List.append_assoc, List.mem_append, not_or]
  refine ⟨(List.nodup_cons.mp h.nodup).1, fun hm => ?_⟩
  obtain ⟨r, hr, he⟩ := List.mem_map.mp hm
  have hnone := (hv.fresh r hr).2
  rw [he, hj] at hnone
  exact absurd hnone (by simp)

include h hjobs hv in
theorem items_visited : jobs.map (T.item pl) = jobs.map (T.item mid) := by
  refine List.map_congr_left fun i hi => (hv.grows.item_eq ?_ ?_).symm
  · exact Option.isSome_iff_exists.mpr ⟨_, hjobs i hi⟩
  · rw [List.mem_singleton]
    exact fun e => link_notMem_jobs h (e ▸ List.mem_map_of_mem hi)

include hjobs hv hd in
theorem items_found : (fs.map fun r => T.item mid ⟨.isl r, j.far⟩) =
    (Branch.jobs (j, fs)).map (T.item pl') := by
  rw [Branch.jobs, List.map_map]
  refine List.map_congr_left fun r hr => (hd.grows.item_eq ?_ ?_).symm
  · exact Option.isSome_iff_exists.mpr ⟨_, (hv.hangs.below r hr).2⟩
  · intro hm
    obtain ⟨i, hi, he⟩ : ∃ i ∈ jobs, i.link = .isl r := List.mem_map.mp hm
    have hnone := (hv.fresh r hr).2
    rw [← he, hjobs i hi] at hnone
    exact absurd hnone (by simp)

include h hj hv hmid hd in
theorem apart_visited {y : Branch} (hy : y ∈ w) (hne : y.2 ≠ []) : j.link.touches y.1.far = false := by
  obtain ⟨r, hr⟩ := List.exists_mem_of_ne_nil _ hne
  have hunseen := (hd.fresh y hy r hr).1
  have hjpar : mid.par j.link = some j.parent := hv.grows.par _ _ hj
  rw [← Bool.not_eq_true, Link.touches_iff (h.above _ _ hj), not_or]
  refine ⟨fun e => ?_, fun e => ?_⟩
  · have hdone := hmid.done _ _ (h.pending _ List.mem_cons_self).1 hjpar (link_notMem_pending h hj hv)
    rw [← e, hunseen] at hdone
    exact absurd hdone (by simp)
  · obtain ⟨k, m⟩ := j
    cases k with
    | fp r =>
      obtain rfl : m = -1 := h.above _ _ hj
      exact absurd e (by simp)
    | isl r =>
      obtain ⟨d, hd, hup⟩ := hmid.par_isl r m hjpar
      rw [← Nat.cast_inj.mp (e.trans hd), hunseen] at hup
      exact absurd hup (by simp)

include h hj hv hmid hd in
theorem Descends.cons (hgrow : Growing T pl' pend) : Descends T pl pl' (j :: jobs) ((j, fs) :: w) where
  branches := by rw [List.map_cons, hd.branches]
  grows := by
    refine (hv.grows.mono ?_).trans hd.grows fun k hk => Or.inr (List.mem_cons_of_mem _ hk)
    simp
  hangs := by
    refine List.forall_mem_cons.mpr ⟨?_, hd.hangs⟩
    exact hv.hangs.grows hmid hgrow.above hd.grows (h.pending _ List.mem_cons_self).1 (hv.grows.par _ _ hj)
      (link_notMem_pending h hj hv) (link_notMem_jobs h)
  fresh := by
    refine List.forall_mem_cons.mpr ⟨hv.fresh, fun x hx r hr => ?_⟩
    obtain ⟨hu, hp⟩ := hd.fresh x hx r hr
    refine ⟨?_, ?_⟩
    · by_contra hne
      have hup := hv.grows.up_isSome (Option.ne_none_iff_isSome.mp hne)
      simp [hu] at hup
    · by_contra hne
      have hpar := hv.grows.par_isSome (Option.ne_none_iff_isSome.mp hne)
      simp [hp] at hpar
  finds := by
    intro k hn hs
    rw [List.flatMap_cons, List.map_append, Branch.jobs_link, List.mem_append]
    by_cases hm : mid.par k = none
    · exact Or.inr (hd.finds k hm hs)
    · exact Or.inl (hv.finds k hn (Option.ne_none_iff_isSome.mp hm))
  apart := List.pairwise_cons.mpr ⟨fun _ hy hne => apart_visited h hj hv hmid hd hy hne, hd.apart⟩

end Level

theorem visitAll_visited (o : Order) {jobs : List Job} {others : List Link} {pl : Plan}
    (h : Growing T pl (jobs.map Job.link ++ others)) (ho : InOrder T o pl (jobs.map Job.link ++ others))
    (hpar : ∀ j ∈ jobs, pl.par j.link = some j.parent) :
    (visitAll o (T.state pl) (jobs.map (T.item pl)) = .error .overflowError ∧ 2046 < T.conf.rows.length) ∨
    ∃ (pl' : Plan) (w : List Branch), visitAll o (T.state pl) (jobs.map (T.item pl)) =
        .ok (T.state pl', jobs.map (T.item pl'), (w.flatMap Branch.jobs).map (T.item pl')) ∧
      Growing T pl' (others ++ (w.flatMap Branch.jobs).map Job.link) ∧
      InOrder T o pl' (others ++ (w.flatMap Branch.jobs).map Job.link) ∧ Descends T pl pl' jobs w := by
  induction jobs generalizing pl others with
  | nil => exact Or.inr ⟨pl, [], rfl, by simpa using h, by simpa using ho, .nil T pl⟩
  | cons j jobs ih =>
    obtain ⟨hj, hjobs⟩ := List.forall_mem_cons.mp hpar
    rw [List.map_cons, List.cons_append] at h ho
    rw [List.map_cons, visitAll]
    rcases visit_visited h hj o with ⟨hover, hports⟩ | ⟨mid, fs, hvisit, hmid, hv, ht, hrow⟩
    · rw [hover]
      exact Or.inl ⟨rfl, hports⟩
    have hmido := ho.round h hj hv ht hrow
    rw [List.append_assoc] at hmid hmido
    rw [hvisit]
    simp only [bind, Except.bind]
    rw [items_visited h hjobs hv]
    rcases ih hmid hmido fun i hi => hv.grows.par _ _ (hjobs i hi) with
      ⟨hover, hports⟩ | ⟨pl', w, hall, hgrow, hord, hd⟩
    · rw [hover]
      exact Or.inl ⟨rfl, hports⟩
    have hjitem : T.item pl' j = T.item mid j :=
      hd.grows.item_eq (hv.grows.par_isSome (Option.isSome_iff_exists.mpr ⟨_, hj⟩)) (link_notMem_jobs h)
    have hpend : others ++ (((j, fs) :: w).flatMap Branch.jobs).map Job.link =
        others ++ fs.map Link.isl ++ (w.flatMap Branch.jobs).map Job.link := by
      rw [List.flatMap_cons, List.map_append, Branch.jobs_link, ← List.append_assoc]
    refine Or.inr ⟨pl', (j, fs) :: w, ?_, hpend ▸ hgrow, hpend ▸ hord, .cons h hj hv hmid hd hgrow⟩
    rw [hall]
    simp only [pure, Except.pure, List.map_cons, List.flatMap_cons, List.map_append, hjitem,
      items_found hjobs hv hd]

/-! ## A level on the way up -/

section PullUp

variable {pl : Plan}

/-- A link gets more labels. -/
def Plan.add (pl : Plan) (k : Link) (ps : List (Nat × Nat)) : Plan :=
  { pl with paths := Function.update pl.paths k (some (pl.carried k ++ ps)) }

theorem Plan.add_nil {k : Link} (h : (pl.paths k).isSome) : pl.add k [] = pl := by
  obtain ⟨ps, hps⟩ := Option.isSome_iff_exists.mp h
  have : some (pl.carried k ++ []) = pl.paths k := by simp [carried, hps]
  rw [add, this, Function.update_eq_self]

theorem Plan.add_add (pl : Plan) (k : Link) (a b : List (Nat × Nat)) :
    (pl.add k a).add k b = pl.add k (a ++ b) := by
  simp [add, carried]

theorem Plan.link_add (pl : Plan) (k : Link) (ps : List (Nat × Nat)) :
    (pl.link k).addPaths ps = (pl.add k ps).link k := by
  cases k <;> simp [link, Link.addPaths, add, fpVal, islRow, islVal, carried]

theorem Plan.link_add_ne (pl : Plan) {k c : Link} (h : c ≠ k) (ps : List (Nat × Nat)) :
    (pl.add k ps).link c = pl.link c := by
  cases c <;> simp [link, add, fpVal, islRow, islVal, Function.update_of_ne h]

theorem Wiring.setLink_add {k : Link} (hk : T.Has k) (ps : List (Nat × Nat)) :
    (T.state pl).setLink ((pl.add k ps).link k) = T.state (pl.add k ps) := by
  have h : pl.add k ps = pl.write k (some (pl.carried k ++ ps)) (pl.master k) := by
    rw [Plan.write, Function.update_eq_self]
    rfl
  rw [h]
  exact Wiring.setLink_state hk _ _ _

theorem seek_here {d : Int} {x : CheckItem} (hx : x.link.touches d = true) (done rest : List CheckItem) :
    seek d done x rest = .ok (done, x, rest) := by
  cases rest <;> simp [seek, hx]

theorem pullUp_here {x : Job} (hx : T.Has x.link) (hs : (pl.paths x.link).isSome) (done rest : List CheckItem)
    {ns : List CheckItem} (ht : ∀ n ∈ ns, x.link.touches n.parentDpid = true) (more : List CheckItem) :
    pullUp (T.state pl) done (T.item pl x) rest (ns ++ more) =
      pullUp (T.state (pl.add x.link (ns.flatMap fun n => n.link.fastPaths))) done
        (T.item (pl.add x.link (ns.flatMap fun n => n.link.fastPaths)) x) rest more := by
  induction ns generalizing pl with
  | nil => rw [List.flatMap_nil, Plan.add_nil hs, List.nil_append]
  | cons n ns ih =>
    obtain ⟨hn, hns⟩ := List.forall_mem_cons.mp ht
    have hseek : seek n.parentDpid done (T.item pl x) rest = .ok (done, T.item pl x, rest) :=
      seek_here (by rw [Wiring.item, Plan.link_touches]; exact hn) done rest
    have hs' : ((pl.add x.link n.link.fastPaths).paths x.link).isSome := by simp [Plan.add]
    rw [List.cons_append, pullUp, hseek, List.flatMap_cons, ← Plan.add_add, ← ih hs' hns]
    simp only [bind, Except.bind, Wiring.item]
    rw [Plan.link_add, Wiring.setLink_add hx]

theorem pullUp_later {x y n : CheckItem} (hx : x.link.touches n.parentDpid = false) (st : FpState)
    (done rest ns : List CheckItem) :
    pullUp st done x (y :: rest) (n :: ns) = pullUp st (done ++ [x]) y rest (n :: ns) := by
  simp only [pullUp, seek, hx, Bool.false_eq_true, if_false]

theorem pullUp_all {x : Job × List CheckItem} {w : List (Job × List CheckItem)} (done : List CheckItem)
    (hx : ∀ y ∈ x :: w, T.Has y.1.link ∧ (pl.paths y.1.link).isSome)
    (hnd : ((x :: w).map fun y => y.1.link).Nodup)
    (ht : ∀ y ∈ x :: w, ∀ n ∈ y.2, y.1.link.touches n.parentDpid = true)
    (hp : (x :: w).Pairwise fun y z => ∀ n ∈ z.2, y.1.link.touches n.parentDpid = false) :
    ∃ paths, pullUp (T.state pl) done (T.item pl x.1) (w.map fun y => T.item pl y.1)
      ((x :: w).flatMap Prod.snd) =
        .ok (T.state { pl with paths := paths },
          done ++ (x :: w).map fun y => T.item { pl with paths := paths } y.1) ∧
      (∀ k ∉ (x :: w).map fun y => y.1.link, paths k = pl.paths k) ∧
      ∀ y ∈ x :: w, paths y.1.link = some (pl.carried y.1.link ++ y.2.flatMap fun n => n.link.fastPaths) := by
  induction w generalizing x pl done with
  | nil =>
    obtain ⟨hhas, hsome⟩ := hx x List.mem_cons_self
    refine ⟨(pl.add x.1.link (x.2.flatMap fun n => n.link.fastPaths)).paths, ?_, fun k hk => ?_,
      fun y hy => ?_⟩
    · have := pullUp_here hhas hsome done [] (ht x List.mem_cons_self) []
      rw [List.flatMap_cons, List.flatMap_nil, List.map_nil, this]
      rfl
    · rw [List.map_singleton, List.mem_singleton] at hk
      exact Function.update_of_ne hk ..
    · rw [List.mem_singleton.mp hy]
      exact Function.update_self ..
  | cons y w ih =>
    obtain ⟨⟨hhas, hsome⟩, hrest⟩ := List.forall_mem_cons.mp hx
    obtain ⟨htx, htrest⟩ := List.forall_mem_cons.mp ht
    obtain ⟨hpx, hprest⟩ := List.pairwise_cons.mp hp
    rw [List.map_cons, List.nodup_cons] at hnd
    have hne : ∀ z ∈ y :: w, z.1.link ≠ x.1.link := fun z hz e =>
      hnd.1 (e ▸ List.mem_map_of_mem (f := fun y => y.1.link) hz)
    have hhere := pullUp_here hhas hsome done ((y :: w).map fun y => T.item pl y.1)
      htx ((y :: w).flatMap Prod.snd)
    set mid := pl.add x.1.link (x.2.flatMap fun n => n.link.fastPaths) with hmid
    have hmidx : mid.paths x.1.link = some (pl.carried x.1.link ++ x.2.flatMap fun n => n.link.fastPaths) :=
      Function.update_self ..
    have hmidne : ∀ {k}, k ≠ x.1.link → mid.paths k = pl.paths k := fun hk => Function.update_of_ne hk ..
    have hitems : ((y :: w).map fun y => T.item pl y.1) = (y :: w).map fun y => T.item mid y.1 := by
      refine List.map_congr_left fun z hz => ?_
      rw [Wiring.item, Wiring.item, hmid, Plan.link_add_ne pl (hne z hz)]
    rw [List.flatMap_cons, hhere, hitems]
    cases hns : (y :: w).flatMap Prod.snd with
    | nil =>
      have hnil : ∀ z ∈ y :: w, z.2 = [] := List.flatMap_eq_nil_iff.mp hns
      refine ⟨mid.paths, rfl, fun k hk => ?_, List.forall_mem_cons.mpr ⟨hmidx, fun z hz => ?_⟩⟩
      · rw [List.map_cons, List.mem_cons, not_or] at hk
        exact hmidne hk.1
      · obtain ⟨ps, hps⟩ := Option.isSome_iff_exists.mp (hrest z hz).2
        rw [hmidne (hne z hz), hnil z hz, Plan.carried, hps]
        simp
    | cons n ns =>
      have hn : n ∈ (y :: w).flatMap Prod.snd := by rw [hns]; exact List.mem_cons_self
      obtain ⟨z, hz, hnz⟩ := List.mem_flatMap.mp hn
      have hskip : (T.item mid x.1).link.touches n.parentDpid = false := by
        rw [Wiring.item, Plan.link_touches]
        exact hpx z hz n hnz
      have hsome' : ∀ z ∈ y :: w, T.Has z.1.link ∧ (mid.paths z.1.link).isSome := fun z hz => by
        rw [hmidne (hne z hz)]
        exact hrest z hz
      obtain ⟨paths, hcall, hkeep, hset⟩ := @ih mid y (done ++ [T.item mid x.1]) hsome' hnd.2 htrest hprest
      have hplan : { mid with paths := paths } = { pl with paths := paths } := rfl
      rw [hplan, hns] at hcall
      have hxpaths : paths x.1.link = mid.paths x.1.link := hkeep _ hnd.1
      have hxitem : T.item mid x.1 = T.item { pl with paths := paths } x.1 := by
        rw [Wiring.item, Wiring.item]
        congr 1
        generalize x.1.link = k at hxpaths
        cases k <;> simp [Plan.link, Plan.fpVal, Plan.islRow, Plan.islVal, hxpaths, hmid, Plan.add]
      refine ⟨paths, ?_, fun k hk => ?_, List.forall_mem_cons.mpr ⟨hxpaths.trans hmidx, fun z hz => ?_⟩⟩
      · rw [List.map_cons, pullUp_later hskip, hcall, List.append_assoc, hxitem]
        rfl
      · rw [List.map_cons, List.mem_cons, not_or] at hk
        rw [hkeep k hk.2, hmidne hk.1]
      · rw [hset z hz, Plan.carried, hmidne (hne z hz)]
        rfl

end PullUp

/-! ## The recursion -/

/-- The port `p` is below the link `k` in the tree: at the switch that `k` was the first to reach, or below
a link that was found from there. -/
inductive Beneath (T : Wiring) (par : Link → Option Int) (up : Nat → Option Link) :
    Link → Row RFConfigEntry → Prop
  | own {k : Link} {m : Int} {p : Row RFConfigEntry} : par k = some m → up (k.far m) = some k →
      p ∈ T.conf.rows → p.val.dpId = k.far m → Beneath T par up k p
  | via {k : Link} {m : Int} {r : Row RFISLConfEntry} {p : Row RFConfigEntry} : par k = some m →
      up (k.far m) = some k → r ∈ T.islconf.rows → par (.isl r) = some (k.far m : Int) →
      Beneath T par up (.isl r) p → Beneath T par up k p

/-- The link carries exactly the labels of the ports below it. -/
def Complete (T : Wiring) (pl : Plan) (k : Link) : Prop :=
  ∀ l vm, (l, vm) ∈ pl.carried k ↔ ∃ p, Beneath T pl.par pl.up k p ∧ pl.lab p = some l ∧ p.val.vmPort = vm

/-- How many ISLs nobody has found yet. -/
def Wiring.unclaimed (T : Wiring) (pl : Plan) : Nat :=
  T.islconf.rows.countP fun r => (pl.par (.isl r)).isNone

theorem unclaimed_lt {pl pl' : Plan} {ks : List Link} (hg : pl.Grows pl' ks) {r : Row RFISLConfEntry}
    (hr : r ∈ T.islconf.rows) (hn : pl.par (.isl r) = none) (hs : (pl'.par (.isl r)).isSome) :
    T.unclaimed pl' < T.unclaimed pl := by
  have hle : ∀ q : Row RFISLConfEntry, (pl'.par (.isl q)).isNone = true →
    (pl.par (.isl q)).isNone = true := by
    intro q hq
    by_contra hno
    rw [Option.isNone_iff_eq_none, ← ne_eq, Option.ne_none_iff_isSome] at hno
    have := hg.par_isSome hno
    rw [Option.isNone_iff_eq_none] at hq
    simp [hq] at this
  obtain ⟨l₁, l₂, hl⟩ := List.append_of_mem hr
  have h₁ := List.countP_mono_left (l := l₁) fun q _ => hle q
  have h₂ := List.countP_mono_left (l := l₂) fun q _ => hle q
  have hr' : (pl'.par (.isl r)).isNone = false := by simpa using hs
  simp only [Wiring.unclaimed, hl, List.countP_append, List.countP_cons, hn, hr']
  simp only [Option.isNone_none, if_true, Bool.false_eq_true, if_false]
  omega

theorem Growing.repath {pl : Plan} (h : Growing T pl []) {paths : Link → Option (List (Nat × Nat))}
    (hp : ∀ k, (paths k).isSome ↔ (pl.paths k).isSome) : Growing T { pl with paths := paths } [] where
  room := h.room
  lab_iff := h.lab_iff
  lab_lt := h.lab_lt
  lab_inj := h.lab_inj
  paths_iff k := (hp k).trans (h.paths_iff k)
  above := h.above
  par_fp := h.par_fp
  par_isl := h.par_isl
  up_link := h.up_link
  up_lvl := h.up_lvl
  found := h.found
  done := h.done
  master := h.master
  pending := by simp
  nodup := h.nodup
  reachable := h.reachable

theorem reportLinks_ok {pl : Plan} (h : Growing T pl []) {jobs : List Job}
    (hjobs : ∀ j ∈ jobs, Complete T pl j.link) : reportLinks (jobs.map (T.item pl)) = .ok () := by
  induction jobs with
  | nil => rfl
  | cons j jobs ih =>
    obtain ⟨hj, hrest⟩ := List.forall_mem_cons.mp hjobs
    rw [List.map_cons, reportLinks]
    split
    · exact ih hrest
    · rename_i hne
      rw [Wiring.item, Plan.link_fastPaths] at hne
      obtain ⟨⟨l, vm⟩, hlv⟩ := List.exists_mem_of_ne_nil _ hne
      obtain ⟨p, hc, -⟩ := (hj l vm).mp hlv
      obtain ⟨m, hm, hu⟩ : ∃ m, pl.par j.link = some m ∧ pl.up (j.link.far m) = some j.link := by
        cases hc with
        | own hm hu => exact ⟨_, hm, hu⟩
        | via hm hu => exact ⟨_, hm, hu⟩
      obtain ⟨-, -, n, hn, hmaster, -⟩ := h.up_link _ _ hu
      obtain rfl : m = n := Option.some.inj (hm.symm.trans hn)
      have hmaster' : (T.item pl j).link.fpMaster = some m := by
        rw [Wiring.item, Plan.link_fpMaster, hmaster]
      have hno : ¬(((T.item pl j).link.dpId : Int) = m ∧ (T.item pl j).link.remId = none) := by
        simp only [Wiring.item, Plan.link_dpId, Plan.link_remId]
        rintro ⟨hd, hr⟩
        have ha := h.above _ _ hm
        generalize j.link = k at hd hr ha
        cases k with
        | fp r =>
          obtain rfl : m = -1 := ha
          omega
        | isl r => simp [Link.remId] at hr
      simp only [hmaster', if_neg hno]
      exact ih hrest

theorem complete_branch {pl : Plan} {x : Branch} (hpar : pl.par x.1.link = some x.1.parent)
    (hh : Hangs T pl x.1 x.2) (hisl : ∀ r ∈ x.2, r ∈ T.islconf.rows)
    (hnext : ∀ r ∈ x.2, Complete T pl (.isl r)) {paths : Link → Option (List (Nat × Nat))}
    (hpaths : paths x.1.link = some (pl.carried x.1.link ++ x.2.flatMap fun r => pl.carried (.isl r))) :
    Complete T { pl with paths := paths } x.1.link := by
  intro l vm
  have hc : Plan.carried { pl with paths := paths } x.1.link =
      pl.carried x.1.link ++ x.2.flatMap fun r => pl.carried (.isl r) := by
    simp [Plan.carried, hpaths]
  rw [hc, List.mem_append, List.mem_flatMap]
  constructor
  · rintro (hm | ⟨r, hr, hm⟩)
    · obtain ⟨hu, p, hp, hd, hl⟩ := (hh.own l vm).mp hm
      exact ⟨p, .own hpar hu hp hd, hl⟩
    · obtain ⟨hu, hr'⟩ := hh.below r hr
      obtain ⟨p, hp, hl⟩ := (hnext r hr l vm).mp hm
      exact ⟨p, .via hpar hu (hisl r hr) hr' hp, hl⟩
  · rintro ⟨p, hp, hl⟩
    cases hp with
    | own hm hu hp hd =>
      obtain rfl := Option.some.inj (hpar.symm.trans hm)
      exact Or.inl ((hh.own l vm).mpr ⟨hu, p, hp, hd, hl⟩)
    | @via _ _ r _ hm hu hr hr' hp =>
      obtain rfl := Option.some.inj (hpar.symm.trans hm)
      have hr := hh.all hu r hr hr'
      exact Or.inr ⟨r, hr, (hnext r hr l vm).mpr ⟨p, hp, hl⟩⟩

theorem pullUp_branches {pl : Plan} (h : Growing T pl []) {w : List Branch} (hhas : ∀ x ∈ w, T.Has x.1.link)
    (hpar : ∀ x ∈ w, pl.par x.1.link = some x.1.parent) (hnd : ((w.map Prod.fst).map Job.link).Nodup)
    (hpair : w.Pairwise fun x y => y.2 ≠ [] → x.1.link.touches y.1.far = false) :
    ∃ paths, (∀ x rest, (w.map Prod.fst).map (T.item pl) = x :: rest →
        pullUp (T.state pl) [] x rest ((w.flatMap Branch.jobs).map (T.item pl)) =
          .ok (T.state { pl with paths := paths },
            (w.map Prod.fst).map (T.item { pl with paths := paths }))) ∧
      (∀ k ∉ (w.map Prod.fst).map Job.link, paths k = pl.paths k) ∧
      ∀ x ∈ w, paths x.1.link = some (pl.carried x.1.link ++ x.2.flatMap fun r => pl.carried (.isl r)) := by
  cases w with
  | nil => exact ⟨pl.paths, by simp, fun _ _ => rfl, by simp⟩
  | cons y ys =>
    let items (x : Branch) : Job × List CheckItem := (x.1, x.jobs.map (T.item pl))
    have hparents : ∀ x, ∀ n ∈ (items x).2, n.parentDpid = (x.1.far : Int) ∧ x.2 ≠ [] := by
      intro x n hn
      obtain ⟨i, hi, rfl⟩ := List.mem_map.mp hn
      obtain ⟨r, hr, rfl⟩ := List.mem_map.mp hi
      exact ⟨rfl, List.ne_nil_of_mem hr⟩
    have hlinks : ((y :: ys).map items).map (fun z => z.1.link) = ((y :: ys).map Prod.fst).map Job.link := by
      rw [List.map_map, List.map_map]
      rfl
    have hitems : ∀ pl' : Plan, (((y :: ys).map items).map fun z => T.item pl' z.1) =
        ((y :: ys).map Prod.fst).map (T.item pl') := by
      intro pl'
      rw [List.map_map, List.map_map]
      rfl
    have hmore : (((y :: ys).map items).flatMap Prod.snd) =
      ((y :: ys).flatMap Branch.jobs).map (T.item pl) := by
      simp [items, List.flatMap_map, List.map_flatMap]
    have hsome : ∀ z ∈ (y :: ys).map items, T.Has z.1.link ∧ (pl.paths z.1.link).isSome := by
      rw [List.forall_mem_map]
      intro x hx
      refine ⟨hhas x hx, (h.paths_iff _).mpr ?_⟩
      rw [hpar x hx]
      rfl
    have htouch : ∀ z ∈ (y :: ys).map items, ∀ n ∈ z.2, z.1.link.touches n.parentDpid = true := by
      rw [List.forall_mem_map]
      intro x hx n hn
      rw [(hparents x n hn).1, Link.touches_iff (h.above _ _ (hpar x hx))]
      exact Or.inl rfl
    have hapart : ((y :: ys).map items).Pairwise fun a b => ∀ n ∈ b.2,
      a.1.link.touches n.parentDpid = false := by
      rw [List.pairwise_map]
      refine hpair.imp fun {a b} hab n hn => ?_
      obtain ⟨hp, hn⟩ := hparents b n hn
      rw [hp]
      exact hab hn
    rw [← hlinks] at hnd
    obtain ⟨paths, hcall, hkeep, hset⟩ := pullUp_all [] hsome hnd htouch hapart
    rw [← List.map_cons] at hcall hkeep hset
    rw [hmore, hitems, List.nil_append] at hcall
    rw [hlinks] at hkeep
    refine ⟨paths, fun x rest hj => ?_, hkeep, fun x hx => ?_⟩
    · rw [← hitems, List.map_cons, List.map_cons, List.cons.injEq] at hj
      rw [← hj.1, ← hj.2]
      exact hcall
    · have hlabels : ((items x).2.flatMap fun n => n.link.fastPaths) =
        x.2.flatMap fun r => pl.carried (.isl r) := by
        simp [items, Branch.jobs, List.flatMap_map, Wiring.item]
      rw [← hlabels]
      exact hset (items x) (List.mem_map_of_mem hx)

theorem shortestRecursive_succ (o : Order) (depth : Nat) (st : FpState) (checkSet : List CheckItem) :
    shortestRecursive o (depth + 1) st checkSet = (visitAll o st checkSet).bind fun (st, checked, nextSet) =>
      (if nextSet = [] then .ok (st, []) else shortestRecursive o depth st nextSet).bind fun (st, nextSet) =>
        match checked with
        | [] => .error .stopIteration
        | x :: rest => (pullUp st [] x rest nextSet).bind fun (st, checked) =>
          (reportLinks checked).bind fun _ => .ok (st, checked) := by
  rw [shortestRecursive]
  cases visitAll o st checkSet with
  | error e => rfl
  | ok v =>
    simp only [bind, Except.bind]
    split <;> rfl

/-- The links of a level and all that were found from there are complete. -/
structure Finished (T : Wiring) (pl pl' : Plan) (jobs : List Job) : Prop where
  growing : Growing T pl' []
  grows : pl.Grows pl' (jobs.map Job.link)
  complete : ∀ k, k ∈ jobs.map Job.link ∨ pl.par k = none → (pl'.par k).isSome → Complete T pl' k

section Below

variable {pl mid low : Plan} {jobs : List Job} {w : List Branch} {paths : Link → Option (List (Nat × Nat))}

theorem mem_next {n : Job} (hn : n ∈ w.flatMap Branch.jobs) :
    ∃ x ∈ w, ∃ r ∈ x.2, n = ⟨.isl r, x.1.far⟩ := by
  obtain ⟨x, hx, hn⟩ := List.mem_flatMap.mp hn
  obtain ⟨r, hr, rfl⟩ := List.mem_map.mp hn
  exact ⟨x, hx, r, hr, rfl⟩

theorem link_mem_next {x : Branch} (hx : x ∈ w) {r : Row RFISLConfEntry} (hr : r ∈ x.2) :
    .isl r ∈ (w.flatMap Branch.jobs).map Job.link :=
  List.mem_map.mpr ⟨⟨.isl r, x.1.far⟩, List.mem_flatMap.mpr ⟨x, hx, List.mem_map_of_mem hr⟩, rfl⟩

namespace Descends

variable (hd : Descends T pl mid jobs w)

include hd in
theorem mem_jobs {x : Branch} (hx : x ∈ w) : x.1 ∈ jobs := hd.branches ▸ List.mem_map_of_mem hx

include hd in
theorem par_next {n : Job} (hn : n ∈ w.flatMap Branch.jobs) : mid.par n.link = some n.parent := by
  obtain ⟨x, hx, r, hr, rfl⟩ := mem_next hn
  exact ((hd.hangs x hx).below r hr).2

include hd in
theorem notMem_next {k : Link} (hk : (pl.par k).isSome) : k ∉ (w.flatMap Branch.jobs).map Job.link := by
  intro hm
  obtain ⟨n, hn, rfl⟩ := List.mem_map.mp hm
  obtain ⟨x, hx, r, hr, rfl⟩ := mem_next hn
  rw [(hd.fresh x hx r hr).2] at hk
  exact absurd hk (by simp)

include hd in
theorem unclaimed_lt (hmid : Growing T mid ((w.flatMap Branch.jobs).map Job.link))
    (hne : w.flatMap Branch.jobs ≠ []) : T.unclaimed mid < T.unclaimed pl := by
  obtain ⟨n, hn⟩ := List.exists_mem_of_ne_nil _ hne
  obtain ⟨x, hx, r, hr, rfl⟩ := mem_next hn
  refine RouteFlow.unclaimed_lt hd.grows (hmid.pending _ (link_mem_next hx hr)).1 (hd.fresh x hx r hr).2 ?_
  exact Option.isSome_iff_exists.mpr ⟨_, ((hd.hangs x hx).below r hr).2⟩

variable (h : Growing T pl (jobs.map Job.link)) (hpar : ∀ j ∈ jobs, pl.par j.link = some j.parent)
  (hmid : Growing T mid ((w.flatMap Branch.jobs).map Job.link))
  (hlow : Finished T mid low (w.flatMap Branch.jobs))

include hd hpar in
theorem job_notMem_next {j : Job} (hj : j ∈ jobs) : j.link ∉ (w.flatMap Branch.jobs).map Job.link :=
  hd.notMem_next (Option.isSome_iff_exists.mpr ⟨_, hpar j hj⟩)

include hd hpar hlow in
theorem par_low {x : Branch} (hx : x ∈ w) : low.par x.1.link = some x.1.parent :=
  hlow.grows.par _ _ (hd.grows.par _ _ (hpar _ (hd.mem_jobs hx)))

include hd h hpar hmid hlow in
theorem hangs_low {x : Branch} (hx : x ∈ w) : Hangs T low x.1 x.2 := by
  have hj := hd.mem_jobs hx
  have hnot := hd.job_notMem_next hpar hj
  exact (hd.hangs x hx).grows hmid hlow.growing.above hlow.grows (h.pending _ (List.mem_map_of_mem hj)).1
    (hd.grows.par _ _ (hpar _ hj)) hnot hnot

include hd hpar hlow in
theorem items_low : jobs.map (T.item mid) = jobs.map (T.item low) := List.map_congr_left fun j hj =>
  (hlow.grows.item_eq (hd.grows.par_isSome (Option.isSome_iff_exists.mpr ⟨_, hpar j hj⟩))
    (hd.job_notMem_next hpar hj)).symm

include hd h hpar hmid hlow in
theorem complete_level {x : Branch} (hx : x ∈ w)
    (hset : paths x.1.link = some (low.carried x.1.link ++ x.2.flatMap fun r => low.carried (.isl r))) :
    Complete T { low with paths := paths } x.1.link := by
  have hhangs := hd.hangs_low h hpar hmid hlow hx
  refine complete_branch (hd.par_low hpar hlow hx)
    hhangs (fun r hr => (hmid.pending _ (link_mem_next hx hr)).1)
    (fun r hr => hlow.complete _ (Or.inl (link_mem_next hx hr)) ?_) hset
  exact Option.isSome_iff_exists.mpr ⟨_, (hhangs.below r hr).2⟩

include hd h hpar hmid hlow in
theorem finished (hkeep : ∀ k ∉ jobs.map Job.link, paths k = low.paths k)
    (hset : ∀ x ∈ w, paths x.1.link =
      some (low.carried x.1.link ++ x.2.flatMap fun r => low.carried (.isl r))) :
    Finished T pl { low with paths := paths } jobs where
  growing := by
    refine hlow.growing.repath fun k => ?_
    by_cases hk : k ∈ jobs.map Job.link
    · rw [← hd.branches, List.map_map] at hk
      obtain ⟨x, hx, rfl⟩ := List.mem_map.mp hk
      rw [hlow.growing.paths_iff, Function.comp_apply, hset x hx, hd.par_low hpar hlow hx]
      simp
    · rw [hkeep k hk]
  grows := by
    have hup : low.Grows { low with paths := paths } (jobs.map Job.link) :=
      ⟨fun _ _ e => e, fun _ _ e => e, fun _ _ e => e, fun k _ hk => ⟨hkeep k hk, rfl⟩⟩
    refine (hd.grows.trans hlow.grows fun k hk => Or.inl ?_).trans hup fun k hk => Or.inr hk
    by_contra hno
    exact hd.notMem_next (Option.ne_none_iff_isSome.mp hno) hk
  complete k hk hs := by
    by_cases hkj : k ∈ jobs.map Job.link
    · rw [← hd.branches, List.map_map] at hkj
      obtain ⟨x, hx, rfl⟩ := List.mem_map.mp hkj
      exact hd.complete_level h hpar hmid hlow hx (hset x hx)
    · have hn := hk.resolve_left hkj
      have hlowk : Complete T low k := by
        by_cases hm : mid.par k = none
        · exact hlow.complete k (Or.inr hm) hs
        · exact hlow.complete k (Or.inl (hd.finds k hn (Option.ne_none_iff_isSome.mp hm))) hs
      have hc : Plan.carried { low with paths := paths } k = low.carried k :=
        congrArg (fun x => x.getD []) (hkeep k hkj)
      intro l vm
      rw [hc]
      exact hlowk l vm

end Descends

end Below

/-- The recursion comes back with all labels in place, for the links of this level and for all that were
found from there. -/
theorem shortestRecursive_complete (o : Order) {depth : Nat} {pl : Plan} {jobs : List Job} (hne : jobs ≠ [])
    (h : Growing T pl (jobs.map Job.link)) (ho : InOrder T o pl (jobs.map Job.link))
    (hpar : ∀ j ∈ jobs, pl.par j.link = some j.parent) (hdepth : T.unclaimed pl < depth) :
    (shortestRecursive o depth (T.state pl) (jobs.map (T.item pl)) = .error .overflowError ∧
      2046 < T.conf.rows.length) ∨
    ∃ pl', shortestRecursive o depth (T.state pl) (jobs.map (T.item pl)) =
        .ok (T.state pl', jobs.map (T.item pl')) ∧ Finished T pl pl' jobs ∧ InOrder T o pl' [] := by
  induction depth generalizing pl jobs with
  | zero => exact absurd hdepth (Nat.not_lt_zero _)
  | succ depth ih =>
    rw [shortestRecursive_succ]
    rcases @visitAll_visited T o jobs [] pl (by rwa [List.append_nil]) (by rwa [List.append_nil]) hpar with
      ⟨hover, hports⟩ | ⟨mid, w, hall, hmid, hmido, hd⟩
    · rw [hover]
      exact Or.inl ⟨rfl, hports⟩
    rw [List.nil_append] at hmid hmido
    rw [hall]
    simp only [Except.bind]
    have hlower : (shortestRecursive o depth (T.state mid) ((w.flatMap Branch.jobs).map (T.item mid)) =
          .error .overflowError ∧ w.flatMap Branch.jobs ≠ [] ∧ 2046 < T.conf.rows.length) ∨
        ∃ low, (if (w.flatMap Branch.jobs).map (T.item mid) = [] then .ok (T.state mid, [])
          else shortestRecursive o depth (T.state mid) ((w.flatMap Branch.jobs).map (T.item mid))) =
          .ok (T.state low, (w.flatMap Branch.jobs).map (T.item low)) ∧
        Finished T mid low (w.flatMap Branch.jobs) ∧ InOrder T o low [] := by
      by_cases hnil : w.flatMap Branch.jobs = []
      · refine Or.inr ⟨mid, by simp [hnil], ⟨by simpa [hnil] using hmid, by rw [hnil]; exact .refl mid, ?_⟩,
          by simpa [hnil] using hmido⟩
        rintro k (hk | hk) hs
        · simp [hnil] at hk
        · simp [hk] at hs
      · have hlt := hd.unclaimed_lt hmid hnil
        rw [if_neg (by simpa using hnil)]
        rcases ih hnil hmid hmido (fun n hn => hd.par_next hn) (by omega) with ⟨hover, hports⟩ | hlow
        · exact Or.inl ⟨hover, hnil, hports⟩
        · exact Or.inr hlow
    rcases hlower with ⟨hover, hnil, hports⟩ | ⟨low, hrun, hlow, hlowo⟩
    · rw [if_neg (by simpa using hnil), hover]
      exact Or.inl ⟨rfl, hports⟩
    right
    have hhas : ∀ x ∈ w, T.Has x.1.link := fun x hx => (h.pending _ (List.mem_map_of_mem (hd.mem_jobs hx))).1
    obtain ⟨paths, hpull, hkeep, hset⟩ :=
      pullUp_branches hlow.growing hhas (fun x hx => hd.par_low hpar hlow hx)
      (by rw [hd.branches]; exact h.nodup) hd.apart
    rw [hd.branches] at hpull hkeep
    have hfin := hd.finished h hpar hmid hlow hkeep hset
    refine ⟨{ low with paths := paths }, ?_, hfin, hlowo.repath paths⟩
    have hreport : reportLinks (jobs.map (T.item { low with paths := paths })) = .ok () := by
      refine reportLinks_ok hfin.growing fun j hj => ?_
      rw [← hd.branches] at hj
      obtain ⟨x, hx, rfl⟩ := List.mem_map.mp hj
      exact hd.complete_level h hpar hmid hlow hx (hset x hx)
    rw [hrun, hd.items_low hpar hlow]
    simp only
    cases hj : jobs.map (T.item low) with
    | nil => exact absurd (List.map_eq_nil_iff.mp hj) hne
    | cons x rest => simp only [hpull x rest hj, hreport]

/-! ## fp_allocate_labels -/

/-- What the allocation leaves behind. -/
structure Allocated (T : Wiring) (pl : Plan) : Prop where
  growing : Growing T pl []
  visited : ∀ d, T.Reachable d → (pl.up d).isSome
  complete : ∀ k, (pl.par k).isSome → T.Has k → Complete T pl k

theorem Growing.visited {pl : Plan} (h : Growing T pl []) {d : Nat} (hd : T.Reachable d) :
    (pl.up d).isSome := by
  induction hd with
  | @fp r hr => exact h.done (.fp r) (-1) hr (h.par_fp r) List.not_mem_nil
  | @rem r hr _ ih =>
    obtain ⟨m, hm⟩ := Option.isSome_iff_exists.mp (h.found _ ih r hr (Or.inl rfl))
    rcases h.above _ _ hm with rfl | rfl
    · have := h.done (.isl r) _ hr hm List.not_mem_nil
      rwa [Link.far, if_pos rfl] at this
    · obtain ⟨d, hd, hv⟩ := h.par_isl r _ hm
      rwa [Nat.cast_inj.mp hd]
  | @near r hr _ ih =>
    obtain ⟨m, hm⟩ := Option.isSome_iff_exists.mp (h.found _ ih r hr (Or.inr rfl))
    rcases h.above _ _ hm with rfl | rfl
    · obtain ⟨d, hd, hv⟩ := h.par_isl r _ hm
      rwa [Nat.cast_inj.mp hd]
    · have := h.done (.isl r) _ hr hm List.not_mem_nil
      rwa [Link.far, if_neg fun e => T.no_loop r hr (Nat.cast_inj.mp e).symm] at this

theorem fpAllocateLabels_ordered (o : Order) (hfp : T.fpconf.rows ≠ []) :
    (fpAllocateLabels o T.read = .error .overflowError ∧ 2046 < T.conf.rows.length) ∨
    ∃ pl, fpAllocateLabels o T.read = .ok (T.state pl) ∧ Allocated T pl ∧ InOrder T o pl [] := by
  have hmem : ∀ r, r ∈ RFFPConf.getEntriesAll o T.read.fpconf ↔ r ∈ T.fpconf.rows := by
    intro r
    rw [RFFPConf.getEntriesAll, Table.mem_find]
    exact and_iff_left rfl
  have hnd : (RFFPConf.getEntriesAll o T.read.fpconf).Nodup := Table.find_nodup ..
  set fps := RFFPConf.getEntriesAll o T.read.fpconf with hfps
  have hne : fps ≠ [] := by
    obtain ⟨r, hr⟩ := List.exists_mem_of_ne_nil _ hfp
    exact List.ne_nil_of_mem ((hmem r).mpr hr)
  let jobs : List Job := fps.map fun r => ⟨.fp r, -1⟩
  have hjobs : jobs.map Job.link = fps.map Link.fp := by
    rw [List.map_map]
    rfl
  have hitems : (fps.map fun r => (⟨r.val.ctId, -1, .fp r⟩ : CheckItem)) = jobs.map (T.item .init) := by
    rw [List.map_map]
    refine List.map_congr_left fun r hr => ?_
    obtain ⟨hct, hpaths, hmaster⟩ := T.fpconf_read r ((hmem r).mp hr)
    have hlink : Plan.init.link (.fp r) = .fp r := by
      simp only [Plan.link, Plan.fpVal, Plan.init, Option.getD_some, ← hpaths, ← hmaster]
    simp only [Function.comp_apply, Wiring.item, hlink, hct]
  have hcall : fpAllocateLabels o T.read =
      (shortestRecursive o (T.islconf.rows.length + 1) (T.state .init) (jobs.map (T.item .init))).map
        Prod.fst := by
    rw [T.state_init, ← hitems, fpAllocateLabels, ← hfps]
    cases hc : fps with
    | nil => exact absurd hc hne
    | cons r rs =>
      simp only [bind, Except.bind]
      rw [show T.read.islconf = T.islconf from rfl]
      cases shortestRecursive o (T.islconf.rows.length + 1) T.read
        (List.map (fun r => (⟨r.val.ctId, -1, .fp r⟩ : CheckItem)) (r :: rs)) <;> rfl
  have hinit := growing_init T fps hnd hmem
  have hinito : InOrder T o .init (fps.map Link.fp) := ordered_init T o
  rw [← hjobs] at hinit hinito
  have hdepth : T.unclaimed .init < T.islconf.rows.length + 1 := Nat.lt_succ_of_le List.countP_le_length
  have hpar : ∀ j ∈ jobs, Plan.init.par j.link = some j.parent := by
    intro j hj
    obtain ⟨r, -, rfl⟩ := List.mem_map.mp hj
    rfl
  rw [hcall]
  rcases shortestRecursive_complete o (List.map_eq_nil_iff.not.mpr hne) hinit hinito hpar hdepth with
    ⟨hover, hports⟩ | ⟨pl, hrun, ⟨hgrow, -, hcomplete⟩, hord⟩
  · rw [hover]
    exact Or.inl ⟨rfl, hports⟩
  · rw [hrun]
    refine Or.inr ⟨pl, rfl, ⟨hgrow, fun d => hgrow.visited, fun k hs hk => hcomplete k ?_ hs⟩, hord⟩
    cases k with
    | fp r =>
      left
      rw [hjobs]
      exact List.mem_map_of_mem ((hmem r).mpr hk)
    | isl r => exact Or.inr rfl

theorem fpAllocateLabels_allocated {T : Topology} (o : Order) (hfp : T.fpconf.rows ≠ []) :
    ∃ pl, fpAllocateLabels o T.read = .ok (T.state pl) ∧ Allocated T.toWiring pl := by
  rcases fpAllocateLabels_ordered o hfp with ⟨-, hports⟩ | ⟨pl, hrun, h, -⟩
  · have := T.ports_le
    omega
  · exact ⟨pl, hrun, h⟩

/-! ## The tree -/

/-- The switch hangs below the other one. -/
def Plan.Ascends (pl : Plan) (e e' : Nat) : Prop :=
  ∃ r, pl.up e = some (.isl r) ∧ pl.par (.isl r) = some (e' : Int)

theorem ascends_unique (pl : Plan) : Relator.RightUnique pl.Ascends := by
  rintro a b c ⟨r, hr, hb⟩ ⟨s, hs, hc⟩
  rw [hr, Option.some.injEq, Link.isl.injEq] at hs
  rw [hs, hc, Option.some.injEq, Nat.cast_inj] at hb
  exact hb.symm

section Tree

variable {pl : Plan} {k c : Link} {p : Row RFConfigEntry}

theorem Beneath.up (hb : Beneath T pl.par pl.up k p) : ∃ m, pl.par k = some m ∧ pl.up (k.far m) = some k := by
  cases hb with
  | own hm hu => exact ⟨_, hm, hu⟩
  | via hm hu => exact ⟨_, hm, hu⟩

theorem Beneath.mem (hb : Beneath T pl.par pl.up k p) : p ∈ T.conf.rows := by
  induction hb with
  | own _ _ hp => exact hp
  | via _ _ _ _ _ ih => exact ih

theorem Beneath.ascends (hb : Beneath T pl.par pl.up k p) {m : Int} (hm : pl.par k = some m) :
    Relation.ReflTransGen pl.Ascends p.val.dpId (k.far m) := by
  induction hb generalizing m with
  | own hm' _ _ hd =>
    obtain rfl := Option.some.inj (hm.symm.trans hm')
    rw [hd]
  | via hm' _ _ hr hb ih =>
    obtain rfl := Option.some.inj (hm.symm.trans hm')
    obtain ⟨n, hn, hu⟩ := hb.up
    exact (ih hn).tail ⟨_, hu, by rw [hr]⟩

theorem Beneath.root_unique {r s : Row RFFPConfEntry} (hr : Beneath T pl.par pl.up (.fp r) p)
    (hs : Beneath T pl.par pl.up (.fp s) p) : r = s := by
  -- A switch at a fast path link does not hang below another one.
  have htop : ∀ {r : Row RFFPConfEntry} {d : Nat}, pl.up r.val.dpId = some (.fp r) →
      Relation.ReflTransGen pl.Ascends r.val.dpId d → r.val.dpId = d := by
    intro r d hu ha
    rcases Relation.ReflTransGen.cases_head ha with he | ⟨e, ⟨i, hi, -⟩, -⟩
    · exact he
    · rw [hu] at hi
      cases hi
  obtain ⟨m, hm, hur⟩ := hr.up
  obtain ⟨n, hn, hus⟩ := hs.up
  have hsame : r.val.dpId = s.val.dpId := by
    rcases Relation.ReflTransGen.total_of_right_unique (ascends_unique pl) (hr.ascends hm)
      (hs.ascends hn) with
      ha | ha
    · exact htop hur ha
    · exact (htop hus ha).symm
  have hur' : pl.up r.val.dpId = some (.fp r) := hur
  have hus' : pl.up s.val.dpId = some (.fp s) := hus
  rw [hsame, hus', Option.some.injEq, Link.fp.injEq] at hur'
  exact hur'.symm

variable (h : Growing T pl [])

include h

theorem ascends_lvl {a b : Nat} (hab : Relation.ReflTransGen pl.Ascends a b) :
    a = b ∨ pl.lvl b < pl.lvl a := by
  induction hab with
  | refl => exact Or.inl rfl
  | @tail b c _ hstep ih =>
    obtain ⟨r, hu, hp⟩ := hstep
    have := h.up_lvl b r c hu hp
    rcases ih with rfl | ih <;> right <;> omega

theorem Beneath.lvl {r : Row RFISLConfEntry} {d : Nat} (hb : Beneath T pl.par pl.up (.isl r) p)
    (hr : pl.par (.isl r) = some (d : Int)) : pl.lvl ((Link.isl r).far d) = pl.lvl d + 1 := by
  obtain ⟨m, hm, hu⟩ := hb.up
  obtain rfl := Option.some.inj (hr.symm.trans hm)
  exact h.up_lvl _ r d hu hr

theorem Beneath.not_own {r : Row RFISLConfEntry} {d : Nat} (hb : Beneath T pl.par pl.up (.isl r) p)
    (hr : pl.par (.isl r) = some (d : Int)) : p.val.dpId ≠ d := by
  intro hd
  have hl := hb.lvl h hr
  have ha := ascends_lvl h (hb.ascends hr)
  rw [hd] at ha
  rcases ha with ha | ha
  · rw [← ha] at hl
    omega
  · omega

theorem Beneath.link_unique {r s : Row RFISLConfEntry} {d : Nat} (hr : Beneath T pl.par pl.up (.isl r) p)
    (hs : Beneath T pl.par pl.up (.isl s) p) (hrd : pl.par (.isl r) = some (d : Int))
    (hsd : pl.par (.isl s) = some (d : Int)) : r = s := by
  have hlr := hr.lvl h hrd
  have hls := hs.lvl h hsd
  have hsame : (Link.isl r).far d = (Link.isl s).far d := by
    rcases Relation.ReflTransGen.total_of_right_unique (ascends_unique pl) (hr.ascends hrd)
      (hs.ascends hsd) with
      ha | ha <;> rcases ascends_lvl h ha with he | he
    · exact he
    · omega
    · exact he.symm
    · omega
  obtain ⟨m, hm, hur⟩ := hr.up
  obtain rfl := Option.some.inj (hrd.symm.trans hm)
  obtain ⟨n, hn, hus⟩ := hs.up
  obtain rfl := Option.some.inj (hsd.symm.trans hn)
  rw [hsame, hus, Option.some.injEq, Link.isl.injEq] at hur
  exact hur.symm

theorem Beneath.root (hb : Beneath T pl.par pl.up k p) :
    ∃ r, r ∈ T.fpconf.rows ∧ Beneath T pl.par pl.up (.fp r) p := by
  obtain ⟨m, hm, hu⟩ := hb.up
  induction hn : pl.lvl (k.far m) using Nat.strong_induction_on generalizing k m with
  | _ n ih =>
    have hhas := (h.up_link _ _ hu).1
    cases k with
    | fp r => exact ⟨r, hhas, hb⟩
    | isl r =>
      obtain ⟨e, rfl, he⟩ := h.par_isl r m hm
      obtain ⟨c, hc⟩ := Option.isSome_iff_exists.mp he
      obtain ⟨-, -, m', hm', -, hfar⟩ := h.up_link e c hc
      have hc' : pl.up (c.far m') = some c := by rw [hfar, hc]
      have hlvl := h.up_lvl _ r e hu hm
      refine ih (pl.lvl (c.far m')) ?_ (.via hm' hc' hhas (by rw [hfar, hm]) hb) m' hm' hc' rfl
      rw [hfar]
      omega

end Tree

end RouteFlow
