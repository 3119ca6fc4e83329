import RouteFlow.Lib.Bfs
import RouteFlow.LabelTree

/-!
# The order of the search

Each round takes the first link that waits, and the links it finds go to the end. So the switches are
reached in a breadth-first order.
-/

namespace RouteFlow

open Store Bfs

/-! ## The order of the rows -/

namespace Wiring

variable (T : Wiring) (o : Order)

/-- The switches with a fast path link, as the rows of the links come. -/
def roots : List Nat := (RFFPConf.getEntriesAll o T.fpconf).map fun r => r.val.dpId

/-- The switches next to a switch, as the rows of its ISLs come. -/
def neighbours (d : Nat) : List Nat := (T.islsAt o d).map fun r => (Link.isl r).far d

/-- All switches that links lead to. -/
def switches : List Nat :=
  T.fpconf.rows.map (fun r => r.val.dpId) ++ T.islconf.rows.flatMap fun r => [r.val.dpId, r.val.remId]

/-- The switches that can be reached, in breadth-first order. -/
def search : List Nat := Bfs.search (T.roots o) (T.neighbours o) T.switches.length

/-- The place of the switch in the search. -/
def num (d : Nat) : Nat := (T.search o).idxOf d

variable {T o}

theorem roots_subset : T.roots o ⊆ T.switches := by
  intro d hd
  obtain ⟨r, hr, rfl⟩ := List.mem_map.mp hd
  exact List.mem_append_left _ (List.mem_map_of_mem ((Table.mem_find ..).mp hr).1)

theorem neighbours_subset (d : Nat) : T.neighbours o d ⊆ T.switches := by
  intro e he
  obtain ⟨r, hr, rfl⟩ := List.mem_map.mp he
  refine List.mem_append_right _ (List.mem_flatMap.mpr ⟨r, (mem_islsAt.mp hr).1, ?_⟩)
  rw [Link.far]
  split <;> simp

end Wiring

/-! ## Numbers -/

/-- Where the parent of a link comes in the order. dp0 is before all switches. -/
def Plan.rank (pl : Plan) (num : Nat → Nat) (k : Link) : Nat :=
  match pl.par k with
  | some (.ofNat d) => num d + 1
  | _ => 0

theorem Plan.rank_nat {pl : Plan} {k : Link} {d : Nat} (h : pl.par k = some (d : Int)) (num : Nat → Nat) :
    pl.rank num k = num d + 1 := by
  have h' : pl.par k = some (Int.ofNat d) := h
  simp only [Plan.rank, h']

theorem Plan.rank_dp0 {pl : Plan} {k : Link} (h : pl.par k = some (-1)) (num : Nat → Nat) :
    pl.rank num k = 0 := by
  have h' : pl.par k = some (Int.negSucc 0) := h
  simp only [Plan.rank, h']

/-- `num` are the numbers of the switches reached so far, in this order, and `n` is the next one. -/
structure Numbered (T : Wiring) (pl : Plan) (num : Nat → Nat) (n : Nat) (pend : List Link) : Prop where
  lt : ∀ d, (pl.up d).isSome → num d < n
  inj : ∀ d e, (pl.up d).isSome → (pl.up e).isSome → num d = num e → d = e
  later : ∀ r (d : Nat), T.Has (.isl r) → pl.par (.isl r) = some (d : Int) →
    (pl.up ((Link.isl r).far d)).isSome → num d < num ((Link.isl r).far d)
  sorted : pend.Pairwise fun k c => pl.rank num k ≤ pl.rank num c
  turn : ∀ d k, pl.up d = some k → ∀ c ∈ pend, pl.rank num k ≤ pl.rank num c
  ordered : ∀ d e k c, pl.up d = some k → pl.up e = some c → num d < num e → pl.rank num k ≤ pl.rank num c
  first : ∀ d k, pl.up d = some k → ∀ c m, T.Has c → pl.par c = some m → c.far m = d →
    pl.rank num k ≤ pl.rank num c
  lvl_fp : ∀ d r, pl.up d = some (.fp r) → pl.lvl d = 0
  marked : ∀ k m, T.Has k → pl.par k = some m → k ∉ pend → T.Portless (k.far m) → pl.master k = some m

/-- The switch that a link is to reach. -/
def Plan.farOf (pl : Plan) (k : Link) : Nat := k.far ((pl.par k).getD (-1))

theorem Plan.farOf_eq {pl : Plan} {k : Link} {m : Int} (h : pl.par k = some m) : pl.farOf k = k.far m := by
  rw [farOf, h]
  rfl

/-- The switches reached so far are those that a search over the rows reaches first, and the links that
wait are in the order of that search. -/
structure Follows (T : Wiring) (o : Order) (pl : Plan) (num : Nat → Nat) (n : Nat) (pend : List Link)
    (reached : List Nat) : Prop where
  up_iff : ∀ d, (pl.up d).isSome ↔ d ∈ reached
  num_eq : ∀ d ∈ reached, num d = reached.idxOf d
  length_eq : reached.length = n
  search_eq : Bfs.search (T.roots o) (T.neighbours o) reached.length = reached
  waiting_eq : waiting (T.roots o) (T.neighbours o) reached = (pend.map pl.farOf).filter fun v => v ∉ reached

/-- The switches reached so far can be numbered. If the rows keep their places, the rows give the numbers. -/
def InOrder (T : Wiring) (o : Order) (pl : Plan) (pend : List Link) : Prop :=
  ∃ num n, Numbered T pl num n pend ∧ (o.ByKeys → ∃ reached, Follows T o pl num n pend reached)

theorem InOrder.repath {T : Wiring} {o : Order} {pl : Plan} {pend : List Link} (h : InOrder T o pl pend)
    (paths : Link → Option (List (Nat × Nat))) : InOrder T o { pl with paths := paths } pend := by
  obtain ⟨num, n, hs, hrows⟩ := h
  refine ⟨num, n, ⟨hs.lt, hs.inj, hs.later, hs.sorted, hs.turn, hs.ordered, hs.first, hs.lvl_fp, hs.marked⟩,
    fun ho => ?_⟩
  obtain ⟨reached, hf⟩ := hrows ho
  exact ⟨reached, hf.up_iff, hf.num_eq, hf.length_eq, hf.search_eq, hf.waiting_eq⟩

theorem ordered_init (T : Wiring) (o : Order) :
    InOrder T o .init ((RFFPConf.getEntriesAll o T.fpconf).map Link.fp) := by
  refine ⟨fun _ => 0, 0, ⟨by simp [Plan.init], by simp [Plan.init], by simp [Plan.init], ?_,
    by simp [Plan.init], by simp [Plan.init], by simp [Plan.init], by simp [Plan.init],
      fun k m hk h hp => ?_⟩, fun _ => ⟨[], ?_⟩⟩
  · refine List.pairwise_of_forall_mem_list fun k hk c _ => ?_
    obtain ⟨r, -, rfl⟩ := List.mem_map.mp hk
    rw [Plan.rank_dp0 rfl]
    exact Nat.zero_le _
  · cases k with
    | fp r => exact absurd (List.mem_map_of_mem ((Table.mem_find ..).mpr ⟨hk, rfl⟩)) hp
    | isl r => simp [Plan.init] at h
  · refine ⟨by simp [Plan.init], by simp, rfl, rfl, ?_⟩
    rw [waiting, List.flatMap_nil, List.append_nil, List.map_map]
    rfl

theorem par_cases {T : Wiring} {pl : Plan} {pend : List Link} (h : Growing T pl pend) {k : Link} {m : Int}
    (hm : pl.par k = some m) : m = -1 ∨ ∃ d : Nat, m = d ∧ (pl.up d).isSome := by
  cases k with
  | fp r =>
    rw [h.par_fp r, Option.some.injEq] at hm
    exact Or.inl hm.symm
  | isl r => exact Or.inr (h.par_isl r m hm)

section Round

variable {T : Wiring} {pl pl' : Plan} {j : Job} {rest : List Link} {fs : List (Row RFISLConfEntry)}
  {num : Nat → Nat} {n : Nat} (h : Growing T pl (j.link :: rest)) (hpar : pl.par j.link = some j.parent)
  (hv : Visited T pl pl' j fs) (ht : Turn T pl pl' j) (hs : Numbered T pl num n (j.link :: rest))

include h hs in
theorem rank_le {k : Link} {m : Int} (hm : pl.par k = some m) : pl.rank num k ≤ n := by
  rcases par_cases h hm with rfl | ⟨d, rfl, hd⟩
  · rw [Plan.rank_dp0 hm]
    exact Nat.zero_le _
  · rw [Plan.rank_nat hm]
    exact hs.lt d hd

/-! ## A round that finds its switch already reached -/

include hpar hv ht hs in
theorem Numbered.skip (hold : (pl.up j.far).isSome) : Numbered T pl' num n (rest ++ fs.map Link.isl) := by
  have hfs : fs = [] := by
    refine List.eq_nil_iff_forall_not_mem.mpr fun r hr => ?_
    rw [(hv.fresh r hr).1] at hold
    exact absurd hold (by simp)
  have hup : pl'.up = pl.up := by
    funext d
    by_cases hd : d = j.far
    · exact (ht.old d (Or.inr (hd ▸ hold))).1
    · exact (ht.old d (Or.inl hd)).1
  have hlvl : pl'.lvl = pl.lvl := by
    funext d
    by_cases hd : d = j.far
    · exact (ht.old d (Or.inr (hd ▸ hold))).2
    · exact (ht.old d (Or.inl hd)).2
  have hpar' : pl'.par = pl.par := by
    funext k
    cases hk : pl.par k with
    | some m => exact hv.grows.par k m hk
    | none =>
      by_contra hne
      have := hv.finds k hk (Option.ne_none_iff_isSome.mp hne)
      simp [hfs] at this
  have hrank : pl'.rank num = pl.rank num := by
    funext k
    simp only [Plan.rank, hpar']
  rw [hfs, List.map_nil, List.append_nil]
  constructor
  · rw [hup]
    exact hs.lt
  · rw [hup]
    exact hs.inj
  · rw [hup, hpar']
    exact hs.later
  · rw [hrank]
    exact (List.pairwise_cons.mp hs.sorted).2
  · rw [hup, hrank]
    exact fun d k hk c hc => hs.turn d k hk c (List.mem_cons_of_mem _ hc)
  · rw [hup, hrank]
    exact hs.ordered
  · rw [hup, hrank, hpar']
    exact hs.first
  · rw [hup, hlvl]
    exact hs.lvl_fp
  · rw [hpar']
    intro k m hk hm hp hpl
    by_cases hkj : k = j.link
    · subst hkj
      obtain rfl : j.parent = m := Option.some.inj (hpar.symm.trans hm)
      exact ht.marked (Or.inr hpl)
    · have hmaster := (hv.grows.link k (by rw [hm]; rfl) (by simpa using hkj)).2
      rw [hmaster]
      refine hs.marked k m hk hm ?_ hpl
      rw [List.mem_cons, not_or]
      exact ⟨hkj, hp⟩

/-! ## A round that reaches its switch -/

section New

variable (hnew : pl.up j.far = none)

include ht hnew in
theorem up_cases {d : Nat} {k : Link} (hk : pl'.up d = some k) :
    d = j.far ∧ k = j.link ∨ d ≠ j.far ∧ pl.up d = some k := by
  by_cases hd : d = j.far
  · rw [hd, (ht.new hnew).1, Option.some.injEq] at hk
    exact Or.inl ⟨hd, hk.symm⟩
  · rw [(ht.old d (Or.inl hd)).1] at hk
    exact Or.inr ⟨hd, hk⟩

include hv in
theorem found_cases {k : Link} {m : Int} (hm : pl'.par k = some m) :
    pl.par k = some m ∨ k ∈ fs.map Link.isl ∧ m = (j.far : Int) := by
  cases hk : pl.par k with
  | some m' =>
    rw [hv.grows.par k m' hk] at hm
    exact Or.inl hm
  | none =>
    have hf := hv.finds k hk (by rw [hm]; rfl)
    obtain ⟨r, hr, rfl⟩ := List.mem_map.mp hf
    rw [(hv.hangs.below r hr).2, Option.some.injEq] at hm
    exact Or.inr ⟨hf, hm.symm⟩

include h hv hnew in
theorem rank_old {k : Link} {m : Int} (hm : pl.par k = some m) :
    pl'.rank (Function.update num j.far n) k = pl.rank num k := by
  have hm' := hv.grows.par k m hm
  rcases par_cases h hm with rfl | ⟨d, rfl, hd⟩
  · rw [Plan.rank_dp0 hm, Plan.rank_dp0 hm']
  · have hne : d ≠ j.far := Growing.ne_of_reached hnew hd
    rw [Plan.rank_nat hm, Plan.rank_nat hm', Function.update_of_ne hne]

include hv in
theorem rank_found {k : Link} (hk : k ∈ fs.map Link.isl) :
    pl'.rank (Function.update num j.far n) k = n + 1 := by
  obtain ⟨r, hr, rfl⟩ := List.mem_map.mp hk
  rw [Plan.rank_nat (hv.hangs.below r hr).2, Function.update_self]

include h in
theorem up_par {d : Nat} {k : Link} (hk : pl.up d = some k) : ∃ m, pl.par k = some m := by
  obtain ⟨-, -, m, hm, -⟩ := h.up_link d k hk
  exact ⟨m, hm⟩

include h hpar hv ht hs hnew in
theorem turn_next {d : Nat} {k c : Link} (hk : pl'.up d = some k) (hc : c ∈ rest ++ fs.map Link.isl) :
    pl'.rank (Function.update num j.far n) k ≤ pl'.rank (Function.update num j.far n) c := by
  have hk' : ∃ m, pl.par k = some m := by
    rcases up_cases ht hnew hk with ⟨-, rfl⟩ | ⟨-, hk⟩
    · exact ⟨_, hpar⟩
    · exact up_par h hk
  obtain ⟨m, hm⟩ := hk'
  rw [rank_old h hv hnew hm]
  rcases List.mem_append.mp hc with hc | hc
  · obtain ⟨-, hsome, -⟩ := h.pending c (List.mem_cons_of_mem _ hc)
    obtain ⟨m', hm'⟩ := Option.isSome_iff_exists.mp hsome
    rw [rank_old h hv hnew hm']
    rcases up_cases ht hnew hk with ⟨-, rfl⟩ | ⟨-, hk⟩
    · exact (List.pairwise_cons.mp hs.sorted).1 c hc
    · exact hs.turn d k hk c (List.mem_cons_of_mem _ hc)
  · rw [rank_found hv hc]
    exact Nat.le_succ_of_le (rank_le h hs hm)

include h hv hs hnew in
theorem sorted_next : (rest ++ fs.map Link.isl).Pairwise fun k c =>
    pl'.rank (Function.update num j.far n) k ≤ pl'.rank (Function.update num j.far n) c := by
  have hold : ∀ k ∈ rest, ∃ m, pl.par k = some m := fun k hk =>
    Option.isSome_iff_exists.mp (h.pending k (List.mem_cons_of_mem _ hk)).2.1
  refine List.pairwise_append.mpr ⟨?_, ?_, fun k hk c hc => ?_⟩
  · refine (List.pairwise_cons.mp hs.sorted).2.imp_of_mem fun {k c} hk hc hle => ?_
    obtain ⟨m, hm⟩ := hold k hk
    obtain ⟨m', hm'⟩ := hold c hc
    rwa [rank_old h hv hnew hm, rank_old h hv hnew hm']
  · refine List.pairwise_of_forall_mem_list fun k hk c hc => ?_
    rw [rank_found hv hk, rank_found hv hc]
  · obtain ⟨m, hm⟩ := hold k hk
    rw [rank_old h hv hnew hm, rank_found hv hc]
    exact Nat.le_succ_of_le (rank_le h hs hm)

include h hv ht hs hnew in
theorem later_next {r : Row RFISLConfEntry} {d : Nat} (hr : T.Has (.isl r))
    (hp : pl'.par (.isl r) = some (d : Int)) (hfar : (pl'.up ((Link.isl r).far d)).isSome) :
    Function.update num j.far n d < Function.update num j.far n ((Link.isl r).far d) := by
  obtain ⟨k, hk⟩ := Option.isSome_iff_exists.mp hfar
  rcases found_cases hv hp with hp | ⟨hf, hd⟩
  · obtain ⟨e, he, hseen⟩ := h.par_isl r d hp
    rw [Nat.cast_inj] at he
    subst he
    have hne : d ≠ j.far := Growing.ne_of_reached hnew hseen
    rw [Function.update_of_ne hne]
    rcases up_cases ht hnew hk with ⟨he, -⟩ | ⟨he, hk⟩
    · rw [he, Function.update_self]
      exact hs.lt d hseen
    · rw [Function.update_of_ne he]
      exact hs.later r d hr hp (by rw [hk]; rfl)
  -- A link is only found from one end if the other end was not reached before.
  · exfalso
    rw [Nat.cast_inj] at hd
    subst hd
    obtain ⟨q, hq, he⟩ := List.mem_map.mp hf
    obtain rfl : q = r := Link.isl.inj he
    have hnone := (hv.fresh q hq).2
    have hatt := Link.attached_far (.isl q) (j.far : Int)
    rcases up_cases ht hnew hk with ⟨hself, -⟩ | ⟨-, hk⟩
    · rw [Link.far] at hself
      split at hself
      · rename_i hdp
        exact T.no_loop q hr ((Nat.cast_inj.mp hdp).symm.trans hself.symm)
      · rename_i hdp
        exact hdp (congrArg Nat.cast hself.symm)
    · have := h.found _ (by rw [hk]; rfl) q hr hatt
      rw [hnone] at this
      exact absurd this (by simp)

include h hpar hv ht hs hnew

theorem first_next {d : Nat} {k c : Link} {m : Int} (hk : pl'.up d = some k) (hc : T.Has c)
    (hm : pl'.par c = some m) (hfar : c.far m = d) :
    pl'.rank (Function.update num j.far n) k ≤ pl'.rank (Function.update num j.far n) c := by
  rcases found_cases hv hm with hm | ⟨hf, -⟩
  · by_cases hp : c ∈ rest
    · exact turn_next h hpar hv ht hs hnew hk (List.mem_append_left _ hp)
    · rcases up_cases ht hnew hk with ⟨rfl, rfl⟩ | ⟨-, hk⟩
      · by_cases hcj : c = j.link
        · rw [hcj]
        · have hdone := h.done c m hc hm (by rw [List.mem_cons, not_or]; exact ⟨hcj, hp⟩)
          rw [hfar, hnew] at hdone
          exact absurd hdone (by simp)
      · obtain ⟨m', hm'⟩ := up_par h hk
        rw [rank_old h hv hnew hm', rank_old h hv hnew hm]
        exact hs.first d k hk c m hc hm hfar
  · exact turn_next h hpar hv ht hs hnew hk (List.mem_append_right _ hf)

theorem ordered_next {d e : Nat} {k c : Link} (hk : pl'.up d = some k) (hc : pl'.up e = some c)
    (hlt : Function.update num j.far n d < Function.update num j.far n e) :
    pl'.rank (Function.update num j.far n) k ≤ pl'.rank (Function.update num j.far n) c := by
  rcases up_cases ht hnew hk with ⟨rfl, rfl⟩ | ⟨hd, hk⟩ <;> rcases up_cases ht hnew hc with
    ⟨rfl, rfl⟩ | ⟨he, hc⟩
  · exact Nat.le_refl _
  · rw [Function.update_self, Function.update_of_ne he] at hlt
    have := hs.lt e (by rw [hc]; rfl)
    omega
  · obtain ⟨m, hm⟩ := up_par h hk
    rw [rank_old h hv hnew hm, rank_old h hv hnew hpar]
    exact hs.turn d k hk _ List.mem_cons_self
  · obtain ⟨m, hm⟩ := up_par h hk
    obtain ⟨m', hm'⟩ := up_par h hc
    rw [Function.update_of_ne hd, Function.update_of_ne he] at hlt
    rw [rank_old h hv hnew hm, rank_old h hv hnew hm']
    exact hs.ordered d e k c hk hc hlt

theorem Numbered.next :
    Numbered T pl' (Function.update num j.far n) (n + 1) (rest ++ fs.map Link.isl) where
  lt d hd := by
    obtain ⟨k, hk⟩ := Option.isSome_iff_exists.mp hd
    rcases up_cases ht hnew hk with ⟨rfl, -⟩ | ⟨hne, hk⟩
    · rw [Function.update_self]
      exact Nat.lt_succ_self n
    · rw [Function.update_of_ne hne]
      exact Nat.lt_succ_of_lt (hs.lt d (by rw [hk]; rfl))
  inj d e hd he heq := by
    obtain ⟨k, hk⟩ := Option.isSome_iff_exists.mp hd
    obtain ⟨c, hc⟩ := Option.isSome_iff_exists.mp he
    rcases up_cases ht hnew hk with ⟨rfl, -⟩ | ⟨hdne, hk⟩ <;> rcases up_cases ht hnew hc with
      ⟨rfl, -⟩ | ⟨hene, hc⟩
    · rfl
    · rw [Function.update_self, Function.update_of_ne hene] at heq
      have := hs.lt e (by rw [hc]; rfl)
      omega
    · rw [Function.update_self, Function.update_of_ne hdne] at heq
      have := hs.lt d (by rw [hk]; rfl)
      omega
    · rw [Function.update_of_ne hdne, Function.update_of_ne hene] at heq
      exact hs.inj d e (by rw [hk]; rfl) (by rw [hc]; rfl) heq
  later r d hr hp hfar := later_next h hv ht hs hnew hr hp hfar
  sorted := sorted_next h hv hs hnew
  turn d k hk c hc := turn_next h hpar hv ht hs hnew hk hc
  ordered d e k c hk hc hlt := ordered_next h hpar hv ht hs hnew hk hc hlt
  first d k hk c m hc hm hfar := first_next h hpar hv ht hs hnew hk hc hm hfar
  lvl_fp d r hk := by
    rcases up_cases ht hnew hk with ⟨rfl, hlink⟩ | ⟨hd, hk⟩
    · rw [(ht.new hnew).2, if_pos]
      rw [← hlink, h.par_fp r, Option.some.injEq] at hpar
      exact hpar.symm
    · rw [(ht.old d (Or.inl hd)).2]
      exact hs.lvl_fp d r hk
  marked k m hk hm hp hpl := by
    rcases found_cases hv hm with hm | ⟨hf, -⟩
    · by_cases hkj : k = j.link
      · subst hkj
        obtain rfl : j.parent = m := Option.some.inj (hpar.symm.trans hm)
        exact ht.marked (Or.inl hnew)
      · rw [(hv.grows.link k (by rw [hm]; rfl) (by simpa using hkj)).2]
        refine hs.marked k m hk hm ?_ hpl
        rw [List.mem_cons, not_or]
        exact ⟨hkj, fun hr => hp (List.mem_append_left _ hr)⟩
    · exact absurd (List.mem_append_right _ hf) hp

end New

/-! ## The order of the rows in a round -/

section Rows

variable {o : Order} {reached : List Nat} (hf : Follows T o pl num n (j.link :: rest) reached)

include h hv in
theorem farOf_next : rest.map pl'.farOf = rest.map pl.farOf := by
  refine List.map_congr_left fun k hk => ?_
  obtain ⟨m, hm⟩ := Option.isSome_iff_exists.mp (h.pending k (List.mem_cons_of_mem _ hk)).2.1
  rw [Plan.farOf_eq hm, Plan.farOf_eq (hv.grows.par k m hm)]

include h hpar hv ht hf in
theorem Follows.skip (hold : (pl.up j.far).isSome) :
    Follows T o pl' num n (rest ++ fs.map Link.isl) reached := by
  have hfs : fs = [] := by
    refine List.eq_nil_iff_forall_not_mem.mpr fun r hr => ?_
    rw [(hv.fresh r hr).1] at hold
    cases hold
  refine ⟨fun d => ?_, hf.num_eq, hf.length_eq, hf.search_eq, ?_⟩
  · have hup : pl'.up d = pl.up d := by
      by_cases hd : d = j.far
      · exact (ht.old d (Or.inr (hd ▸ hold))).1
      · exact (ht.old d (Or.inl hd)).1
    rw [hup, hf.up_iff]
  · have hfar : pl.farOf j.link ∈ reached := by
      rw [Plan.farOf_eq hpar]
      exact (hf.up_iff _).mp hold
    rw [hf.waiting_eq, hfs, List.map_nil, List.append_nil, farOf_next h hv, List.map_cons,
      List.filter_cons_of_neg (by simpa using hfar)]

include h hf in
theorem far_reached (hnew : pl.up j.far = none) {r : Row RFISLConfEntry} (hr : (Link.isl r).Attached j.far)
    (hfound : (pl.par (.isl r)).isSome) : (Link.isl r).far j.far ∈ reached := by
  obtain ⟨m, hm⟩ := Option.isSome_iff_exists.mp hfound
  obtain ⟨d, rfl, hd⟩ := h.par_isl r m hm
  have hne : d ≠ j.far := Growing.ne_of_reached hnew hd
  have hends : (Link.isl r).far j.far = d := by
    have habove : (d : Int) = (r.val.dpId : Int) ∨ (d : Int) = (r.val.remId : Int) := h.above _ _ hm
    simp only [Link.Attached, Link.dpId, Link.remId, Option.some.injEq] at hr
    rw [Link.far]
    split <;> omega
  rw [hends]
  exact (hf.up_iff d).mp hd

include h hpar hv ht hf in
theorem Follows.next (hnew : pl.up j.far = none) (hrow : fs = pl.unfound (T.islsAt o j.far)) :
    Follows T o pl' (Function.update num j.far n) (n + 1) (rest ++ fs.map Link.isl) (reached ++ [j.far]) := by
  have hnot : j.far ∉ reached := by
    rw [← hf.up_iff, hnew]
    simp
  have hwait : waiting (T.roots o) (T.neighbours o) reached =
      j.far :: (rest.map pl.farOf).filter fun v => v ∉ reached := by
    rw [hf.waiting_eq, List.map_cons, Plan.farOf_eq hpar]
    exact List.filter_cons_of_pos (decide_eq_true hnot)
  refine ⟨fun d => ?_, fun d hd => ?_, by rw [List.length_append, hf.length_eq]; rfl, ?_, ?_⟩
  · rw [List.mem_append, List.mem_singleton]
    by_cases hd : d = j.far
    · rw [hd, (ht.new hnew).1]
      simp
    · rw [(ht.old d (Or.inl hd)).1, hf.up_iff]
      simp [hd]
  · rcases List.mem_append.mp hd with hd | hd
    · have hne : d ≠ j.far := fun e => hnot (e ▸ hd)
      rw [Function.update_of_ne hne, List.idxOf_append_of_mem hd, hf.num_eq d hd]
    · obtain rfl := List.mem_singleton.mp hd
      rw [Function.update_self, List.idxOf_append_of_notMem hnot, List.idxOf_cons_self, ← hf.length_eq]
      rfl
  · rw [List.length_append, List.length_singleton, Bfs.search, hf.search_eq, Bfs.step, hwait]
  · rw [waiting_step hwait, List.map_append, farOf_next h hv, List.filter_append]
    refine congrArg₂ (· ++ ·) ?_ ?_
    · rw [List.filter_filter]
      refine List.filter_congr fun v _ => ?_
      simp only [List.mem_append, List.mem_singleton, not_or, Bool.decide_and, Bool.and_comm]
    · have hfar : (fs.map Link.isl).map pl'.farOf = fs.map fun r => (Link.isl r).far j.far := by
        rw [List.map_map]
        exact List.map_congr_left fun r hr => Plan.farOf_eq (hv.hangs.below r hr).2
      rw [hfar, hrow, Wiring.neighbours, Plan.unfound, List.filter_map, List.filter_map, List.filter_filter]
      refine congrArg _ (List.filter_congr fun r hr => ?_)
      -- Over the ISLs that are not taken again the search finds nothing new either.
      simp only [Function.comp_apply]
      rw [eq_comm, Bool.and_eq_left_iff_imp]
      intro hout
      rw [Option.isNone_iff_eq_none, ← Option.not_isSome_iff_eq_none, h.paths_iff]
      intro hfound
      refine of_decide_eq_true hout (List.mem_append_left _ ?_)
      exact far_reached h hf hnew (Wiring.mem_islsAt.mp hr).2 hfound

end Rows

include h hpar hv ht in
theorem InOrder.round {o : Order} (ho : InOrder T o pl (j.link :: rest))
    (hrow : o.ByKeys → pl.up j.far = none → fs = pl.unfound (T.islsAt o j.far)) :
    InOrder T o pl' (rest ++ fs.map Link.isl) := by
  obtain ⟨num, n, hs, hrows⟩ := ho
  cases hnew : pl.up j.far with
  | none =>
    refine ⟨_, _, hs.next h hpar hv ht hnew, fun hk => ?_⟩
    obtain ⟨reached, hf⟩ := hrows hk
    exact ⟨_, hf.next h hpar hv ht hnew (hrow hk hnew)⟩
  | some k =>
    have hold : (pl.up j.far).isSome := by rw [hnew]; rfl
    refine ⟨_, _, hs.skip hpar hv ht hold, fun hk => ?_⟩
    obtain ⟨reached, hf⟩ := hrows hk
    exact ⟨reached, hf.skip h hpar hv ht hold⟩

end Round

/-! ## The whole search -/

section Done

variable {T : Wiring} {o : Order} {pl : Plan} {num num' : Nat → Nat} {n : Nat}

theorem Numbered.congr (h : Growing T pl []) (hs : Numbered T pl num n [])
    (heq : ∀ d, (pl.up d).isSome → num d = num' d) : Numbered T pl num' n [] := by
  have hrank : pl.rank num = pl.rank num' := by
    funext k
    cases hm : pl.par k with
    | none => simp only [Plan.rank, hm]
    | some m =>
      rcases par_cases h hm with rfl | ⟨d, rfl, hd⟩
      · rw [Plan.rank_dp0 hm, Plan.rank_dp0 hm]
      · rw [Plan.rank_nat hm, Plan.rank_nat hm, heq d hd]
  constructor
  · exact fun d hd => heq d hd ▸ hs.lt d hd
  · intro d e hd he hde
    rw [← heq d hd, ← heq e he] at hde
    exact hs.inj d e hd he hde
  · intro r d hr hd hfar
    obtain ⟨e, he, hup⟩ := h.par_isl r _ hd
    rw [← heq _ hfar, ← heq d (Nat.cast_inj.mp he ▸ hup)]
    exact hs.later r d hr hd hfar
  · exact .nil
  · simp
  · intro d e k c hk hc hlt
    rw [← heq d (by rw [hk]; rfl), ← heq e (by rw [hc]; rfl)] at hlt
    rw [← hrank]
    exact hs.ordered d e k c hk hc hlt
  · rw [← hrank]
    exact hs.first
  · exact hs.lvl_fp
  · exact hs.marked

theorem Follows.search {reached : List Nat} (hf : Follows T o pl num n [] reached) :
    T.search o = reached := by
  have hstop : waiting (T.roots o) (T.neighbours o)
      (Bfs.search (T.roots o) (T.neighbours o) reached.length) = [] := by
    rw [hf.search_eq, hf.waiting_eq]
    rfl
  have hle : reached.length ≤ T.switches.length := by
    have hnodup : (Bfs.search (T.roots o) (T.neighbours o) reached.length).Nodup := search_nodup _
    have hsub : Bfs.search (T.roots o) (T.neighbours o) reached.length ⊆ T.switches :=
      search_subset Wiring.roots_subset Wiring.neighbours_subset _
    rw [hf.search_eq] at hnodup hsub
    exact (hnodup.subperm hsub).length_le
  rw [Wiring.search, search_stays hstop hle, hf.search_eq]

theorem InOrder.numbered (h : Growing T pl []) (hord : InOrder T o pl []) :
    ∃ num n, Numbered T pl num n [] ∧ (o.ByKeys → num = T.num o) := by
  obtain ⟨num, n, hs, hrows⟩ := hord
  by_cases ho : o.ByKeys
  · obtain ⟨reached, hf⟩ := hrows ho
    refine ⟨T.num o, n, hs.congr h fun d hd => ?_, fun _ => rfl⟩
    rw [Wiring.num, hf.search]
    exact hf.num_eq d ((hf.up_iff d).mp hd)
  · exact ⟨num, n, hs, fun hk => absurd hk ho⟩

end Done

end RouteFlow
