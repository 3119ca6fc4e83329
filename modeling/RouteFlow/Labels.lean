import RouteFlow.Topology

/-!
# The rounds of the label allocation

What the loops of `shortest_recursive` do to the tables, as changes of the plan.
-/

namespace RouteFlow

open Store

variable {T : Wiring} {pl : Plan}

/-! ## The loop over the ports -/

theorem Plan.assign_cons (pl : Plan) {p : Row RFConfigEntry} {ps : List (Row RFConfigEntry)} (h : p ∉ ps) :
    (pl.assign [p]).assign ps = pl.assign (p :: ps) := by
  have hlab : ((pl.assign [p]).assign ps).lab = (pl.assign (p :: ps)).lab := by
    funext q
    by_cases hq : q = p
    · subst hq; simp [assign, h]
    · have hidx : (p :: ps).idxOf q = ps.idxOf q + 1 := List.idxOf_cons_ne _ (Ne.symm hq)
      by_cases hm : q ∈ ps
      · simp only [assign, hm, hidx, List.mem_cons, or_true, if_true, List.length_singleton]
        congr 1; omega
      · simp [assign, hm, hq]
  have hlabel : ((pl.assign [p]).assign ps).label = (pl.assign (p :: ps)).label := by
    simp only [assign, List.length_cons, List.length_nil]; omega
  exact Plan.ext hlabel hlab rfl rfl rfl rfl rfl

theorem Plan.entries_cons (pl : Plan) {p : Row RFConfigEntry} {ps : List (Row RFConfigEntry)} (h : p ∉ ps) :
    pl.entries (p :: ps) = (pl.label, p.val.vmPort) :: (pl.assign [p]).entries ps := by
  simp only [entries, List.map_cons, List.idxOf_cons_self, Nat.add_zero, List.cons.injEq, true_and, assign,
    List.length_singleton]
  apply List.map_congr_left
  intro q hq
  have hne : p ≠ q := fun e => h (e ▸ hq)
  rw [List.idxOf_cons_ne _ hne]
  congr 1
  omega

theorem Wiring.put_port {p : Row RFConfigEntry} (hp : p ∈ T.conf.rows) :
    { T.state pl with
      conf := (T.state pl).conf.put p.id { pl.portVal p with fpLabel := some pl.label }
      label := pl.label + 1 } = T.state (pl.assign [p]) := by
  have h : (T.conf.overlay pl.portVal).put p.id { pl.portVal p with fpLabel := some pl.label } =
      T.conf.overlay (pl.assign [p]).portVal := by
    rw [Table.put_overlay hp]
    refine Table.overlay_congr fun q _ => ?_
    by_cases hq : q = p
    · subst hq
      simp [Plan.portVal, Plan.assign]
    · simp [Plan.portVal, Plan.assign, hq]
  simp only [Wiring.state, h]
  rfl

theorem labelPorts_new {ps : List (Row RFConfigEntry)} (hps : ∀ p ∈ ps, p ∈ T.conf.rows ∧ pl.lab p = none)
    (hn : ps.Nodup) (hle : ps ≠ [] → pl.label + ps.length ≤ 2048) {link : Link} (hl : link.Claimed) :
    labelPorts (T.state pl) link (ps.map pl.port) =
      .ok (T.state (pl.assign ps), link.addPaths (pl.entries ps), true) := by
  induction ps generalizing pl link with
  | nil =>
    have h : pl.assign [] = pl := by simp [Plan.assign]
    simp only [List.map_nil, labelPorts, h, Plan.entries, Link.addPaths_nil hl]
  | cons p ps ih =>
    obtain ⟨hp, hrest⟩ := List.forall_mem_cons.mp hps
    rw [List.nodup_cons] at hn
    have hle := hle (List.cons_ne_nil _ _)
    have hlt : pl.label < 2048 := by rw [List.length_cons] at hle; omega
    have hlabel : allocateLabel (T.state pl).label = .ok (pl.label, pl.label + 1) :=
      if_neg (Nat.not_le.mpr hlt)
    have hkeep : ∀ q ∈ ps, q ∈ T.conf.rows ∧ (pl.assign [p]).lab q = none := by
      intro q hq
      have hne : q ≠ p := fun e => hn.1 (e ▸ hq)
      simpa [Plan.assign, hne] using hrest q hq
    have hmap : ps.map pl.port = ps.map (pl.assign [p]).port := by
      apply List.map_congr_left
      intro q hq
      have hne : q ≠ p := fun e => hn.1 (e ▸ hq)
      simp [Plan.port, Plan.portVal, Plan.assign, hne]
    have hlen : ps ≠ [] → (pl.assign [p]).label + ps.length ≤ 2048 := fun _ => by
      simp only [Plan.assign, List.length_nil, List.length_cons] at hle ⊢
      omega
    have hnone : (pl.port p).val.fpLabel = none := hp.2
    simp only [List.map_cons, labelPorts, hnone, hlabel]
    have hclaimed : (link.addPaths [(pl.label, p.val.vmPort)]).Claimed := Link.addPaths_claimed _
    have hcall := ih hkeep hn.2 hlen hclaimed
    rw [← hmap, ← Wiring.put_port hp.1, Plan.assign_cons pl hn.1, Link.addPaths_append,
      List.singleton_append, ← Plan.entries_cons pl hn.1] at hcall
    exact hcall

theorem labelPorts_over {ps : List (Row RFConfigEntry)} (hps : ∀ p ∈ ps, pl.lab p = none) (hn : ps.Nodup)
    (hne : ps ≠ []) {st : FpState} (hle : 2048 < st.label + ps.length) (link : Link) :
    labelPorts st link (ps.map pl.port) = .error .overflowError := by
  induction ps generalizing st link with
  | nil => exact absurd rfl hne
  | cons p ps ih =>
    obtain ⟨hp, hrest⟩ := List.forall_mem_cons.mp hps
    have hnone : (pl.port p).val.fpLabel = none := hp
    simp only [List.map_cons, labelPorts, hnone]
    by_cases hlt : st.label < 2048
    · have hlabel : allocateLabel st.label = .ok (st.label, st.label + 1) := if_neg (Nat.not_le.mpr hlt)
      rw [List.length_cons] at hle
      have hrest' : ps ≠ [] := by
        rintro rfl
        rw [List.length_nil] at hle
        omega
      rw [hlabel]
      refine ih hrest (List.nodup_cons.mp hn).2 hrest' ?_ _
      dsimp only
      omega
    · have hlabel : allocateLabel st.label = .error .overflowError := if_pos (Nat.not_lt.mp hlt)
      rw [hlabel]
      rfl

theorem labelPorts_old {p : Row RFConfigEntry} {ps : List (Row RFConfigEntry)} (hp : (pl.lab p).isSome)
    (st : FpState) (link : Link) : labelPorts st link ((p :: ps).map pl.port) = .ok (st, link, false) := by
  obtain ⟨l, hl⟩ := Option.isSome_iff_exists.mp hp
  have : (pl.port p).val.fpLabel = some l := hl
  simp only [List.map_cons, labelPorts, this]

/-! ## The loop over the ISLs -/

/-- The ISLs among these that nobody has found. -/
def Plan.unfound (pl : Plan) (rs : List (Row RFISLConfEntry)) : List (Row RFISLConfEntry) :=
  rs.filter fun r => (pl.paths (.isl r)).isNone

theorem Wiring.put_isl (d : Nat) {r : Row RFISLConfEntry} (hr : r ∈ T.islconf.rows) :
    { T.state pl with islconf := (T.state pl).islconf.put r.id { pl.islVal r with fastPaths := some [] } } =
      T.state (pl.claim d [r]) := by
  have h : (T.islconf.overlay pl.islVal).put r.id { pl.islVal r with fastPaths := some [] } =
      T.islconf.overlay (pl.claim d [r]).islVal := by
    rw [Table.put_overlay hr]
    refine Table.overlay_congr fun q _ => ?_
    by_cases hq : q = r
    · subst hq
      simp [Plan.islVal, Plan.claim]
    · simp [Plan.islVal, Plan.claim, hq]
  have hf : T.fpconf.overlay (pl.claim d [r]).fpVal = T.fpconf.overlay pl.fpVal :=
    Table.overlay_congr fun q _ => by simp [Plan.fpVal, Plan.claim]
  simp only [Wiring.state, h, hf]
  rfl

theorem Plan.claim_cons (pl : Plan) (d : Nat) (r : Row RFISLConfEntry) (fs : List (Row RFISLConfEntry)) :
    (pl.claim d [r]).claim d fs = pl.claim d (r :: fs) := by
  have hp : ((pl.claim d [r]).claim d fs).paths = (pl.claim d (r :: fs)).paths := by
    funext k
    by_cases h : k ∈ fs.map Link.isl
    · simp only [claim, List.map_cons, List.mem_cons, h, or_true, if_true]
    · simp only [claim, List.map_cons, List.map_nil, List.mem_cons, List.not_mem_nil, h, or_false, if_false]
  have hq : ((pl.claim d [r]).claim d fs).par = (pl.claim d (r :: fs)).par := by
    funext k
    by_cases h : k ∈ fs.map Link.isl
    · simp only [claim, List.map_cons, List.mem_cons, h, or_true, if_true]
    · simp only [claim, List.map_cons, List.map_nil, List.mem_cons, List.not_mem_nil, h, or_false, if_false]
  exact Plan.ext rfl rfl hp rfl hq rfl rfl

theorem nextIsls_claim (d : Nat) {rs : List (Row RFISLConfEntry)} (hrs : ∀ r ∈ rs, r ∈ T.islconf.rows)
    (hn : rs.Nodup) :
    nextIsls (T.state pl) T.ct d (rs.map pl.islRow) =
      (T.state (pl.claim d (pl.unfound rs)),
        (pl.unfound rs).map fun r => T.item (pl.claim d (pl.unfound rs)) ⟨.isl r, d⟩) := by
  induction rs generalizing pl with
  | nil =>
    have h : pl.claim d [] = pl := by simp [Plan.claim]
    simp only [List.map_nil, nextIsls, Plan.unfound, List.filter_nil, h]
  | cons r rs ih =>
    obtain ⟨hr, hrest⟩ := List.forall_mem_cons.mp hrs
    rw [List.nodup_cons] at hn
    cases hp : pl.paths (.isl r) with
    | some ps =>
      have hsome : (pl.islRow r).val.fastPaths = some ps := hp
      have hu : pl.unfound (r :: rs) = pl.unfound rs := by simp [Plan.unfound, hp]
      simp only [List.map_cons, nextIsls, hsome, hu]
      exact ih hrest hn.2
    | none =>
      have hne : ∀ q ∈ rs, q ≠ r := fun q hq e => hn.1 (e ▸ hq)
      have hnone : (pl.islRow r).val.fastPaths = none := hp
      have hmap : rs.map pl.islRow = rs.map (pl.claim d [r]).islRow := by
        apply List.map_congr_left
        intro q hq
        simp [Plan.islRow, Plan.islVal, Plan.claim, hne q hq]
      have hrs : (pl.claim d [r]).unfound rs = pl.unfound rs := by
        apply List.filter_congr
        intro q hq
        simp [Plan.claim, hne q hq]
      have hu : pl.unfound (r :: rs) = r :: pl.unfound rs := by simp [Plan.unfound, hp]
      have hcall := @ih (pl.claim d [r]) hrest hn.2
      rw [hrs, Plan.claim_cons, ← hmap, ← Wiring.put_isl d hr, ← hu] at hcall
      have hitem : (⟨T.ct, (d : Int), .isl ⟨r.id, { pl.islVal r with fastPaths := some [] }⟩⟩ : CheckItem) =
          T.item (pl.claim d (pl.unfound (r :: rs))) ⟨.isl r, d⟩ := by
        simp [Wiring.item, Plan.link, Plan.islRow, Plan.islVal, Plan.claim, hu]
      simp only [List.map_cons, nextIsls, hnone]
      rw [show (pl.islRow r).id = r.id from rfl, show (pl.islRow r).val = pl.islVal r from rfl, hcall, hitem]
      have hlist := congrArg
        (List.map fun q => T.item (pl.claim d (pl.unfound (r :: rs))) ⟨.isl q, d⟩) hu
      exact Prod.ext rfl hlist.symm

/-! ## One round -/

theorem Wiring.myDpid_item {j : Job} (ha : j.link.Above j.parent) : (T.item pl j).myDpid = .ok j.far := by
  obtain ⟨k, m⟩ := j
  cases k with
  | fp r =>
    obtain rfl : m = -1 := ha
    have h : (-1 : Int) ≠ (r.val.dpId : Int) := by omega
    exact if_neg h
  | isl r =>
    have h : (T.item pl ⟨.isl r, m⟩).myDpid =
        if m = (r.val.dpId : Int) then .ok r.val.remId else .ok r.val.dpId := rfl
    rw [h, Job.far, Link.far]
    split <;> rfl

/-- What a round leaves that goes through: labels for the ports `ps`, and the new ISLs `fs`. -/
def Plan.settle (pl : Plan) (j : Job) (ps : List (Row RFConfigEntry))
    (fs : List (Row RFISLConfEntry)) : Plan :=
  ((pl.assign ps).write j.link (some (pl.carried j.link ++ pl.entries ps)) (some j.parent)).claim j.far fs

theorem Plan.link_settled {k : Link} (hp : (pl.paths k).isSome) (ps : List (Row RFConfigEntry))
    (m : Option Int) :
    ((pl.link k).addPaths (pl.entries ps)).setMaster m =
      ((pl.assign ps).write k (some (pl.carried k ++ pl.entries ps)) m).link k := by
  cases k with
  | fp r => simp [link, Link.addPaths, Link.setMaster, fpVal, write, assign, carried]
  | isl r => simp [link, Link.addPaths, Link.setMaster, islRow, islVal, write, assign, carried]

/-- No label has gone to anything but a port. -/
def Wiring.Room (T : Wiring) (pl : Plan) : Prop :=
  ∀ ps : List (Row RFConfigEntry), ps.Nodup → (∀ p ∈ ps, p ∈ T.conf.rows ∧ pl.lab p = none) →
    pl.label + ps.length ≤ firstLabel + T.conf.rows.length

theorem visit_new (o : Order) {j : Job} (hk : T.Has j.link) (ha : j.link.Above j.parent)
    (hp : (pl.paths j.link).isSome)
    (hnew : ∀ p ∈ T.conf.rows, p.val.dpId = j.far → pl.lab p = none) :
    ∃ ps rs, ps.Nodup ∧ (∀ p, p ∈ ps ↔ p ∈ T.conf.rows ∧ p.val.dpId = j.far) ∧
      rs.Nodup ∧ (∀ r, r ∈ rs ↔ r ∈ T.islconf.rows ∧ (Link.isl r).Attached j.far) ∧
      (o.ByKeys → rs = T.islsAt o j.far) ∧
      ((ps ≠ [] → pl.label + ps.length ≤ 2048) →
        visit o (T.state pl) (T.item pl j) = .ok (T.state (pl.settle j ps (pl.unfound rs)),
          T.item (pl.settle j ps (pl.unfound rs)) j,
          (pl.unfound rs).map fun r => T.item (pl.settle j ps (pl.unfound rs)) ⟨.isl r, j.far⟩)) ∧
      (ps ≠ [] → 2048 < pl.label + ps.length →
        visit o (T.state pl) (T.item pl j) = .error .overflowError) := by
  obtain ⟨ps, hports, hpn, hpm⟩ := T.getConfigForDp_state o pl j.far
  have hfree : ∀ p ∈ ps, p ∈ T.conf.rows ∧ pl.lab p = none := fun p h =>
    ⟨((hpm p).mp h).1, hnew p ((hpm p).mp h).1 ((hpm p).mp h).2⟩
  -- The plan after the link is written back.
  let mid := (pl.assign ps).write j.link (some (pl.carried j.link ++ pl.entries ps)) (some j.parent)
  obtain ⟨rs, hisls, hrn, hrm, hro⟩ := T.getEntriesByDpid_state o mid j.far
  have hset : (T.state (pl.assign ps)).setLink (mid.link j.link) = T.state mid :=
    Wiring.setLink_state hk _ _ _
  have hunfound : mid.unfound rs = pl.unfound rs := by
    apply List.filter_congr
    intro r _
    by_cases h : Link.isl r = j.link
    · rw [h, Option.isNone_eq_false_iff.mpr hp]
      simp [mid, Plan.write]
    · simp [mid, Plan.write, h, Plan.assign]
  have hnext := @nextIsls_claim T mid j.far _ (fun r h => ((hrm r).mp h).1) hrn
  rw [hunfound] at hnext
  have hitem : mid.link j.link = (mid.claim j.far (pl.unfound rs)).link j.link := by
    have hnot : j.link ∉ (pl.unfound rs).map Link.isl := by
      intro hm
      obtain ⟨r, hr, he⟩ := List.mem_map.mp hm
      have := (List.mem_filter.mp hr).2
      rw [he, Option.isNone_iff_eq_none] at this
      simp [this] at hp
    generalize j.link = k at hnot ⊢
    cases k with
    | fp r => simp [Plan.link, Plan.fpVal, Plan.claim]
    | isl r =>
      simp only [Plan.link, Plan.islRow, Plan.islVal, Plan.claim]
      rw [if_neg hnot]
  refine ⟨ps, rs, hpn, hpm, hrn, hrm, hro, fun hle => ?_, fun hne hover => ?_⟩
  · have hlabel := labelPorts_new hfree hpn hle (pl.link_claimed hp)
    rw [visit, Wiring.myDpid_item ha]
    simp only [bind, Except.bind]
    rw [show (T.item pl j).ctId = T.ct from rfl, hports,
      show (T.item pl j).link = pl.link j.link from rfl, hlabel]
    simp only [if_true]
    rw [show (T.item pl j).parentDpid = j.parent from rfl, Plan.link_settled hp, hset, hisls, hnext]
    simp only [pure, Except.pure]
    rw [hitem]
    rfl
  · have hfull := @labelPorts_over pl ps (fun p hp => (hfree p hp).2) hpn hne (T.state pl)
      hover (pl.link j.link)
    rw [visit, Wiring.myDpid_item ha]
    simp only [bind, Except.bind]
    rw [show (T.item pl j).ctId = T.ct from rfl, hports,
      show (T.item pl j).link = pl.link j.link from rfl, hfull]

theorem visit_old (o : Order) {j : Job} (hk : T.Has j.link) (ha : j.link.Above j.parent)
    (hm : pl.master j.link = none)
    (hold : ∀ p ∈ T.conf.rows, p.val.dpId = j.far → (pl.lab p).isSome)
    (hports : ∃ p ∈ T.conf.rows, p.val.dpId = j.far) :
    visit o (T.state pl) (T.item pl j) = .ok (T.state pl, T.item pl j, []) := by
  obtain ⟨ps, hget, -, hpm⟩ := T.getConfigForDp_state o pl j.far
  cases ps with
  | nil =>
    obtain ⟨p, hp, hd⟩ := hports
    exact absurd ((hpm p).mpr ⟨hp, hd⟩) List.not_mem_nil
  | cons p ps =>
    obtain ⟨hpc, hpd⟩ := (hpm p).mp List.mem_cons_self
    have hloop := @labelPorts_old pl p ps (hold p hpc hpd) (T.state pl) (pl.link j.link)
    have hw : pl.write j.link (pl.paths j.link) none = pl := by
      rw [← hm]
      simp [Plan.write]
    have hlink : (pl.link j.link).setMaster none = pl.link j.link := by
      rw [← hm]
      generalize j.link = k
      cases k <;> rfl
    have hset := Wiring.setLink_state hk pl (pl.paths j.link) none
    rw [hw] at hset
    rw [visit, Wiring.myDpid_item ha]
    simp only [bind, Except.bind]
    rw [show (T.item pl j).ctId = T.ct from rfl, hget, show (T.item pl j).link = pl.link j.link from rfl,
      hloop]
    simp only [Bool.false_eq_true, if_false, hlink, hset, pure, Except.pure]
    rfl

end RouteFlow
