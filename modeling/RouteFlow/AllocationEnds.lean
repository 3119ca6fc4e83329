import RouteFlow.Allocation

/-!
# The label allocation ends

For any tables: several controllers, ISLs from a switch to itself, links that were marked before. Each level
of the recursion marks an ISL, and the links that a level finds come in the order of the links they were
found from, so that the iterator over `check_set` is never at its end too early.
-/

namespace RouteFlow

open Store

/-- The call returns something with `P`, or it fails for want of labels or in the format of the report. -/
def Ends {α : Type} (P : α → Prop) : Except PyErr α → Prop
  | .ok a => P a
  | .error e => e = .overflowError ∨ e = .typeError

theorem Ends.bind {α β : Type} {P : α → Prop} {Q : β → Prop} {x : Except PyErr α}
    {f : α → Except PyErr β} (hx : Ends P x) (hf : ∀ a, P a → Ends Q (f a)) : Ends Q (x >>= f) := by
  cases x with
  | error e => exact hx
  | ok a => exact hf a hx

theorem Ends.mono {α : Type} {P Q : α → Prop} {x : Except PyErr α} (hx : Ends P x) (h : ∀ a, P a → Q a) :
    Ends Q x := by
  cases x with
  | error e => exact hx
  | ok a => exact h a hx

/-! ## The ISLs without a list of labels -/

/-- How many ISLs have no list of labels yet. -/
def FpState.unclaimed (st : FpState) : Nat := st.islconf.rows.countP fun r => r.val.fastPaths.isNone

theorem unclaimed_put_le {t : RFISLConf} {v : RFISLConfEntry} (hv : v.fastPaths.isSome) (i : Nat) :
    (t.put i v).rows.countP (fun r => r.val.fastPaths.isNone) ≤
      t.rows.countP fun r => r.val.fastPaths.isNone := by
  rw [Table.put, List.countP_map]
  refine List.countP_mono_left fun r _ hr => ?_
  rw [Function.comp_apply] at hr
  split at hr
  · have hnone : v.fastPaths = none := Option.isNone_iff_eq_none.mp hr
    simp [hnone] at hv
  · exact hr

theorem unclaimed_put_lt {t : RFISLConf} {v : RFISLConfEntry} (hv : v.fastPaths.isSome)
    {r : Row RFISLConfEntry} (hr : r ∈ t.rows) (hn : r.val.fastPaths = none) :
    (t.put r.id v).rows.countP (fun r => r.val.fastPaths.isNone) <
      t.rows.countP fun r => r.val.fastPaths.isNone := by
  obtain ⟨l₁, l₂, hl⟩ := List.append_of_mem hr
  have hv' : v.fastPaths.isNone = false := by simpa using hv
  rw [Table.put_rows_split hl, hl, List.countP_append, List.countP_append, List.countP_cons, List.countP_cons]
  simp only [hn, hv', Option.isNone_none, if_true, Bool.false_eq_true, if_false]
  omega

theorem unclaimed_setLink {k : Link} (hk : k.Claimed) (st : FpState) :
    (st.setLink k).unclaimed ≤ st.unclaimed := by
  cases k with
  | fp r => exact Nat.le_refl _
  | isl r => exact unclaimed_put_le hk r.id

/-! ## One round -/

/-- A fast path link is looked at from dp0, and an ISL has a list for its labels. -/
def CheckItem.Sound (item : CheckItem) : Prop :=
  item.link.Claimed ∧ (item.link.remId = none → item.parentDpid = -1)

@[simp] theorem Link.touches_addPaths (k : Link) (ps : List (Nat × Nat)) :
    (k.addPaths ps).touches = k.touches := by
  cases k <;> rfl

@[simp] theorem Link.touches_setMaster (k : Link) (m : Option Int) : (k.setMaster m).touches = k.touches := by
  cases k <;> rfl

theorem CheckItem.Sound.myDpid {item : CheckItem} (h : item.Sound) :
    ∃ my : Nat, item.myDpid = .ok my ∧ item.link.touches my = true := by
  unfold CheckItem.myDpid
  split
  · rename_i hp
    cases hr : item.link.remId with
    | none =>
      have := h.2 hr
      omega
    | some r => exact ⟨r, rfl, by simp [Link.touches, hr]⟩
  · exact ⟨item.link.dpId, rfl, by simp [Link.touches]⟩

theorem labelPorts_ends (st : FpState) {link : Link} (hl : link.Claimed) (ports : List (Row RFConfigEntry)) :
    Ends (fun x => x.1.islconf = st.islconf ∧ x.2.1.Claimed ∧ x.2.1.touches = link.touches ∧
      x.2.1.remId = link.remId ∧ x.2.1.dpId = link.dpId) (labelPorts st link ports) := by
  induction ports generalizing st link with
  | nil => exact ⟨rfl, hl, rfl, rfl, rfl⟩
  | cons port ports ih =>
    rw [labelPorts]
    split
    · exact ⟨rfl, hl, rfl, rfl, rfl⟩
    · refine Ends.bind (P := fun _ => True) ?_ fun a _ => ?_
      · unfold allocateLabel
        split
        · exact Or.inl rfl
        · trivial
      · refine (ih _ (Link.addPaths_claimed _)).mono fun x hx => ?_
        obtain ⟨h₁, h₂, h₃, h₄, h₅⟩ := hx
        refine ⟨h₁, h₂, h₃.trans (Link.touches_addPaths ..), h₄.trans ?_, h₅.trans ?_⟩
        · cases link <;> rfl
        · cases link <;> rfl

theorem nextIsls_le (ct my : Nat) (st : FpState) (rs : List (Row RFISLConfEntry)) :
    (nextIsls st ct my rs).1.unclaimed ≤ st.unclaimed := by
  induction rs generalizing st with
  | nil => exact Nat.le_refl _
  | cons r rs ih =>
    rw [nextIsls]
    split
    · exact ih st
    · exact (ih _).trans (unclaimed_put_le rfl r.id)

theorem nextIsls_lt (ct my : Nat) {st : FpState} {rs : List (Row RFISLConfEntry)}
    (hrs : ∀ r ∈ rs, r ∈ st.islconf.rows) (hne : (nextIsls st ct my rs).2 ≠ []) :
    (nextIsls st ct my rs).1.unclaimed < st.unclaimed := by
  induction rs with
  | nil => exact absurd rfl hne
  | cons r rs ih =>
    obtain ⟨hr, hrest⟩ := List.forall_mem_cons.mp hrs
    rw [nextIsls] at hne ⊢
    split
    · rename_i hs
      rw [hs] at hne
      exact ih hrest hne
    · rename_i hn
      exact (nextIsls_le ct my _ rs).trans_lt (unclaimed_put_lt rfl hr hn)

theorem nextIsls_items (ct my : Nat) (st : FpState) (rs : List (Row RFISLConfEntry)) :
    ∀ n ∈ (nextIsls st ct my rs).2, n.Sound ∧ n.parentDpid = my := by
  induction rs generalizing st with
  | nil => simp [nextIsls]
  | cons r rs ih =>
    rw [nextIsls]
    split
    · exact ih st
    · exact List.forall_mem_cons.mpr ⟨⟨⟨rfl, fun h => by simp [Link.remId] at h⟩, rfl⟩, ih _⟩

/-- What a round leaves: the link with its parent, and new ISLs that are found from the other end of it. -/
structure Rounded (st : FpState) (item : CheckItem) (st' : FpState) (item' : CheckItem)
    (next : List CheckItem) :
    Prop where
  le : st'.unclaimed ≤ st.unclaimed
  lt : next ≠ [] → st'.unclaimed < st.unclaimed
  parent : item'.parentDpid = item.parentDpid
  report : item'.link.remId = none → item'.link.fpMaster ≠ some (item'.link.dpId : Int)
  served : ∀ n ∈ next, n.Sound ∧ item'.link.touches n.parentDpid = true

theorem visit_ends (o : Order) (st : FpState) {item : CheckItem} (h : item.Sound) :
    Ends (fun x => Rounded st item x.1 x.2.1 x.2.2) (visit o st item) := by
  obtain ⟨my, hmy, htouch⟩ := h.myDpid
  rw [visit, hmy]
  refine (labelPorts_ends st h.1 _).bind ?_
  rintro ⟨st₁, link, nobreak⟩ ⟨hisl, hclaimed, htouches, hrem, hdp⟩
  dsimp only at hisl hclaimed htouches hrem hdp ⊢
  have hkeep : ∀ m, (link.setMaster m).Claimed ∧ (link.setMaster m).remId = item.link.remId ∧
      (link.setMaster m).fpMaster = m := fun m => by
    rw [← hrem]
    cases link with
    | fp r => exact ⟨trivial, rfl, rfl⟩
    | isl r => exact ⟨hclaimed, rfl, rfl⟩
  have hle : ∀ m, (st₁.setLink (link.setMaster m)).unclaimed ≤ st.unclaimed := fun m => by
    refine (unclaimed_setLink (hkeep m).1 st₁).trans (Nat.le_of_eq ?_)
    rw [FpState.unclaimed, hisl, FpState.unclaimed]
  split
  · refine ⟨(nextIsls_le ..).trans (hle _), fun hne => (nextIsls_lt _ _ ?_ hne).trans_le (hle _), rfl, ?_, ?_⟩
    · intro r hr
      rcases List.mem_append.mp hr with hr | hr <;> exact ((Table.mem_find ..).mp hr).1
    · intro hr hm
      rw [(hkeep _).2.1] at hr
      rw [(hkeep _).2.2, h.2 hr, Option.some.injEq] at hm
      omega
    · intro n hn
      obtain ⟨hs, hp⟩ := nextIsls_items _ _ _ _ n hn
      refine ⟨hs, ?_⟩
      rw [hp, Link.touches_setMaster, htouches]
      exact htouch
  · refine ⟨hle none, fun hne => absurd rfl hne, rfl, fun _ hm => ?_, by simp⟩
    rw [(hkeep none).2.2] at hm
    cases hm

/-! ## The loop over check_set -/

/-- The parents `ds` come in the order of the links, each at a link that touches it. -/
inductive Served : List (Int → Bool) → List Int → Prop
  | done {fs : List (Int → Bool)} : Served fs []
  | here {f : Int → Bool} {fs : List (Int → Bool)} {d : Int} {ds : List Int} :
      f d = true → Served (f :: fs) ds → Served (f :: fs) (d :: ds)
  | later {f : Int → Bool} {fs : List (Int → Bool)} {ds : List Int} : Served fs ds → Served (f :: fs) ds

theorem Served.append {f : Int → Bool} {fs : List (Int → Bool)} {ds ds' : List Int} (h : ∀ d ∈ ds, f d = true)
    (h' : Served fs ds') : Served (f :: fs) (ds ++ ds') := by
  induction ds with
  | nil => exact .later h'
  | cons d ds ih =>
    obtain ⟨hd, hrest⟩ := List.forall_mem_cons.mp h
    exact .here hd (ih hrest)

theorem Served.tail {fs : List (Int → Bool)} {d : Int} {ds : List Int} (h : Served fs (d :: ds)) :
    Served fs ds := by
  generalize hl : d :: ds = l at h
  induction h with
  | done => cases hl
  | here _ h =>
    obtain ⟨-, rfl⟩ := List.cons.inj hl
    exact h
  | later _ ih => exact .later (ih hl)

/-- The links of a level, as the iterator sees them. -/
def ends (items : List CheckItem) : List (Int → Bool) := items.map fun x => x.link.touches

/-- What a level leaves on the way down. -/
structure Levelled (st : FpState) (items : List CheckItem) (st' : FpState) (checked next : List CheckItem) :
    Prop where
  le : st'.unclaimed ≤ st.unclaimed
  lt : next ≠ [] → st'.unclaimed < st.unclaimed
  parents : checked.map CheckItem.parentDpid = items.map CheckItem.parentDpid
  report : ∀ x ∈ checked, x.link.remId = none → x.link.fpMaster ≠ some (x.link.dpId : Int)
  sound : ∀ n ∈ next, n.Sound
  served : Served (ends checked) (next.map CheckItem.parentDpid)

theorem visitAll_ends (o : Order) (st : FpState) {items : List CheckItem} (h : ∀ x ∈ items, x.Sound) :
    Ends (fun x => Levelled st items x.1 x.2.1 x.2.2) (visitAll o st items) := by
  induction items generalizing st with
  | nil => exact ⟨Nat.le_refl _, fun hne => absurd rfl hne, rfl, by simp, by simp, .done⟩
  | cons item items ih =>
    obtain ⟨hitem, hrest⟩ := List.forall_mem_cons.mp h
    refine (visit_ends o st hitem).bind ?_
    rintro ⟨st₁, item₁, next₁⟩ hr
    refine (ih st₁ hrest).bind ?_
    rintro ⟨st₂, rest, more⟩ hl
    have hnext : ∀ d ∈ next₁.map CheckItem.parentDpid, item₁.link.touches d = true := by
      intro d hd
      obtain ⟨n, hn, rfl⟩ := List.mem_map.mp hd
      exact (hr.served n hn).2
    refine ⟨hl.le.trans hr.le, fun hne => ?_, ?_, List.forall_mem_cons.mpr ⟨hr.report, hl.report⟩,
      List.forall_mem_append.mpr ⟨fun n hn => (hr.served n hn).1, hl.sound⟩, ?_⟩
    · by_cases h₁ : next₁ = []
      · refine (hl.lt ?_).trans_le hr.le
        rwa [h₁, List.nil_append] at hne
      · exact hl.le.trans_lt (hr.lt h₁)
    · rw [List.map_cons, List.map_cons, hr.parent, hl.parents]
    · rw [List.map_append]
      exact Served.append hnext hl.served

/-! ## The labels on the way up -/

theorem seek_ends {d : Int} {ds : List Int} (done : List CheckItem) {x : CheckItem} {rest : List CheckItem}
    (h : Served (ends (x :: rest)) (d :: ds)) :
    ∃ done' x' rest', seek d done x rest = .ok (done', x', rest') ∧
      done' ++ x' :: rest' = done ++ x :: rest ∧ Served (ends (x' :: rest')) ds := by
  induction rest generalizing done x with
  | nil =>
    have hx : x.link.touches d = true := by
      cases h with
      | here hx _ => exact hx
      | later h => cases h
    exact ⟨done, x, [], seek_here hx done [], rfl, h.tail⟩
  | cons y rest ih =>
    by_cases hx : x.link.touches d = true
    · exact ⟨done, x, y :: rest, seek_here hx done _, rfl, h.tail⟩
    · have hlater : Served (ends (y :: rest)) (d :: ds) := by
        cases h with
        | here hd _ => exact absurd hd hx
        | later h => exact h
      obtain ⟨done', x', rest', hseek, happ, hs⟩ := ih (done ++ [x]) hlater
      refine ⟨done', x', rest', ?_, by rw [happ, List.append_assoc]; rfl, hs⟩
      rw [seek, if_neg hx, hseek]

theorem pullUp_ends (st : FpState) (done : List CheckItem) {x : CheckItem} {rest ns : List CheckItem}
    (h : Served (ends (x :: rest)) (ns.map CheckItem.parentDpid))
    (hrep : ∀ y ∈ done ++ x :: rest, y.link.remId = none → y.link.fpMaster ≠ some (y.link.dpId : Int)) :
    ∃ st' items', pullUp st done x rest ns = .ok (st', items') ∧
      items'.map CheckItem.parentDpid = (done ++ x :: rest).map CheckItem.parentDpid ∧
      ∀ y ∈ items', y.link.remId = none → y.link.fpMaster ≠ some (y.link.dpId : Int) := by
  induction ns generalizing st done x rest with
  | nil => exact ⟨st, done ++ x :: rest, rfl, rfl, hrep⟩
  | cons n ns ih =>
    obtain ⟨done', x', rest', hseek, happ, hs⟩ := seek_ends done h
    rw [← happ] at hrep
    obtain ⟨hdone, hx, hrest⟩ : (∀ y ∈ done', _) ∧ _ ∧ ∀ y ∈ rest', _ := by
      simpa only [List.forall_mem_append, List.forall_mem_cons] using hrep
    have hs' : Served (ends ({ x' with link := x'.link.addPaths n.link.fastPaths } :: rest'))
        (ns.map CheckItem.parentDpid) := by
      simpa only [ends, List.map_cons, Link.touches_addPaths] using hs
    have hx' : (x'.link.addPaths n.link.fastPaths).remId = none →
        (x'.link.addPaths n.link.fastPaths).fpMaster ≠
          some ((x'.link.addPaths n.link.fastPaths).dpId : Int) := by
      cases hl : x'.link with
      | fp r =>
        rw [hl] at hx
        exact hx
      | isl r => exact fun hr => by simp [Link.addPaths, Link.remId] at hr
    obtain ⟨st', items', hpull, hpar, hrep'⟩ := ih (st.setLink (x'.link.addPaths n.link.fastPaths)) done' hs'
      (List.forall_mem_append.mpr ⟨hdone, List.forall_mem_cons.mpr ⟨hx', hrest⟩⟩)
    refine ⟨st', items', ?_, ?_, hrep'⟩
    · rw [pullUp, hseek]
      exact hpull
    · rw [hpar, ← happ, List.map_append, List.map_append]
      rfl

theorem reportLinks_ends {items : List CheckItem}
    (h : ∀ x ∈ items, x.link.remId = none → x.link.fpMaster ≠ some (x.link.dpId : Int)) :
    Ends (fun _ => True) (reportLinks items) := by
  induction items with
  | nil => trivial
  | cons x items ih =>
    obtain ⟨hx, hrest⟩ := List.forall_mem_cons.mp h
    rw [reportLinks]
    split
    · exact ih hrest
    · split
      · exact Or.inr rfl
      · rename_i m hm
        rw [if_neg]
        · exact ih hrest
        · rintro ⟨hd, hr⟩
          exact hx hr (by rw [hm, hd])

/-! ## The recursion -/

theorem shortestRecursive_ends (o : Order) {depth : Nat} {st : FpState} {items : List CheckItem}
    (hne : items ≠ []) (h : ∀ x ∈ items, x.Sound) (hdepth : st.unclaimed < depth) :
    Ends (fun x => x.2.map CheckItem.parentDpid = items.map CheckItem.parentDpid)
      (shortestRecursive o depth st items) := by
  induction depth generalizing st items with
  | zero => exact absurd hdepth (Nat.not_lt_zero _)
  | succ depth ih =>
    rw [shortestRecursive_succ]
    refine (visitAll_ends o st h).bind ?_
    rintro ⟨st₁, checked, next⟩ hl
    have hlower : Ends (fun x => x.2.map CheckItem.parentDpid = next.map CheckItem.parentDpid)
        (if next = [] then .ok (st₁, []) else shortestRecursive o depth st₁ next) := by
      split
      · rename_i hnil
        rw [hnil]
        rfl
      · rename_i hnext
        have := hl.lt hnext
        exact ih hnext hl.sound (by dsimp only at this ⊢; omega)
    refine hlower.bind ?_
    rintro ⟨st₂, next'⟩ hpar
    cases checked with
    | nil =>
      have := hl.parents
      rw [List.map_nil, eq_comm, List.map_eq_nil_iff] at this
      exact absurd this hne
    | cons x rest =>
      have hserved := hl.served
      rw [← hpar] at hserved
      obtain ⟨st₃, checked', hpull, hpar', hrep⟩ := pullUp_ends st₂ [] hserved hl.report
      dsimp only
      rw [hpull]
      refine (reportLinks_ends hrep).bind fun _ _ => ?_
      exact hpar'.trans hl.parents

/-- Any two bounds on the depth that cover the ISLs without labels give the same result. -/
theorem shortestRecursive_depth (o : Order) {a b : Nat} {st : FpState} {items : List CheckItem}
    (h : ∀ x ∈ items, x.Sound) (ha : st.unclaimed < a) (hb : st.unclaimed < b) :
    shortestRecursive o a st items = shortestRecursive o b st items := by
  induction a generalizing b st items with
  | zero => exact absurd ha (Nat.not_lt_zero _)
  | succ a ih =>
    cases b with
    | zero => exact absurd hb (Nat.not_lt_zero _)
    | succ b =>
      rw [shortestRecursive_succ, shortestRecursive_succ]
      have hends := visitAll_ends o st h
      cases hall : visitAll o st items with
      | error e => rfl
      | ok x =>
        rw [hall] at hends
        have hl : Levelled st items x.1 x.2.1 x.2.2 := hends
        have hsame : (if x.2.2 = [] then (.ok (x.1, []) : Except PyErr _)
          else shortestRecursive o a x.1 x.2.2) =
            if x.2.2 = [] then .ok (x.1, []) else shortestRecursive o b x.1 x.2.2 := by
          split
          · rfl
          · rename_i hnext
            have := hl.lt hnext
            exact ih hl.sound (by omega) (by omega)
        simp only [Except.bind, hsame]

/-- `check_set` of the first call. -/
def fpItems (o : Order) (st : FpState) : List CheckItem :=
  (RFFPConf.getEntriesAll o st.fpconf).map fun r => ⟨r.val.ctId, -1, .fp r⟩

theorem fpItems_sound (o : Order) (st : FpState) : ∀ x ∈ fpItems o st, x.Sound := by
  intro x hx
  obtain ⟨r, -, rfl⟩ := List.mem_map.mp hx
  exact ⟨trivial, fun _ => rfl⟩

/-- Whatever the tables are and in whatever order they return their rows: one level for each ISL is enough,
more change nothing, and the iterator over `check_set` never ends too early. -/
theorem allocation_ends (o : Order) (st : FpState) :
    (∀ e, fpAllocateLabels o st = .error e → e = .overflowError ∨ e = .typeError) ∧
    ∀ depth, st.islconf.rows.length < depth →
      shortestRecursive o depth st (fpItems o st) =
        shortestRecursive o (st.islconf.rows.length + 1) st (fpItems o st) := by
  have hle : st.unclaimed ≤ st.islconf.rows.length := List.countP_le_length
  refine ⟨fun e he => ?_, fun depth hdepth => ?_⟩
  · have hends : Ends (fun _ => True) (fpAllocateLabels o st) := by
      unfold fpAllocateLabels
      split
      · trivial
      · rename_i fplinks hne
        refine (shortestRecursive_ends o ?_ (fpItems_sound o st) (Nat.lt_succ_of_le hle)).bind
          fun _ _ => trivial
        exact fun hnil => hne (List.map_eq_nil_iff.mp hnil)
    rw [he] at hends
    exact hends
  · exact shortestRecursive_depth o (fpItems_sound o st) (by omega) (by omega)

end RouteFlow
